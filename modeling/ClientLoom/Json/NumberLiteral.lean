import ClientLoom.Json.Basic

/-!
# Numbers in JSON text

A literal is kept as its digits.  Its value is an integer when it has neither fraction nor exponent
and fits in 64 bits.  Otherwise it is a double: the leading digits that fit in 64 bits, rounded,
then scaled by one rounded power of ten.  Minus zero is a double.
-/

namespace ClientLoom.Json

/-- The parts of a number as it is written. -/
structure NumberLiteral where
  negative : Bool := false
  whole : List Nat := []
  fraction : List Nat := []
  hasFraction : Bool := false
  exponentNegative : Bool := false
  exponent : List Nat := []
  hasExponent : Bool := false

/-- The largest unsigned number of 64 bits. -/
def wordLimit : Nat := Nat.pow 2 64 - 1

/-- The leading digits that fit in a word after `start`, and the digits that are left. -/
def leadingDigits (start : Nat) : List Nat → Nat × List Nat
  | [] => (start, [])
  | d :: rest =>
    if wordLimit < start * 10 + d then (start, d :: rest) else leadingDigits (start * 10 + d) rest

/-- The number that digits denote. -/
def digitsValue (digits : List Nat) : Nat :=
  digits.foldl (fun n d => n * 10 + d) 0

/-- The largest power of ten that is a double. -/
def largestPower : Nat := 308

/-- Divides a double below `2 ^ 64` by `10 ^ places`, in two steps when the power is no double; two
such steps reach zero. -/
def shrink (value : Number.Double) (places : Nat) : Option Number.Double :=
  if places ≤ largestPower then value.div? (.tenPower places)
  else
    (value.div? (.tenPower largestPower)).bind fun smaller =>
      if places ≤ 2 * largestPower then smaller.div? (.tenPower (places - largestPower))
      else some (.zero false)

/-- The double of leading digits and a power of ten; none when it is out of range. -/
def scaled (significand : Nat) (exponent : Int) : Option Number.Double :=
  match Number.Double.ofRatio false significand 1 with
  | none => none
  | some value =>
    if 0 ≤ exponent then
      if exponent ≤ largestPower then value.mul? (.tenPower exponent.toNat)
      else if significand = 0 then some value
      else none
    else shrink value (-exponent).toNat

namespace NumberLiteral

/-- The absolute value as a double; none when it is out of range.  An exponent beyond 31 bits is
out of range unless it makes the number vanish. -/
def magnitude (lit : NumberLiteral) : Option Number.Double :=
  let (significand, dropped) := leadingDigits 0 lit.whole
  let (significand, ignored) := leadingDigits significand lit.fraction
  let places : Int := (dropped.length : Int) - ((lit.fraction.length - ignored.length : Nat) : Int)
  let exponent := digitsValue lit.exponent
  if Nat.pow 2 31 ≤ exponent then
    if significand ≠ 0 ∧ !lit.exponentNegative then none else some (.zero false)
  else if lit.exponentNegative then scaled significand (places - exponent)
  else scaled significand (places + exponent)

/-- The value of a literal; none when it is out of range. -/
def value? (lit : NumberLiteral) : Option JsonNumber :=
  let n := digitsValue lit.whole
  let plain := !lit.hasFraction && !lit.hasExponent
  if plain && !lit.negative && n ≤ wordLimit then some (.integer n)
  else if plain && lit.negative && 0 < n && n ≤ Nat.pow 2 63 then some (.integer (-n))
  else lit.magnitude.map fun d => .double (if lit.negative then d.neg else d)

end NumberLiteral

end ClientLoom.Json
