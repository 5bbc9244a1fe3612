/-!
# Finite doubles

A finite double is a sign, an integer mantissa and a power of two, all exact.  Every operation is
an exact fraction rounded once: to the nearest double, and to the even mantissa on a tie.
-/

namespace ClientLoom.Number

/-- The finite double with the absolute value `mantissa * 2 ^ exponent`.  The mantissa has at most
53 bits, and fewer than 53 only at the least exponent. -/
structure Double where
  negative : Bool
  mantissa : Nat
  exponent : Int
deriving DecidableEq

/-- The exponent of the least positive double. -/
def leastExponent : Int := -1074

/-- The exponent of the largest doubles. -/
def greatestExponent : Int := 971

/-- The integer nearest to `num / den`, the even one on a tie. -/
def roundQuotient (num den : Nat) : Nat :=
  let q := num / den
  let r := num % den
  if 2 * r < den then q else if den < 2 * r then q + 1 else q + q % 2

/-- The fraction `num / den` divided by `2 ^ e`. -/
def scaleDown (num den : Nat) (e : Int) : Nat × Nat :=
  if 0 ≤ e then (num, den * Nat.pow 2 e.toNat) else (num * Nat.pow 2 (-e).toNat, den)

/-- The largest `k` with `2 ^ k ≤ num / den`, for a positive fraction. -/
def floorLogTwo (num den : Nat) : Int :=
  let k : Int := (Nat.log2 num : Int) - (Nat.log2 den : Int)
  let (n, d) := scaleDown num den k
  if d ≤ n then k else k - 1

namespace Double

/-- A zero of either sign. -/
def zero (negative : Bool) : Double := ⟨negative, 0, leastExponent⟩

/-- The double nearest to a fraction; none when it lies beyond the largest double. -/
def ofRatio (negative : Bool) (num den : Nat) : Option Double :=
  if num = 0 then some (zero negative)
  else
    let e := max (floorLogTwo num den - 52) leastExponent
    let (n, d) := scaleDown num den e
    let m := roundQuotient n d
    let (m, e) := if m = Nat.pow 2 53 then (Nat.pow 2 52, e + 1) else (m, e)
    if greatestExponent < e then none else some ⟨negative, m, e⟩

/-- The double nearest to `digits * 10 ^ exponent`; none when it lies beyond the largest double. -/
def ofDecimal (negative : Bool) (digits : Nat) (exponent : Int) : Option Double :=
  let size : Int := exponent + (Nat.toDigits 10 digits).length
  if digits = 0 ∨ size < -330 then some (zero negative)
  else if 310 ≤ size then none
  else if 0 ≤ exponent then ofRatio negative (digits * Nat.pow 10 exponent.toNat) 1
  else ofRatio negative digits (Nat.pow 10 (-exponent).toNat)

/-- The sign turned round. -/
def neg (x : Double) : Double := { x with negative := !x.negative }

/-- The rounded product; none on overflow. -/
def mul? (x y : Double) : Option Double :=
  let (n, d) := scaleDown (x.mantissa * y.mantissa) 1 (-(x.exponent + y.exponent))
  ofRatio (x.negative != y.negative) n d

/-- The rounded quotient by a double that is not zero; none on overflow. -/
def div? (x y : Double) : Option Double :=
  let (n, d) := scaleDown x.mantissa y.mantissa (y.exponent - x.exponent)
  ofRatio (x.negative != y.negative) n d

/-- The double nearest to a power of ten. -/
def tenPower (k : Nat) : Double :=
  (ofRatio false (Nat.pow 10 k) 1).getD (zero false)

/-- A double that is neither zero nor below the normal range. -/
def isNormal (x : Double) : Bool := Nat.pow 2 52 ≤ x.mantissa

end Double

end ClientLoom.Number
