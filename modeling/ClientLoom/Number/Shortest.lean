import ClientLoom.Number.Double

/-!
# The shortest decimal of a double

Among the decimals that read back as the double, the one with the fewest digits, and of those the
nearest.  The reals that round to a double form an interval, whose ends belong to it when the
mantissa is even.  For one digit, two digits and so on, the two neighbours of the double on that
decimal grid are tried against the interval.
-/

namespace ClientLoom.Number

/-- The decimal `digits * 10 ^ exponent`. -/
structure Decimal where
  digits : Nat
  exponent : Int

/-- The fraction `num / den` divided by `10 ^ e`. -/
def scaleDownTen (num den : Nat) (e : Int) : Nat × Nat :=
  if 0 ≤ e then (num, den * Nat.pow 10 e.toNat) else (num * Nat.pow 10 (-e).toNat, den)

/-- The largest `k` with `10 ^ k ≤ num / den`, for a positive fraction. -/
def floorLogTen (num den : Nat) : Int :=
  let guess := floorLogTwo num den * 30103 / 100000
  let (n, d) := scaleDownTen num den guess
  if n < d then guess - 1 else if 10 * d ≤ n then guess + 1 else guess

/-- The open or closed interval of the reals that round to a double, with the double itself, over
one denominator. -/
structure RoundingInterval where
  low : Nat
  value : Nat
  high : Nat
  den : Nat
  closed : Bool

namespace RoundingInterval

/-- The interval of a positive double. -/
def ofDouble (x : Double) : RoundingInterval :=
  let below := if x.mantissa = Nat.pow 2 52 ∧ x.exponent ≠ leastExponent then 1 else 2
  let (factor, den) := scaleDown 1 1 (2 - x.exponent)
  { low := (4 * x.mantissa - below) * factor
    value := 4 * x.mantissa * factor
    high := (4 * x.mantissa + 2) * factor
    den := den
    closed := x.mantissa % 2 == 0 }

/-- The fraction `num / den` lies in the interval. -/
def holds (r : RoundingInterval) (num den : Nat) : Bool :=
  if r.closed then r.low * den ≤ num * r.den && num * r.den ≤ r.high * den
  else r.low * den < num * r.den && num * r.den < r.high * den

/-- The better of the two neighbours of the value on the grid of step `10 ^ e`, if one of them lies
in the interval. -/
def onGrid (r : RoundingInterval) (e : Int) : Option Decimal :=
  let (n, d) := scaleDownTen r.value r.den e
  let below := n / d
  let step := scaleDownTen 1 1 (-e)
  let inside (k : Nat) : Bool := r.holds (k * step.1) step.2
  match inside below, inside (below + 1) with
  | true, true => some ⟨roundQuotient n d, e⟩
  | true, false => some ⟨below, e⟩
  | false, true => some ⟨below + 1, e⟩
  | false, false => none

end RoundingInterval

/-- Moves the zeros at the end of the digits into the exponent. -/
def Decimal.stripZeros (x : Decimal) : Decimal :=
  if _h : x.digits ≠ 0 ∧ x.digits % 10 = 0 then
    Decimal.stripZeros ⟨x.digits / 10, x.exponent + 1⟩
  else x
termination_by x.digits
decreasing_by omega

/-- The shortest decimal of the absolute value of a double. -/
def Double.shortest (x : Double) : Decimal :=
  if x.mantissa = 0 then ⟨0, 0⟩
  else
    let r := RoundingInterval.ofDouble x
    let top := floorLogTen r.value r.den
    match (List.range 17).findSome? fun (k : Nat) => r.onGrid (top - k) with
    | some d => d.stripZeros
    | none => ⟨0, 0⟩

end ClientLoom.Number
