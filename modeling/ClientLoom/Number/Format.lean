import ClientLoom.Number.Shortest

/-!
# Text of a double

The shortest digits, always with a decimal point or an exponent, so that the text shows a number
that is not an integer.
-/

namespace ClientLoom.Number

/-- How a double is written. -/
structure DoubleFormat where
  /-- The least power of ten of the first digit that is written without an exponent. -/
  least : Int
  /-- The greatest power of ten of the first digit that is written without an exponent. -/
  greatest : Int
  /-- The mark before a positive exponent. -/
  positiveMark : String

/-- First digits from hundred-thousandths to 10 ^ 15 stand without exponent; a positive exponent
has a plus sign. -/
def jsonFormat : DoubleFormat := ⟨-5, 15, "+"⟩

/-- The text of the absolute value `d`. -/
def DoubleFormat.writeDecimal (f : DoubleFormat) (d : Decimal) : String :=
  let ds := Nat.toDigits 10 d.digits
  let point : Int := d.exponent + ds.length
  let first := point - 1
  if first < f.least ∨ f.greatest < first then
    let tail := ds.drop 1
    let fraction := if tail.isEmpty then [] else '.' :: tail
    let sign := if first < 0 then "-" else f.positiveMark
    String.ofList (ds.take 1 ++ fraction) ++ "e" ++ sign ++ toString first.natAbs
  else if point ≤ 0 then
    String.ofList ('0' :: '.' :: (List.replicate (-point).toNat '0' ++ ds))
  else
    let whole := ds.take point.toNat ++ List.replicate (point.toNat - ds.length) '0'
    let fraction := ds.drop point.toNat
    String.ofList (whole ++ '.' :: (if fraction.isEmpty then ['0'] else fraction))

/-- The text of a double. -/
def DoubleFormat.write (f : DoubleFormat) (x : Double) : String :=
  let body := if x.mantissa = 0 then "0.0" else f.writeDecimal x.shortest
  if x.negative then "-" ++ body else body

end ClientLoom.Number
