import EventScript.Decimal.Shortest

/-!
# Layouts of decimal numbers

How the shortest digits of a double are laid out as text. A `Layout` holds the choices of one output format; the formats
themselves stand beside the writers that use them.
-/

namespace EventScript.Decimal

/-- The choices of one format for floating-point numbers. -/
structure Layout where
  /-- Which magnitudes are written without an exponent. -/
  plain : Float → Bool
  /-- Whether a plain number without a fractional part ends in `.0`. -/
  pointZero : Bool
  /-- Whether an exponent that is not negative carries a plus sign. -/
  plusSign : Bool
  tie : Tie

/-- The digits without an exponent: zeros fill up to the point on either side. -/
def positional (d : Decimal) (pointZero : Bool) : String :=
  let digits := Nat.toDigits 10 d.digits
  if 0 ≤ d.exponent then
    String.ofList (digits ++ List.replicate d.exponent.toNat '0') ++ (if pointZero then ".0" else "")
  else
    let places := (-d.exponent).toNat
    let padded := List.replicate (places + 1 - digits.length) '0' ++ digits
    let whole := padded.length - places
    String.ofList (padded.take whole) ++ "." ++ String.ofList (padded.drop whole)

/-- One digit before the point, the others behind it, and the power of ten. -/
def scientific (d : Decimal) (plusSign : Bool) : String :=
  let digits := Nat.toDigits 10 d.digits
  let power : Int := d.exponent + (digits.length - 1 : Nat)
  let fraction := if digits.length ≤ 1 then "" else "." ++ String.ofList (digits.drop 1)
  let sign := if 0 ≤ power && plusSign then "+" else ""
  String.ofList (digits.take 1) ++ fraction ++ "e" ++ sign ++ toString power

/-- A double as text. -/
def Layout.write (layout : Layout) (x : Float) : String :=
  match Binary.ofFloat? x with
  | none => if x.isNaN then "NaN" else if x < 0 then "-inf" else "inf"
  | some b =>
    let sign := if b.negative then "-" else ""
    if b.mantissa == 0 then sign ++ (if layout.pointZero then "0.0" else "0")
    else
      let d := b.shortest layout.tie
      sign ++ (if layout.plain x.abs then positional d layout.pointZero else scientific d layout.plusSign)

end EventScript.Decimal
