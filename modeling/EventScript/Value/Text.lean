import EventScript.Value.Basic
import EventScript.Decimal.Layout

/-!
# Values as text

What a script sees when a value is joined to a string, and what a host shows of a value.
-/

namespace EventScript.Value

/-- Fractions are written without an exponent, in the fewest digits that read back. -/
def fractionLayout : Decimal.Layout := ⟨fun _ => true, false, false, .up⟩

/-- A floating-point number as text: an integral one in all its digits and with `.0` behind them. -/
def floatText (x : Float) : String :=
  match Binary.ofFloat? x with
  | some b =>
    if b.isIntegral then (if b.negative then "-" else "") ++ toString b.truncate.natAbs ++ ".0"
    else fractionLayout.write x
  | none => fractionLayout.write x

/-- The value as text. -/
def text : Value → String
  | null => "null"
  | bool b => if b then "true" else "false"
  | int n => toString n.toInt
  | float x => floatText x
  | string s => s
  | handle h => "<" ++ h.typeName ++ ">"

/-- The texts of several values with commas between them. -/
def joinedText (values : List Value) : String := ",".intercalate (values.map text)

end EventScript.Value
