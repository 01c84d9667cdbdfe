import EventScript.Decimal.Layout
import EventScript.Json.Stored
import EventScript.Text.Quoted

/-!
# Writing JSON

A scalar is written without any space, an object with its members on lines of their own, indented by two spaces.
-/

namespace EventScript.Json

/-- Numbers from `1e-5` up to `1e16` are written without an exponent, and a whole one ends in `.0`. -/
def floatLayout : Decimal.Layout := ⟨fun x => 1e-5 ≤ x && x < 1e16, true, true, .even⟩

/-- A code point as the four hexadecimal digits of an escape. -/
def fourDigits (n : Nat) : String :=
  let digits := Nat.toDigits 16 n
  String.ofList (List.replicate (4 - digits.length) '0' ++ digits)

/-- One character inside a string. -/
def writeChar (c : Char) : String :=
  if c == '"' then "\\\""
  else if c == '\\' then "\\\\"
  else if c == '\n' then "\\n"
  else if c == '\r' then "\\r"
  else if c == '\t' then "\\t"
  else if c == '\x08' then "\\b"
  else if c == '\x0c' then "\\f"
  else if c.toNat < 0x20 then "\\u" ++ fourDigits c.toNat
  else c.toString

def writeString (s : String) : String := "\"" ++ String.join (s.toList.map writeChar) ++ "\""

/-- A double; what is not finite has no number and is written as `null`. -/
def writeFloat (x : Float) : String := if (Binary.ofFloat? x).isSome then floatLayout.write x else "null"

end EventScript.Json

namespace EventScript

/-- The JSON text of a stored value. -/
def Stored.json : Stored → String
  | null => "null"
  | bool b => if b then "true" else "false"
  | int n => toString n.toInt
  | float x => Json.writeFloat x
  | string s => Json.writeString s

/-- One member of an object on a line of its own. -/
def Json.writeMember (m : String × Stored) : String := "  " ++ Json.writeString m.1 ++ ": " ++ m.2.json

/-- The JSON text of an object with these members, in this order. -/
def Json.writeObject (members : List (String × Stored)) : String :=
  if members.isEmpty then "\x7b\x7d"
  else "\x7b\n" ++ ",\n".intercalate (members.map Json.writeMember) ++ "\n\x7d"

end EventScript
