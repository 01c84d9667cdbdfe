/-!
# Strings written in TOML

A string can be written in double quotes, where a backslash starts an escape, or in single quotes, where all stands for
itself; and in either in a form for several lines, in which quotes may stand that are not too many in a row. A string takes
the first form that it needs no escapes in, and if there is none, double quotes. A tab does not count: it is allowed
everywhere, and still written as an escape between double quotes.
-/

namespace EventScript.Toml

/-- The forms of a string. -/
inductive StringForm where
  | basic
  | literal
  | longBasic
  | longLiteral
deriving DecidableEq, Repr

namespace StringForm

/-- The form is one for several lines. -/
def long : StringForm → Bool
  | basic | literal => false
  | longBasic | longLiteral => true

/-- Backslashes start escapes. -/
def escapes : StringForm → Bool
  | basic | longBasic => true
  | literal | longLiteral => false

/-- What stands at both ends. -/
def delimiter : StringForm → String
  | basic => "\""
  | literal => "'"
  | longBasic => "\"\"\""
  | longLiteral => "'''"

/-- How many of its own quotes may stand in a row. -/
def quotesInRow (form : StringForm) : Nat := if form.long then 2 else 0

end StringForm

/-- The length of the longest run of a character, if `current` of it stand in front. -/
def longestRun (q : Char) (current : Nat) : List Char → Nat
  | [] => current
  | c :: rest => if c == q then longestRun q (current + 1) rest else max current (longestRun q 0 rest)

/-- A control character that no form takes as it stands. -/
def needsCode (c : Char) : Bool := c != '\t' && c != '\n' && (c.toNat < 0x20 || c.toNat == 0x7F)

/-- The string needs no escapes in this form. -/
def StringForm.takes (form : StringForm) (cs : List Char) : Bool :=
  let quote := if form.escapes then '"' else '\''
  !cs.any needsCode && !(form.escapes && cs.contains '\\') && !(!form.long && cs.contains '\n') &&
    longestRun quote 0 cs ≤ form.quotesInRow

/-- The form that a string is written in. -/
def StringForm.choose (cs : List Char) : StringForm :=
  match [basic, literal, longBasic, longLiteral].find? (·.takes cs) with
  | some form => form
  | none => if cs.contains '\n' then longBasic else basic

/-- A code point as the four hexadecimal digits of an escape. -/
def fourDigits (n : Nat) : String :=
  let digits := (Nat.toDigits 16 n).map Char.toUpper
  String.ofList (List.replicate (4 - digits.length) '0' ++ digits)

/-- One character, not a double quote, between double quotes. -/
def writeChar (form : StringForm) (c : Char) : String :=
  if c == '\x08' then "\\b"
  else if c == '\t' then "\\t"
  else if c == '\n' then (if form.long then "\n" else "\\n")
  else if c == '\x0c' then "\\f"
  else if c == '\r' then "\\r"
  else if c == '\\' then "\\\\"
  else if needsCode c then "\\u" ++ fourDigits c.toNat
  else c.toString

/-- Characters between double quotes. Of double quotes in a row, of which `quotes` have been written as they stand, the first
that is one too many becomes an escape, and the count starts again behind it. -/
def writeEscaped (form : StringForm) : (quotes : Nat) → List Char → String
  | _, [] => ""
  | quotes, c :: rest =>
    if c == '"' then
      if quotes < form.quotesInRow then "\"" ++ writeEscaped form (quotes + 1) rest
      else "\\\"" ++ writeEscaped form 0 rest
    else writeChar form c ++ writeEscaped form 0 rest

/-- A string as it is written. The long forms begin with a line break, which does not count, if there is another one. -/
def writeString (s : String) : String :=
  let cs := s.toList
  let form := StringForm.choose cs
  let body := if form.escapes then writeEscaped form 0 cs else s
  form.delimiter ++ (if form.long && cs.contains '\n' then "\n" else "") ++ body ++ form.delimiter

end EventScript.Toml
