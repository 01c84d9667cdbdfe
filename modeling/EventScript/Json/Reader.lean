import EventScript.Json.Number
import EventScript.Text.Hex

/-!
# Reading JSON

Reads a scalar, or an object whose members are scalars. Each reader takes the characters ahead and returns what it has
read with the characters behind it, or nothing. Main functions: `Stored.ofJson?` for a text that is one scalar, and
`Json.members?` for a text that is one object.
-/

namespace EventScript.Json

/-- The white space of JSON. -/
def isSpace (c : Char) : Bool := c == ' ' || c == '\t' || c == '\n' || c == '\r'

def skipSpace (cs : List Char) : List Char := cs.dropWhile isSpace

/-- The unit that four hexadecimal digits spell. -/
def unit? (a b c d : Char) : Option Nat := Text.hexValue? 0 [a, b, c, d]

def isLeading (u : Nat) : Bool := 0xD800 ≤ u && u < 0xDC00

def isTrailing (u : Nat) : Bool := 0xDC00 ≤ u && u < 0xE000

/-- The character of a pair of surrogate units. -/
def paired (leading trailing : Nat) : Char :=
  Char.ofNat (0x10000 + (leading - 0xD800) * 0x400 + (trailing - 0xDC00))

/-- The character that one letter stands for behind a backslash. -/
def escaped? (c : Char) : Option Char :=
  match c with
  | '"' => some '"'
  | '\\' => some '\\'
  | '/' => some '/'
  | 'b' => some '\x08'
  | 'f' => some '\x0c'
  | 'n' => some '\n'
  | 'r' => some '\r'
  | 't' => some '\t'
  | _ => none

/-- Puts a character in front of what has been read of a string. -/
def consChar (c : Char) : Option (List Char × List Char) → Option (List Char × List Char) :=
  Option.map fun r => (c :: r.1, r.2)

/-- Reads a string behind its opening quote. Control characters have to be escaped, and a leading surrogate needs a trailing
one behind it. -/
def readString : List Char → Option (List Char × List Char)
  | [] => none
  | '"' :: rest => some ([], rest)
  | '\\' :: 'u' :: a :: b :: c :: d :: '\\' :: 'u' :: e :: f :: g :: h :: rest =>
    match unit? a b c d with
    | none => none
    | some u =>
      if isLeading u then
        match unit? e f g h with
        | some v => if isTrailing v then consChar (paired u v) (readString rest) else none
        | none => none
      else if isTrailing u then none
      else consChar (Char.ofNat u) (readString ('\\' :: 'u' :: e :: f :: g :: h :: rest))
  | '\\' :: 'u' :: a :: b :: c :: d :: rest =>
    match unit? a b c d with
    | some u => if isLeading u || isTrailing u then none else consChar (Char.ofNat u) (readString rest)
    | none => none
  | '\\' :: c :: rest =>
    match escaped? c with
    | some e => consChar e (readString rest)
    | none => none
  | c :: rest => if c.toNat < 0x20 || c == '\\' then none else consChar c (readString rest)

/-- Reads a scalar. -/
def readScalar : List Char → Option (Stored × List Char)
  | 'n' :: 'u' :: 'l' :: 'l' :: rest => some (.null, rest)
  | 't' :: 'r' :: 'u' :: 'e' :: rest => some (.bool true, rest)
  | 'f' :: 'a' :: 'l' :: 's' :: 'e' :: rest => some (.bool false, rest)
  | '"' :: rest => (readString rest).map fun r => (.string (String.ofList r.1), r.2)
  | cs => readNumber cs

/-- Reads one member of an object: a key, a colon and a scalar. -/
def readMember (cs : List Char) : Option ((String × Stored) × List Char) :=
  match cs with
  | '"' :: rest =>
    match readString rest with
    | some (key, behind) =>
      match skipSpace behind with
      | ':' :: ahead =>
        (readScalar (skipSpace ahead)).map fun r => ((String.ofList key, r.1), r.2)
      | _ => none
    | none => none
  | _ => none

/-- Reads members up to the closing brace. Each takes at least one character, so the number of characters ahead is fuel
enough. -/
def readMembers : Nat → List Char → Option (List (String × Stored) × List Char)
  | 0, _ => none
  | fuel + 1, cs =>
    match readMember cs with
    | none => none
    | some (m, behind) =>
      match skipSpace behind with
      | '\x7d' :: rest => some ([m], rest)
      | ',' :: rest => (readMembers fuel (skipSpace rest)).map fun r => (m :: r.1, r.2)
      | _ => none

/-- Reads an object. -/
def readObject (cs : List Char) : Option (List (String × Stored) × List Char) :=
  match cs with
  | '\x7b' :: rest =>
    match skipSpace rest with
    | '\x7d' :: behind => some ([], behind)
    | ahead => readMembers ahead.length ahead
  | _ => none

/-- What a reader makes of a whole text, with white space around it. -/
def whole? (read : List Char → Option (α × List Char)) (text : String) : Option α :=
  match read (skipSpace text.toList) with
  | some (a, rest) => if (skipSpace rest).isEmpty then some a else none
  | none => none

/-- The members of the object that a text is, in order. A key may occur more than once. -/
def members? (text : String) : Option (List (String × Stored)) := whole? readObject text

end EventScript.Json

namespace EventScript

/-- The scalar that a text is. -/
def Stored.ofJson? (text : String) : Option Stored := Json.whole? Json.readScalar text

end EventScript
