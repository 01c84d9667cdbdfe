import EventScript.ParseFault
import EventScript.Text.Alphabetic
import EventScript.Text.CaseMapping

/-!
# From characters to tokens

`Token.read` reads the token that starts at a given character and says how many characters it takes. `scan` goes through a
text one character at a time: between tokens it drops white space and comments, at the start of a token it reads it, and
the rest of the token's characters it only passes over. So the position of a token is that of its first character, and
every character is passed exactly once.
-/

namespace EventScript

/-- A fault inside a token: the cause, and how many characters after the token's first one it is reported. -/
structure TokenFault where
  cause : ParseCause
  offset : Nat := 0
deriving DecidableEq, Repr

/-- White space between tokens. -/
def isSeparator (c : Char) : Bool := c == ' ' || c == '\t' || c == '\r' || c == '\n'

/-- A character of a name or a command word. -/
def isNameChar (c : Char) : Bool := Text.isAlphanumeric c || c == '_'

/-- A character that a name starts with. -/
def isNameStart (c : Char) : Bool := Text.isAlphabetic c || c == '_'

/-- The characters up to and with the end of a block comment; all of them if it has no end. -/
def blockCommentLength : List Char → Nat
  | [] => 0
  | '*' :: '/' :: _ => 2
  | _ :: rest => blockCommentLength rest + 1

/-- How many characters follow the first one in a comment that starts here, if one does. A line comment ends before the
newline. -/
def commentLength? (c : Char) (rest : List Char) : Option Nat :=
  match c, rest with
  | '/', '/' :: more => some (1 + (more.takeWhile (· != '\n')).length)
  | '/', '*' :: more => some (1 + blockCommentLength more)
  | _, _ => none

namespace Token

/-- The value of a digit of any base up to sixteen. -/
def digitValue (c : Char) : Nat :=
  if '0' ≤ c ∧ c ≤ '9' then c.toNat - '0'.toNat
  else if 'a' ≤ c ∧ c ≤ 'f' then c.toNat - 'a'.toNat + 10
  else c.toNat - 'A'.toNat + 10

def isHexDigit (c : Char) : Bool := c.isDigit || ('a' ≤ c && c ≤ 'f') || ('A' ≤ c && c ≤ 'F')

/-- The number that the digits write. -/
def digitsValue (base : Nat) (digits : List Char) : Nat := digits.foldl (fun n c => n * base + digitValue c) 0

/-- The largest integer literal, `2 ^ 63 - 1`. -/
def maxLiteral : Nat := 0x7fffffffffffffff

/-- A hexadecimal literal, from the character after `0x` on. -/
def readHex (rest : List Char) : Except TokenFault (Token × Nat) :=
  let digits := rest.takeWhile isHexDigit
  let n := digitsValue 16 digits
  if digits.isEmpty then .error ⟨.hexDigits, 0⟩
  else if n ≤ maxLiteral then .ok (.int (Int64.ofNat n), 1 + digits.length)
  else .error ⟨.invalidHex (String.ofList digits), 0⟩

/-- A decimal literal. It is floating-point when a point with a digit behind it follows the first digits. -/
def readDecimal (c : Char) (rest : List Char) : Except TokenFault (Token × Nat) :=
  let whole := c :: rest.takeWhile Char.isDigit
  match rest.dropWhile Char.isDigit with
  | '.' :: d :: more =>
    if d.isDigit then
      let fraction := d :: more.takeWhile Char.isDigit
      .ok (.float (Float.ofScientific (digitsValue 10 (whole ++ fraction)) true fraction.length),
        whole.length + fraction.length)
    else integer whole
  | _ => integer whole
where
  integer (whole : List Char) : Except TokenFault (Token × Nat) :=
    let n := digitsValue 10 whole
    if n ≤ maxLiteral then .ok (.int (Int64.ofNat n), whole.length - 1)
    else .error ⟨.invalidInteger (String.ofList whole), 0⟩

/-- A number that starts with the digit `c`. -/
def readNumber (c : Char) (rest : List Char) : Except TokenFault (Token × Nat) :=
  match c, rest with
  | '0', 'x' :: more => readHex more
  | '0', 'X' :: more => readHex more
  | _, _ => readDecimal c rest

/-- The character that an escape stands for. -/
def escape? : Char → Option Char
  | 'n' => some '\n'
  | 'r' => some '\r'
  | 't' => some '\t'
  | '\\' => some '\\'
  | '"' => some '"'
  | _ => none

/-- The content of a string literal and the number of characters it takes in all, of which `taken` have been read. A wrong
escape is reported behind it, a missing quote at the start of the literal. -/
def readString (taken : Nat) : List Char → Except TokenFault (List Char × Nat)
  | [] => .error ⟨.unterminatedString, 0⟩
  | ['\\'] => .error ⟨.unterminatedString, 0⟩
  | '"' :: _ => .ok ([], taken + 1)
  | '\\' :: e :: more =>
    match escape? e with
    | none => .error ⟨.invalidEscape e, taken + 2⟩
    | some c => (readString (taken + 2) more).map fun r => (c :: r.1, r.2)
  | c :: rest => (readString (taken + 1) rest).map fun r => (c :: r.1, r.2)

/-- A name or a keyword that starts with `c`. -/
def readWord (c : Char) (rest : List Char) : Token × Nat :=
  let tail := rest.takeWhile isNameChar
  let word := String.ofList (c :: tail)
  match Keyword.ofWord? word with
  | some k => (.keyword k, tail.length)
  | none => (.ident word, tail.length)

/-- A command word, from the character after `#` on. Its name is kept in upper case. -/
def readCommand (rest : List Char) : Except TokenFault (Token × Nat) :=
  let name := rest.takeWhile isNameChar
  if name.isEmpty then .error ⟨.commandName, 0⟩
  else .ok (.command (Text.upper (String.ofList name)), name.length)

/-- The symbol that starts with `c`, the longest one that fits, and how many characters follow `c` in it. -/
def readSymbol? (c : Char) (rest : List Char) : Option (Symbol × Nat) :=
  match c with
  | '(' => some (.lparen, 0)
  | ')' => some (.rparen, 0)
  | '\x7b' => some (.lbrace, 0)
  | '\x7d' => some (.rbrace, 0)
  | '[' => some (.lbracket, 0)
  | ']' => some (.rbracket, 0)
  | ',' => some (.comma, 0)
  | ':' => some (.colon, 0)
  | ';' => some (.semicolon, 0)
  | '.' => some (.dot, 0)
  | '?' => some (.question, 0)
  | '+' => some (.plus, 0)
  | '-' => some (.minus, 0)
  | '*' => some (.star, 0)
  | '/' => some (.slash, 0)
  | '%' => some (.percent, 0)
  | '~' => some (.bitNot, 0)
  | '^' => some (.bitXor, 0)
  | '=' => if rest.head? == some '=' then some (.eq, 1) else some (.assign, 0)
  | '!' => if rest.head? == some '=' then some (.ne, 1) else some (.not, 0)
  | '<' =>
    if rest.head? == some '=' then some (.le, 1)
    else if rest.head? == some '<' then some (.shl, 1)
    else some (.lt, 0)
  | '>' =>
    if rest.head? == some '=' then some (.ge, 1)
    else if rest.head? == some '>' then some (.shr, 1)
    else some (.gt, 0)
  | '&' => if rest.head? == some '&' then some (.and, 1) else some (.bitAnd, 0)
  | '|' => if rest.head? == some '|' then some (.or, 1) else some (.bitOr, 0)
  | _ => none

/-- The token that starts with the character `c`, and how many characters follow `c` in it. -/
def read (c : Char) (rest : List Char) : Except TokenFault (Token × Nat) :=
  match readSymbol? c rest with
  | some (s, n) => .ok (.symbol s, n)
  | none =>
    if c == '#' then readCommand rest
    else if c == '"' then (readString 1 rest).map fun r => (.string (String.ofList r.1), r.2 - 1)
    else if c.isDigit then readNumber c rest
    else if isNameStart c then .ok (readWord c rest)
    else .error ⟨.unexpectedCharacter c, 0⟩

end Token

/-- How the tokens of a text end: at the end of the text, or at a place where no token can be read. -/
inductive Ending where
  | complete (position : Position)
  | broken (fault : ParseFault)
deriving DecidableEq, Repr

/-- The tokens of a text as far as they can be read, and how they end. -/
structure TokenList where
  tokens : List LocatedToken
  ending : Ending
deriving DecidableEq, Repr

def TokenList.cons (t : LocatedToken) (list : TokenList) : TokenList := ⟨t :: list.tokens, list.ending⟩

/-- Reads a text from a place on, after passing over the first `pass` characters. -/
def scanFrom : Nat → Position → List Char → TokenList
  | _, p, [] => ⟨[], .complete p⟩
  | pass + 1, p, c :: rest => scanFrom pass (p.advance c) rest
  | 0, p, c :: rest =>
    if isSeparator c then scanFrom 0 (p.advance c) rest
    else
      match commentLength? c rest with
      | some n => scanFrom n (p.advance c) rest
      | none =>
        match Token.read c rest with
        | .ok (token, n) => (scanFrom n (p.advance c) rest).cons ⟨token, p⟩
        | .error fault => ⟨[], .broken ⟨fault.cause, p.past ((c :: rest).take fault.offset)⟩⟩

/-- The tokens of a text. -/
def scan (text : String) : TokenList := scanFrom 0 ⟨1, 1⟩ text.toList

end EventScript
