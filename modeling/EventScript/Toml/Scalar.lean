import EventScript.Text.Hex

/-!
# Scalars in TOML

Strings of the four kinds, numbers, dates and times. Each reader takes the characters ahead and returns what it has read
with the characters behind it, or nothing.
-/

namespace EventScript.Toml

def isBlank (c : Char) : Bool := c == ' ' || c == '\t'

def skipBlank (cs : List Char) : List Char := cs.dropWhile isBlank

/-- The characters behind a line break, if one is ahead. -/
def newline? : List Char → Option (List Char)
  | '\n' :: rest => some rest
  | '\r' :: '\n' :: rest => some rest
  | _ => none

/-- A character that may stand for itself in comments and strings: no control character but the tab. -/
def isPlain (c : Char) : Bool := c == '\t' || (0x20 ≤ c.toNat && c.toNat != 0x7F)

/-- Skips a comment, up to the end of its line. -/
def skipComment : List Char → List Char
  | '#' :: rest => rest.dropWhile isPlain
  | cs => cs

/-- The characters of the next line, if nothing but a comment is left of this one. -/
def nextLine? (cs : List Char) : Option (List Char) :=
  match skipComment (skipBlank cs) with
  | [] => some []
  | rest => newline? rest

/-! ## Strings -/

/-- The character that one letter stands for behind a backslash. -/
def escaped? (c : Char) : Option Char :=
  match c with
  | 'b' => some '\x08'
  | 't' => some '\t'
  | 'n' => some '\n'
  | 'f' => some '\x0c'
  | 'r' => some '\r'
  | '"' => some '"'
  | '\\' => some '\\'
  | _ => none

/-- The character with the code point that the digits spell. -/
def spelledChar? (digits : List Char) : Option Char := (Text.hexValue? 0 digits).bind Text.charOf?

/-- Reads what follows a backslash. -/
def readEscape : List Char → Option (Char × List Char)
  | 'u' :: rest => if 4 ≤ rest.length then (spelledChar? (rest.take 4)).map (·, rest.drop 4) else none
  | 'U' :: rest => if 8 ≤ rest.length then (spelledChar? (rest.take 8)).map (·, rest.drop 8) else none
  | c :: rest => (escaped? c).map (·, rest)
  | [] => none

/-- Puts characters in front of what has been read of a string. -/
def prepend (cs : List Char) : Option (List Char × List Char) → Option (List Char × List Char) :=
  Option.map fun r => (cs ++ r.1, r.2)

/-- Reads a string in double quotes on one line, behind its opening quote. Every step takes a character, which the fuel
counts. -/
def readBasic : (fuel : Nat) → List Char → Option (List Char × List Char)
  | 0, _ => none
  | fuel + 1, cs =>
    match cs with
    | [] => none
    | '"' :: rest => some ([], rest)
    | '\\' :: rest =>
      match readEscape rest with
      | some (c, behind) => prepend [c] (readBasic fuel behind)
      | none => none
    | c :: rest => if isPlain c then prepend [c] (readBasic fuel rest) else none

/-- Reads a string in single quotes on one line, behind its opening quote. -/
def readLiteral : List Char → Option (List Char × List Char)
  | [] => none
  | '\'' :: rest => some ([], rest)
  | c :: rest => if isPlain c then prepend [c] (readLiteral rest) else none

/-- The quotes ahead inside a string of several lines: the characters that belong to the string, and the rest if the string
ends here. One or two quotes are part of the string, and so are up to two in front of the three that end it. -/
def quotesAhead (quote : Char) (cs : List Char) : List Char × Option (List Char) :=
  let n := (cs.takeWhile (· == quote)).length
  if n < 3 then (List.replicate n quote, none)
  else
    let extra := min (n - 3) 2
    (List.replicate extra quote, some (cs.drop (extra + 3)))

/-- Skips blanks and line breaks. -/
def skipLines : (fuel : Nat) → List Char → List Char
  | 0, cs => cs
  | fuel + 1, cs =>
    match newline? (skipBlank cs) with
    | some rest => skipLines fuel rest
    | none => skipBlank cs

/-- Reads a string of several lines, behind its opening quotes. With `escapes` a backslash starts an escape, and one at the
end of a line drops the line break and the blanks that follow. -/
def readLong (quote : Char) (escapes : Bool) : (fuel : Nat) → List Char → Option (List Char × List Char)
  | 0, _ => none
  | fuel + 1, cs =>
    match cs with
    | [] => none
    | c :: rest =>
      if c == quote then
        match quotesAhead quote cs with
        | (own, some behind) => some (own, behind)
        | (own, none) => prepend own (readLong quote escapes fuel (cs.drop own.length))
      else if escapes && c == '\\' then
        match newline? (skipBlank rest) with
        | some more => readLong quote escapes fuel (skipLines more.length more)
        | none =>
          match readEscape rest with
          | some (e, behind) => prepend [e] (readLong quote escapes fuel behind)
          | none => none
      else
        match newline? cs with
        | some more => prepend ['\n'] (readLong quote escapes fuel more)
        | none => if isPlain c then prepend [c] (readLong quote escapes fuel rest) else none

/-- The characters behind a line break right after the opening quotes of a long string. -/
def dropFirstBreak (cs : List Char) : List Char := (newline? cs).getD cs

/-- Reads a string of any kind. -/
def readString (cs : List Char) : Option (List Char × List Char) :=
  match cs with
  | '"' :: '"' :: '"' :: rest => readLong '"' true (rest.length + 1) (dropFirstBreak rest)
  | '"' :: rest => readBasic (rest.length + 1) rest
  | '\'' :: '\'' :: '\'' :: rest => readLong '\'' false (rest.length + 1) (dropFirstBreak rest)
  | '\'' :: rest => readLiteral rest
  | _ => none

/-! ## Numbers -/

def isDigit (c : Char) : Bool := '0' ≤ c && c ≤ '9'

/-- Reads digits, between any two of which one underscore may stand. -/
def readDigits (isDigit : Char → Bool) : List Char → Option (List Char × List Char)
  | [] => none
  | c :: rest =>
    if isDigit c then
      match rest with
      | '_' :: more => prepend [c] (readDigits isDigit more)
      | d :: more =>
        if isDigit d then prepend [c] (readDigits isDigit (d :: more)) else some ([c], d :: more)
      | [] => some ([c], [])
    else none

/-- The number that digits of a base up to sixteen spell. -/
def spelled (base : Nat) (digits : List Char) : Nat :=
  digits.foldl (fun n c => base * n + (Text.hexDigit? c).getD 0) 0

/-- Reads a decimal integer without its sign: a zero alone, or digits of which the first is not zero. -/
def readDecimal : List Char → Option (List Char × List Char)
  | '0' :: rest => some (['0'], rest)
  | cs => readDigits isDigit cs

/-- Reads a sign, and whether it is a minus. -/
def readSign : List Char → Bool × List Char
  | '+' :: rest => (false, rest)
  | '-' :: rest => (true, rest)
  | cs => (false, cs)

/-- An integer, if it has 64 bits. -/
def checked (n : Int) : Option Int := if Int64.minValue.toInt ≤ n ∧ n ≤ Int64.maxValue.toInt then some n else none

/-- Reads an integer in any base. -/
def readInteger (cs : List Char) : Option (Int × List Char) :=
  let inBase (base : Nat) (isDigit : Char → Bool) (cs : List Char) : Option (Int × List Char) :=
    (readDigits isDigit cs).bind fun (digits, rest) => (checked (spelled base digits)).map (·, rest)
  match cs with
  | '0' :: 'x' :: rest => inBase 16 (fun c => (Text.hexDigit? c).isSome) rest
  | '0' :: 'o' :: rest => inBase 8 (fun c => '0' ≤ c && c ≤ '7') rest
  | '0' :: 'b' :: rest => inBase 2 (fun c => c == '0' || c == '1') rest
  | _ =>
    let (negative, unsigned) := readSign cs
    (readDecimal unsigned).bind fun (digits, rest) =>
      let n : Int := spelled 10 digits
      (checked (if negative then -n else n)).map (·, rest)

/-- The double nearest to `digits · 10 ^ exponent`. Powers far outside the range of doubles are not computed. -/
def decimalFloat (digits : List Char) (exponent : Int) : Float :=
  let n := spelled 10 digits
  let top := exponent + digits.length
  if n = 0 || top < -400 then 0
  else if 400 < top then 1.0 / 0.0
  else if 0 ≤ exponent then Float.ofScientific n false exponent.toNat
  else Float.ofScientific n true (-exponent).toNat

/-- Reads an exponent, if there is one. -/
def readExponent (cs : List Char) : Option (Int × List Char) :=
  let behindE (rest : List Char) : Option (Int × List Char) :=
    let (negative, unsigned) := readSign rest
    (readDigits isDigit unsigned).map fun (digits, rest) =>
      let n : Int := spelled 10 digits
      (if negative then -n else n, rest)
  match cs with
  | 'e' :: rest => behindE rest
  | 'E' :: rest => behindE rest
  | _ => none

/-- Reads a number with a fraction or an exponent, or one of the words for an infinity and for no number. One that
overflows upward is refused. -/
def readFloat (cs : List Char) : Option (Float × List Char) :=
  let (negative, unsigned) := readSign cs
  let signed (x : Float) : Float := if negative then -x else x
  match unsigned with
  | 'i' :: 'n' :: 'f' :: rest => some (signed (1.0 / 0.0), rest)
  | 'n' :: 'a' :: 'n' :: rest => some (0.0 / 0.0, rest)
  | _ =>
    let checked (digits : List Char) (exponent : Int) (rest : List Char) : Option (Float × List Char) :=
      let x := signed (decimalFloat digits exponent)
      if x.isInf && !negative then none else some (x, rest)
    match readDecimal unsigned with
    | none => none
    | some (whole, '.' :: rest) =>
      match readDigits isDigit rest with
      | none => none
      | some (fraction, behind) =>
        match readExponent behind with
        | some (n, behind) => checked (whole ++ fraction) (n - fraction.length) behind
        | none => checked (whole ++ fraction) (-fraction.length) behind
    | some (whole, rest) =>
      match readExponent rest with
      | some (n, behind) => checked whole n behind
      | none => none

/-! ## Dates and times -/

/-- Reads exactly `n` digits. -/
def readExactly (n : Nat) (cs : List Char) : Option (Nat × List Char) :=
  let digits := cs.take n
  if digits.length = n ∧ digits.all isDigit then some (spelled 10 digits, cs.drop n) else none

/-- Reads one character. -/
def expect (c : Char) : List Char → Option (List Char)
  | d :: rest => if c = d then some rest else none
  | [] => none

def daysIn (year month : Nat) : Nat :=
  if month = 2 then (if year % 4 = 0 ∧ (year % 100 ≠ 0 ∨ year % 400 = 0) then 29 else 28)
  else if month = 4 ∨ month = 6 ∨ month = 9 ∨ month = 11 then 30
  else 31

/-- Reads a date; returns the characters behind it. -/
def readDate (cs : List Char) : Option (List Char) := do
  let (year, cs) ← readExactly 4 cs
  let cs ← expect '-' cs
  let (month, cs) ← readExactly 2 cs
  let cs ← expect '-' cs
  let (day, cs) ← readExactly 2 cs
  if 1 ≤ month ∧ month ≤ 12 ∧ 1 ≤ day ∧ day ≤ daysIn year month then some cs else none

/-- Reads a time of the day; returns the characters behind it. -/
def readTime (cs : List Char) : Option (List Char) := do
  let (hour, cs) ← readExactly 2 cs
  let cs ← expect ':' cs
  let (minute, cs) ← readExactly 2 cs
  let cs ← expect ':' cs
  let (second, cs) ← readExactly 2 cs
  if hour ≤ 23 ∧ minute ≤ 59 ∧ second ≤ 60 then
    match cs with
    | '.' :: rest =>
      if (rest.takeWhile isDigit).isEmpty then some cs else some (rest.dropWhile isDigit)
    | _ => some cs
  else none

/-- Skips an offset from universal time. -/
def skipOffset (cs : List Char) : List Char :=
  let numeric (rest : List Char) : Option (List Char) := do
    let (hour, rest) ← readExactly 2 rest
    let rest ← expect ':' rest
    let (minute, rest) ← readExactly 2 rest
    if hour ≤ 23 ∧ minute ≤ 59 then some rest else none
  match cs with
  | 'Z' :: rest => rest
  | 'z' :: rest => rest
  | '+' :: rest => (numeric rest).getD cs
  | '-' :: rest => (numeric rest).getD cs
  | _ => cs

/-- Reads a date, a time, or a date and a time with or without an offset; returns the characters behind it. -/
def readDateTime (cs : List Char) : Option (List Char) :=
  match readDate cs with
  | none => readTime cs
  | some rest =>
    match rest with
    | c :: more =>
      if c = 'T' ∨ c = 't' ∨ c = ' ' then
        match readTime more with
        | some behind => some (skipOffset behind)
        | none => some rest
      else some rest
    | [] => some []

end EventScript.Toml
