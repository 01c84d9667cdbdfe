import EventScript.Extension.Program
import EventScript.Text.Alphabetic

/-!
# Reading extension scripts

The grammar: a script is a sequence of `fn name(params) { … }`; a body is a sequence of `expression;` and
`throw expression;` and may end in an expression; expressions are built with `+`, `*`, calls, `[…]`, `.name` and `.len()`
from strings, integers and names. Each reader takes the lexemes ahead and returns what it has read with the lexemes behind
it. Fuel bounds the depth of the recursion; every call takes a lexeme or goes one level down, and of levels there are five.
-/

namespace EventScript.Extension

/-- The pieces of a source text. -/
inductive Lexeme where
  | word (s : String)
  | int (n : Nat)
  | string (s : String)
  | mark (c : Char)
deriving DecidableEq, Repr

def isWordChar (c : Char) : Bool := c.isAlphanum || c == '_'

/-- The characters of a string up to its closing quote, and the rest. -/
def stringBody : List Char → Option (List Char × List Char)
  | [] => none
  | '"' :: rest => some ([], rest)
  | '\\' :: 'n' :: rest => (stringBody rest).map fun r => ('\n' :: r.1, r.2)
  | '\\' :: 't' :: rest => (stringBody rest).map fun r => ('\t' :: r.1, r.2)
  | '\\' :: c :: rest =>
    if c == '"' || c == '\\' then (stringBody rest).map fun r => (c :: r.1, r.2) else none
  | c :: rest => if c == '\n' || c == '\\' then none else (stringBody rest).map fun r => (c :: r.1, r.2)

/-- The lexemes of a text. Each takes at least one character, so the number of characters is fuel enough. -/
def lexemes : (fuel : Nat) → List Char → Option (List Lexeme)
  | _, [] => some []
  | 0, _ :: _ => none
  | fuel + 1, c :: rest =>
    if c.isWhitespace then lexemes fuel rest
    else if c == '/' && rest.head? == some '/' then lexemes fuel (rest.dropWhile (· != '\n'))
    else if c.isDigit then
      let digits := c :: rest.takeWhile Char.isDigit
      (lexemes fuel (rest.dropWhile Char.isDigit)).map
        (.int (digits.foldl (fun n d => 10 * n + (d.toNat - '0'.toNat)) 0) :: ·)
    else if isWordChar c then
      (lexemes fuel (rest.dropWhile isWordChar)).map (.word (String.ofList (c :: rest.takeWhile isWordChar)) :: ·)
    else if c == '"' then
      match stringBody rest with
      | some (body, behind) => (lexemes fuel behind).map (.string (String.ofList body) :: ·)
      | none => none
    else if "()[].,;+*\x7b\x7d".toList.contains c then (lexemes fuel rest).map (.mark c :: ·)
    else none

/-- Words that cannot be names. -/
def isReserved (s : String) : Bool := s == "fn" || s == "throw"

mutual

/-- Sums. -/
def readTerm : (fuel : Nat) → List Lexeme → Option (Term × List Lexeme)
  | 0, _ => none
  | fuel + 1, ls => do
    let (t, rest) ← readProduct fuel ls
    readSum fuel t rest

/-- The summands behind `t`. -/
def readSum : (fuel : Nat) → Term → List Lexeme → Option (Term × List Lexeme)
  | 0, _, _ => none
  | fuel + 1, t, .mark '+' :: ls => do
    let (u, rest) ← readProduct fuel ls
    readSum fuel (.add t u) rest
  | _ + 1, t, ls => some (t, ls)

def readProduct : (fuel : Nat) → List Lexeme → Option (Term × List Lexeme)
  | 0, _ => none
  | fuel + 1, ls => do
    let (t, rest) ← readFactor fuel ls
    readFactors fuel t rest

/-- The factors behind `t`. -/
def readFactors : (fuel : Nat) → Term → List Lexeme → Option (Term × List Lexeme)
  | 0, _, _ => none
  | fuel + 1, t, .mark '*' :: ls => do
    let (u, rest) ← readFactor fuel ls
    readFactors fuel (.mul t u) rest
  | _ + 1, t, ls => some (t, ls)

def readFactor : (fuel : Nat) → List Lexeme → Option (Term × List Lexeme)
  | 0, _ => none
  | fuel + 1, ls =>
    match ls with
    | .string s :: rest => readAccess fuel (.string s) rest
    | .int n :: rest => if n ≤ Int64.maxValue.toInt then readAccess fuel (.int n) rest else none
    | .word f :: .mark '(' :: rest =>
      if isReserved f then none
      else do
        let (args, rest) ← readArguments fuel rest
        readAccess fuel (.apply f args) rest
    | .word n :: rest => if isReserved n then none else readAccess fuel (.name n) rest
    | .mark '(' :: rest =>
      match readTerm fuel rest with
      | some (t, .mark ')' :: behind) => readAccess fuel t behind
      | _ => none
    | _ => none

/-- The indices and fields behind `t`. -/
def readAccess : (fuel : Nat) → Term → List Lexeme → Option (Term × List Lexeme)
  | 0, _, _ => none
  | fuel + 1, t, ls =>
    match ls with
    | .mark '[' :: rest =>
      match readTerm fuel rest with
      | some (i, .mark ']' :: behind) => readAccess fuel (.item t i) behind
      | _ => none
    | .mark '.' :: .word "len" :: .mark '(' :: .mark ')' :: rest => readAccess fuel (.length t) rest
    | .mark '.' :: .word n :: rest => if isReserved n then none else readAccess fuel (.field t n) rest
    | rest => some (t, rest)

/-- Arguments up to the closing parenthesis. -/
def readArguments : (fuel : Nat) → List Lexeme → Option (List Term × List Lexeme)
  | 0, _ => none
  | fuel + 1, ls =>
    match ls with
    | .mark ')' :: rest => some ([], rest)
    | _ => do
      let (t, rest) ← readTerm fuel ls
      match rest with
      | .mark ',' :: more => do
        let (ts, behind) ← readArguments fuel more
        some (t :: ts, behind)
      | .mark ')' :: behind => some ([t], behind)
      | _ => none

end

/-- Parameters up to the closing parenthesis. -/
def readParams : List Lexeme → Option (List String × List Lexeme)
  | .mark ')' :: rest => some ([], rest)
  | .word p :: .mark ')' :: rest => if isReserved p then none else some ([p], rest)
  | .word p :: .mark ',' :: rest =>
    if isReserved p then none else (readParams rest).map fun r => (p :: r.1, r.2)
  | _ => none

/-- A body up to its closing brace: its statements and the expression at its end. -/
def readBody : (fuel : Nat) → List Lexeme → Option ((List Line × Option Term) × List Lexeme)
  | 0, _ => none
  | fuel + 1, ls =>
    match ls with
    | .mark '\x7d' :: rest => some (([], none), rest)
    | .mark ';' :: rest => readBody fuel rest
    | .word "throw" :: more =>
      match readTerm fuel more with
      | some (t, .mark ';' :: rest) => (readBody fuel rest).map fun r => ((.raise t :: r.1.1, r.1.2), r.2)
      | some (t, .mark '\x7d' :: rest) => some (([.raise t], none), rest)
      | _ => none
    | _ =>
      match readTerm fuel ls with
      | some (t, .mark ';' :: rest) => (readBody fuel rest).map fun r => ((.compute t :: r.1.1, r.1.2), r.2)
      | some (t, .mark '\x7d' :: rest) => some (([], some t), rest)
      | _ => none

/-- The procedures of a script. -/
def readProcedures : (fuel : Nat) → List Lexeme → Option (List Procedure)
  | _, [] => some []
  | 0, _ :: _ => none
  | fuel + 1, .word "fn" :: .word name :: .mark '(' :: ls => do
    let (params, rest) ← readParams ls
    match rest with
    | .mark '\x7b' :: more => do
      let ((body, result), behind) ← readBody fuel more
      let others ← readProcedures fuel behind
      some (⟨name, params, body, result⟩ :: others)
    | _ => none
  | _ + 1, _ => none

/-- The script that a text is. -/
def Program.parse? (source : String) : Option Program := do
  let cs := source.toList
  let ls ← lexemes cs.length cs
  let procedures ← readProcedures (5 * ls.length + 5) ls
  some ⟨procedures⟩

end EventScript.Extension
