import EventScript.Toml.Scalar

/-!
# TOML documents

A document is a series of sections: the pairs before the first header, and a header with the pairs behind it each time. A
key may be a path; the tables on its way are made where they are missing, and no table is defined twice.
-/

namespace EventScript.Toml

/-- How a table came about. -/
structure TableKind where
  /-- It is written in braces, and closed with them. -/
  inline : Bool
  /-- It was made on the way to something else. -/
  implicit : Bool
  /-- It was made by the path of a key. -/
  dotted : Bool
deriving DecidableEq, Repr

/-- What a key stands for. -/
inductive Item where
  | string (s : String)
  | int (n : Int)
  | float (x : Float)
  | bool (b : Bool)
  | dateTime
  | array (items : List Item)
  | table (kind : TableKind) (entries : List (String × Item))
  /-- The tables of repeated headers in double brackets. -/
  | tables (elements : List (TableKind × List (String × Item)))

/-- The entries of a table, in order. -/
abbrev Entries := List (String × Item)

/-- Binds a key, in place of what it may be bound to. -/
def Entries.put (entries : Entries) (key : String) (item : Item) : Entries :=
  if entries.any (·.1 == key) then entries.map fun e => if e.1 == key then (key, item) else e
  else entries ++ [(key, item)]

/-- Changes the table that a path leads to from a table. Tables that are missing on the way are made, and of tables under one
header in double brackets the last is meant. A path in a key goes through no table that has a header of its own. -/
def descend (inline dotted : Bool) (change : TableKind → Entries → Option (TableKind × Entries)) :
    List String → TableKind → Entries → Option (TableKind × Entries)
  | [], kind, entries => change kind entries
  | key :: path, kind, entries =>
    match entries.lookup key with
    | none =>
      (descend inline dotted change path ⟨inline, true, dotted⟩ []).map fun (k, es) =>
        (kind, entries.put key (.table k es))
    | some (.table k es) =>
      if k.inline != inline || (dotted && !k.implicit) then none
      else (descend inline dotted change path k es).map fun (k, es) => (kind, entries.put key (.table k es))
    | some (.tables elements) =>
      match elements.getLast? with
      | some (k, es) =>
        (descend inline dotted change path k es).map fun last =>
          (kind, entries.put key (.tables (elements.dropLast ++ [last])))
      | none => none
    | some _ => none

/-- A key with its path, and what it is bound to. -/
structure Pair where
  path : List String
  key : String
  item : Item

/-- Binds a new key in the table that its path leads to. -/
def addPair (inline : Bool) (table : TableKind × Entries) (p : Pair) : Option (TableKind × Entries) :=
  let bindKey (kind : TableKind) (entries : Entries) : Option (TableKind × Entries) :=
    if kind.dotted == p.path.isEmpty then none
    else if entries.any (·.1 == p.key) then none
    else some (kind, entries ++ [(p.key, p.item)])
  descend inline (!p.path.isEmpty) bindKey p.path table.1 table.2

/-- Binds new keys one after the other. -/
def addPairs (inline : Bool) (table : TableKind × Entries) (pairs : List Pair) : Option (TableKind × Entries) :=
  pairs.foldlM (addPair inline) table

/-- A table in braces. -/
def inlineTable (pairs : List Pair) : Option Item :=
  (addPairs true (⟨true, false, false⟩, []) pairs).map fun (kind, entries) => .table kind entries

/-! ## Reading values -/

def isKeyChar (c : Char) : Bool := c.isAlphanum || c == '_' || c == '-'

/-- Reads one part of a key. -/
def readKeyPart (cs : List Char) : Option (String × List Char) :=
  match cs with
  | '"' :: rest => (readBasic (rest.length + 1) rest).map fun r => (String.ofList r.1, r.2)
  | '\'' :: rest => (readLiteral rest).map fun r => (String.ofList r.1, r.2)
  | _ =>
    let part := cs.takeWhile isKeyChar
    if part.isEmpty then none else some (String.ofList part, cs.dropWhile isKeyChar)

/-- Reads a key with its path, and the blanks around each part. -/
def readKey : (fuel : Nat) → List Char → Option (List String × List Char)
  | 0, _ => none
  | fuel + 1, cs => do
    let (part, rest) ← readKeyPart (skipBlank cs)
    match skipBlank rest with
    | '.' :: more =>
      let (parts, behind) ← readKey fuel more
      some (part :: parts, behind)
    | behind => some ([part], behind)

/-- The deepest nesting of keys and of values. -/
def nestingLimit : Nat := 80

/-- Reads a key that is followed by an equals sign: the path, the last part, and the characters behind the sign. -/
def readAssigned (cs : List Char) : Option (List String × String × List Char) := do
  let (parts, rest) ← readKey cs.length cs
  let key ← parts.getLast?
  if parts.length < nestingLimit then
    match rest with
    | '=' :: behind => some (parts.dropLast, key, skipBlank behind)
    | _ => none
  else none

/-- Skips blanks, comments and line breaks. -/
def skipGaps : (fuel : Nat) → List Char → Option (List Char)
  | 0, _ => none
  | fuel + 1, cs =>
    match skipBlank cs with
    | '#' :: rest =>
      match newline? (rest.dropWhile isPlain) with
      | some more => skipGaps fuel more
      | none => none
    | rest =>
      match newline? rest with
      | some more => skipGaps fuel more
      | none => some rest

mutual

/-- Reads a value. Of levels of nesting there are `depth` left, and every call is paid with fuel. -/
def readValue : (fuel depth : Nat) → List Char → Option (Item × List Char)
  | 0, _, _ => none
  | fuel + 1, depth, cs =>
    match cs with
    | '"' :: _ => (readString cs).map fun r => (.string (String.ofList r.1), r.2)
    | '\'' :: _ => (readString cs).map fun r => (.string (String.ofList r.1), r.2)
    | '[' :: rest =>
      match depth with
      | 0 => none
      | depth + 1 => do
        let ahead ← skipGaps (rest.length + 1) rest
        match ahead with
        | ']' :: behind => some (.array [], behind)
        | _ => do
          let (items, behind) ← readItems fuel depth ahead
          some (.array items, behind)
    | '\x7b' :: rest =>
      match depth with
      | 0 => none
      | depth + 1 =>
        match skipBlank rest with
        | '\x7d' :: behind => (inlineTable []).map (·, behind)
        | ahead => do
          let (pairs, behind) ← readPairs fuel depth ahead
          let item ← inlineTable pairs
          some (item, behind)
    | 't' :: 'r' :: 'u' :: 'e' :: rest => some (.bool true, rest)
    | 'f' :: 'a' :: 'l' :: 's' :: 'e' :: rest => some (.bool false, rest)
    | _ =>
      match readDateTime cs with
      | some rest => some (.dateTime, rest)
      | none =>
        match readFloat cs with
        | some (x, rest) => some (.float x, rest)
        | none => (readInteger cs).map fun (n, rest) => (.int n, rest)

/-- Reads the items of an array up to its closing bracket. A comma may follow the last one. -/
def readItems : (fuel depth : Nat) → List Char → Option (List Item × List Char)
  | 0, _, _ => none
  | fuel + 1, depth, cs => do
    let (item, rest) ← readValue fuel depth cs
    let ahead ← skipGaps (rest.length + 1) rest
    match ahead with
    | ']' :: behind => some ([item], behind)
    | ',' :: more => do
      let next ← skipGaps (more.length + 1) more
      match next with
      | ']' :: behind => some ([item], behind)
      | _ => do
        let (items, behind) ← readItems fuel depth next
        some (item :: items, behind)
    | _ => none

/-- Reads the pairs of a table in braces up to the closing one. No comma follows the last one. -/
def readPairs : (fuel depth : Nat) → List Char → Option (List Pair × List Char)
  | 0, _, _ => none
  | fuel + 1, depth, cs => do
    let (path, key, rest) ← readAssigned cs
    let (item, rest) ← readValue fuel depth rest
    match skipBlank rest with
    | '\x7d' :: behind => some ([⟨path, key, item⟩], behind)
    | ',' :: more => do
      let (pairs, behind) ← readPairs fuel depth more
      some (⟨path, key, item⟩ :: pairs, behind)
    | _ => none

end

/-! ## Reading documents -/

/-- A line of a document that says something. -/
inductive Line where
  | pair (p : Pair)
  | table (parts : List String)
  | element (parts : List String)

/-- Reads a pair and the rest of its line. -/
def readPairLine (cs : List Char) : Option (Line × List Char) := do
  let (path, key, rest) ← readAssigned cs
  let (item, rest) ← readValue (rest.length + 1) (nestingLimit - 1) rest
  let next ← nextLine? rest
  some (.pair ⟨path, key, item⟩, next)

/-- Reads a header and the rest of its line. -/
def readHeader (cs : List Char) : Option (Line × List Char) :=
  match cs with
  | '[' :: '[' :: rest => do
    let (parts, rest) ← readKey rest.length rest
    if parts.length < nestingLimit then
      match rest with
      | ']' :: ']' :: behind => (nextLine? behind).map (.element parts, ·)
      | _ => none
    else none
  | '[' :: rest => do
    let (parts, rest) ← readKey rest.length rest
    if parts.length < nestingLimit then
      match rest with
      | ']' :: behind => (nextLine? behind).map (.table parts, ·)
      | _ => none
    else none
  | _ => none

/-- Reads the lines of a document. Each takes a character at least, which the fuel counts. -/
def readLines : (fuel : Nat) → List Char → Option (List Line)
  | 0, _ => none
  | fuel + 1, cs =>
    match skipBlank cs with
    | [] => some []
    | '#' :: rest => (nextLine? ('#' :: rest)).bind (readLines fuel)
    | '[' :: rest => do
      let (line, next) ← readHeader ('[' :: rest)
      let lines ← readLines fuel next
      some (line :: lines)
    | ahead =>
      match newline? ahead with
      | some next => readLines fuel next
      | none => do
        let (line, next) ← readPairLine ahead
        let lines ← readLines fuel next
        some (line :: lines)

/-- A header with the pairs behind it. -/
structure Section where
  header : Line
  pairs : List Pair

/-- The pairs before the first header, and the sections behind them. -/
def sections : List Line → List Pair × List Section
  | [] => ([], [])
  | .pair p :: rest => let r := sections rest; (p :: r.1, r.2)
  | header :: rest => let r := sections rest; ([], ⟨header, r.1⟩ :: r.2)

/-- The table of a header in single brackets: a new one, or one that headers of tables below it have made. -/
def openTable : Option Item → Option Entries
  | none => some []
  | some (.table kind entries) => if kind.implicit && !kind.dotted && !kind.inline then some entries else none
  | some _ => none

/-- Adds a section to a document. -/
def addSection (document : TableKind × Entries) (s : Section) : Option (TableKind × Entries) :=
  match s.header with
  | .pair p => addPair false document p
  | .table parts => do
    let key ← parts.getLast?
    descend false false (fun kind entries => do
      let entries' ← openTable (entries.lookup key)
      let (k, es) ← addPairs false (⟨false, false, false⟩, entries') s.pairs
      some (kind, entries.put key (.table k es))) parts.dropLast document.1 document.2
  | .element parts => do
    let key ← parts.getLast?
    descend false false (fun kind entries => do
      let element ← addPairs false (⟨false, false, false⟩, []) s.pairs
      match entries.lookup key with
      | none => some (kind, entries.put key (.tables [element]))
      | some (.tables elements) => some (kind, entries.put key (.tables (elements ++ [element])))
      | some _ => none) parts.dropLast document.1 document.2

/-- The entries of the document that a text is. A byte order mark in front is skipped. -/
def entries? (text : String) : Option Entries := do
  let cs :=
    match text.toList with
    | '\ufeff' :: rest => rest
    | cs => cs
  let lines ← readLines (cs.length + 1) cs
  let (pairs, rest) := sections lines
  let root ← addPairs false (⟨false, false, false⟩, []) pairs
  let document ← rest.foldlM addSection root
  some document.2

end EventScript.Toml
