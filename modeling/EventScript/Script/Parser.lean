import EventScript.Script.Tree
import EventScript.Token.Scan

/-!
# From tokens to script trees

A recursive descent over the tokens of a text. The ten levels of binary operators are one function over a table, loosest
level first. Blocks, groups, the right operands of a chain and unary operators each add a level of nesting, which may not
exceed `nestingLimit`; the arguments of a placeholder add none.

A text whose tokens break off is read as far as they go: a fault of the tree that comes before the break is reported, and
looking at the break itself reports the break. The functions take fuel, which every call uses up; `Script.parse` provides
more than any text can use.
-/

namespace EventScript

/-- What the parser looks at: the tokens still to read, how they end, the nesting at this place and the number of loops
around it. -/
structure Cursor where
  tokens : List LocatedToken
  ending : Ending
  depth : Nat := 0
  loops : Nat := 0
deriving Repr

/-- Why a parse stops. -/
inductive ParseStop where
  | fault (f : ParseFault)
  | outOfFuel
deriving DecidableEq, Repr

/-- A reader of tokens. -/
abbrev Parse := StateT Cursor (Except ParseStop)

namespace Parse

/-- The next token with its place; none at the end of the text. -/
def peek : Parse (Option Token × Position) := do
  let cursor ← get
  match cursor.tokens with
  | next :: _ => pure (some next.token, next.position)
  | [] =>
    match cursor.ending with
    | .complete p => pure (none, p)
    | .broken f => throw (.fault f)

/-- Passes over the next token. -/
def advance : Parse Unit := modify fun cursor => { cursor with tokens := cursor.tokens.tail }

/-- Reports a fault at the next token. -/
def fail (cause : ParseCause) : Parse α := do
  let (_, p) ← peek
  throw (.fault ⟨cause, p⟩)

/-- Passes over this symbol, which has to be next. -/
def expect (wanted : Symbol) : Parse Unit := do
  let (next, _) ← peek
  if next = some (.symbol wanted) then advance else fail (.expected wanted next)

/-- The next token is this symbol. -/
def atSymbol (s : Symbol) : Parse Bool := do
  let (next, _) ← peek
  pure (next = some (.symbol s))

/-- Goes one level of nesting deeper. -/
def descend : Parse Unit := do
  modify fun cursor => { cursor with depth := cursor.depth + 1 }
  if nestingLimit < (← get).depth then fail .nestedTooDeep

/-- Comes back from one level of nesting. -/
def ascend : Parse Unit := modify fun cursor => { cursor with depth := cursor.depth - 1 }

/-- Comes back to a known nesting. -/
def restoreDepth (depth : Nat) : Parse Unit := modify fun cursor => { cursor with depth := depth }

def enterLoop : Parse Unit := modify fun cursor => { cursor with loops := cursor.loops + 1 }

def leaveLoop : Parse Unit := modify fun cursor => { cursor with loops := cursor.loops - 1 }

/-- The operator symbols of one level of precedence. -/
abbrev Level := List (Symbol × BinaryOp)

/-- The levels of the binary operators, loosest first. All of them group to the left. -/
def binaryLevels : List Level :=
  [ [(.or, .or)],
    [(.and, .and)],
    [(.bitOr, .bitOr)],
    [(.bitXor, .bitXor)],
    [(.bitAnd, .bitAnd)],
    [(.eq, .eq), (.ne, .ne)],
    [(.lt, .lt), (.le, .le), (.gt, .gt), (.ge, .ge)],
    [(.shl, .shl), (.shr, .shr)],
    [(.plus, .add), (.minus, .sub)],
    [(.star, .mul), (.slash, .div), (.percent, .mod)] ]

/-- The operator of this level that the token is. -/
def Level.operator? (level : Level) : Option Token → Option BinaryOp
  | some (.symbol s) => level.lookup s
  | _ => none

/-- The unary operator that the token is. -/
def unaryOperator? : Option Token → Option UnaryOp
  | some (.symbol .not) => some .not
  | some (.symbol .minus) => some .neg
  | some (.symbol .bitNot) => some .bitNot
  | _ => none

/-- The literal that the token is. -/
def literal? : Token → Option Literal
  | .int n => some (.int n)
  | .float x => some (.float x)
  | .string s => some (.string s)
  | .keyword .trueWord => some (.bool true)
  | .keyword .falseWord => some (.bool false)
  | .keyword .nullWord => some .null
  | _ => none

/-- A name, which has to be next; otherwise the fault `cause`. -/
def name (cause : ParseCause) : Parse String := do
  match ← peek with
  | (some (.ident n), _) => advance; pure n
  | _ => fail cause

mutual

/-- A whole expression. -/
def expression : Nat → Parse Expression
  | 0 => throw .outOfFuel
  | fuel + 1 => do
    descend
    let e ← ternary fuel
    ascend
    pure e

/-- A choice, or anything tighter. -/
def ternary : Nat → Parse Expression
  | 0 => throw .outOfFuel
  | fuel + 1 => do
    let condition ← binary fuel binaryLevels
    if ← atSymbol .question then
      advance
      let thenValue ← expression fuel
      expect .colon
      let elseValue ← expression fuel
      pure (.ternary condition.position condition thenValue elseValue)
    else pure condition

/-- Operands joined by the operators of these levels. -/
def binary : Nat → List Level → Parse Expression
  | 0, _ => throw .outOfFuel
  | fuel + 1, [] => unary fuel
  | fuel + 1, level :: tighter => do
    let left ← binary fuel tighter
    let base := (← get).depth
    let e ← chain fuel level tighter left
    restoreDepth base
    pure e

/-- The rest of a chain of operators of one level, given its left operand. -/
def chain : Nat → Level → List Level → Expression → Parse Expression
  | 0, _, _, _ => throw .outOfFuel
  | fuel + 1, level, tighter, left => do
    let (next, _) ← peek
    match level.operator? next with
    | none => pure left
    | some op =>
      advance
      descend
      let right ← binary fuel tighter
      chain fuel level tighter (.binary left.position left op right)

/-- An operand, with any unary operators in front of it. -/
def unary : Nat → Parse Expression
  | 0 => throw .outOfFuel
  | fuel + 1 => do
    let (next, p) ← peek
    match unaryOperator? next with
    | none => primary fuel
    | some op =>
      advance
      descend
      let operand ← unary fuel
      ascend
      pure (.unary p op operand)

/-- A literal, a name, a global variable, a placeholder or a group. -/
def primary : Nat → Parse Expression
  | 0 => throw .outOfFuel
  | fuel + 1 => do
    let (next, p) ← peek
    match next with
    | some (.ident n) => advance; pure (.name p n)
    | some (.keyword .globalWord) =>
      advance
      if ← atSymbol .dot then
        advance
        pure (.globalName p (← name .globalName))
      else if ← atSymbol .lbracket then
        advance
        let key ← expression fuel
        expect .rbracket
        pure (.globalAt p key)
      else fail .globalAccess
    | some (.symbol .percent) =>
      advance
      let n ← name .placeholderName
      let args ← placeholderArgs fuel
      if ← atSymbol .percent then
        advance
        pure (.placeholder p n args)
      else fail (.unterminatedPlaceholder n)
    | some (.symbol .lparen) =>
      advance
      let e ← expression fuel
      expect .rparen
      pure e
    | some token =>
      match literal? token with
      | some l => advance; pure (.literal p l)
      | none => fail (.unexpectedToken next)
    | none => fail (.unexpectedToken next)

/-- The arguments of a placeholder, each behind a colon. They bind as tightly as an operand of a unary operator, so the
closing percent sign is never taken for an operator. -/
def placeholderArgs : Nat → Parse (List Expression)
  | 0 => throw .outOfFuel
  | fuel + 1 => do
    if ← atSymbol .colon then
      advance
      let arg ← unary fuel
      let rest ← placeholderArgs fuel
      pure (arg :: rest)
    else pure []

end

/-- The arguments of a command up to the closing parenthesis; a comma may stand behind the last one. -/
def commandArgs : Nat → Parse (List Expression)
  | 0 => throw .outOfFuel
  | fuel + 1 => do
    if ← atSymbol .rparen then pure []
    else
      let arg ← expression fuel
      if ← atSymbol .comma then
        advance
        let rest ← commandArgs fuel
        pure (arg :: rest)
      else pure [arg]

/-- The arguments of a command in parentheses, or none. -/
def optionalArgs (fuel : Nat) : Parse (List Expression) := do
  if ← atSymbol .lparen then
    advance
    let args ← commandArgs fuel
    expect .rparen
    pure args
  else pure []

/-- What an expression in front of an equals sign assigns to. -/
def target? : Expression → Option Target
  | .name _ n => some (.name n)
  | .globalName _ n => some (.globalName n)
  | .globalAt _ key => some (.globalAt key)
  | _ => none

/-- An assignment or an expression on its own. -/
def assignmentOrExpression (fuel : Nat) (p : Position) : Parse Statement := do
  let e ← expression fuel
  if ← atSymbol .assign then
    match target? e with
    | none => fail .assignmentTarget
    | some target =>
      advance
      pure (.assign p target (← expression fuel))
  else pure (.expression p e)

/-- A statement that is one keyword and stands in a loop only. -/
def loopWord (cause : ParseCause) (s : Statement) : Parse Statement := do
  if (← get).loops = 0 then fail cause
  else
    advance
    pure s

mutual

/-- Statements up to the end of the text, or of the block they stand in. -/
def statements : Nat → Bool → Parse (List Statement)
  | 0, _ => throw .outOfFuel
  | fuel + 1, inBlock => do
    match ← peek with
    | (none, _) => pure []
    | (some (.symbol .semicolon), _) =>
      advance
      statements fuel inBlock
    | (some (.symbol .rbrace), _) =>
      if inBlock then pure []
      else
        let s ← statement fuel
        let rest ← statements fuel inBlock
        pure (s :: rest)
    | _ =>
      let s ← statement fuel
      let rest ← statements fuel inBlock
      pure (s :: rest)

/-- Statements in braces. -/
def block : Nat → Parse (List Statement)
  | 0 => throw .outOfFuel
  | fuel + 1 => do
    descend
    expect .lbrace
    let body ← statements fuel true
    expect .rbrace
    ascend
    pure body

/-- The body of a loop. -/
def loopBody : Nat → Parse (List Statement)
  | 0 => throw .outOfFuel
  | fuel + 1 => do
    enterLoop
    let body ← block fuel
    leaveLoop
    pure body

/-- One statement. -/
def statement : Nat → Parse Statement
  | 0 => throw .outOfFuel
  | fuel + 1 => do
    let (next, p) ← peek
    match next with
    | some (.symbol .lbrace) => pure (.block p (← block fuel))
    | some (.keyword .ifWord) => ifElse fuel
    | some (.keyword .whileWord) =>
      advance
      let condition ← expression fuel
      let body ← loopBody fuel
      pure (.whileLoop p condition body)
    | some (.keyword .forWord) =>
      advance
      let counter ← name .loopVariable
      expect .assign
      let start ← expression fuel
      expect .colon
      let stop ← expression fuel
      let body ← loopBody fuel
      pure (.forLoop p counter start stop body)
    | some (.keyword .breakWord) => loopWord .breakOutsideLoop (.breakLoop p)
    | some (.keyword .continueWord) => loopWord .continueOutsideLoop (.continueLoop p)
    | some (.keyword .returnWord) =>
      advance
      pure (.returnScript p)
    | some (.command n) =>
      advance
      pure (.command p n (← optionalArgs fuel))
    | _ => assignmentOrExpression fuel p

/-- A conditional, from its keyword on. -/
def ifElse : Nat → Parse Statement
  | 0 => throw .outOfFuel
  | fuel + 1 => do
    let (_, p) ← peek
    advance
    let condition ← expression fuel
    let thenBody ← block fuel
    match ← peek with
    | (some (.keyword .elseWord), _) =>
      advance
      match ← peek with
      | (some (.keyword .ifWord), _) =>
        descend
        let nested ← ifElse fuel
        ascend
        pure (.ifElse p condition thenBody (some [nested]))
      | _ => pure (.ifElse p condition thenBody (some (← block fuel)))
    | _ => pure (.ifElse p condition thenBody none)

end

/-- Enough fuel for any list of `n` tokens: between two tokens fewer than twenty calls are nested. -/
def fuelFor (n : Nat) : Nat := 20 * (n + 1)

end Parse

/-- The script that a source text writes, or the first fault in it. -/
def Script.parse (source : String) : Except ParseFault Script :=
  let list := scan source
  match (Parse.statements (Parse.fuelFor list.tokens.length) false).run ⟨list.tokens, list.ending, 0, 0⟩ with
  | .ok (statements, _) => .ok ⟨statements⟩
  | .error (.fault f) => .error f
  | .error .outOfFuel => .error ⟨.nestedTooDeep, ⟨1, 1⟩⟩

end EventScript
