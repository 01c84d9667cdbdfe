import EventScript.Proofs.Script.Places
import EventScript.Script.Parser

/-!
# Writing a tree down

`Expression.tokens` and `Statement.tokens` write a tree in the syntax of the language. An operand is put in parentheses where
the table of precedences asks for it and nowhere else: operators group to the left, so the right operand of an operator has to
bind tighter than it, the left one as tight. Statements are separated by semicolons.
-/

namespace EventScript

/-- How tight an operator binds, from one for the loosest on. -/
def BinaryOp.rank : BinaryOp → Nat
  | .or => 1
  | .and => 2
  | .bitOr => 3
  | .bitXor => 4
  | .bitAnd => 5
  | .eq | .ne => 6
  | .lt | .le | .gt | .ge => 7
  | .shl | .shr => 8
  | .add | .sub => 9
  | .mul | .div | .mod => 10

theorem BinaryOp.rank_pos (op : BinaryOp) : 0 < op.rank := by cases op <;> decide

theorem BinaryOp.rank_le (op : BinaryOp) : op.rank ≤ 10 := by cases op <;> decide

def BinaryOp.token : BinaryOp → Symbol
  | .add => .plus
  | .sub => .minus
  | .mul => .star
  | .div => .slash
  | .mod => .percent
  | .eq => .eq
  | .ne => .ne
  | .lt => .lt
  | .le => .le
  | .gt => .gt
  | .ge => .ge
  | .and => .and
  | .or => .or
  | .bitAnd => .bitAnd
  | .bitOr => .bitOr
  | .bitXor => .bitXor
  | .shl => .shl
  | .shr => .shr

def UnaryOp.token : UnaryOp → Symbol
  | .not => .not
  | .neg => .minus
  | .bitNot => .bitNot

def Literal.token : Literal → Token
  | .null => .keyword .nullWord
  | .bool true => .keyword .trueWord
  | .bool false => .keyword .falseWord
  | .int n => .int n
  | .float x => .float x
  | .string s => .string s

namespace Expression

/-- The rank of operands of unary operators and of the arguments of placeholders. -/
def operandRank : Nat := 11

/-- How tight the outermost part of an expression binds: a choice binds loosest, what needs no operator tightest. -/
def rank : Expression → Nat
  | .ternary .. => 0
  | .binary _ _ op _ => op.rank
  | .unary .. => operandRank
  | _ => operandRank + 1

/-- In parentheses, if they are needed. -/
def grouped (needed : Bool) (written : List Token) : List Token :=
  if needed then .symbol .lparen :: written ++ [.symbol .rparen] else written

mutual

/-- The expression as tokens. -/
def tokens : Expression → List Token
  | .literal _ value => [value.token]
  | .name _ n => [.ident n]
  | .globalName _ n => [.keyword .globalWord, .symbol .dot, .ident n]
  | .globalAt _ key => .keyword .globalWord :: .symbol .lbracket :: key.tokens ++ [.symbol .rbracket]
  | .binary _ left op right =>
    grouped (left.rank < op.rank) left.tokens ++ .symbol op.token :: grouped (right.rank < op.rank + 1) right.tokens
  | .unary _ op operand => .symbol op.token :: grouped (operand.rank < operandRank) operand.tokens
  | .ternary _ condition thenValue elseValue =>
    grouped (condition.rank < 1) condition.tokens ++
      .symbol .question :: thenValue.tokens ++ .symbol .colon :: elseValue.tokens
  | .placeholder _ n args => .symbol .percent :: .ident n :: placeholderTokens args ++ [.symbol .percent]

/-- The arguments of a placeholder, each behind a colon. -/
def placeholderTokens : List Expression → List Token
  | [] => []
  | arg :: rest => .symbol .colon :: grouped (arg.rank < operandRank) arg.tokens ++ placeholderTokens rest

end

/-- The expression where something of this rank or a higher one has to stand. -/
def operandTokens (rank : Nat) (e : Expression) : List Token := grouped (e.rank < rank) e.tokens

theorem operandTokens_of_le {rank : Nat} {e : Expression} (h : rank ≤ e.rank) : operandTokens rank e = e.tokens := by
  simp [operandTokens, grouped, Nat.not_lt.mpr h]

theorem operandTokens_of_lt {rank : Nat} {e : Expression} (h : e.rank < rank) :
    operandTokens rank e = grouped true e.tokens := by
  simp [operandTokens, h]

theorem tokens_binary (p : Position) (left : Expression) (op : BinaryOp) (right : Expression) :
    tokens (.binary p left op right) =
      operandTokens op.rank left ++ .symbol op.token :: operandTokens (op.rank + 1) right := by
  simp only [tokens, operandTokens]

theorem tokens_unary (p : Position) (op : UnaryOp) (operand : Expression) :
    tokens (.unary p op operand) = .symbol op.token :: operandTokens operandRank operand := by
  simp only [tokens, operandTokens]

theorem tokens_ternary (p : Position) (condition thenValue elseValue : Expression) :
    tokens (.ternary p condition thenValue elseValue) =
      operandTokens 1 condition ++ .symbol .question :: thenValue.tokens ++ .symbol .colon :: elseValue.tokens := by
  simp only [tokens, operandTokens]

theorem placeholderTokens_cons (arg : Expression) (rest : List Expression) :
    placeholderTokens (arg :: rest) = .symbol .colon :: operandTokens operandRank arg ++ placeholderTokens rest := by
  simp only [placeholderTokens, operandTokens]

/-- The arguments of a command, with commas between them. -/
def commandTokens : List Expression → List Token
  | [] => []
  | [arg] => arg.tokens
  | arg :: rest => arg.tokens ++ .symbol .comma :: commandTokens rest

/-- The arguments of a command in parentheses; none are not written. -/
def optionalTokens (args : List Expression) : List Token :=
  if args.isEmpty then [] else .symbol .lparen :: commandTokens args ++ [.symbol .rparen]

end Expression

/-- What an assignment is to, as the expression that is written in front of the equals sign. -/
def Target.expression : Target → Expression
  | .name n => .name ⟨1, 1⟩ n
  | .globalName n => .globalName ⟨1, 1⟩ n
  | .globalAt key => .globalAt ⟨1, 1⟩ key

namespace Statement

def braced (written : List Token) : List Token := .symbol .lbrace :: written ++ [.symbol .rbrace]

/-- One conditional and nothing else. -/
def loneConditional : List Statement → Bool
  | [.ifElse ..] => true
  | _ => false

mutual

/-- The statement as tokens. If `chained`, an else body that is one conditional follows its `ELSE` without braces. -/
def tokens (chained : Bool) : Statement → List Token
  | .assign _ target value => target.expression.tokens ++ .symbol .assign :: value.tokens
  | .ifElse _ condition thenBody elseBody =>
    .keyword .ifWord :: condition.tokens ++ braced (tokensOfAll chained thenBody) ++ elseTokens chained elseBody
  | .whileLoop _ condition body => .keyword .whileWord :: condition.tokens ++ braced (tokensOfAll chained body)
  | .forLoop _ counter start stop body =>
    .keyword .forWord :: .ident counter :: .symbol .assign :: start.tokens ++ .symbol .colon :: stop.tokens ++
      braced (tokensOfAll chained body)
  | .block _ body => braced (tokensOfAll chained body)
  | .command _ n args => .command n :: Expression.optionalTokens args
  | .breakLoop _ => [.keyword .breakWord]
  | .continueLoop _ => [.keyword .continueWord]
  | .returnScript _ => [.keyword .returnWord]
  | .expression _ value => value.tokens

/-- Statements with semicolons between them. -/
def tokensOfAll (chained : Bool) : List Statement → List Token
  | [] => []
  | [s] => s.tokens chained
  | s :: rest => s.tokens chained ++ .symbol .semicolon :: tokensOfAll chained rest

def elseTokens (chained : Bool) : Option (List Statement) → List Token
  | none => []
  | some body =>
    if chained && loneConditional body then .keyword .elseWord :: tokensOfAll chained body
    else .keyword .elseWord :: braced (tokensOfAll chained body)

end

mutual

/-- `BREAK` and `CONTINUE` stand in the body of a loop of this statement, or a loop is around it. -/
def keepsToLoops (inLoop : Bool) : Statement → Bool
  | .ifElse _ _ thenBody elseBody => allKeepToLoops inLoop thenBody && elseKeepsToLoops inLoop elseBody
  | .whileLoop _ _ body => allKeepToLoops true body
  | .forLoop _ _ _ _ body => allKeepToLoops true body
  | .block _ body => allKeepToLoops inLoop body
  | .breakLoop _ => inLoop
  | .continueLoop _ => inLoop
  | _ => true

def allKeepToLoops (inLoop : Bool) : List Statement → Bool
  | [] => true
  | s :: rest => s.keepsToLoops inLoop && allKeepToLoops inLoop rest

def elseKeepsToLoops (inLoop : Bool) : Option (List Statement) → Bool
  | none => true
  | some body => allKeepToLoops inLoop body

end

end Statement

/-- The script as tokens. -/
def Script.tokens (chained : Bool) (s : Script) : List Token := Statement.tokensOfAll chained s.statements

end EventScript
