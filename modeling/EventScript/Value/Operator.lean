/-!
# Operators

The operators of the language and how they are spelled.
-/

namespace EventScript

/-- Operators between two operands. -/
inductive BinaryOp where
  | add | sub | mul | div | mod
  | eq | ne | lt | le | gt | ge
  | and | or
  | bitAnd | bitOr | bitXor | shl | shr
deriving DecidableEq, Repr

def BinaryOp.symbol : BinaryOp → String
  | add => "+"
  | sub => "-"
  | mul => "*"
  | div => "/"
  | mod => "%"
  | eq => "=="
  | ne => "!="
  | lt => "<"
  | le => "<="
  | gt => ">"
  | ge => ">="
  | and => "&&"
  | or => "||"
  | bitAnd => "&"
  | bitOr => "|"
  | bitXor => "^"
  | shl => "<<"
  | shr => ">>"

def BinaryOp.all : List BinaryOp :=
  [add, sub, mul, div, mod, eq, ne, lt, le, gt, ge, and, or, bitAnd, bitOr, bitXor, shl, shr]

/-- The operator with this spelling. -/
def BinaryOp.ofSymbol? (s : String) : Option BinaryOp := all.find? fun op => op.symbol == s

/-- Operators in front of one operand. -/
inductive UnaryOp where
  | not | neg | bitNot
deriving DecidableEq, Repr

def UnaryOp.symbol : UnaryOp → String
  | not => "!"
  | neg => "-"
  | bitNot => "~"

def UnaryOp.all : List UnaryOp := [not, neg, bitNot]

/-- The operator with this spelling. -/
def UnaryOp.ofSymbol? (s : String) : Option UnaryOp := all.find? fun op => op.symbol == s

end EventScript
