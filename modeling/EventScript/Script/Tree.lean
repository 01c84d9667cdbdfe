import EventScript.Text.Position
import EventScript.Value.Operator

/-!
# Script trees

A script is a list of statements, and statements hold expressions. Every node knows the place in the source text it was
read from. Parentheses leave no node of their own.
-/

namespace EventScript

/-- Values that can be written down in a script. -/
inductive Literal where
  | null
  | bool (b : Bool)
  | int (n : Int64)
  | float (x : Float)
  | string (s : String)
deriving DecidableEq, Repr

/-- Expressions. A name is looked up among the variables of the activation first and among the global ones second;
`globalName` and `globalAt` look at the global ones only, the second under a computed key. -/
inductive Expression where
  | literal (position : Position) (value : Literal)
  | name (position : Position) (name : String)
  | globalName (position : Position) (name : String)
  | globalAt (position : Position) (key : Expression)
  | binary (position : Position) (left : Expression) (op : BinaryOp) (right : Expression)
  | unary (position : Position) (op : UnaryOp) (operand : Expression)
  | ternary (position : Position) (condition thenValue elseValue : Expression)
  | placeholder (position : Position) (name : String) (args : List Expression)
deriving Repr, Inhabited

def Expression.position : Expression → Position
  | literal p _ => p
  | name p _ => p
  | globalName p _ => p
  | globalAt p _ => p
  | binary p _ _ _ => p
  | unary p _ _ => p
  | ternary p _ _ _ => p
  | placeholder p _ _ => p

/-- What can stand on the left of an assignment. -/
inductive Target where
  | name (name : String)
  | globalName (name : String)
  | globalAt (key : Expression)
deriving Repr

/-- Statements. A chain of `else if` is nested: its else body holds one `ifElse`. -/
inductive Statement where
  | assign (position : Position) (target : Target) (value : Expression)
  | ifElse (position : Position) (condition : Expression) (thenBody : List Statement)
      (elseBody : Option (List Statement))
  | whileLoop (position : Position) (condition : Expression) (body : List Statement)
  | forLoop (position : Position) (counter : String) (start stop : Expression) (body : List Statement)
  | block (position : Position) (body : List Statement)
  | command (position : Position) (name : String) (args : List Expression)
  | breakLoop (position : Position)
  | continueLoop (position : Position)
  | returnScript (position : Position)
  | expression (position : Position) (value : Expression)
deriving Repr, Inhabited

def Statement.position : Statement → Position
  | assign p _ _ => p
  | ifElse p _ _ _ => p
  | whileLoop p _ _ => p
  | forLoop p _ _ _ _ => p
  | block p _ => p
  | command p _ _ => p
  | breakLoop p => p
  | continueLoop p => p
  | returnScript p => p
  | expression p _ => p

/-- A parsed source text. -/
structure Script where
  statements : List Statement
deriving Repr, Inhabited

/-- Any node of a tree: what is announced before it runs. -/
inductive Node where
  | statement (s : Statement)
  | expression (e : Expression)
deriving Repr

def Node.position : Node → Position
  | statement s => s.position
  | expression e => e.position

end EventScript
