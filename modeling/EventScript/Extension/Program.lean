/-!
# Extension scripts

An extension script is a list of procedures. A procedure has parameters, statements, and an expression at its end if it gives
something back.
-/

namespace EventScript.Extension

/-- Expressions. -/
inductive Term where
  | string (s : String)
  | int (n : Nat)
  | name (n : String)
  /-- `t[i]` -/
  | item (t i : Term)
  /-- `t.n` -/
  | field (t : Term) (n : String)
  /-- `t.len()` -/
  | length (t : Term)
  /-- `f(args)` -/
  | apply (f : String) (args : List Term)
  | add (a b : Term)
  | mul (a b : Term)
deriving Repr, Inhabited

/-- Statements. -/
inductive Line where
  | compute (t : Term)
  /-- Ends the script with a failure. -/
  | raise (t : Term)
deriving Repr

/-- A procedure. -/
structure Procedure where
  name : String
  params : List String
  body : List Line
  result : Option Term
deriving Repr

/-- A whole extension script. -/
structure Program where
  procedures : List Procedure
deriving Repr

/-- The procedure with this name and two parameters. -/
def Program.entry? (p : Program) (name : String) : Option Procedure :=
  p.procedures.find? fun q => q.name == name && q.params.length == 2

end EventScript.Extension
