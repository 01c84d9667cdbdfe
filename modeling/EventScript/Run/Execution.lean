import EventScript.Run.Evaluation

/-!
# Executing statements

A statement yields a signal: `none`, or the word that leaves the loop or the script. A list of statements stops at the
first signal other than `none`, and a loop takes up the signals that are meant for it.

A conditional loop has fuel, an upper bound on its passes; a counting loop has none, because its passes are counted
before the first one.
-/

namespace EventScript

/-- How a statement ends that does not halt the run. -/
inductive Signal where
  | none
  | continueLoop
  | breakLoop
  | returnScript
deriving DecidableEq, Repr

/-- Runs the passes of a conditional loop, at most `fuel` of them. -/
def whilePasses (condition : Run W Value) (body : Run W Signal) : Nat → Run W Signal
  | 0 => throw .outOfFuel
  | fuel + 1 => do
    let c ← condition
    if c.isTruthy then
      match ← body with
      | .breakLoop => pure .none
      | .returnScript => pure .returnScript
      | _ => whilePasses condition body fuel
    else pure .none

/-- Runs `passes` passes of a counting loop, the first one with the counter at `i`. -/
def forPasses (counter : String) (body : Run W Signal) : Nat → Int → Run W Signal
  | 0, _ => pure .none
  | passes + 1, i => do
    modify fun s => { s with locals := s.locals.insert counter (.int (Int64.ofInt i)) }
    match ← body with
    | .breakLoop => pure .none
    | .returnScript => pure .returnScript
    | _ => forPasses counter body passes (i + 1)

namespace Host

variable {W : Type} (host : Host W)

/-- Binds a variable of the activation. -/
def bind (name : String) (v : Value) : Run W Unit :=
  modify fun s => { s with locals := s.locals.insert name v }

section

variable (enter : Node → Run W Unit)

/-- Carries out an assignment. A computed key comes before the value. -/
def assign (target : Target) (value : Expression) : Run W Unit := do
  match target with
  | .name n =>
    let v ← host.evaluate enter value
    bind n v
  | .globalName n =>
    let v ← host.evaluate enter value
    Run.ofAct (host.writeGlobal n v)
  | .globalAt key =>
    let k ← keyOf (← host.evaluate enter key)
    let v ← host.evaluate enter value
    Run.ofAct (host.writeGlobal k v)

mutual

/-- Executes one statement. -/
def execute (fuel : Nat) : Statement → Run W Signal
  | .assign p target value => do
    enter (.statement (.assign p target value))
    host.assign enter target value
    pure .none
  | .ifElse p condition thenBody elseBody => do
    enter (.statement (.ifElse p condition thenBody elseBody))
    let c ← host.evaluate enter condition
    if c.isTruthy then executeAll fuel thenBody
    else
      match elseBody with
      | some body => executeAll fuel body
      | none => pure .none
  | .whileLoop p condition body => do
    enter (.statement (.whileLoop p condition body))
    whilePasses (host.evaluate enter condition) (executeAll fuel body) fuel
  | .forLoop p counter start stop body => do
    enter (.statement (.forLoop p counter start stop body))
    let i ← boundOf (← host.evaluate enter start)
    let j ← boundOf (← host.evaluate enter stop)
    forPasses counter (executeAll fuel body) (j.toInt - i.toInt).toNat i.toInt
  | .block p body => do
    enter (.statement (.block p body))
    executeAll fuel body
  | .command p name args => do
    enter (.statement (.command p name args))
    let values ← host.evaluateAll enter args
    host.runCommand name values
    pure .none
  | .breakLoop p => do
    enter (.statement (.breakLoop p))
    pure .breakLoop
  | .continueLoop p => do
    enter (.statement (.continueLoop p))
    pure .continueLoop
  | .returnScript p => do
    enter (.statement (.returnScript p))
    pure .returnScript
  | .expression p value => do
    enter (.statement (.expression p value))
    let _ ← host.evaluate enter value
    pure .none

/-- Executes statements up to the first signal. -/
def executeAll (fuel : Nat) : List Statement → Run W Signal
  | [] => pure .none
  | s :: rest => do
    match ← execute fuel s with
    | .none => executeAll fuel rest
    | signal => pure signal

end

end

/-- How the run of a whole script ends. -/
inductive Outcome where
  | completed
  | halted (reason : Halt)
deriving DecidableEq, Repr

/-- Runs a whole script. A signal that is left over at its end is dropped. -/
def run (fuel : Nat) (script : Script) : StateM (Scope W) Outcome := do
  match ← (host.executeAll host.enter fuel script.statements).run with
  | .ok _ => pure .completed
  | .error reason => pure (.halted reason)

end Host

end EventScript
