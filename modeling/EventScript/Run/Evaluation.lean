import EventScript.Run.Host
import EventScript.Text.CaseMapping

/-!
# Evaluating expressions

Every node is entered before anything of it happens, and its parts follow from left to right. What entering does is given to
the evaluation; a run of a script enters with `Host.enter`, which asks for the token first, the deadline second and the hook
third.
-/

namespace EventScript

def Literal.value : Literal → Value
  | .null => .null
  | .bool b => .bool b
  | .int n => .int n
  | .float x => .float x
  | .string s => .string s

namespace Host

variable {W : Type} (host : Host W)

/-- Enters a node, unless the run is cancelled, its deadline has come or the hook refuses the node. -/
def enter (node : Node) : Run W Unit := do
  if host.isCancelled (← get).world then throw .cancelled
  let overdue ← Run.ofAct (liftM host.overdue?)
  match overdue with
  | some timeout => Run.fail (.deadlineExceeded timeout)
  | none => pure ()
  if ← Run.ofAct (host.veto node) then throw .vetoed

/-- The value of a name: the variable of the activation, else the global one, else `null`. -/
def readName (name : String) : Run W Value := do
  let s ← get
  match s.locals[name]? with
  | some v => pure v
  | none => pure ((host.readGlobal? name s.world).getD .null)

/-- The value of a global variable, `null` without one. -/
def readGlobal (key : String) : Run W Value := do
  let s ← get
  pure ((host.readGlobal? key s.world).getD .null)

/-- The key that a value names a global variable by. -/
def keyOf : Value → Run W String
  | .string s => pure s
  | .int n => pure (toString n.toInt)
  | v => Run.fail (.runtime (.globalKey v.kind))

/-- The bound of a counting loop that a value is. -/
def boundOf (v : Value) : Run W Int64 :=
  match v.asInt? with
  | some n => pure n
  | none => Run.fail (.runtime (.loopBound v.kind))

/-- The result of an operator. -/
def applied : Except OperandFault Value → Run W Value
  | .ok v => pure v
  | .error f => Run.fail (.runtime (.operand f))

/-- Runs a command: the hook's answer to it, else the registered one. -/
def runCommand (name : String) (args : List Value) : Run W Unit := do
  if ← host.offerCommand name args then pure ()
  else
    match host.command? name (← get).world with
    | some act => Run.ofAct (act args)
    | none => Run.fail (.unknownCommand (Text.upper name))

/-- Resolves a placeholder: the hook's answer, else that of the registered one, else `null`. -/
def resolve (name : String) (args : List Value) : Run W Value := do
  match ← Run.ofAct (host.offerPlaceholder name args) with
  | some v => pure v
  | none =>
    match host.placeholder? name (← get).world with
    | some act => Run.ofAct (act args)
    | none => pure .null

variable (enter : Node → Run W Unit)

mutual

/-- The value of an expression. -/
def evaluate : Expression → Run W Value
  | .literal p l => do
    enter (.expression (.literal p l))
    pure l.value
  | .name p n => do
    enter (.expression (.name p n))
    host.readName n
  | .globalName p n => do
    enter (.expression (.globalName p n))
    host.readGlobal n
  | .globalAt p key => do
    enter (.expression (.globalAt p key))
    let k ← keyOf (← evaluate key)
    host.readGlobal k
  | .binary p left op right => do
    enter (.expression (.binary p left op right))
    let a ← evaluate left
    match op with
    | .and => if a.isTruthy then pure (.bool (← evaluate right).isTruthy) else pure (.bool false)
    | .or => if a.isTruthy then pure (.bool true) else pure (.bool (← evaluate right).isTruthy)
    | _ =>
      let b ← evaluate right
      applied (a.binary op b)
  | .unary p op operand => do
    enter (.expression (.unary p op operand))
    let v ← evaluate operand
    applied (v.unary op)
  | .ternary p condition thenValue elseValue => do
    enter (.expression (.ternary p condition thenValue elseValue))
    let c ← evaluate condition
    if c.isTruthy then evaluate thenValue else evaluate elseValue
  | .placeholder p n args => do
    enter (.expression (.placeholder p n args))
    let values ← evaluateAll args
    host.resolve n values

/-- The values of several expressions, in order. -/
def evaluateAll : List Expression → Run W (List Value)
  | [] => pure []
  | e :: rest => do
    let v ← evaluate e
    let vs ← evaluateAll rest
    pure (v :: vs)

end

end Host

end EventScript
