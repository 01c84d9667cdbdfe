import EventScript.Extension.Datum
import EventScript.Extension.Program
import EventScript.Trigger.Context

/-!
# Running extension scripts

A procedure is run on its arguments and can read and write global variables. A run fails or gives a datum; what it wrote
before it failed stays written.
-/

namespace EventScript.Extension

/-- A run: it fails or gives something, and it changes the global variables. -/
abbrev Computation := OptionT (StateM Globals)

/-- What a script knows about the place it runs at. -/
structure Setting where
  /-- What host objects are called in texts. -/
  handleName : String
  locals : List (String × Datum)

/-- The functions that a script can call besides its own accesses: two for global variables and two that log a text for
whoever runs the host. -/
def applyFunction (setting : Setting) (f : String) (args : List Datum) : Computation Datum := do
  match f, args with
  | "get_global", [.string name] =>
    pure (match (← get).get? name with
      | some v => .ofValue v
      | none => .unit)
  | "set_global", [.string name, d] =>
    match (← get).set name (d.toValue setting.handleName) with
    | .ok globals => do
      set globals
      pure .unit
    | .error _ => failure
  | "log", [.string _] => pure .unit
  | "log_debug", [.string _] => pure .unit
  | _, _ => failure

/-- Takes a result that may be missing as a run. -/
def given (d : Option Datum) : Computation Datum :=
  match d with
  | some d => pure d
  | none => failure

/-- Takes a datum that is within the limits. What an operation or a function gives has to be, and so has what a length is
asked of; what is only passed on may be larger. -/
def fitting (d : Datum) : Computation Datum := if d.fits then pure d else failure

mutual

/-- The datum of an expression. -/
def evaluate (setting : Setting) : Term → Computation Datum
  | .string s => pure (.string s)
  | .int n => pure (.int (Int64.ofInt n))
  | .name n => given (setting.locals.lookup n)
  | .item t i => do
    let d ← evaluate setting t
    let k ← evaluate setting i
    given (d.item? k)
  | .field t n => do
    let d ← evaluate setting t
    given (d.field? n)
  | .length t => do
    let d ← evaluate setting t
    given (← fitting d).length?
  | .apply f args => do
    let ds ← evaluateAll setting args
    fitting (← applyFunction setting f ds)
  | .add a b => do
    let x ← evaluate setting a
    let y ← evaluate setting b
    fitting (← given (x.add? setting.handleName y))
  | .mul a b => do
    let x ← evaluate setting a
    let y ← evaluate setting b
    fitting (← given (x.mul? y))

def evaluateAll (setting : Setting) : List Term → Computation (List Datum)
  | [] => pure []
  | t :: rest => do
    let d ← evaluate setting t
    let ds ← evaluateAll setting rest
    pure (d :: ds)

end

/-- Runs statements. -/
def runLines (setting : Setting) : List Line → Computation Unit
  | [] => pure ()
  | .compute t :: rest => do
    let _ ← evaluate setting t
    runLines setting rest
  | .raise t :: _ => do
    let _ ← evaluate setting t
    failure

/-- Runs a procedure on arguments. -/
def Procedure.run (p : Procedure) (handleName : String) (args : List Datum) : Computation Datum := do
  let setting : Setting := ⟨handleName, p.params.zip args⟩
  runLines setting p.body
  match p.result with
  | some t => evaluate setting t
  | none => pure .unit

/-- What a procedure is told about the activation that it is called from. -/
def callerRecord (caller : Caller) : Datum :=
  .record [
    ("actor", match caller.actor with | some a => .string a.id | none => .unit),
    ("event", .string caller.event.name),
    ("player", match caller.actor.bind (·.handle) with | some h => .handle h | none => .unit),
    ("sync", .bool (caller.mode == .sync))]

/-- Runs a procedure as host code of the extension with this name. -/
def Procedure.perform {H : Type} (p : Procedure) (handleName extension : String) (caller : Caller) (args : List Value) :
    Act (Reach H) Value := fun r =>
  let (d, globals) := (p.run handleName [callerRecord caller, .list (args.map .ofValue)]).run r.globals
  let r := { r with globals := globals }
  match d with
  | some d => (.ok (d.toValue handleName), r)
  | none => (.error (.failed (.runtime (.extension extension))), r)

end EventScript.Extension
