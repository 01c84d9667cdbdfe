import EventScript.Fault
import EventScript.Script.Tree
import EventScript.Value.Basic

/-!
# What a script runs against

A script runs against a host, which owns everything but the variables of the activation: the global variables, the
commands and placeholders, the token by which a run is cancelled, the clock behind its deadline, and a hook that is asked
first. `W` is the type of the host's state.

A run stops early for a reason, a `Halt`; the state it has reached by then stays.
-/

namespace EventScript

/-- Why a run stops before the end of its script. -/
inductive Halt where
  /-- The hook refused a node. -/
  | vetoed
  /-- The token was cancelled. -/
  | cancelled
  | failed (f : Fault)
  /-- Host code panicked, and the panic unwinds through the run. -/
  | panicked (payload : Panic)
  /-- A loop used up the fuel it was given. -/
  | outOfFuel
deriving DecidableEq, Repr

/-- What a running script changes: its variables, and the state of the host. -/
structure Scope (W : Type) where
  locals : Variables
  world : W

/-- A part of a run. -/
abbrev Run (W : Type) := ExceptT Halt (StateM (Scope W))

/-- A part of a run that does not see the variables of the activation. -/
abbrev Act (W : Type) := ExceptT Halt (StateM W)

namespace Run

/-- An act of the host as a part of a run: the variables stay as they are. -/
def ofAct (a : Act W α) : Run W α := fun s =>
  let r := a s.world
  (r.1, { s with world := r.2 })

/-- Stops with a fault. -/
def fail (f : Fault) : Run W α := throw (.failed f)

end Run

/-- What a script runs against. -/
structure Host (W : Type) where
  /-- The token of the run is cancelled. -/
  isCancelled : W → Bool
  /-- Reads the clock; gives the timeout if the deadline has come. -/
  overdue? : StateM W (Option Duration)
  /-- Asks the hook about a node that is about to run; `true` refuses it. -/
  veto : Node → Act W Bool
  /-- Offers a command to the hook, which may change the variables; `true` means that it is dealt with. -/
  offerCommand : String → List Value → Run W Bool
  /-- The command registered under a name. -/
  command? : String → W → Option (List Value → Act W Unit)
  /-- Offers a placeholder to the hook. -/
  offerPlaceholder : String → List Value → Act W (Option Value)
  /-- The placeholder registered under a name. -/
  placeholder? : String → W → Option (List Value → Act W Value)
  readGlobal? : String → W → Option Value
  writeGlobal : String → Value → Act W Unit

end EventScript
