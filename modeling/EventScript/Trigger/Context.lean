import EventScript.Globals.Basic
import EventScript.Run.Host

/-!
# Events and the host

A context is all that the host knows about one event: its name, the actor that caused it, and a hook that is asked before
anything happens. Every activation that the event starts, directly or through others, shares it, and with it one token by
which the host stops them all.

Host code comes in three shapes: hooks, commands and placeholders. What it reaches is a `Reach`: its own state, the global
variables and the tokens. It is told by a `Caller` what it is called from.
-/

namespace EventScript

/-- How an activation runs: on the main thread on the variables of its caller, or on a worker on a copy of them. -/
inductive Mode where
  | sync
  | async
deriving DecidableEq, Repr

def Mode.ofFlag (sync : Bool) : Mode := if sync then .sync else .async

/-- Whoever caused an event. -/
structure Actor where
  id : String
  /-- The object of the host that stands for the actor. -/
  handle : Option HostHandle
deriving DecidableEq, Repr

structure Event where
  name : String
  cancellable : Bool
deriving DecidableEq, Repr

/-- What host code is told about the activation that it is called from. -/
structure Caller where
  /-- The number of the context, which is that of its token and its event too. -/
  context : Nat
  event : Event
  actor : Option Actor
  mode : Mode
  /-- The call comes from the main thread. -/
  onMain : Bool
  /-- How many activations are being run on this thread, each inside the one before. -/
  depth : Nat
deriving DecidableEq, Repr

/-- What host code reaches. -/
structure Reach (H : Type) where
  /-- The state of the host itself. -/
  host : H
  globals : Globals
  /-- The contexts whose token is cancelled. -/
  cancelled : List Nat

namespace Reach

variable {H : Type}

def isCancelled (r : Reach H) (context : Nat) : Bool := r.cancelled.contains context

/-- Cancels the token of a context. -/
def cancel (r : Reach H) (context : Nat) : Reach H :=
  if r.isCancelled context then r else { r with cancelled := context :: r.cancelled }

end Reach

/-- Work that may only be done on the main thread. It ends in a value or in a panic. -/
abbrev Work (H : Type) := ExceptT Panic (StateM (Reach H)) Value

/-- What a command or a placeholder does: acts of its own, or such acts, a unit of work for the main thread, and what follows
from the answer to it. -/
inductive Deed (H : Type) (α : Type) where
  | act (run : Act (Reach H) α)
  | handOver (before : Act (Reach H) Unit) (work : Work H) (next : Except BridgeFault Value → Deed H α)

/-- A command of the host. -/
abbrev Command (H : Type) := Caller → List Value → Deed H Unit

/-- A placeholder of the host. -/
abbrev Placeholder (H : Type) := Caller → List Value → Deed H Value

/-- Host code that is asked before every node, every command and every placeholder. -/
structure Hook (H : Type) where
  /-- `true` refuses the node. -/
  onNode : Caller → Node → Act (Reach H) Bool
  /-- `true` means that the command is dealt with. The hook may change the variables of the activation. -/
  onCommand : Caller → String → List Value → Run (Reach H) Bool
  onPlaceholder : Caller → String → List Value → Act (Reach H) (Option Value)

/-- A hook that never does anything. -/
def Hook.idle (H : Type) : Hook H := ⟨fun _ _ => pure false, fun _ _ _ => pure false, fun _ _ _ => pure none⟩

/-- All that the host knows about one event. -/
structure Context (H : Type) where
  id : Nat
  event : Event
  actor : Option Actor
  hook : Hook H

/-- The variables that a fresh activation finds: the name of the event, and the object of the actor if it has one. -/
def Context.bindings {H : Type} (c : Context H) : Variables :=
  let named : Variables := (∅ : Variables).insert "event" (.string c.event.name)
  match c.actor.bind (·.handle) with
  | some h => named.insert "player" (.handle h)
  | none => named

end EventScript
