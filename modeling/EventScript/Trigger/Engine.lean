import EventScript.Bridge
import EventScript.Clock
import EventScript.Pool
import EventScript.Registry
import EventScript.Script.Parser
import EventScript.Settings.Basic
import EventScript.Text.CaseMapping
import EventScript.Trigger.Context
import EventScript.Trigger.Cooldown

/-!
# The engine

A trigger is a named script. The engine holds all that activations of triggers share: what host code reaches, the files,
the clock, the registered commands and placeholders, the named triggers, the cooldowns, the bridge to the main thread and
the workers. It also keeps, for each activation, the phase it is in and, for one that a worker ran, how it ended.
-/

namespace EventScript

/-- A named script. Its number tells it from others of the same name, and its cooldowns are kept under that number. -/
structure Trigger where
  id : Nat
  name : String
  source : String
  script : Script
  mode : Mode

/-- How an activation ends that ends as it should. -/
inductive Completion where
  | completed
  /-- Refused by the hook, cancelled through the token, or skipped because of a cooldown. -/
  | cancelled
deriving DecidableEq, Repr

/-- What one learns by waiting for an activation. -/
abbrev Verdict := Except Fault Completion

/-- The phases of an activation. -/
inductive Phase where
  | created
  | running
  | completed
  | cancelled
  | failed
deriving DecidableEq, Repr

def Phase.isFinished : Phase → Bool
  | completed | cancelled | failed => true
  | created | running => false

/-- The phase that goes with a verdict. -/
def Phase.ofVerdict : Verdict → Phase
  | .ok .completed => completed
  | .ok .cancelled => cancelled
  | .error _ => failed

/-- Why something that was started comes to no answer. -/
inductive Crash where
  /-- Host code panicked. -/
  | panicked (p : Panic)
  /-- A loop used up the fuel it was given. -/
  | outOfFuel
deriving DecidableEq, Repr

/-- How the run of an activation ends. -/
abbrev Conclusion := Except Crash Verdict

/-- One start of a trigger. -/
structure Activation (H : Type) where
  id : Nat
  trigger : Trigger
  context : Context H
  mode : Mode

/-- What is handed to the main thread. -/
inductive MainTask (H : Type) where
  | work (w : Work H)
  /-- An activation, with the variables of its caller. -/
  | activation (a : Activation H) (vars : Variables)

/-- The answer to a task: the value of the work, or the verdict on the activation and the variables it reached. -/
def MainTask.Answer {H : Type} : MainTask H → Type
  | work _ => Value
  | activation _ _ => Verdict × Variables

/-- An activation that waits for a worker, with its own copy of the variables. -/
structure Job (H : Type) where
  activation : Activation H
  locals : Variables

/-- All that activations share. -/
structure Engine (H : Type) where
  settings : Settings
  reach : Reach H
  files : Files
  clock : Clock
  commands : Registry (Command H)
  placeholders : Registry (Placeholder H)
  named : Std.ExtTreeMap String Trigger compare
  /-- The cooldowns of each trigger, by its number. -/
  cooldowns : Std.ExtTreeMap Nat Cooldowns compare
  /-- The contexts whose event is cancelled. -/
  cancelledEvents : List Nat
  /-- The phase of each activation. -/
  phases : Std.ExtTreeMap Nat Phase compare
  /-- How the activations ended that workers ran. -/
  conclusions : Std.ExtTreeMap Nat Conclusion compare
  bridge : Bridge (MainTask H)
  /-- The main thread takes up tasks while a worker waits for it. -/
  attended : Bool
  workers : Pool (Job H)
  /-- New activations may start. -/
  accepting : Bool
  nextTrigger : Nat
  nextActivation : Nat

namespace Engine

variable {H : Type}

/-- An engine on which nothing has happened yet. -/
def new (settings : Settings) (main : MainThread) (attended : Bool) (host : H) (globals : Globals) (files : Files)
    (clock : Clock) : Engine H where
  settings := settings
  reach := ⟨host, globals, []⟩
  files := files
  clock := clock
  commands := .empty Text.upper
  placeholders := .empty Text.lower
  named := ∅
  cooldowns := ∅
  cancelledEvents := []
  phases := ∅
  conclusions := ∅
  bridge := .new main
  attended := attended
  workers := .new settings.execution.workerThreads
  accepting := true
  nextTrigger := 0
  nextActivation := 0

/-- The thread of the host is the main thread. -/
def hostIsMain (e : Engine H) : Bool := e.bridge.main == .attached

/-- The mode of triggers that choose none. -/
def defaultMode (e : Engine H) : Mode := .ofFlag e.settings.execution.defaultSync

def maxDepth (e : Engine H) : Nat := e.settings.execution.maxCallDepth

def cooldownsOf (e : Engine H) (trigger : Nat) : Cooldowns := e.cooldowns[trigger]?.getD .empty

def setCooldowns (e : Engine H) (trigger : Nat) (t : Cooldowns) : Engine H :=
  { e with cooldowns := e.cooldowns.insert trigger t }

def setPhase (e : Engine H) (activation : Nat) (p : Phase) : Engine H :=
  { e with phases := e.phases.insert activation p }

def isEventCancelled (e : Engine H) (context : Nat) : Bool := e.cancelledEvents.contains context

def cancelEvent (e : Engine H) (context : Nat) : Engine H :=
  if e.isEventCancelled context then e else { e with cancelledEvents := context :: e.cancelledEvents }

/-- Reads the clock. -/
def readClock : StateM (Engine H) Nat := fun e =>
  let r := e.clock.read
  (r.1, { e with clock := r.2 })

/-- Does to the files what an operation on them does. -/
def onFiles (a : StateM Files α) : StateM (Engine H) α := fun e =>
  let r := a e.files
  (r.1, { e with files := r.2 })

/-- Does to the global variables and the files what an operation on both does. -/
def onGlobals (a : Globals → StateM Files (α × Globals)) : StateM (Engine H) α := fun e =>
  let ((x, globals), files) := a e.reach.globals e.files
  (x, { e with reach := { e.reach with globals := globals }, files := files })

/-- An act of host code as an act on the engine. -/
def onReach (a : Act (Reach H) α) : Act (Engine H) α := fun e =>
  let r := a e.reach
  (r.1, { e with reach := r.2 })

/-- Makes a trigger of a source text, with a number of its own. -/
def newTrigger (name source : String) (mode : Mode) : StateM (Engine H) (Except Fault Trigger) := fun e =>
  match Script.parse source with
  | .ok script =>
    (.ok ⟨e.nextTrigger, name, source, script, mode⟩, { e with nextTrigger := e.nextTrigger + 1 })
  | .error f => (.error (.parse f), e)

/-- Registers a trigger under its name, in place of the one that may have it. -/
def insertTrigger (t : Trigger) (e : Engine H) : Engine H := { e with named := e.named.insert t.name t }

end Engine

end EventScript
