import Mathlib.Logic.Function.Basic
import Mathlib.Logic.Relation
import EventScript.Proofs.Trigger.Basic

/-!
# Threads

Activations are started and run by many threads: the main thread, the workers, and whatever other threads the host has. A
`System` is an engine together with what each thread is doing, and `System.Step` is one step of one thread. The steps of
different threads come in any order, and a call across the bridge may run out of time at any moment.

Scripts and the code of the host are not followed node by node. Between two steps that concern an activation they do what they
like to their variables and to the rest of the engine (`Step.assign`, `Step.act`), and at any time a script may call a trigger,
cancel the event, hand work over, come to any verdict, or panic. What holds of every system that can be reached therefore holds
for all scripts and all hosts. That an engine does nothing else is `Engine.Comes.reachable`: each of its operations, from the
interpreter up, is a number of these steps.
-/

namespace EventScript

/-- The threads. Other threads are the host's own. -/
inductive Thread where
  | main
  | worker (i : Nat)
  | other (i : Nat)
deriving DecidableEq, Repr

/-- What of an engine concerns activations. The rest is for scripts and for the host to change. -/
structure Affairs (H : Type) where
  settings : Settings
  cancelledEvents : List Nat
  phases : Std.ExtTreeMap Nat Phase compare
  conclusions : Std.ExtTreeMap Nat Conclusion compare
  bridge : Bridge (MainTask H)
  attended : Bool
  workers : Pool (Job H)
  accepting : Bool
  nextActivation : Nat

def Engine.affairs {H : Type} (e : Engine H) : Affairs H :=
  ⟨e.settings, e.cancelledEvents, e.phases, e.conclusions, e.bridge, e.attended, e.workers, e.accepting, e.nextActivation⟩

/-- What a level of a thread is there for. -/
inductive Duty (H : Type) where
  /-- Code of the host runs. -/
  | host
  /-- The script of an activation runs, inside as many others on this thread. -/
  | script (a : Activation H) (outside : Nat)
  /-- The main thread runs an activation for a caller on another thread. -/
  | task
  /-- A worker runs an activation out of its queue. -/
  | job
  /-- The main thread carries out the tasks that it took out of the queue. -/
  | batch (rest : List (MainTask H))

/-- How far a level is with an activation that it starts. -/
inductive Errand (H : Type) where
  | idle
  /-- The engine accepts activations; the cooldown has yet to be looked at. -/
  | asking (t : Trigger) (c : Context H) (mode : Mode)
  /-- The activation is made. -/
  | starting (a : Activation H)
  /-- The activation is about to run on this thread. -/
  | entering (a : Activation H)
  /-- The activation runs on the level above. -/
  | inside
  /-- The activation was handed to the main thread. -/
  | waiting (a : Activation H)

/-- One level of what a thread is doing, with the variables that it holds. -/
structure Level (H : Type) where
  duty : Duty H
  vars : Variables
  errand : Errand H

/-- An engine and its threads. -/
structure System (H : Type) where
  engine : Engine H
  /-- The levels of each thread, the innermost first. -/
  stack : Thread → List (Level H)
  /-- How many activations are being run on a thread, as the thread counts them. -/
  depth : Thread → Nat
  /-- What the main thread has for the callers of activations. -/
  replies : Nat → Option (Except BridgeFault (Verdict × Variables))
  /-- The handles of the activations that were started. -/
  handles : List Handle
  /-- The activations whose callers waited for too long. -/
  abandoned : List Nat

variable {H : Type}

/-- Code of a script or of the host runs, and may start activations. -/
def Duty.RunsCode : Duty H → Prop
  | .host | .script .. => True
  | .task | .job | .batch _ => False

/-- A script starts triggers in its own context, and the host in any. -/
def Duty.MayStartIn (c : Context H) : Duty H → Prop
  | .host => True
  | .script a _ => c = a.context
  | .task | .job | .batch _ => False

/-- What host code is told that the script of an activation calls on this thread. -/
def Activation.callerOn (a : Activation H) (θ : Thread) (outside : Nat) : Caller :=
  ⟨a.context.id, a.context.event, a.context.actor, a.mode, θ = .main, outside + 1⟩

/-- The tasks that are dropped when the bridge is shut down. -/
def Bridge.dropped {τ : Type} (b : Bridge τ) : List τ :=
  match b.main with
  | .dedicated => []
  | .attached => b.pending

/-- The number of the activation that a task is. -/
def MainTask.activation? : MainTask H → Option Nat
  | .activation a _ => some a.id
  | .work _ => none

namespace Engine

/-- To read the clock is nobody's affair. -/
theorem AtMostReads.affairs {e e' : Engine H} (h : e.AtMostReads e') : e'.affairs = e.affairs := by
  rcases h with rfl | rfl <;> rfl

/-- To ask for a cooldown concerns no activation. -/
theorem affairs_isCooling (t : Trigger) (c : Context H) (e : Engine H) : (isCooling t c e).2.affairs = e.affairs :=
  (isCooling_reads t c e).affairs

/-- Neither does a deadline. -/
theorem affairs_start (timeout : Option Duration) (e : Engine H) : (Deadline.start timeout e).2.affairs = e.affairs :=
  (start_reads timeout e).affairs

/-- Neither does a placeholder of the engine itself. -/
theorem affairs_reservedPlaceholder (a : Activation H) (caller : Caller) (name : String) (e : Engine H) :
    (reservedPlaceholder a caller name e).2.affairs = e.affairs := (reservedPlaceholder_reads a caller name e).affairs

/-- Neither does work of the host. -/
theorem affairs_workHere (w : Work H) (e : Engine H) : (workHere w e).2.affairs = e.affairs := by
  rw [workHere_state]
  rfl

/-- Neither does a global variable. -/
theorem affairs_writeGlobal (key : String) (v : Value) (e : Engine H) : (writeGlobal key v e).2.affairs = e.affairs := by
  obtain ⟨globals, h⟩ := writeGlobal_state key v e
  rw [h]
  rfl

/-- Only an event that allows it is cancelled, and only for a synchronous activation. -/
theorem cancelEventFor_cases (caller : Caller) (e : Engine H) :
    (cancelEventFor caller e).2 = e ∨
      caller.mode = .sync ∧ caller.event.cancellable ∧ (cancelEventFor caller e).2 = e.cancelEvent caller.context := by
  unfold cancelEventFor
  cases hmode : caller.mode with
  | async => exact .inl rfl
  | sync =>
    cases hcancellable : caller.event.cancellable with
    | false => exact .inl rfl
    | true => exact .inr ⟨rfl, rfl, rfl⟩

/-- What is done about the event concerns nothing else. -/
theorem affairs_cancelEventFor (caller : Caller) (e : Engine H) :
    ∃ events, (cancelEventFor caller e).2.affairs = { e.affairs with cancelledEvents := events } := by
  obtain h | ⟨-, -, h⟩ := cancelEventFor_cases caller e
  · exact ⟨e.cancelledEvents, congrArg Engine.affairs h⟩
  · rw [h]
    unfold cancelEvent
    split
    · exact ⟨e.cancelledEvents, rfl⟩
    · exact ⟨_, rfl⟩

end Engine

namespace System

/-- An engine with all its threads at rest. -/
def atRest (e : Engine H) : System H := ⟨e, fun _ => [], fun _ => 0, fun _ => none, [], []⟩

section

variable (s : System H) (θ : Thread)

/-- Gives a thread other levels. -/
def put (levels : List (Level H)) : System H := { s with stack := Function.update s.stack θ levels }

def setDepth (n : Nat) : System H := { s with depth := Function.update s.depth θ n }

def setPhase (id : Nat) (p : Phase) : System H := { s with engine := s.engine.setPhase id p }

def setBridge (b : Bridge (MainTask H)) : System H := { s with engine := { s.engine with bridge := b } }

def setWorkers (p : Pool (Job H)) : System H := { s with engine := { s.engine with workers := p } }

def conclude (id : Nat) (c : Conclusion) : System H :=
  { s with engine := { s.engine with conclusions := s.engine.conclusions.insert id c } }

def reply (id : Nat) (r : Except BridgeFault (Verdict × Variables)) : System H :=
  { s with replies := Function.update s.replies id (some r) }

def handOut (h : Handle) : System H := { s with handles := h :: s.handles }

/-- The code of the host may run on the thread: inside of other code, or on a thread of the host that does nothing. -/
def AdmitsHost : Prop :=
  match s.stack θ with
  | [] =>
    match θ with
    | .main => s.engine.hostIsMain
    | .worker _ => False
    | .other _ => True
  | l :: _ => l.duty.RunsCode ∧ l.errand = .idle

/-- An activation that ran on the thread has come to a verdict; what is under it takes the variables that it left. -/
def deliver (a : Activation H) (v : Verdict) (reached : Variables) (duty : Duty H) (σ : List (Level H)) : System H :=
  match duty with
  | .task => (s.put θ σ).reply a.id (.ok (v, reached))
  | .job => (s.put θ σ).conclude a.id (.ok v)
  | duty => (s.put θ (⟨duty, reached, .idle⟩ :: σ)).handOut ⟨a.id, some v⟩

/-- An activation that ran on the thread has panicked. A task and a job end there; other code is on its own. -/
def unwind (a : Activation H) (p : Panic) (duty : Duty H) (vars : Variables) (σ : List (Level H)) : System H :=
  match duty with
  | .task => (s.put θ σ).reply a.id (.error (.panicked p))
  | .job => (s.put θ σ).conclude a.id (.error (.panicked p))
  | duty => s.put θ (⟨duty, vars, .idle⟩ :: σ)

/-- A caller goes on without its activation. -/
def giveUp (a : Activation H) (f : BridgeFault) (duty : Duty H) (vars : Variables) (σ : List (Level H)) : System H :=
  ((s.put θ (⟨duty, vars, .idle⟩ :: σ)).setPhase a.id .failed).handOut ⟨a.id, some (.error (.bridge f))⟩

end

/-- One step of one thread, or of those who look after the engine. -/
inductive Step : System H → System H → Prop
  /-- Something changes that concerns no activation. -/
  | act {s : System H} {e : Engine H} : e.affairs = s.engine.affairs → Step s { s with engine := e }
  /-- Code changes the variables that it holds. -/
  | assign {s : System H} {θ duty vars vars' σ} : s.stack θ = ⟨duty, vars, .idle⟩ :: σ → duty.RunsCode →
      Step s (s.put θ (⟨duty, vars', .idle⟩ :: σ))
  /-- A script asks to cancel the event. -/
  | cancelEvent {s : System H} {θ a outside vars σ} : s.stack θ = ⟨.script a outside, vars, .idle⟩ :: σ →
      Step s { s with engine := (Engine.cancelEventFor (a.callerOn θ outside) s.engine).2 }
  /-- Code hands work to the main thread. -/
  | handOver {s : System H} {θ duty vars σ w b} : s.stack θ = ⟨duty, vars, .idle⟩ :: σ → duty.RunsCode → θ ≠ .main →
      s.engine.bridge.submit (.work w) = .ok b → Step s (s.setBridge b)
  | hostEnters {s : System H} {θ vars} : s.AdmitsHost θ → Step s (s.put θ (⟨.host, vars, .idle⟩ :: s.stack θ))
  | hostLeaves {s : System H} {θ vars σ} : s.stack θ = ⟨.host, vars, .idle⟩ :: σ → Step s (s.put θ σ)
  /-- Code starts a trigger. -/
  | ask {s : System H} {θ duty vars σ} (t : Trigger) (c : Context H) (mode : Mode) :
      s.stack θ = ⟨duty, vars, .idle⟩ :: σ → duty.MayStartIn c → s.engine.accepting →
      Step s (s.put θ (⟨duty, vars, .asking t c mode⟩ :: σ))
  /-- The actor is cooling down, and the trigger is skipped. -/
  | skip {s : System H} {θ duty vars σ t c mode} : s.stack θ = ⟨duty, vars, .asking t c mode⟩ :: σ →
      (Engine.isCooling t c s.engine).1 = true →
      Step s (({ s with engine := (Engine.newActivation .cancelled (Engine.isCooling t c s.engine).2).2 }.put θ
        (⟨duty, vars, .idle⟩ :: σ)).handOut ⟨s.engine.nextActivation, some (.ok .cancelled)⟩)
  /-- The activation is made. -/
  | make {s : System H} {θ duty vars σ t c mode} : s.stack θ = ⟨duty, vars, .asking t c mode⟩ :: σ →
      (Engine.isCooling t c s.engine).1 = false →
      Step s ({ s with engine := (Engine.newActivation .created (Engine.isCooling t c s.engine).2).2 }.put θ
        (⟨duty, vars, .starting ⟨s.engine.nextActivation, t, c, mode⟩⟩ :: σ))
  /-- A synchronous activation that is started on the main thread runs there. -/
  | stay {s : System H} {duty vars a σ} : s.stack .main = ⟨duty, vars, .starting a⟩ :: σ → a.mode = .sync →
      Step s (s.put .main (⟨duty, vars, .entering a⟩ :: σ))
  /-- From another thread it is handed to the main thread, and the variables go with it. -/
  | cross {s : System H} {θ duty vars a σ b} : s.stack θ = ⟨duty, vars, .starting a⟩ :: σ → a.mode = .sync → θ ≠ .main →
      s.engine.bridge.submit (.activation a vars) = .ok b →
      Step s ((s.put θ (⟨duty, ∅, .waiting a⟩ :: σ)).setBridge b)
  /-- The bridge takes no more tasks. -/
  | crossRefused {s : System H} {θ duty vars a σ f} : s.stack θ = ⟨duty, vars, .starting a⟩ :: σ → a.mode = .sync →
      θ ≠ .main → s.engine.bridge.submit (.activation a vars) = .error f → Step s (s.giveUp θ a f duty ∅ σ)
  /-- An asynchronous activation is queued before the workers, with a copy of the variables. -/
  | queue {s : System H} {θ duty vars a σ p} : s.stack θ = ⟨duty, vars, .starting a⟩ :: σ → a.mode = .async →
      s.engine.workers.submit ⟨a, vars⟩ = .ok p →
      Step s (((s.put θ (⟨duty, vars, .idle⟩ :: σ)).setWorkers p).handOut ⟨a.id, none⟩)
  /-- The workers take no more jobs. -/
  | queueRefused {s : System H} {θ duty vars a σ f} : s.stack θ = ⟨duty, vars, .starting a⟩ :: σ → a.mode = .async →
      s.engine.workers.submit ⟨a, vars⟩ = .error f → Step s (s.put θ (⟨duty, vars, .idle⟩ :: σ))
  /-- An activation begins to run and takes the variables. -/
  | enter {s : System H} {θ duty vars a σ} : s.stack θ = ⟨duty, vars, .entering a⟩ :: σ →
      s.depth θ < s.engine.maxDepth →
      Step s (((s.put θ (⟨.script a (s.depth θ), vars, .idle⟩ :: ⟨duty, ∅, .inside⟩ :: σ)).setDepth θ
        (s.depth θ + 1)).setPhase a.id .running)
  /-- An activation is refused at the limit on the depth. -/
  | refuse {s : System H} {θ duty vars a σ} : s.stack θ = ⟨duty, vars, .entering a⟩ :: σ →
      s.engine.maxDepth ≤ s.depth θ →
      Step s ((s.setPhase a.id .failed).deliver θ a
        (.error (.runtime (.callDepth a.trigger.name s.engine.maxDepth))) vars duty σ)
  /-- The script of an activation comes to a verdict. -/
  | finish {s : System H} {θ duty vars reached a outside σ} (v : Verdict) :
      s.stack θ = ⟨.script a outside, reached, .idle⟩ :: ⟨duty, vars, .inside⟩ :: σ →
      Step s (((s.setDepth θ outside).setPhase a.id (.ofVerdict v)).deliver θ a v reached duty σ)
  /-- Code of the host panics in an activation. -/
  | panic {s : System H} {θ duty vars reached a outside σ} (p : Panic) :
      s.stack θ = ⟨.script a outside, reached, .idle⟩ :: ⟨duty, vars, .inside⟩ :: σ →
      Step s ((s.setDepth θ outside).unwind θ a p duty vars σ)
  /-- A dedicated main thread takes up the next task. -/
  | takeTask {s : System H} {t rest} : s.engine.bridge.main = .dedicated → s.stack .main = [] →
      s.engine.bridge.pending = t :: rest →
      Step s ((s.put .main [⟨.batch [t], ∅, .idle⟩]).setBridge { s.engine.bridge with pending := rest })
  /-- The thread of the host takes up all tasks. -/
  | runPending {s : System H} : s.engine.hostIsMain → s.AdmitsHost .main →
      Step s ((s.put .main (⟨.batch s.engine.bridge.collect.1, ∅, .idle⟩ :: s.stack .main)).setBridge
        s.engine.bridge.collect.2)
  | nextActivation {s : System H} {a vars rest w σ} :
      s.stack .main = ⟨.batch (.activation a vars :: rest), w, .idle⟩ :: σ →
      Step s (s.put .main (⟨.task, vars, .entering a⟩ :: ⟨.batch rest, w, .idle⟩ :: σ))
  | nextWork {s : System H} {work rest w σ} : s.stack .main = ⟨.batch (.work work :: rest), w, .idle⟩ :: σ →
      Step s (s.put .main (⟨.host, ∅, .idle⟩ :: ⟨.batch rest, w, .idle⟩ :: σ))
  | batchEnds {s : System H} {w σ} : s.stack .main = ⟨.batch [], w, .idle⟩ :: σ → Step s (s.put .main σ)
  /-- A worker takes up the next job. -/
  | takeJob {s : System H} {i job p} : i < s.engine.workers.size → s.stack (.worker i) = [] →
      s.engine.workers.take? = some (job, p) →
      Step s ((s.put (.worker i) [⟨.job, job.locals, .entering job.activation⟩]).setWorkers p)
  /-- A caller takes the answer of the main thread. -/
  | answered {s : System H} {θ duty vars a σ v reached} : s.stack θ = ⟨duty, vars, .waiting a⟩ :: σ →
      s.replies a.id = some (.ok (v, reached)) →
      Step s ((s.put θ (⟨duty, reached, .idle⟩ :: σ)).handOut ⟨a.id, some v⟩)
  /-- A caller learns that its activation panicked or was dropped. -/
  | faulted {s : System H} {θ duty vars a σ f} : s.stack θ = ⟨duty, vars, .waiting a⟩ :: σ →
      s.replies a.id = some (.error f) → Step s (s.giveUp θ a f duty vars σ)
  /-- A caller has waited for as long as the settings allow, whatever the main thread is doing. -/
  | timedOut {s : System H} {θ duty vars a σ t} : s.stack θ = ⟨duty, vars, .waiting a⟩ :: σ →
      s.engine.settings.execution.bridgeTimeout = some t →
      Step s { s.giveUp θ a (.timedOut t) duty vars σ with abandoned := a.id :: s.abandoned }
  /-- The engine stops accepting activations. -/
  | close {s : System H} : Step s { s with engine := { s.engine with accepting := false } }
  /-- The bridge is shut down. Those who wait for a task that is dropped learn of it. -/
  | closeBridge {s : System H} :
      Step s { s.setBridge s.engine.bridge.shutDown with
        replies := fun id => if some id ∈ s.engine.bridge.dropped.map MainTask.activation? then some (.error .droppedTask)
          else s.replies id }
  | closeWorkers {s : System H} : Step s (s.setWorkers s.engine.workers.shutDown)

/-- Any number of steps. -/
abbrev Steps : System H → System H → Prop := Relation.ReflTransGen Step

/-- The systems that a new engine may come to. -/
inductive Reachable : System H → Prop
  | new (settings : Settings) (main : MainThread) (attended : Bool) (host : H) (globals : Globals) (files : Files)
      (clock : Clock) : Reachable (atRest (.new settings main attended host globals files clock))
  | step {s s' : System H} : Reachable s → Step s s' → Reachable s'

/-- The script of an activation is being run on a thread, inside as many others there. -/
def Runs (s : System H) (θ : Thread) (a : Activation H) (outside : Nat) : Prop :=
  ∃ l ∈ s.stack θ, l.duty = .script a outside

/-! ## The levels of a thread -/

section

variable (s : System H) (θ : Thread) (levels : List (Level H))

/-- A thread has the levels that it was given. -/
@[simp] theorem stack_put_self : (s.put θ levels).stack θ = levels := Function.update_self ..

/-- The others have theirs. -/
theorem stack_put_of_ne {θ' : Thread} (h : θ' ≠ θ) : (s.put θ levels).stack θ' = s.stack θ' := Function.update_of_ne h ..

end

section

variable {s : System H} {θ φ : Thread} {l l' : Level H} {σ σ' : List (Level H)}

/-- Levels that are at different errands are levels of different threads. -/
theorem ne_of_errand (hθ : s.stack θ = l :: σ) (hφ : s.stack φ = l' :: σ') (hl : l'.errand ≠ l.errand) : θ ≠ φ := by
  rintro rfl
  injection hφ.symm.trans hθ with hlevel
  exact hl (congrArg Level.errand hlevel)

/-- A thread that is at an errand runs no other code of the host. -/
theorem ne_of_admitsHost (hθ : s.stack θ = l :: σ) (hl : l.errand ≠ .idle) (hφ : s.AdmitsHost φ) : θ ≠ φ := by
  rintro rfl
  unfold AdmitsHost at hφ
  rw [hθ] at hφ
  exact hl hφ.2

/-- A thread that does something is not one that does nothing. -/
theorem ne_of_resting (hθ : s.stack θ = l :: σ) (hφ : s.stack φ = []) : θ ≠ φ := by
  rintro rfl
  cases hφ.symm.trans hθ

end

/-! ## The end of an activation -/

/-- An activation has ended on a thread, and whoever it was run for has been told. -/
structure EndsIn (s : System H) (θ : Thread) (levels : List (Level H)) (s' : System H) : Prop where
  stack : s'.stack = Function.update s.stack θ levels
  depth : s'.depth = s.depth
  engine : ∃ conclusions, s'.engine = { s.engine with conclusions := conclusions }
  abandoned : s'.abandoned = s.abandoned

/-- The levels under an activation, when it has ended: a task and a job end with it. -/
def goneOn (duty : Duty H) (vars : Variables) (σ : List (Level H)) : List (Level H) :=
  match duty with
  | .task | .job => σ
  | duty => ⟨duty, vars, .idle⟩ :: σ

/-- An activation that has come to a verdict has ended. -/
theorem endsIn_deliver (s : System H) (θ : Thread) (a : Activation H) (v : Verdict) (reached : Variables) (duty : Duty H)
    (σ : List (Level H)) : s.EndsIn θ (goneOn duty reached σ) (s.deliver θ a v reached duty σ) := by
  cases duty <;> exact ⟨rfl, rfl, ⟨_, rfl⟩, rfl⟩

/-- So has one that has panicked. -/
theorem endsIn_unwind (s : System H) (θ : Thread) (a : Activation H) (p : Panic) (duty : Duty H) (vars : Variables)
    (σ : List (Level H)) : s.EndsIn θ (goneOn duty vars σ) (s.unwind θ a p duty vars σ) := by
  cases duty <;> exact ⟨rfl, rfl, ⟨_, rfl⟩, rfl⟩

/-- A level that goes on does so with the variables that it has now. -/
theorem forall_goneOn {P : Level H → Prop} {duty : Duty H} {vars : Variables} {σ : List (Level H)}
    (hduty : P ⟨duty, vars, .idle⟩) (hσ : ∀ l ∈ σ, P l) : ∀ l ∈ goneOn duty vars σ, P l := by
  have hboth := List.forall_mem_cons.mpr ⟨hduty, hσ⟩
  cases duty with
  | task | job => exact hσ
  | host | script | batch => exact hboth

section

variable {s s' : System H} {θ φ : Thread} {levels : List (Level H)}

/-- The end of an activation is felt on its own thread alone. -/
theorem EndsIn.elsewhere (h : s.EndsIn θ levels s') (hφ : φ ≠ θ) : s'.stack φ = s.stack φ := by
  rw [h.stack, Function.update_of_ne hφ]

/-- Of the affairs it changes what activations have come to, and nothing else. -/
theorem EndsIn.affairs (h : s.EndsIn θ levels s') :
    ∃ conclusions, s'.engine.affairs = { s.engine.affairs with conclusions := conclusions } := by
  obtain ⟨conclusions, he⟩ := h.engine
  exact ⟨conclusions, congrArg Engine.affairs he⟩

end

/-! ## The host -/

/-- The main thread admits the host where it does nothing and belongs to it. -/
theorem admitsHost_main {s : System H} (h : s.stack .main = []) (hhost : s.engine.hostIsMain = true) : s.AdmitsHost .main := by
  unfold AdmitsHost
  rw [h]
  exact hhost

/-- Any other thread of the host does where it does nothing. -/
theorem admitsHost_other {s : System H} {i : Nat} (h : s.stack (.other i) = []) : s.AdmitsHost (.other i) := by
  unfold AdmitsHost
  rw [h]
  trivial

/-! ## What no step changes -/

section

variable {s s' : System H}

/-- The settings stay as they are. -/
theorem Step.settings (hstep : Step s s') : s'.engine.settings = s.engine.settings := by
  have hends {s₁ s₂ : System H} {θ : Thread} {levels : List (Level H)} (hends : s₁.EndsIn θ levels s₂) :
      s₂.engine.settings = s₁.engine.settings := by
    obtain ⟨_, he⟩ := hends.affairs
    exact congrArg Affairs.settings he
  cases hstep with
  | act he => exact congrArg Affairs.settings he
  | @cancelEvent θ a outside =>
    obtain ⟨events, he⟩ := Engine.affairs_cancelEventFor (a.callerOn θ outside) s.engine
    exact congrArg Affairs.settings he
  | @skip _ _ _ _ t c => exact congrArg Affairs.settings (Engine.affairs_isCooling t c s.engine)
  | @make _ _ _ _ t c => exact congrArg Affairs.settings (Engine.affairs_isCooling t c s.engine)
  | refuse | finish => exact (hends (endsIn_deliver ..)).trans rfl
  | panic => exact (hends (endsIn_unwind ..)).trans rfl
  | _ => rfl

/-- The settings stay as they are. -/
theorem Steps.settings (hsteps : Steps s s') : s'.engine.settings = s.engine.settings := by
  induction hsteps with
  | refl => rfl
  | tail _ hstep ih => exact hstep.settings.trans ih

/-- A handle that was given out stays. -/
theorem Step.handles (hstep : Step s s') : s.handles ⊆ s'.handles := by
  have hcons (h : Handle) : s.handles ⊆ h :: s.handles := fun _ => List.mem_cons_of_mem h
  cases hstep with
  | skip | crossRefused | queue | answered | faulted | timedOut => exact hcons _
  | @refuse _ duty => cases duty <;> first | exact hcons _ | exact fun _ hmem => hmem
  | @finish _ duty => cases duty <;> first | exact hcons _ | exact fun _ hmem => hmem
  | @panic _ duty => cases duty <;> exact fun _ hmem => hmem
  | _ => exact fun _ hmem => hmem

/-- A handle that was given out is never taken back. -/
theorem Steps.handles (hsteps : Steps s s') : s.handles ⊆ s'.handles := by
  induction hsteps with
  | refl => exact fun _ hmem => hmem
  | tail _ hstep ih => exact fun _ hmem => hstep.handles (ih hmem)

/-- What a reachable system comes to is reachable. -/
theorem Reachable.steps (h : Reachable s) (hsteps : Steps s s') : Reachable s' := by
  induction hsteps with
  | refl => exact h
  | tail _ hstep ih => exact ih.step hstep

end

/-! ## A run -/

/-- A trigger that the host starts on a thread of its own comes to run on the main thread, with the variables of its caller. -/
theorem exists_running (settings : Settings) (host : H) (globals : Globals) (files : Files) (clock : Clock) (t : Trigger)
    (c : Context H) (vars : Variables) (hactor : c.actor = none) (hdepth : 0 < settings.execution.maxCallDepth) :
    ∃ s : System H, Reachable s ∧
      s.engine = (Engine.newActivation .created (.new settings .dedicated true host globals files clock)).2.setPhase 0
        .running ∧
      s.stack .main = [⟨.script ⟨0, t, c, .sync⟩ 0, vars, .idle⟩, ⟨.task, ∅, .inside⟩, ⟨.batch [], ∅, .idle⟩] ∧
      s.stack (.other 0) = [⟨.host, ∅, .waiting ⟨0, t, c, .sync⟩⟩] ∧ s.handles = [] ∧ s.abandoned = [] := by
  obtain ⟨id, event, actor, hook⟩ := c
  obtain rfl : actor = none := hactor
  let c : Context H := ⟨id, event, none, hook⟩
  let a : Activation H := ⟨0, t, c, .sync⟩
  have h₀ : Reachable (H := H) _ := .new settings .dedicated true host globals files clock
  have h₁ := h₀.step (@Step.hostEnters _ _ (.other 0) vars trivial)
  have h₂ := h₁.step (@Step.ask _ _ (.other 0) .host vars [] t c .sync rfl trivial rfl)
  have h₃ := h₂.step (@Step.make _ _ (.other 0) .host vars [] t c .sync rfl rfl)
  have h₄ := h₃.step (@Step.cross _ _ (.other 0) .host vars a [] _ rfl rfl nofun rfl)
  have h₅ := h₄.step (@Step.takeTask _ _ (.activation a vars) [] rfl rfl rfl)
  have h₆ := h₅.step (@Step.nextActivation _ _ a vars [] ∅ [] rfl)
  have h₇ := h₆.step (@Step.enter _ _ .main .task vars a [⟨.batch [], ∅, .idle⟩] rfl hdepth)
  exact ⟨_, h₇, rfl, rfl, rfl, rfl, rfl⟩

end System

end EventScript
