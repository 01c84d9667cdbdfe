import EventScript.Proofs.Run.Regimes
import EventScript.Proofs.Trigger.Outlook

/-!
# A diary of the nodes that the hook is asked about

A `Diarist` is a host with a diary, in which its hooks write down each node that they are asked about (`Hook.noting`), together with
the tokens that were cancelled when the token was asked for in front of that node. Code of the host is fair if it leaves the diary
alone and takes back no cancellation; for a token there is nothing but to cancel it.

What parts of an activation do to an engine with fair code is onward (`onward`): cancelled tokens stay cancelled, and the diary goes
on with sightings that are timely, none of which is of a node whose token was cancelled.
-/

namespace EventScript

variable {H α : Type}

/-! ## Diaries -/

/-- A node that the hook is asked about. -/
structure Sighting where
  context : Nat
  node : Node
  /-- The contexts whose tokens were cancelled when the token was asked for in front of the node. -/
  found : List Nat

/-- A host with a diary. -/
structure Diarist (H : Type) where
  host : H
  diary : List Sighting := []
  /-- The contexts whose tokens were cancelled when a token was asked for last. -/
  found : List Nat := []

def Reach.sight (r : Reach (Diarist H)) (context : Nat) (node : Node) : Reach (Diarist H) :=
  { r with host.diary := r.host.diary ++ [⟨context, node, r.host.found⟩] }

/-- Writes down each node that the hook is asked about. -/
def Hook.noting (hook : Hook (Diarist H)) : Hook (Diarist H) :=
  { hook with
    onNode := fun caller node => do
      modify fun r => r.sight caller.context node
      hook.onNode caller node }

/-- The sightings that come between two moments: the tokens that are cancelled at the first one are cancelled at each sighting, and
so on to the second one, and no sighting is of a node whose own token is cancelled. -/
structure Timely (start : List Nat) (ss : List Sighting) (stop : List Nat) : Prop where
  clear : ∀ s ∈ ss, s.context ∉ s.found
  since : ∀ s ∈ ss, start ⊆ s.found
  upTo : ∀ s ∈ ss, s.found ⊆ stop
  ordered : ss.Pairwise fun s t => s.found ⊆ t.found

/-- No sightings are timely. -/
theorem Timely.nil (start stop : List Nat) : Timely start [] stop := ⟨nofun, nofun, nofun, .nil⟩

/-- Timely sightings may follow others, as long as cancelled tokens stay cancelled. -/
theorem Timely.append {start mid stop : List Nat} {ss ts : List Sighting} (h : Timely start ss mid) (h' : Timely mid ts stop)
    (hstart : start ⊆ mid) (hstop : mid ⊆ stop) : Timely start (ss ++ ts) stop where
  clear := List.forall_mem_append.mpr ⟨h.clear, h'.clear⟩
  since := List.forall_mem_append.mpr ⟨h.since, fun t ht => List.Subset.trans hstart (h'.since t ht)⟩
  upTo := List.forall_mem_append.mpr ⟨fun s hs => List.Subset.trans (h.upTo s hs) hstop, h'.upTo⟩
  ordered := List.pairwise_append.mpr ⟨h.ordered, h'.ordered, fun s hs t ht => List.Subset.trans (h.upTo s hs) (h'.since t ht)⟩

/-! ## Fair code of the host -/

/-- What code of the host may do: it leaves the diary alone, and takes back no cancellation. -/
def fairness (H : Type) : Regime (Reach (Diarist H)) where
  Holds _ := True
  Leads r r' := r.cancelled ⊆ r'.cancelled ∧ r'.host.diary = r.host.diary
  refl _ := ⟨List.Subset.refl _, rfl⟩
  trans h h' := ⟨List.Subset.trans h.1 h'.1, h'.2.trans h.2⟩

def Work.Fair (w : Work (Diarist H)) : Prop := (fairness H).Keeps (α := Except Panic Value) w

def Deed.Fair : Deed (Diarist H) α → Prop
  | .act run => (fairness H).KeepsAct run
  | .handOver before work next => (fairness H).KeepsAct before ∧ Work.Fair work ∧ ∀ answer, (next answer).Fair

structure Hook.Fair (hook : Hook (Diarist H)) : Prop where
  onNode : ∀ caller node, (fairness H).KeepsAct (hook.onNode caller node)
  onCommand : ∀ caller name args, (fairness H).KeepsRun (hook.onCommand caller name args)
  onPlaceholder : ∀ caller name args, (fairness H).KeepsAct (hook.onPlaceholder caller name args)

/-- The hook is fair, and what it is asked about is written down. -/
def Context.Fair (c : Context (Diarist H)) : Prop := ∃ hook : Hook (Diarist H), hook.Fair ∧ c.hook = hook.noting

def MainTask.Fair : MainTask (Diarist H) → Prop
  | .work w => Work.Fair w
  | .activation a _ => a.context.Fair

def Job.Fair (job : Job (Diarist H)) : Prop := job.activation.context.Fair

/-- The code of the host that an engine holds. -/
structure Code (H : Type) where
  commands : Registry (Command H)
  placeholders : Registry (Placeholder H)
  tasks : List (MainTask H)
  jobs : List (Job H)

def Engine.code (e : Engine H) : Code H := ⟨e.commands, e.placeholders, e.bridge.pending, e.workers.queue⟩

structure Code.Fair (c : Code (Diarist H)) : Prop where
  commands : ∀ name command, c.commands.get? name = some command → ∀ caller args, (command caller args).Fair
  placeholders : ∀ name placeholder, c.placeholders.get? name = some placeholder → ∀ caller args, (placeholder caller args).Fair
  tasks : ∀ t ∈ c.tasks, t.Fair
  jobs : ∀ job ∈ c.jobs, job.Fair

/-! ## What goes on in an engine -/

/-- One engine may come after the other. -/
structure Engine.Onward (e e' : Engine (Diarist H)) : Prop where
  tokens : e.reach.cancelled ⊆ e'.reach.cancelled
  diary : ∃ ss, e'.reach.host.diary = e.reach.host.diary ++ ss ∧ Timely e.reach.cancelled ss e'.reach.cancelled

/-- Nothing is written down. -/
theorem Engine.Onward.of_fair {e e' : Engine (Diarist H)} (h : (fairness H).Leads e.reach e'.reach) : e.Onward e' :=
  ⟨h.1, [], by rw [List.append_nil]; exact h.2, .nil _ _⟩

/-- To go onward twice is to go onward. -/
theorem Engine.Onward.trans {e e' e'' : Engine (Diarist H)} (h : e.Onward e') (h' : e'.Onward e'') : e.Onward e'' := by
  obtain ⟨ss, hss, htimely⟩ := h.diary
  obtain ⟨ts, hts, htimely'⟩ := h'.diary
  refine ⟨List.Subset.trans h.tokens h'.tokens, ss ++ ts, ?_, htimely.append htimely' h.tokens h'.tokens⟩
  rw [hts, hss, List.append_assoc]

/-- Where the code of the host is fair it stays so, and the engine goes on. -/
def onward (H : Type) : Regime (Engine (Diarist H)) where
  Holds e := e.code.Fair
  Leads := Engine.Onward
  refl e := .of_fair ((fairness H).refl e.reach)
  trans := Engine.Onward.trans

namespace Engine

variable {m : StateM (Engine (Diarist H)) α}

/-- All that counts here. -/
def record (e : Engine (Diarist H)) : Code (Diarist H) × List Nat × List Sighting :=
  (e.code, e.reach.cancelled, e.reach.host.diary)

/-- An engine goes onward whose record stays the same. -/
theorem onward_of_record {e e' : Engine (Diarist H)} (h : e'.record = e.record) (he : e.code.Fair) :
    e'.code.Fair ∧ e.Onward e' := by
  injection h with hcode h
  injection h with htokens hdiary
  refine ⟨hcode ▸ he, .of_fair ⟨?_, hdiary⟩⟩
  rw [htokens]
  exact List.Subset.refl _

/-- So does a part that leaves the record. -/
theorem keeps_of_record (h : ∀ e, (m e).2.record = e.record) : (onward H).Keeps m := fun e he => onward_of_record (h e) he

/-- The same of a part that has variables. -/
theorem keepsRun_of_record {m : StateM (Scope (Engine (Diarist H))) α} (h : ∀ vars e, (m ⟨vars, e⟩).2.world.record = e.record) :
    (onward H).scope.Keeps m := fun s hs => onward_of_record (h s.locals s.world) hs

/-- To read the clock leaves the record. -/
theorem AtMostReads.record {e e' : Engine (Diarist H)} (h : e.AtMostReads e') : e'.record = e.record := by
  rcases h with rfl | rfl <;> rfl

/-! ### Code of the host -/

/-- What host code reaches goes onward if the code is fair. -/
theorem keeps_onReach {run : Act (Reach (Diarist H)) α} (h : (fairness H).KeepsAct run) : (onward H).KeepsAct (onReach run) :=
  fun e he => ⟨he, .of_fair (h e.reach trivial).2⟩

/-- The hook is asked about a node whose token was not cancelled when it was asked for. -/
theorem onward_veto {hook : Hook (Diarist H)} (hhook : hook.Fair) {caller : Caller} (node : Node) {e e₁ : Engine (Diarist H)}
    (hreach : (fairness H).Leads e.reach e₁.reach) (hfound : e₁.reach.host.found = e.reach.cancelled)
    (hclear : caller.context ∉ e.reach.cancelled) : e.Onward (onReach (hook.noting.onNode caller node) e₁).2 := by
  obtain ⟨htokens, hdiary⟩ := (hhook.onNode caller node (e₁.reach.sight caller.context node) trivial).2
  have hcancelled : e.reach.cancelled ⊆ (onReach (hook.noting.onNode caller node) e₁).2.reach.cancelled :=
    List.Subset.trans hreach.1 htokens
  refine ⟨hcancelled, [⟨caller.context, node, e.reach.cancelled⟩], ?_, ?_⟩
  · refine hdiary.trans ?_
    show e₁.reach.host.diary ++ [⟨caller.context, node, e₁.reach.host.found⟩] = _
    rw [hreach.2, hfound]
  · exact ⟨List.forall_mem_singleton.mpr hclear, List.forall_mem_singleton.mpr (List.Subset.refl _),
      List.forall_mem_singleton.mpr hcancelled, List.pairwise_singleton ..⟩

/-- Fair work goes onward when it is done on the spot. -/
theorem keeps_workHere {w : Work (Diarist H)} (h : Work.Fair w) : (onward H).KeepsAct (workHere w) := by
  intro e he
  rw [workHere_state]
  exact ⟨he, .of_fair (h e.reach trivial).2⟩

/-- So it does as a task of the main thread. -/
theorem keeps_runWork (fuel : Nat) {w : Work (Diarist H)} (h : Work.Fair w) : (onward H).Keeps (runTask fuel (.work w)) :=
  fun e he => ⟨he, .of_fair (h e.reach trivial).2⟩

/-- A fair hook goes onward when it is offered something. -/
theorem keeps_offerToHook {offer : Run (Reach (Diarist H)) Bool} (h : (fairness H).KeepsRun offer) :
    (onward H).KeepsRun (offerToHook offer) :=
  fun s hs => ⟨hs, .of_fair (h ⟨s.locals, s.world.reach⟩ trivial).2⟩

/-! ### The engine's own -/

/-- To ask for a cooldown is not written down. -/
theorem keeps_isCooling (t : Trigger) (c : Context (Diarist H)) : (onward H).Keeps (isCooling t c) :=
  keeps_of_record fun e => (isCooling_reads t c e).record

/-- Neither is a new activation. -/
theorem keeps_newActivation (p : Phase) : (onward H).Keeps (newActivation p) := keeps_of_record fun _ => rfl

/-- Neither is it to wait for one. -/
theorem keeps_wait (h : Handle) : (onward H).KeepsAct (wait h) := by
  refine keeps_of_record fun e => ?_
  rw [wait_state]

/-- Neither is a global variable. -/
theorem keeps_writeGlobal (name : String) (v : Value) : (onward H).KeepsAct (writeGlobal name v) := by
  refine keeps_of_record fun e => ?_
  obtain ⟨globals, h⟩ := writeGlobal_state name v e
  rw [h]
  rfl

/-- An event that is cancelled cancels no token. -/
theorem keeps_cancelEventFor (caller : Caller) : (onward H).KeepsAct (cancelEventFor caller) := by
  have hcancel (e : Engine (Diarist H)) : (e.cancelEvent caller.context).record = e.record := by
    unfold cancelEvent
    split <;> rfl
  refine keeps_of_record fun e => ?_
  unfold cancelEventFor
  cases caller.mode with
  | async => rfl
  | sync =>
    cases caller.event.cancellable with
    | false => rfl
    | true => exact hcancel e

/-- A cooldown that is started cancels none either. -/
theorem keeps_startCooldown (t : Trigger) (actor : Option Actor) (args : List Value) :
    (onward H).KeepsAct (startCooldown t actor args) := by
  refine keeps_of_record fun e => ?_
  unfold startCooldown
  cases args.head?.bind Value.asFloat? with
  | none => rfl
  | some seconds => cases actor <;> rfl

/-- The placeholders of the engine itself go onward. -/
theorem keeps_reservedPlaceholder (a : Activation (Diarist H)) (caller : Caller) (name : String) :
    (onward H).KeepsAct (reservedPlaceholder a caller name) :=
  keeps_of_record fun e => (reservedPlaceholder_reads a caller name e).record

/-- The commands that start nothing. -/
theorem keeps_reservedCommand (runSync : RunSync (Diarist H)) (a : Activation (Diarist H)) (caller : Caller) {name : String}
    (args : List Value) (h : Text.upper name ≠ "CALL") : (onward H).KeepsRun (reservedCommand runSync a caller name args) := by
  unfold reservedCommand
  simp only [if_neg h]
  split
  · exact .andThen (keeps_cancelEventFor caller).ofAct fun _ => .pure _
  · split
    · exact .andThen (keeps_startCooldown a.trigger caller.actor args).ofAct fun _ => .pure _
    · exact .pure _

/-- A job of a fair context is queued. -/
theorem keeps_enqueue {a : Activation (Diarist H)} (ha : a.context.Fair) : (onward H).KeepsRun (enqueue a) := by
  rintro ⟨vars, e⟩ he
  cases hsubmit : e.workers.submit ⟨a, vars⟩ with
  | error f =>
    rw [enqueue_error hsubmit]
    exact ⟨he, (onward H).refl e⟩
  | ok workers =>
    rw [enqueue_ok hsubmit]
    refine ⟨⟨he.commands, he.placeholders, he.tasks, ?_⟩, .of_fair ((fairness H).refl e.reach)⟩
    show ∀ job ∈ workers.queue, job.Fair
    rw [Pool.queue_submit hsubmit]
    exact List.forall_mem_append.mpr ⟨he.jobs, List.forall_mem_singleton.mpr ha⟩

/-- So does an activation that is one level too deep. -/
theorem keeps_refuseDepth (a : Activation (Diarist H)) : (onward H).scope.Keeps (refuseDepth a) :=
  keepsRun_of_record fun _ _ => rfl

/-- The queue before the main thread is another one, of fair tasks. -/
theorem onward_withBridge {e : Engine (Diarist H)} (he : e.code.Fair) {b : Bridge (MainTask (Diarist H))}
    (hb : ∀ t ∈ b.pending, t.Fair) : ({ e with bridge := b } : Engine (Diarist H)).code.Fair ∧ e.Onward { e with bridge := b } :=
  ⟨⟨he.commands, he.placeholders, hb, he.jobs⟩, .of_fair ((fairness H).refl e.reach)⟩

end Engine

namespace Outlook

open Engine

/-- What is done before the first node goes onward. -/
theorem keeps_prepare (a : Activation (Diarist H)) : (onward H).scope.Keeps (prepare a) := by
  refine keepsRun_of_record fun vars e => ?_
  unfold prepare
  simp only [stateM_bind_apply, stateM_get_apply, stateM_modify_apply]
  cases (e.setPhase a.id .running).settings.execution.activationTimeout <;> rfl

/-- So does what is done about the end of a script. -/
theorem keeps_settle (a : Activation (Diarist H)) (outcome : Host.Outcome) : (onward H).scope.Keeps (settle a outcome) := by
  rcases outcome with _ | _ | _ | _ | _ | _
  all_goals exact keepsRun_of_record fun _ _ => rfl

/-- The number of levels is read off. -/
theorem keeps_levels : (onward H).scope.Keeps levels := keepsRun_of_record fun _ _ => rfl

/-- A trigger is looked up and left alone. -/
theorem keeps_named? (name : String) : (onward H).KeepsRun (named? name) := keepsRun_of_record fun _ _ => rfl

/-- What an activation has come to is kept apart from the record. -/
theorem keeps_keep (id : Nat) (c : Conclusion) : (onward H).KeepsAct (keep id c) := keeps_of_record fun _ => rfl

/-- A fair job is taken, and fair ones stay. -/
theorem gives_takeJob : (onward H).Gives takeJob fun found => ∀ job, found = some job → job.Fair where
  keeps e he := by
    unfold takeJob
    cases htake : e.workers.take? with
    | none => exact ⟨he, (onward H).refl e⟩
    | some taken =>
      have hjobs : ∀ job ∈ e.workers.queue, job.Fair := he.jobs
      rw [Pool.queue_take? htake, List.forall_mem_cons] at hjobs
      exact ⟨⟨he.commands, he.placeholders, he.tasks, hjobs.2⟩, .of_fair ((fairness H).refl e.reach)⟩
  gives e he found hfound job hjob := by
    subst hjob
    unfold takeJob at hfound
    cases htake : e.workers.take? with
    | none =>
      rw [htake] at hfound
      cases hfound
    | some taken =>
      rw [htake] at hfound
      cases hfound
      refine he.jobs taken.1 ?_
      show taken.1 ∈ e.workers.queue
      rw [Pool.queue_take? htake]
      exact List.mem_cons_self

end Outlook

end EventScript
