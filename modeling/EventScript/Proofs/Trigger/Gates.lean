import EventScript.Proofs.Run.Paired
import EventScript.Proofs.Trigger.Outlook

/-!
# The gates of an engine

A shutdown closes three gates (`Engine.close`), and all that it changes about an engine is behind them. Most parts of an activation
look at no gate: they do the same whatever gates are closed (`Gateless`). None of them changes the settings or turns the clock back.
-/

namespace EventScript

namespace Engine

variable {H α : Type}

/-- The engine with some of its gates closed, each as a shutdown closes it. -/
def close (gates : List Gate) (e : Engine H) : Engine H :=
  { e with
    accepting := e.accepting && decide (.accepting ∉ gates)
    bridge := if .bridge ∈ gates then e.bridge.shutDown else e.bridge
    workers := if .workers ∈ gates then e.workers.shutDown else e.workers }

section

variable {gates : List Gate} {e : Engine H}

/-- To close no gate changes nothing. -/
theorem close_nil (e : Engine H) : e.close [] = e := by simp [close]

/-- What is closed stays closed when more is closed. -/
theorem close_close (gates more : List Gate) (e : Engine H) : (e.close gates).close more = e.close (gates ++ more) := by
  have hbridge : (if Gate.bridge ∈ more then ite (Gate.bridge ∈ gates) e.bridge.shutDown e.bridge |>.shutDown
      else ite (Gate.bridge ∈ gates) e.bridge.shutDown e.bridge) =
        ite (Gate.bridge ∈ gates ++ more) e.bridge.shutDown e.bridge := by
    by_cases hgates : Gate.bridge ∈ gates <;> by_cases hmore : Gate.bridge ∈ more <;>
      simp [hgates, hmore, Bridge.shutDown_shutDown]
  have hworkers : (if Gate.workers ∈ more then ite (Gate.workers ∈ gates) e.workers.shutDown e.workers |>.shutDown
      else ite (Gate.workers ∈ gates) e.workers.shutDown e.workers) =
        ite (Gate.workers ∈ gates ++ more) e.workers.shutDown e.workers := by
    by_cases hgates : Gate.workers ∈ gates <;> by_cases hmore : Gate.workers ∈ more <;> simp [hgates, hmore, Pool.shutDown]
  have haccepting : (e.accepting && decide (Gate.accepting ∉ gates) && decide (Gate.accepting ∉ more)) =
      (e.accepting && decide (Gate.accepting ∉ gates ++ more)) := by
    simp [Bool.and_assoc]
  unfold close
  simp only [hbridge, hworkers, haccepting]

/-- An engine accepts as before, unless that gate is closed. -/
theorem accepting_close (h : .accepting ∉ gates) : (e.close gates).accepting = e.accepting := by
  simp [close, h]

/-- The bridge is as before, unless it is closed. -/
theorem bridge_close (h : .bridge ∉ gates) : (e.close gates).bridge = e.bridge := if_neg h

/-- The workers are as before, unless they are closed. -/
theorem workers_close (h : .workers ∉ gates) : (e.close gates).workers = e.workers := if_neg h

/-- An engine whose first gate is closed accepts nothing. -/
theorem accepting_close_of_mem (h : .accepting ∈ gates) : (e.close gates).accepting = false := by
  simp [close, h]

/-- A closed bridge is shut down as a shutdown does it. -/
theorem bridge_close_of_mem (h : .bridge ∈ gates) : (e.close gates).bridge = e.bridge.shutDown := if_pos h

/-- Closed workers are shut down as a shutdown does it. -/
theorem workers_close_of_mem (h : .workers ∈ gates) : (e.close gates).workers = e.workers.shutDown := if_pos h

/-- A new bridge may be put in before the other gates are closed or afterwards. -/
theorem close_withBridge (h : .bridge ∉ gates) (b : Bridge (MainTask H)) :
    { e.close gates with bridge := b } = ({ e with bridge := b } : Engine H).close gates := by
  simp [close, h]

/-- New workers may be put in before the other gates are closed or afterwards. -/
theorem close_withWorkers (h : .workers ∉ gates) (p : Pool (Job H)) :
    { e.close gates with workers := p } = ({ e with workers := p } : Engine H).close gates := by
  simp [close, h]

end

/-! ## Parts that look at no gate -/

/-- An engine belongs to the one that it is with the gates open, at some time after a given one. -/
def upTo (gates : List Gate) (e : Engine H) : Pairing (Engine H) (Engine H) :=
  ⟨fun e₁ e₂ => e₁ = e₂.close gates ∧ e.Ages e₂, fun _ => False⟩

/-- Does the same whatever gates are closed, and no more than age the engine otherwise. -/
def Gateless (m : StateM (Engine H) α) : Prop := ∀ gates e, (upTo gates e).Kept m m

def GatelessPart (m : StateM (Scope (Engine H)) α) : Prop := ∀ gates e, (upTo gates e).scope.Kept m m

abbrev GatelessAct (m : Act (Engine H) α) : Prop := Gateless (α := Except Halt α) m

abbrev GatelessRun (m : Run (Engine H) α) : Prop := GatelessPart (α := Except Halt α) m

/-- To look at no gate it is enough to do the same behind closed gates, and to age the engine alone. -/
theorem Gateless.of {m : StateM (Engine H) α} (hages : ∀ e : Engine H, e.Ages (m e).2)
    (h : ∀ gates e, m (e.close gates) = ((m e).1, (m e).2.close gates)) : Gateless m := by
  refine fun gates start => ⟨fun _ hlost => hlost, fun e₁ e hnear => .inr ?_⟩
  obtain ⟨rfl, hstart⟩ : e₁ = e.close gates ∧ start.Ages e := hnear
  rw [h gates e]
  exact ⟨rfl, rfl, hstart.trans (hages e)⟩

/-- The same of a part that has variables. -/
theorem GatelessPart.of {m : StateM (Scope (Engine H)) α} (hages : ∀ vars (e : Engine H), e.Ages (m ⟨vars, e⟩).2.world)
    (h : ∀ gates vars e, m ⟨vars, e.close gates⟩ =
      ((m ⟨vars, e⟩).1, ⟨(m ⟨vars, e⟩).2.locals, (m ⟨vars, e⟩).2.world.close gates⟩)) : GatelessPart m := by
  refine fun gates start => ⟨fun _ hlost => hlost, fun ⟨vars₁, e₁⟩ ⟨vars, e⟩ hnear => .inr ?_⟩
  obtain ⟨rfl, rfl, hstart⟩ : vars₁ = vars ∧ e₁ = e.close gates ∧ start.Ages e := hnear
  rw [h gates vars₁ e]
  exact ⟨rfl, rfl, rfl, hstart.trans (hages vars₁ e)⟩

/-- A part that has no use for variables may be taken as one that has some. -/
theorem Gateless.ofAct {m : Act (Engine H) α} (h : GatelessAct m) : GatelessRun (Run.ofAct m) :=
  fun gates start => (h gates start).ofAct

/-- What host code reaches is behind no gate. -/
theorem gateless_onReach (run : Act (Reach H) α) : GatelessAct (onReach run) := .of (fun _ => .of_clock rfl rfl) fun _ _ => rfl

/-- The clock is behind no gate. -/
theorem gateless_readClock : Gateless (readClock (H := H)) := .of ages_readClock fun _ _ => rfl

/-- Work of the host looks at no gate when it is done on the spot. -/
theorem gateless_workHere (w : Work H) : GatelessAct (workHere w) := by
  refine .of (fun e => ?_) fun gates e => ?_
  · rw [workHere_state]
    exact .of_clock rfl rfl
  have hreach : (e.close gates).reach = e.reach := rfl
  unfold workHere
  rw [hreach]
  rcases w e.reach with ⟨_ | _, _⟩ <;> rfl

/-- The global variables are behind no gate. -/
theorem gateless_writeGlobal (name : String) (v : Value) :
    GatelessAct (writeGlobal (H := H) name v) := by
  refine .of (fun e => ?_) fun gates e => ?_
  · obtain ⟨globals, h⟩ := writeGlobal_state name v e
    rw [h]
    exact .of_clock rfl rfl
  have hreach : (e.close gates).reach = e.reach := rfl
  unfold writeGlobal
  rw [hreach]
  cases e.reach.globals.set name v <;> rfl

/-- The cooldowns are behind no gate. -/
theorem gateless_isCooling (t : Trigger) (c : Context H) : Gateless (isCooling t c) := by
  refine .of (fun e => (isCooling_reads t c e).ages) fun gates e => ?_
  unfold isCooling
  cases c.actor <;> rfl

/-- An activation gets its number and its phase whatever gates are closed. -/
theorem gateless_newActivation (p : Phase) : Gateless (newActivation (H := H) p) :=
  .of (fun _ => .of_clock rfl rfl) fun _ _ => rfl

/-- Who waits for an activation looks at no gate. -/
theorem gateless_wait (h : Handle) : GatelessAct (wait (H := H) h) := by
  refine .of (fun e => ?_) fun gates e => Prod.ext ?_ ?_
  · rw [wait_state]
    exact .refl e
  · obtain ⟨id, _ | v⟩ := h
    · have hsame : (e.close gates).conclusions[id]? = e.conclusions[id]? := rfl
      cases hconclusion : e.conclusions[id]? with
      | none => rw [wait_of_none hconclusion, wait_of_none (hsame.trans hconclusion)]
      | some c =>
        rw [wait_of_some hconclusion, wait_of_some (hsame.trans hconclusion)]
        rcases c with (_ | _) | (_ | _) <;> rfl
    · rcases v with _ | _ <;> rfl
  · rw [wait_state, wait_state]

/-- An event is cancelled whatever gates are closed. -/
theorem gateless_cancelEventFor (caller : Caller) : GatelessAct (cancelEventFor (H := H) caller) := by
  refine .of (fun e => ?_) fun gates e => ?_
  · have hcancel : e.Ages (e.cancelEvent caller.context) := by
      unfold cancelEvent
      split <;> exact .of_clock rfl rfl
    unfold cancelEventFor
    cases caller.mode with
    | async => exact .refl e
    | sync =>
      cases caller.event.cancellable with
      | false => exact .refl e
      | true => exact hcancel
  have hcancel : (e.close gates).cancelEvent caller.context = (e.cancelEvent caller.context).close gates := by
    unfold cancelEvent
    show (if e.isEventCancelled caller.context then _ else _) = _
    cases e.isEventCancelled caller.context <;> rfl
  unfold cancelEventFor
  cases caller.mode with
  | async => rfl
  | sync =>
    cases caller.event.cancellable with
    | false => rfl
    | true => exact Prod.ext rfl hcancel

/-- So is a cooldown started. -/
theorem gateless_startCooldown (t : Trigger) (actor : Option Actor) (args : List Value) :
    GatelessAct (startCooldown (H := H) t actor args) := by
  refine .of (fun e => ?_) fun gates e => ?_
  · unfold startCooldown
    cases args.head?.bind Value.asFloat? with
    | none => exact .refl e
    | some seconds =>
      cases actor with
      | none => exact .refl e
      | some actor => exact (ages_readClock e).trans (.of_clock rfl rfl)
  unfold startCooldown
  cases args.head?.bind Value.asFloat? with
  | none => rfl
  | some seconds => cases actor <;> rfl

/-- The placeholders of the engine itself look at no gate. -/
theorem gateless_reservedPlaceholder (a : Activation H) (caller : Caller) (name : String) :
    GatelessAct (reservedPlaceholder a caller name) := by
  refine .of (fun e => (reservedPlaceholder_reads a caller name e).ages) fun gates e => ?_
  unfold reservedPlaceholder cooldownLeft
  by_cases hname : asciiLower name = "cooldown"
  · rw [if_pos hname]
    cases caller.actor <;> rfl
  · rw [if_neg hname]
    rfl

/-- A part that cannot fail may be taken as one that can. -/
theorem Gateless.toRun {m : StateM (Engine H) α} (h : Gateless m) : GatelessRun (toRun m) :=
  fun gates start => ⟨fun _ hlost => hlost, fun s₁ s₂ hs => ((h gates start).near s₁.world s₂.world hs.2).imp_right fun hr =>
    ⟨congrArg Except.ok hr.1, hs.1, hr.2⟩⟩

/-- The commands that start nothing look at no gate. -/
theorem gatelessRun_reservedCommand (runSync : RunSync H) (a : Activation H) (caller : Caller) {name : String}
    (args : List Value) (h : Text.upper name ≠ "CALL") :
    GatelessRun (reservedCommand runSync a caller name args) := by
  intro gates start
  unfold reservedCommand
  simp only [if_neg h]
  by_cases hcancel : Text.upper name = "CANCELEVENT"
  · rw [if_pos hcancel]
    exact .andThen ((gateless_cancelEventFor caller).ofAct gates start) fun _ => .pure _
  · rw [if_neg hcancel]
    by_cases hcooldown : Text.upper name = "COOLDOWN"
    · rw [if_pos hcooldown]
      exact .andThen ((gateless_startCooldown a.trigger caller.actor args).ofAct gates start) fun _ => .pure _
    · rw [if_neg hcooldown]
      exact .pure _

/-- To queue a job looks at the gate before the workers alone. -/
theorem enqueue_kept {gates : List Gate} (h : .workers ∉ gates) (start : Engine H) (a : Activation H) :
    (upTo gates start).scope.Kept (α := Except Halt Unit) (enqueue a) (enqueue a) := by
  refine ⟨fun _ hlost => hlost, fun ⟨vars₁, e₁⟩ ⟨vars, e⟩ hnear => .inr ?_⟩
  obtain ⟨rfl, rfl, hstart⟩ : vars₁ = vars ∧ e₁ = e.close gates ∧ start.Ages e := hnear
  have hworkers : (e.close gates).workers = e.workers := workers_close h
  cases hsubmit : e.workers.submit ⟨a, vars₁⟩ with
  | error f =>
    rw [enqueue_error hsubmit, enqueue_error (by rw [hworkers]; exact hsubmit)]
    exact ⟨rfl, rfl, rfl, hstart⟩
  | ok workers =>
    rw [enqueue_ok hsubmit, enqueue_ok (by rw [hworkers]; exact hsubmit)]
    exact ⟨rfl, rfl, close_withWorkers h workers, hstart.trans (.of_clock rfl rfl)⟩

/-- The hook is asked whatever gates are closed. -/
theorem gatelessRun_offerToHook (m : Run (Reach H) Bool) : GatelessRun (offerToHook m) :=
  .of (fun _ _ => .of_clock rfl rfl) fun _ _ _ => rfl

/-- An activation that is one level too deep is refused whatever gates are closed. -/
theorem gatelessPart_refuseDepth (a : Activation H) : GatelessPart (refuseDepth a) :=
  .of (fun _ _ => .of_clock rfl rfl) fun _ _ _ => rfl

end Engine

namespace Outlook

variable {H W₁ W₂ α : Type}

open Engine

/-- What is done before the first node: the activation is running, and its deadline counts from now on. -/
theorem prepare_apply (a : Activation H) (vars : Variables) (e : Engine H) :
    let start := Deadline.start e.settings.execution.activationTimeout (e.setPhase a.id .running)
    prepare a ⟨vars, e⟩ = (start.1, ⟨vars, start.2⟩) := rfl

/-- That looks at no gate. -/
theorem gatelessPart_prepare (a : Activation H) : GatelessPart (prepare a) := by
  refine .of (fun vars e => ?_) fun gates vars e => ?_
  · rw [prepare_apply]
    have hrunning : e.Ages (e.setPhase a.id .running) := .of_clock rfl rfl
    exact hrunning.trans (start_reads _ _).ages
  have hsettings : (e.close gates).settings = e.settings := rfl
  rw [prepare_apply, prepare_apply, hsettings]
  cases e.settings.execution.activationTimeout <;> rfl

/-- Neither does what is done about the end of a script. -/
theorem gatelessPart_settle (a : Activation H) (outcome : Host.Outcome) : GatelessPart (settle a outcome) := by
  rcases outcome with _ | _ | _ | _ | _ | _
  all_goals exact .of (fun _ _ => .of_clock rfl rfl) fun _ _ _ => rfl

/-- To compare the clock with the deadline looks at no gate. -/
theorem gateless_overdue? (a : Activation H) (caller : Caller) (deadline : Option Deadline) :
    Gateless (alone a caller deadline).overdue? := by
  cases deadline with
  | none => exact .of .refl fun _ _ => rfl
  | some d => exact fun gates start => .bind (gateless_readClock gates start) fun _ => .pure _

/-- A placeholder is offered to the hook whatever gates are closed. -/
theorem gateless_offerPlaceholder (a : Activation H) (caller : Caller) (deadline : Option Deadline) (name : String)
    (args : List Value) : GatelessAct ((alone a caller deadline).offerPlaceholder name args) := by
  refine fun gates start => .andThen (gateless_onReach _ gates start) fun answer => ?_
  cases answer with
  | some v => exact .pure _
  | none => exact gateless_reservedPlaceholder a caller name gates start

/-- The number of levels is a setting, which no gate hides. -/
theorem gatelessPart_levels : GatelessPart (levels (H := H)) := .of (fun _ => .refl) fun _ _ _ => rfl

/-- A trigger is found by its name whatever gates are closed. -/
theorem gatelessRun_named? (name : String) : GatelessRun (named? (H := H) name) := .of (fun _ => .refl) fun _ _ _ => rfl

/-- The main thread does work of the host without a look at any gate. -/
theorem gateless_runWork (fuel : Nat) (w : Work H) : Gateless (Engine.runTask fuel (.work w)) :=
  .of (fun _ => .of_clock rfl rfl) fun _ _ => rfl

/-- What an activation has come to is kept whatever gates are closed. -/
theorem gateless_keep (id : Nat) (c : Conclusion) : GatelessAct (keep (H := H) id c) :=
  .of (fun _ => .of_clock rfl rfl) fun _ _ => rfl

/-- The job in front is taken out of the queue whether or not more of them are accepted. -/
theorem gateless_takeJob : GatelessAct (takeJob (H := H)) := by
  refine .of (fun e => ?_) fun gates e => ?_
  · unfold takeJob
    cases e.workers.take? <;> exact .of_clock rfl rfl
  unfold takeJob
  by_cases hworkers : Gate.workers ∈ gates
  · rw [workers_close_of_mem hworkers, Pool.take?_shutDown]
    cases e.workers.take? with
    | none => rfl
    | some taken => simp [close, hworkers]
  · rw [workers_close hworkers]
    cases e.workers.take? with
    | none => rfl
    | some taken => exact Prod.ext rfl (close_withWorkers hworkers taken.2)

end Outlook

end EventScript
