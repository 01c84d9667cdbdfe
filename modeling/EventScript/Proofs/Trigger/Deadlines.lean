import EventScript.Proofs.Trigger.Alongside
import EventScript.Proofs.Trigger.Timesheets
import Mathlib.Data.List.Chain

/-!
# Deadlines along calls

Each activation has a deadline of its own, which it is given when it starts. No activation comes to a node behind its own deadline
(`Timesheet.visits_in_time`), but one that is called may come to nodes behind that of its caller (`Timesheet.callers_in_time_false`):
the caller is stopped when the other one has ended and it comes to its next node. So the time that the nodes of an activation and of
all it waits for can take is bounded by one timeout for each of them.

The invariant is `Timesheet.Faithful`, and each part of an activation keeps it, next to the same part without notes.
-/

namespace EventScript

variable {H α : Type}

/-! ## Activations that wait for each other -/

namespace Stint

variable {timeout now now' : Nat} {stints : List Stint}

/-- Activations under way, the innermost first: each of them has come to its last node within the timeout, counted from its own start,
and what it waits for was started behind that. -/
def Orderly (timeout : Nat) : (now : Nat) → List Stint → Prop
  | _, [] => True
  | now, s :: callers => s.start ≤ s.last ∧ s.last ≤ s.start + timeout ∧ s.last ≤ now ∧ Orderly timeout s.start callers

/-- For how long the nodes in which others are waited for had been in progress when these were started. -/
def waits : List Stint → Nat
  | s :: caller :: rest => s.start - caller.last + waits (caller :: rest)
  | _ => 0

/-- Stints that are orderly by now are so later. -/
theorem Orderly.mono (h : Orderly timeout now stints) (hnow : now ≤ now') : Orderly timeout now' stints := by
  cases stints with
  | nil => trivial
  | cons s callers => exact ⟨h.1, h.2.1, Nat.le_trans h.2.2.1 hnow, h.2.2.2⟩

/-- Each of them has come to its last node within the timeout from its own start. -/
theorem Orderly.last_le (h : Orderly timeout now stints) : ∀ s ∈ stints, s.start ≤ s.last ∧ s.last ≤ s.start + timeout := by
  induction stints generalizing now with
  | nil => exact List.forall_mem_nil _
  | cons s callers ih => exact List.forall_mem_cons.mpr ⟨⟨h.1, h.2.1⟩, ih h.2.2.2⟩

/-- Each was started behind the last node of the one that waits for it. -/
theorem Orderly.isChain (h : Orderly timeout now stints) : stints.IsChain fun s caller => caller.last ≤ s.start := by
  induction stints generalizing now with
  | nil => exact .nil
  | cons s callers ih =>
    obtain ⟨-, -, -, hcallers⟩ := h
    cases callers with
    | nil => exact .singleton s
    | cons caller rest => exact List.isChain_cons_cons.mpr ⟨hcallers.2.2.1, ih hcallers⟩

/-- Whoever waits was started first. -/
theorem Orderly.start_le (h : Orderly timeout now stints) : ∀ s ∈ stints, s.start ≤ now := by
  induction stints generalizing now with
  | nil => exact List.forall_mem_nil _
  | cons s callers ih =>
    obtain ⟨hstart, -, hnow, hcallers⟩ := h
    have hs : s.start ≤ now := Nat.le_trans hstart hnow
    exact List.forall_mem_cons.mpr ⟨hs, fun caller hcaller => Nat.le_trans (ih hcallers caller hcaller) hs⟩

/-- On the way from one activation to another one that waits for it there is one timeout for each of them, and what the nodes took
in which they wait. -/
theorem Orderly.le_of_append {inner outer : List Stint} {s own : Stint} (h : Orderly timeout now (inner ++ s :: outer))
    (hown : (inner ++ [s]).head? = some own) : own.start ≤ s.start + inner.length * timeout + waits (inner ++ [s]) := by
  induction inner generalizing now own with
  | nil =>
    obtain rfl : s = own := Option.some.inj hown
    exact Nat.le_add_right ..
  | cons first inner ih =>
    obtain rfl : first = own := Option.some.inj hown
    obtain ⟨caller, rest, hsplit⟩ : ∃ caller rest, inner ++ [s] = caller :: rest := List.exists_cons_of_ne_nil (by simp)
    obtain ⟨-, -, -, hcallers⟩ := h
    replace hcallers : Orderly timeout first.start (inner ++ s :: outer) := hcallers
    have hcaller := ih hcallers (congrArg List.head? hsplit)
    have hlast : caller.last ≤ caller.start + timeout := by
      rw [List.append_cons, hsplit] at hcallers
      exact hcallers.2.1
    rw [hsplit] at hcaller
    show first.start ≤ s.start + (inner.length + 1) * timeout + waits (first :: (inner ++ [s]))
    rw [hsplit, Nat.succ_mul, waits]
    omega

end Stint

/-- An activation comes to a node in time: its own deadline has not come. -/
structure Visit.InTime (timeout : Nat) (v : Visit) : Prop where
  own : ∃ own callers, v.stints = own :: callers ∧ v.instant < own.start + timeout
  orderly : Stint.Orderly timeout v.instant v.stints

namespace Timesheet

open Engine Outlook

/-! ## With and without notes -/

variable {timeout : Duration} {P : List Stint → Prop} {t : Timesheet H} {e e' : Engine H}

/-- The notes of a timesheet go with the engine: the activations under way are orderly and have some property, and all nodes have been
visited in time. -/
structure Faithful (timeout : Duration) (P : List Stint → Prop) (t : Timesheet H) (e : Engine H) : Prop where
  engine : t.engine = e
  limit : e.settings.execution.activationTimeout = some timeout
  under : P t.stints
  orderly : Stint.Orderly timeout.nanoseconds e.clock.now t.stints
  visits : ∀ v ∈ t.visits, v.InTime timeout.nanoseconds

/-- Notes stay faithful while the engine ages. -/
theorem Faithful.put (h : Faithful timeout P t e) (hages : e.Ages e') : Faithful timeout P { t with engine := e' } e' where
  engine := rfl
  limit := by
    rw [hages.settings]
    exact h.limit
  under := h.under
  orderly := h.orderly.mono hages.now_le
  visits := h.visits

/-- The engine with its times next to the engine alone. -/
def beside (timeout : Duration) (P : List Stint → Prop) : Alongside (outlook (H := H)) (.plain H) where
  Near := Faithful timeout P
  Lost _ := False
  closed _ := []
  engine t e h := by
    rw [close_nil]
    exact h.engine
  put t e e' h hages := by
    rw [close_nil]
    exact h.put hages
  closed_put _ _ := rfl
  pass _ _ h := ⟨h.engine, h.limit, h.under, h.orderly, h.visits⟩
  look _ _ _ h := .inr ⟨h, List.not_mem_nil⟩
  hold _ _ h := .inr ⟨h, List.not_mem_nil⟩
  put_lost _ _ := id
  pass_lost _ := id
  look_lost _ _ := id
  hold_lost _ := id

/-- An activation of this start is the innermost one, in front of these others. -/
def Runs (activation start : Nat) (callers stints : List Stint) : Prop := ∃ last, stints = ⟨activation, start, last⟩ :: callers

/-! ## Nodes -/

section

variable {activation start : Nat} {callers : List Stint}

/-- A new stint is in front of the others, and starts by now. -/
theorem Faithful.begin (h : Faithful timeout P t e) (activation : Nat) :
    Faithful timeout (Runs activation e.clock.now t.stints) (t.begin activation) e := by
  obtain rfl := h.engine
  exact ⟨rfl, h.limit, ⟨_, rfl⟩, ⟨Nat.le_refl _, Nat.le_add_right .., Nat.le_refl _, h.orderly⟩, h.visits⟩

/-- The innermost stint has started by now. -/
theorem Faithful.start_le (h : Faithful timeout (Runs activation start callers) t e) : start ≤ e.clock.now := by
  obtain ⟨last, hstints⟩ := h.under
  exact h.orderly.start_le ⟨activation, start, last⟩ (hstints ▸ List.mem_cons_self)

/-- The innermost activation comes to a node before its deadline. -/
theorem Faithful.visit (h : Faithful timeout (Runs activation start callers) t e) (node : Node) (hstart : start ≤ t.shown)
    (hlate : t.shown < start + timeout.nanoseconds) (hnow : t.shown ≤ e.clock.now) :
    Faithful timeout (Runs activation start callers) (t.visit node) e := by
  obtain ⟨last, hstints⟩ := h.under
  obtain ⟨-, -, -, hcallers⟩ := hstints ▸ h.orderly
  have hvisited : (t.visit node).stints = ⟨activation, start, t.shown⟩ :: callers := by
    show t.stints.modifyHead _ = _
    rw [hstints]
    rfl
  refine ⟨h.engine, h.limit, ⟨t.shown, hvisited⟩, ?_, ?_⟩
  · rw [hvisited]
    exact ⟨hstart, Nat.le_of_lt hlate, hnow, hcallers⟩
  · refine List.forall_mem_append.mpr ⟨h.visits, List.forall_mem_singleton.mpr ?_⟩
    refine ⟨⟨_, callers, hvisited, hlate⟩, ?_⟩
    show Stint.Orderly timeout.nanoseconds t.shown (t.visit node).stints
    rw [hvisited]
    exact ⟨hstart, Nat.le_of_lt hlate, Nat.le_refl _, hcallers⟩

/-- Behind an activation all is as it was. -/
theorem Faithful.finish (h : Faithful timeout (Runs activation start callers) t e) (hcallers : P callers) :
    Faithful timeout P t.finish e := by
  obtain ⟨last, hstints⟩ := h.under
  obtain ⟨hstart, -, hlast, horderly⟩ := hstints ▸ h.orderly
  have hfinished : t.finish.stints = callers := congrArg List.tail hstints
  refine ⟨h.engine, h.limit, hfinished.symm ▸ hcallers, ?_, h.visits⟩
  rw [hfinished]
  exact horderly.mono (Nat.le_trans hstart hlast)

variable (a : Activation H) (caller : Caller) {handOver₁ : Work H → Act (Timesheet H) (Except BridgeFault Value)}
  {handOver₂ : HandOver H} {runSync₁ : Activation H → Run (Timesheet H) Verdict} {runSync₂ : RunSync H}

/-- The hook is asked about a node in time. -/
theorem consult_kept (node : Node) :
    let deadline : Option Deadline := some ⟨timeout, start + timeout.nanoseconds⟩
    (beside timeout (Runs activation start callers)).KeptRun
      ((noting (outlook.surroundings a caller deadline handOver₁ runSync₁)).consult node)
      (((Outlook.plain H).surroundings a caller deadline handOver₂ runSync₂).consult node) := by
  intro deadline
  let A := beside (H := H) timeout (Runs activation start callers)
  rw [Host.consult_eq, Host.consult_eq]
  refine ⟨fun _ => id, fun ⟨vars, t⟩ ⟨vars', e⟩ ⟨hvars, h⟩ => ?_⟩
  obtain rfl : vars = vars' := hvars
  have h' : Faithful timeout (Runs activation start callers) t e := h
  obtain rfl : t.engine = e := h'.engine
  let overdue := if start + timeout.nanoseconds ≤ t.engine.clock.now then some timeout else none
  let read : Timesheet H := { t with engine := (readClock t.engine).2, shown := t.engine.clock.now }
  have hasked₁ : Run.ofAct (liftM (noting (outlook.surroundings a caller deadline handOver₁ runSync₁)).overdue?) ⟨vars, t⟩ =
      (.ok overdue, ⟨vars, read⟩) := rfl
  have hasked₂ : Run.ofAct (liftM ((Outlook.plain H).surroundings a caller deadline handOver₂ runSync₂).overdue?)
      ⟨vars, t.engine⟩ = (.ok overdue, ⟨vars, read.engine⟩) := rfl
  rw [Run.bind_ok hasked₁, Run.bind_ok hasked₂]
  have hread : Faithful timeout (Runs activation start callers) read read.engine := by
    obtain ⟨-, hlimit, hunder, horderly, hvisits⟩ := h'.put (ages_readClock t.engine)
    exact ⟨rfl, hlimit, hunder, horderly, hvisits⟩
  by_cases hlate : start + timeout.nanoseconds ≤ t.engine.clock.now
  · have hoverdue : overdue = some timeout := if_pos hlate
    rw [hoverdue]
    exact .inr ⟨rfl, rfl, hread⟩
  · have hoverdue : overdue = none := if_neg hlate
    rw [hoverdue]
    have hvisited := hread.visit node h'.start_le (Nat.lt_of_not_le hlate) t.engine.clock.now_le_now_read
    have hveto : A.KeptRun
        (Run.ofAct ((outlook.surroundings a caller deadline handOver₁ runSync₁).veto node) >>= fun refused =>
          bif refused then throw .vetoed else pure ())
        (Run.ofAct (((Outlook.plain H).surroundings a caller deadline handOver₂ runSync₂).veto node) >>= fun refused =>
          bif refused then throw .vetoed else pure ()) :=
      .andThen (A.act (gateless_onReach _)).ofAct fun refused => by cases refused <;> exact .pure _
    exact hveto.near ⟨vars, read.visit node⟩ ⟨vars, read.engine⟩ ⟨rfl, hvisited⟩

/-- To enter a node is noted, and done only before the deadline. -/
theorem enter_kept (node : Node) :
    let deadline : Option Deadline := some ⟨timeout, start + timeout.nanoseconds⟩
    (beside timeout (Runs activation start callers)).KeptRun
      ((noting (outlook.surroundings a caller deadline handOver₁ runSync₁)).enter node)
      (((Outlook.plain H).surroundings a caller deadline handOver₂ runSync₂).enter node) := by
  intro deadline
  have htoken : (beside timeout (Runs activation start callers)).KeptRun
      (outlook.surroundings a caller deadline handOver₁ runSync₁).askToken
      ((Outlook.plain H).surroundings a caller deadline handOver₂ runSync₂).askToken := Alongside.askToken _ a caller deadline
  rw [Host.enter_eq, Host.enter_eq]
  refine .andThen htoken fun cancelled => ?_
  cases cancelled with
  | true => exact .pure _
  | false => exact consult_kept a caller node

end

/-! ## Activations -/

section

variable (fuel : Nat)

section

variable {handOver₁ : Work H → Act (Timesheet H) (Except BridgeFault Value)} {handOver₂ : HandOver H}
  {runSync₁ : Activation H → Run (Timesheet H) Verdict} {runSync₂ : RunSync H}
  (hwork : ∀ P w, (beside timeout P).KeptAct (handOver₁ w) (handOver₂ w))
  (hsync : ∀ P a, (beside timeout P).KeptRun (runSync₁ a) (runSync₂ a))

include hwork hsync

/-- A script keeps the notes faithful from node to node. -/
theorem runScript_kept (activation start : Nat) (callers : List Stint) (a : Activation H) (caller : Caller) (script : Script) :
    let deadline : Option Deadline := some ⟨timeout, start + timeout.nanoseconds⟩
    (beside timeout (Runs activation start callers)).scope.Kept
      ((noting (outlook.surroundings a caller deadline handOver₁ runSync₁)).run fuel script)
      (((Outlook.plain H).surroundings a caller deadline handOver₂ runSync₂).run fuel script) := by
  intro deadline
  have hhosts := Alongside.surroundings _ (hwork (Runs activation start callers)) (hsync _) a caller deadline
  have hparts : (beside timeout (Runs activation start callers)).link.Parts
      (noting (outlook.surroundings a caller deadline handOver₁ runSync₁))
      ((Outlook.plain H).surroundings a caller deadline handOver₂ runSync₂) fun _ => True :=
    ⟨hhosts.readName, hhosts.readGlobal, hhosts.offerPlaceholder, hhosts.callPlaceholder, hhosts.bind, hhosts.writeGlobal,
      hhosts.offerCommand, hhosts.callCommand⟩
  exact .script hparts (enter_kept a caller) fuel script

/-- An activation keeps what is under way, whatever that is. -/
theorem runHere_kept (onMain : Bool) (depth : Nat) (P : List Stint → Prop) (a : Activation H) :
    (beside timeout P).scope.Kept (runHere fuel onMain depth handOver₁ runSync₁ a)
      ((Outlook.plain H).runHere fuel onMain depth handOver₂ runSync₂ a) := by
  refine ⟨fun _ => id, fun ⟨vars, t⟩ ⟨vars', e⟩ ⟨hvars, h⟩ => ?_⟩
  obtain rfl : vars = vars' := hvars
  have h' : Faithful timeout P t e := h
  obtain rfl : t.engine = e := h'.engine
  let begun := beside (H := H) timeout (Runs a.id t.engine.clock.now t.stints)
  let caller : Caller := ⟨a.context.id, a.context.event, a.context.actor, a.mode, onMain, depth⟩
  let goesOn (deadline : Option Deadline) : StateM (Scope (Engine H)) Conclusion :=
    ((Outlook.plain H).surroundings a caller deadline handOver₂ runSync₂).run fuel a.trigger.script >>= fun outcome =>
      (Outlook.plain H).onScope (settle a outcome)
  let prepared₁ := outlook.onScope (prepare a) ⟨vars, t.begin a.id⟩
  let prepared₂ := (Outlook.plain H).onScope (prepare a) ⟨vars, t.engine⟩
  have hdeadline : prepared₂.1 = some ⟨timeout, t.engine.clock.now + timeout.nanoseconds⟩ := by
    show (prepare a ⟨vars, t.engine⟩).1 = _
    rw [prepare_apply, h'.limit]
    rfl
  have hbegun : begun.scope.Near ⟨vars, t.begin a.id⟩ ⟨vars, t.engine⟩ := ⟨rfl, h'.begin a.id⟩
  obtain ⟨hsame, hprepared⟩ : prepared₁.1 = prepared₂.1 ∧ begun.scope.Near prepared₁.2 prepared₂.2 :=
    ((begun.onScope (gatelessPart_prepare a)).near _ _ hbegun).resolve_left id
  have hgoesOn : begun.scope.Kept (goOn fuel a caller handOver₁ runSync₁ prepared₂.1) (goesOn prepared₂.1) := by
    rw [hdeadline]
    exact .bind (runScript_kept fuel hwork hsync a.id _ t.stints a caller a.trigger.script) fun outcome =>
      begun.onScope (gatelessPart_settle a outcome)
  obtain ⟨hconclusion, hlocals, hended⟩ := (hgoesOn.near _ _ hprepared).resolve_left id
  have hrun₁ : runHere fuel onMain depth handOver₁ runSync₁ a ⟨vars, t⟩ =
    let ended := goOn fuel a caller handOver₁ runSync₁ prepared₁.1 prepared₁.2
    (ended.1, { ended.2 with world := ended.2.world.finish }) := rfl
  have hrun₂ : (Outlook.plain H).runHere fuel onMain depth handOver₂ runSync₂ a ⟨vars, t.engine⟩ =
    goesOn prepared₂.1 prepared₂.2 := rfl
  rw [hrun₁, hrun₂, hsame]
  exact .inr ⟨hconclusion, hlocals, Faithful.finish hended h'.under⟩

end

/-- So does an activation on the main thread, by induction on how many levels may still follow. -/
theorem runOnMain_kept (P : List Stint → Prop) (levels depth : Nat) (a : Activation H) :
    (beside timeout P).scope.Kept (runOnMain fuel levels depth a) ((Outlook.plain H).runOnMain fuel levels depth a) := by
  induction levels generalizing P depth a with
  | zero => exact (beside timeout P).onScope (gatelessPart_refuseDepth a)
  | succ levels ih =>
    exact runHere_kept fuel (fun P => (beside timeout P).workHere)
      (fun P b => (beside timeout P).spread (ih P (depth + 1) b)) true (depth + 1) P a

variable (P : List Stint → Prop)

/-- The first activation on the main thread. -/
theorem runTop_kept (a : Activation H) :
    (beside timeout P).scope.Kept (runTop fuel a) ((Outlook.plain H).runTop fuel a) :=
  .bind ((beside timeout P).onScope gatelessPart_levels) fun levels => runOnMain_kept fuel P levels 0 a

/-- A task of the main thread, be it an activation or work of the host. -/
theorem runTask_kept (t : MainTask H) : (beside timeout P).Kept (runTask fuel t) ((Outlook.plain H).runTask fuel t) := by
  cases t with
  | work w => exact (beside timeout P).onEngine (gateless_runWork fuel w)
  | activation a vars => exact .bind ((beside timeout P).inScope vars (runTop_kept fuel P a)) fun _ => .pure _

/-- Tasks one after the other. -/
theorem runTasks_kept (ts : List (MainTask H)) :
    (beside timeout P).KeptAct (runTasks fuel ts) ((Outlook.plain H).runTasks fuel ts) := by
  induction ts with
  | nil => exact .pure _
  | cons t rest ih =>
    refine .andThen (runTask_kept fuel P t).lift fun r => ?_
    rcases r with (_ | _) | _
    · exact ih
    · exact .pure _
    · exact ih

/-- A task that is handed to the main thread, behind those that are queued. -/
theorem callMain_kept (t : MainTask H) :
    (beside timeout P).KeptAct (callMain fuel t) ((Outlook.plain H).callMain fuel t) := by
  refine .andThen ((beside timeout P).handIn t) fun taken => ?_
  cases taken with
  | error f => exact .pure _
  | ok batch =>
    refine .andThen (runTasks_kept fuel P batch.dropLast) fun _ => .andThen (runTask_kept fuel P t).lift fun r => ?_
    rcases r with (_ | _) | _ <;> exact .pure _

/-- Work that a worker hands over. -/
theorem workAcross_kept (w : Work H) :
    (beside timeout P).KeptAct (workAcross fuel w) ((Outlook.plain H).workAcross fuel w) := callMain_kept fuel P (.work w)

/-- An activation that is handed over with its variables. -/
theorem runAcross_kept (a : Activation H) :
    (beside timeout P).KeptRun (runAcross fuel a) ((Outlook.plain H).runAcross fuel a) := by
  have hlocals (vars : Variables) : (beside (H := H) timeout P).KeptRun
      (modify fun s => { s with locals := vars } : Run (Timesheet H) PUnit)
      (modify fun s => { s with locals := vars } : Run (Engine H) PUnit) :=
    ⟨fun _ h => h, fun _ _ h => .inr ⟨rfl, rfl, h.2⟩⟩
  refine .get Scope.locals Scope.locals (runAcrossWith fuel a) ((Outlook.plain H).runAcrossWith fuel a) (fun _ _ h => h.1) ?_
  refine fun vars => .andThen (hlocals ∅) fun _ => .andThen (callMain_kept fuel P (.activation a vars)).ofAct fun answer => ?_
  cases answer with
  | ok r => exact .andThen (hlocals r.2) fun _ => .pure _
  | error f => exact .andThen ((beside timeout P).run (.of (fun _ _ => .of_clock rfl rfl) fun _ _ _ => rfl)) fun _ => .pure _

/-- The first activation on a worker. -/
theorem runFirst_kept (a : Activation H) :
    (beside timeout P).scope.Kept (runFirst fuel a) ((Outlook.plain H).runFirst fuel a) := by
  refine .bind ((beside timeout P).onScope gatelessPart_levels) fun levels => ?_
  cases levels with
  | zero => exact (beside timeout P).onScope (gatelessPart_refuseDepth a)
  | succ =>
    exact runHere_kept fuel (fun P => workAcross_kept fuel P) (fun P => runAcross_kept fuel P) false 1 P a

/-- A job, and what is kept of it for those who wait. -/
theorem runJob_kept (job : Job H) : (beside timeout P).KeptAct (runJob fuel job) ((Outlook.plain H).runJob fuel job) := by
  refine .andThen ((beside timeout P).inScope job.locals (runFirst_kept fuel P job.activation)).lift fun r => ?_
  obtain ⟨(_ | _) | _, reached⟩ := r
  · exact (beside timeout P).act (gateless_keep _ _)
  · exact .pure _
  · exact (beside timeout P).act (gateless_keep _ _)

/-- Jobs one after the other. -/
theorem drain_kept (jobs : Nat) : (beside timeout P).KeptAct (drain fuel jobs) ((Outlook.plain H).drain fuel jobs) := by
  induction jobs with
  | zero => exact .pure _
  | succ jobs ih =>
    refine .andThen (beside timeout P).pass_kept.lift fun _ =>
      .andThen ((beside timeout P).act gateless_takeJob) fun taken => ?_
    cases taken with
    | none => exact .pure _
    | some job => exact .andThen (runJob_kept fuel P job) fun _ => ih

/-- An activation that its caller waits for, from whatever thread. -/
theorem runSyncFrom_kept (onMain : Bool) (a : Activation H) :
    (beside timeout P).KeptRun (runSyncFrom fuel onMain a) ((Outlook.plain H).runSyncFrom fuel onMain a) := by
  unfold runSyncFrom Outlook.runSyncFrom
  cases onMain with
  | true => exact (beside timeout P).spread (runTop_kept fuel P a)
  | false => exact runAcross_kept fuel P a

/-- To take the tasks out of the queue notes nothing. -/
theorem takeTasks_kept : (beside timeout P).KeptAct (outlook.act takeTasks) ((Outlook.plain H).act takeTasks) := by
  refine ⟨fun _ => id, fun t e h => .inr ?_⟩
  have h' : Faithful timeout P t e := h
  obtain rfl : t.engine = e := h'.engine
  exact ⟨rfl, h'.put (.of_clock rfl rfl)⟩

/-- Whatever a thread is given to do keeps the notes faithful. -/
theorem carryOut_kept (chore : Chore H) :
    (beside timeout P).Kept (carryOut fuel chore) ((Outlook.plain H).carryOut fuel chore) := by
  cases chore with
  | start onMain t c mode vars =>
    have hstart := (beside timeout P).activateWith (runSyncFrom_kept fuel P onMain) t c mode
    exact .bind ((beside timeout P).inScope vars hstart) fun _ => .pure _
  | handOver w => exact .bind (workAcross_kept fuel P w) fun _ => .pure _
  | tasks => exact .bind (.andThen (takeTasks_kept P) fun batch => runTasks_kept fuel P batch) fun _ => .pure _
  | jobs count => exact .bind (drain_kept fuel P count) fun _ => .pure _

/-- So does one thing after the other. -/
theorem carryOutAll_kept (chores : List (Chore H)) :
    (beside timeout P).Kept (carryOutAll fuel chores) ((Outlook.plain H).carryOutAll fuel chores) := by
  induction chores with
  | nil => exact .pure _
  | cons chore rest ih =>
    exact .bind (beside timeout P).pass_kept fun _ => .bind (carryOut_kept fuel P chore) fun _ => ih

end

/-! ## The whole of it -/

/-- What is noted while a thread does what it is given to do. -/
def after (fuel : Nat) (chores : List (Chore H)) (e : Engine H) : Timesheet H := (carryOutAll fuel chores { engine := e }).2

/-- Each activation has its own deadline, however it came to run. With a timeout, whatever a thread is given to do, no activation comes
to a node when the timeout has passed since it started itself. Those that wait for it have each come to the node in which they wait
within the timeout, counted from their own start, and what they wait for was started behind that. So from the start of an activation on
there is, for it and for each one inside it, one timeout at most, and the time that the nodes took in which they wait. The engine goes
on as it does without the notes. -/
theorem visits_in_time (fuel : Nat) (chores : List (Chore H)) {e : Engine H} {timeout : Duration}
    (hlimit : e.settings.execution.activationTimeout = some timeout) :
    (after fuel chores e).engine = chores.foldl (Engine.carryOut fuel) e ∧
      ∀ v ∈ (after fuel chores e).visits,
        (∃ own callers, v.stints = own :: callers ∧ v.instant < own.start + timeout.nanoseconds) ∧
        (∀ s ∈ v.stints, s.start ≤ s.last ∧ s.last ≤ s.start + timeout.nanoseconds) ∧
        v.stints.IsChain (fun s caller => caller.last ≤ s.start) ∧
        ∀ inner s outer, v.stints = inner ++ s :: outer → s.start ≤ v.instant ∧
          v.instant < s.start + (inner.length + 1) * timeout.nanoseconds + Stint.waits (inner ++ [s]) := by
  have hfaithful : Faithful timeout (fun _ => True) { engine := e } e := ⟨rfl, hlimit, trivial, trivial, List.forall_mem_nil _⟩
  obtain ⟨-, hengine, -, -, -, hvisits⟩ := ((carryOutAll_kept fuel _ chores).near _ _ hfaithful).resolve_left id
  refine ⟨hengine.trans (carryOutAll_plain fuel chores e), fun v hv => ?_⟩
  obtain ⟨⟨own, callers, hstints, hlate⟩, horderly⟩ := hvisits v hv
  refine ⟨⟨own, callers, hstints, hlate⟩, horderly.last_le, horderly.isChain, fun inner s outer hsplit => ?_⟩
  have hown : (inner ++ [s]).head? = some own := by
    rw [hstints] at hsplit
    cases inner <;> cases hsplit <;> rfl
  rw [hsplit] at horderly
  have hbound := horderly.le_of_append hown
  refine ⟨horderly.start_le s (by simp), ?_⟩
  rw [Nat.succ_mul]
  omega

/-! ## A run -/

/-- Writes a global variable. -/
def noticed : Trigger :=
  ⟨0, "noticed", "global.seen = true", ⟨[.assign {} (.globalName "seen") (.literal {} (.bool true))]⟩, .sync⟩

/-- Calls the other one, and writes a global variable of its own. -/
def noticing : Trigger :=
  ⟨1, "noticing", "#CALL(\"noticed\")\nglobal.done = true",
    ⟨[.command {} "CALL" [.literal {} (.string "noticed")], .assign {} (.globalName "done") (.literal {} (.bool true))]⟩, .sync⟩

/-- The timeout is a millisecond, and the clock shows a quarter of one more with each reading. -/
def hurried : Engine Unit :=
  Engine.insertTrigger noticed (.new { execution := { activationTimeoutMs := some 1 } } .attached true () (.memory ∅) .empty
    (.steady 250000))

def hurriedStart : Chore Unit := .start true noticing ⟨0, ⟨"tick", false⟩, none, .idle Unit⟩ .sync ∅

/-- The second trigger is called when half of the time of the first one is over, and comes to its nodes when that is over; then the
first one is stopped. -/
theorem visits_in_time_called :
    let t := after 1 [hurriedStart] hurried
    hurried.settings.execution.activationTimeout = some ⟨1000000⟩ ∧
      t.visits.map (fun v => (v.instant, v.stints.map Stint.start)) =
        [(250000, [0]), (500000, [0]), (1000000, [750000, 0]), (1250000, [750000, 0])] ∧
      (t.engine.reach.globals.get? "seen").isSome ∧ (t.engine.reach.globals.get? "done").isNone ∧
      ∀ v ∈ t.visits, ∃ own callers, v.stints = own :: callers ∧ v.instant < own.start + 1000000 := by
  intro t
  have hlimit : hurried.settings.execution.activationTimeout = some ⟨1000000⟩ := rfl
  have hrun : t.visits.map (fun v => (v.instant, v.stints.map Stint.start)) =
        [(250000, [0]), (500000, [0]), (1000000, [750000, 0]), (1250000, [750000, 0])] ∧
      (t.engine.reach.globals.get? "seen").isSome ∧ (t.engine.reach.globals.get? "done").isNone := by
    decide +kernel
  obtain ⟨hvisits, hseen, hdone⟩ := hrun
  exact ⟨hlimit, hvisits, hseen, hdone, fun v hv => ((visits_in_time 1 [hurriedStart] hlimit).2 v hv).1⟩

/-- The deadline of an activation does not bound those that it waits for. -/
theorem callers_in_time_false :
    ¬∀ (fuel : Nat) (chores : List (Chore Unit)) (e : Engine Unit) (timeout : Duration),
      e.settings.execution.activationTimeout = some timeout →
        ∀ v ∈ (after fuel chores e).visits, ∀ s ∈ v.stints, v.instant < s.start + timeout.nanoseconds := by
  intro h
  have hrun : ¬∀ v ∈ (after 1 [hurriedStart] hurried).visits, ∀ s ∈ v.stints, v.instant < s.start + 1000000 := by
    decide +kernel
  exact hrun (h 1 [hurriedStart] hurried ⟨1000000⟩ rfl)

end Timesheet

end EventScript
