import EventScript.Proofs.Trigger.Onward

/-!
# A cancelled token is final

Once the token of a context is cancelled, no activation of the context comes to another node: neither the one that runs nor its callers,
nor one that waits before the main thread or before the workers, nor one that is started later, and whoever cancels the token, and when.

No node is entered that the hook is not asked about, so the diary of the host shows it: in front of each node in it the token was asked
for, and found as it should be (`Outlook.Amid.cancelled_for_good`). A node counts from the question for the token on; one for which the
question comes just before the cancellation is still entered.

The variables of a caller stay as they are too, with one exception (`Outlook.Amid.start_of_cancelled`): a caller that waits on another
thread has handed them over, and has none where the main thread gives no answer (`Engine.cancelled_for_good_false`).
-/

namespace EventScript

variable {H W α : Type}

/-! ## Scripts that come too late -/

namespace Host

variable {host : Host W} {s : Scope W} (h : host.isCancelled s.world = true)

include h

/-- The hook in front of a node stops a script whose token is cancelled, and changes nothing. -/
theorem enter_of_cancelled (node : Node) : host.enter node s = (.error .cancelled, s) := by
  have htoken : host.askToken s = (.ok true, s) := congrArg (fun cancelled => (Except.ok cancelled, s)) h
  rw [enter_eq, Run.bind_ok htoken]
  rfl

/-- A statement enters its node before anything of it happens. -/
theorem execute_of_cancelled (fuel : Nat) (statement : Statement) :
    host.execute host.enter fuel statement s = (.error .cancelled, s) := by
  cases statement
  all_goals
    unfold execute
    exact Run.bind_error (enter_of_cancelled h _)

/-- A script whose token is cancelled before its first node does nothing. -/
theorem run_of_cancelled (fuel : Nat) (script : Script) :
    host.run fuel script s = (if script.statements = [] then .completed else .halted .cancelled, s) := by
  rw [run_apply]
  cases script.statements with
  | nil =>
    unfold executeAll
    rfl
  | cons statement rest =>
    unfold executeAll
    rw [Run.bind_error (execute_of_cancelled h fuel statement), if_neg (List.cons_ne_nil statement rest)]
    rfl

end Host

/-! ## What a thread does -/

/-- Something that a thread is given to do. -/
inductive Chore (H : Type) where
  /-- A trigger is started, from the main thread or from another one. -/
  | start (onMain : Bool) (t : Trigger) (c : Context H) (mode : Mode) (vars : Variables)
  /-- Work is handed to the main thread from another one. -/
  | handOver (w : Work H)
  /-- The main thread takes up what is queued. -/
  | tasks
  /-- A worker takes up jobs, at most so many. -/
  | jobs (count : Nat)

def Chore.Fair : Chore (Diarist H) → Prop
  | .start _ _ c _ _ => c.Fair
  | .handOver w => Work.Fair w
  | .tasks | .jobs _ => True

namespace Engine

/-- How an activation runs that is started on the main thread or on another one, and that its caller waits for. -/
def runSyncFrom (fuel : Nat) (onMain : Bool) : RunSync H := fun a s =>
  if onMain then spread (runOnMain fuel s.world.maxDepth 0 a) s else runAcross fuel a s

/-- What becomes of an engine by what a thread is given to do. -/
def carryOut (fuel : Nat) (e : Engine H) : Chore H → Engine H
  | .start onMain t c mode vars => (activateWith (runSyncFrom fuel onMain) t c mode ⟨vars, e⟩).2.world
  | .handOver w => (workAcross fuel w e).2
  | .tasks => (runTasks fuel e.bridge.collect.1 { e with bridge := e.bridge.collect.2 }).2
  | .jobs count => (drain fuel count e).2

end Engine

namespace Outlook

/-- Takes all tasks out of the queue. -/
def takeTasks : Act (Engine H) (List (MainTask H)) := fun e =>
  (.ok e.bridge.collect.1, { e with bridge := e.bridge.collect.2 })

/-- How an activation runs that is started on the main thread or on another one, and that its caller waits for. -/
def runSyncFrom (o : Outlook H W) (fuel : Nat) (onMain : Bool) (a : Activation H) : Run W Verdict :=
  if onMain then spread (o.runTop fuel a) else o.runAcross fuel a

/-- Starts a trigger for a caller on the main thread or on another one. The caller has its variables back with what comes of it. -/
def start (o : Outlook H W) (fuel : Nat) (onMain : Bool) (t : Trigger) (c : Context H) (mode : Mode) (vars : Variables) :
    StateM W (Except Halt Handle × Variables) := inScope vars (o.activateWith (o.runSyncFrom fuel onMain) t c mode)

/-- Does what a thread is given to do, whatever comes of it. -/
def carryOut (o : Outlook H W) (fuel : Nat) : Chore H → StateM W Unit
  | .start onMain t c mode vars => do
    let _ ← o.start fuel onMain t c mode vars
  | .handOver w => do
    let _ ← (o.workAcross fuel w).run
  | .tasks => do
    let _ ← (o.act takeTasks >>= o.runTasks fuel : Act W Unit).run
  | .jobs count => do
    let _ ← (o.drain fuel count).run

/-- Does one thing after the other, with other threads in between. -/
def carryOutAll (o : Outlook H W) (fuel : Nat) : List (Chore H) → StateM W Unit
  | [] => pure ()
  | chore :: rest => do
    modify o.pass
    o.carryOut fuel chore
    carryOutAll o fuel rest

/-- Where there is no other thread it is what the engine does. -/
theorem runSyncFrom_plain (fuel : Nat) (onMain : Bool) :
    (plain H).runSyncFrom fuel onMain = Engine.runSyncFrom fuel onMain := by
  funext a s
  unfold runSyncFrom Engine.runSyncFrom
  cases onMain with
  | false => exact congrFun (runAcross_plain fuel a) s
  | true =>
    have htop : (plain H).runTop fuel a s = Engine.runOnMain fuel s.world.maxDepth 0 a s := runTop_plain fuel a s
    show spread ((plain H).runTop fuel a) s = Engine.spread (Engine.runOnMain fuel s.world.maxDepth 0 a) s
    rw [Engine.spread_apply, ← htop]
    exact Engine.spread_apply ((plain H).runTop fuel a) s

/-- With nobody else about, a chore is carried out as on the engine itself. -/
theorem carryOut_plain (fuel : Nat) (chore : Chore H) (e : Engine H) :
    ((plain H).carryOut fuel chore e).2 = e.carryOut fuel chore := by
  cases chore with
  | start onMain t c mode vars =>
    show ((plain H).activateWith ((plain H).runSyncFrom fuel onMain) t c mode ⟨vars, e⟩).2.world = _
    rw [runSyncFrom_plain, activateWith_plain]
    rfl
  | handOver w => exact congrArg Prod.snd (congrFun (workAcross_plain fuel w) e)
  | tasks => exact congrArg Prod.snd (congrFun (runTasks_plain fuel e.bridge.collect.1) { e with bridge := e.bridge.collect.2 })
  | jobs count => exact congrArg Prod.snd (congrFun (drain_plain fuel count) e)

/-- With nobody else about, the chores of a list are carried out one after the other on the engine itself. -/
theorem carryOutAll_plain (fuel : Nat) (chores : List (Chore H)) (e : Engine H) :
    ((plain H).carryOutAll fuel chores e).2 = chores.foldl (Engine.carryOut fuel) e := by
  induction chores generalizing e with
  | nil => rfl
  | cons chore rest ih =>
    show ((plain H).carryOutAll fuel rest ((plain H).carryOut fuel chore e).2).2 = _
    rw [carryOut_plain]
    exact ih (e.carryOut fuel chore)

/-- The tasks that the main thread takes are fair ones. -/
theorem gives_takeTasks : (onward H).Gives takeTasks fun batch => ∀ t ∈ batch, t.Fair where
  keeps _ he := Engine.onward_withBridge he nofun
  gives _ he batch hbatch := by
    cases hbatch
    exact he.tasks

namespace Amid

variable {o : Outlook (Diarist H) W} (A : o.Amid) (fuel : Nat)

include A

/-- A fair activation that its caller waits for goes onward, whichever thread the caller is on. -/
theorem runSyncFrom (onMain : Bool) {a : Activation (Diarist H)} (ha : a.context.Fair) :
    o.regime.KeepsRun (o.runSyncFrom fuel onMain a) := by
  unfold Outlook.runSyncFrom
  cases onMain with
  | true => exact spread (A.runTop fuel ha)
  | false => exact A.runAcross fuel ha

/-- A fair chore goes onward. -/
theorem carryOut {chore : Chore (Diarist H)} (hchore : chore.Fair) : o.regime.Keeps (o.carryOut fuel chore) := by
  cases chore with
  | start onMain t c mode vars =>
    exact .bind (inScope vars (A.activateWith (fun _ ha => A.runSyncFrom fuel onMain ha) t hchore mode)) fun _ => .pure _
  | handOver w => exact .bind (A.workAcross fuel hchore) fun _ => .pure _
  | tasks => exact .bind ((A.gives_act gives_takeTasks).andThen fun _ hbatch => A.runTasks fuel hbatch) fun _ => .pure _
  | jobs count => exact .bind (A.drain fuel count) fun _ => .pure _

/-- Fair chores go onward, one after the other. -/
theorem carryOutAll {chores : List (Chore (Diarist H))} (hchores : ∀ chore ∈ chores, chore.Fair) :
    o.regime.Keeps (o.carryOutAll fuel chores) := by
  induction chores with
  | nil => exact .pure _
  | cons chore rest ih =>
    obtain ⟨hchore, hrest⟩ := List.forall_mem_cons.mp hchores
    exact .bind A.pass_keeps fun _ => .bind (A.carryOut fuel hchore) fun _ => ih hrest

end Amid

end Outlook

/-! ## The variables of a caller -/

namespace Outlook

variable {o : Outlook (Diarist H) W} {fuel : Nat}

/-- The code of the host is fair, and the token of the context is cancelled. -/
structure Stopped (o : Outlook (Diarist H) W) (context : Nat) (w : W) : Prop where
  fair : (o.engine w).code.Fair
  cancelled : (o.engine w).reach.isCancelled context = true

section

variable {context : Nat}

/-- No part that goes onward takes a cancellation back. -/
theorem Stopped.leads {w w' : W} (h : o.Stopped context w) (honward : o.regime.Holds w' ∧ o.regime.Leads w w') :
    o.Stopped context w' := by
  obtain ⟨hfair, htokens, -⟩ : (o.engine w').code.Fair ∧ (o.engine w).Onward (o.engine w') := honward
  exact ⟨hfair, List.contains_iff_mem.mpr (htokens (List.contains_iff_mem.mp h.cancelled))⟩

/-- What has stopped stays so behind anything that goes onward. -/
theorem Stopped.after {w w' : W} {m : StateM W α} {a : α} (h : o.Stopped context w) (hm : o.regime.Keeps m) (hrun : m w = (a, w')) :
    o.Stopped context w' := by
  have honward := hm w h.fair
  rw [hrun] at honward
  exact h.leads honward

/-- What has stopped stays so behind a part of a run that goes onward. -/
theorem Stopped.afterRun {s s' : Scope W} {m : StateM (Scope W) α} {a : α} (h : o.Stopped context s.world)
    (hm : o.regime.scope.Keeps m) (hrun : m s = (a, s')) : o.Stopped context s'.world := by
  have honward := hm s h.fair
  rw [hrun] at honward
  exact h.leads honward

end

/-- The main thread stops at a task only where that comes to no end. -/
theorem runTasks_error {ts : List (MainTask H)} {o : Outlook H W} {w w' : W} {reason : Halt}
    (h : o.runTasks fuel ts w = (.error reason, w')) : reason = .outOfFuel := by
  induction ts generalizing w with
  | nil => cases h
  | cons t rest ih =>
    obtain ⟨r, u, htask⟩ : ∃ r u, o.runTask fuel t w = (r, u) := ⟨_, _, rfl⟩
    unfold runTasks at h
    rw [Run.bind_ok (Run.liftM_apply htask)] at h
    rcases r with (_ | _) | _
    · exact ih h
    · cases h
      rfl
    · exact ih h

/-- A task is refused, dropped or given up, or it is taken up, or it waits for ever. -/
theorem handIn_error {o : Outlook H W} {t : MainTask H} {w w' : W} {reason : Halt} (h : o.handIn t w = (.error reason, w')) :
    reason = .outOfFuel := by
  simp only [handIn, takeUp] at h
  split at h
  · cases h
  · split at h
    · cases h
    · cases h
    · split at h
      · cases h
      · cases h
        rfl

namespace Amid

variable (A : o.Amid) (fuel) {a : Activation (Diarist H)}

include A

/-- An activation that comes to its script too late ends at once, and its variables stay as they are. -/
theorem runHere_of_cancelled {handOver : Work (Diarist H) → Act W (Except BridgeFault Value)}
    {runSync : Activation (Diarist H) → Run W Verdict} (onMain : Bool) (depth : Nat) {s : Scope W}
    (h : o.Stopped a.context.id s.world) :
    ∃ v w', o.runHere fuel onMain depth handOver runSync a s = (.ok v, ⟨s.locals, w'⟩) := by
  obtain ⟨deadline, s₁, hprepare⟩ : ∃ deadline s₁, o.onScope (prepare a) s = (deadline, s₁) := ⟨_, _, rfl⟩
  have hlocals : s₁.locals = s.locals := by
    have hkept : (o.onScope (prepare a) s).2.locals = s.locals := rfl
    rwa [hprepare] at hkept
  have hstopped := h.afterRun (A.onScope (keeps_prepare a)) hprepare
  let caller : Caller := ⟨a.context.id, a.context.event, a.context.actor, a.mode, onMain, depth⟩
  have hcancelled : (o.surroundings a caller deadline handOver runSync).isCancelled s₁.world = true := hstopped.cancelled
  have hrun := Host.run_of_cancelled hcancelled fuel a.trigger.script
  unfold Outlook.runHere
  rw [stateM_bind_apply, hprepare, stateM_bind_apply, hrun, ← hlocals]
  split
  · exact ⟨_, _, rfl⟩
  · exact ⟨_, _, rfl⟩

/-- An activation whose token is cancelled ends with a value and leaves its variables as they are. -/
theorem runTop_of_cancelled {s : Scope W} (h : o.Stopped a.context.id s.world) :
    ∃ v w', o.runTop fuel a s = (.ok v, ⟨s.locals, w'⟩) := by
  obtain ⟨n, w₁, hlevels⟩ : ∃ n w₁, o.onScope levels s = (n, ⟨s.locals, w₁⟩) := ⟨_, _, rfl⟩
  have hstopped := h.afterRun (A.onScope keeps_levels) hlevels
  unfold Outlook.runTop
  rw [stateM_bind_apply, hlevels]
  cases n with
  | zero => exact ⟨_, _, rfl⟩
  | succ n => exact A.runHere_of_cancelled fuel true 1 hstopped

/-- A task that the main thread takes up too late gives the variables back that came with it. -/
theorem runTask_of_cancelled {w : W} (vars : Variables) (h : o.Stopped a.context.id w) :
    ∃ v w', o.runTask fuel (.activation a vars) w = (.ok (v, vars), w') := by
  obtain ⟨v, w', htop⟩ := A.runTop_of_cancelled fuel (s := ⟨vars, w⟩) h
  have hscope : Outlook.inScope vars (o.runTop fuel a) w = ((.ok v, vars), w') := by
    unfold Outlook.inScope
    rw [htop]
  refine ⟨v, w', ?_⟩
  show ((Outlook.inScope vars (o.runTop fuel a) w).1.1.map fun v => (v, (Outlook.inScope vars (o.runTop fuel a) w).1.2),
    (Outlook.inScope vars (o.runTop fuel a) w).2) = _
  rw [hscope]
  rfl

/-- The main thread gives back the variables that it was handed, or there is no answer. -/
theorem callMain_of_cancelled (ha : a.context.Fair) {w : W} (vars : Variables) (h : o.Stopped a.context.id w) :
    (∃ v w', o.callMain fuel (.activation a vars) w = (.ok (.ok (v, vars)), w')) ∨
      (∃ f w', o.callMain fuel (.activation a vars) w = (.ok (.error f), w')) ∨
      ∃ w', o.callMain fuel (.activation a vars) w = (.error .outOfFuel, w') := by
  have hin := A.gives_handIn (t := .activation a vars) ha
  unfold Outlook.callMain
  rcases Run.cases (o.handIn (.activation a vars)) w with ⟨taken, w₁, htaken⟩ | ⟨reason, w₁, hstop⟩
  · rw [Run.bind_ok htaken]
    cases taken with
    | error f => exact .inr (.inl ⟨f, w₁, rfl⟩)
    | ok batch =>
      have hbatch : ∀ t ∈ batch.dropLast, t.Fair := fun t ht =>
        hin.gives w h.fair (.ok batch) (by rw [htaken]) batch rfl t (List.dropLast_subset batch ht)
      have hstopped := h.after hin.keeps htaken
      rcases Run.cases (o.runTasks fuel batch.dropLast) w₁ with ⟨done, w₂, htasks⟩ | ⟨reason, w₂, hstop⟩
      · obtain ⟨v, w₃, htask⟩ := A.runTask_of_cancelled fuel vars (hstopped.after (A.runTasks fuel hbatch) htasks)
        exact .inl ⟨v, w₃, (Run.bind_ok htasks).trans (Run.bind_ok (Run.liftM_apply htask))⟩
      · obtain rfl := runTasks_error hstop
        exact .inr (.inr ⟨w₂, Run.bind_error hstop⟩)
  · obtain rfl := handIn_error hstop
    exact .inr (.inr ⟨w₁, Run.bind_error hstop⟩)

/-- A caller on another thread has its variables back, or none if there is no answer. -/
theorem runAcross_of_cancelled (ha : a.context.Fair) {s : Scope W} (h : o.Stopped a.context.id s.world) :
    (∃ v w', o.runAcross fuel a s = (.ok v, ⟨s.locals, w'⟩)) ∨
      (∃ f w', o.runAcross fuel a s = (.ok (.error (.bridge f)), ⟨∅, w'⟩)) ∨
      ∃ w', o.runAcross fuel a s = (.error .outOfFuel, ⟨∅, w'⟩) := by
  have hcall {r : Except Halt (Except BridgeFault (Verdict × Variables))} {w' : W}
      (hcalled : o.callMain fuel (.activation a s.locals) s.world = (r, w')) :
      Run.ofAct (o.callMain fuel (.activation a s.locals)) ⟨∅, s.world⟩ = (r, ⟨∅, w'⟩) := by
    show ((o.callMain fuel (.activation a s.locals) s.world).1,
      Scope.mk ∅ (o.callMain fuel (.activation a s.locals) s.world).2) = _
    rw [hcalled]
    rfl
  unfold Outlook.runAcross runAcrossWith
  rw [Run.get_bind, Run.bind_ok (Run.modify_apply _ _)]
  rcases A.callMain_of_cancelled fuel ha s.locals h with ⟨v, w', hanswer⟩ | ⟨f, w', hfault⟩ | ⟨w', hstop⟩
  · rw [Run.bind_ok (hcall hanswer)]
    exact .inl ⟨v, w', rfl⟩
  · rw [Run.bind_ok (hcall hfault)]
    exact .inr (.inl ⟨f, _, rfl⟩)
  · rw [Run.bind_error (hcall hstop)]
    exact .inr (.inr ⟨w', rfl⟩)

/-- Up to where a trigger runs on its own nothing is done to the variables, and what runs is an activation in its context. -/
theorem activateWith_of_cancelled (runSync : Activation (Diarist H) → Run W Verdict) (t : Trigger) {c : Context (Diarist H)}
    (mode : Mode) {s : Scope W} (h : o.Stopped c.id s.world) :
    (o.activateWith runSync t c mode s).2.locals = s.locals ∨
      mode = .sync ∧ ∃ id w', o.Stopped c.id w' ∧ o.activateWith runSync t c mode s =
        (runSync ⟨id, t, c, mode⟩ >>= fun v => pure ⟨id, some v⟩ : Run W Handle) ⟨s.locals, w'⟩ := by
  have haccepts : o.accepts s = (.ok (o.engine (o.look .accepting s.world)).accepting, ⟨s.locals, o.look .accepting s.world⟩) := rfl
  have hlooked := h.afterRun A.accepts haccepts
  unfold Outlook.activateWith
  rw [Run.bind_ok haccepts]
  split
  · obtain ⟨cooling, w₁, hcooling⟩ : ∃ cooling w₁, o.run (Engine.toRun (Engine.isCooling t c))
      ⟨s.locals, o.look .accepting s.world⟩ = (.ok cooling, ⟨s.locals, w₁⟩) := ⟨_, _, rfl⟩
    have hread := hlooked.afterRun (A.toRun (Engine.keeps_isCooling t c)) hcooling
    rw [Run.bind_ok hcooling]
    cases cooling with
    | true => exact .inl rfl
    | false =>
      obtain ⟨id, w₂, hmade⟩ : ∃ id w₂, o.run (Engine.toRun (Engine.newActivation .created)) ⟨s.locals, w₁⟩ =
        (.ok id, ⟨s.locals, w₂⟩) := ⟨_, _, rfl⟩
      have hstopped := hread.afterRun (A.toRun (Engine.keeps_newActivation .created)) hmade
      rw [if_neg Bool.false_ne_true, Run.bind_ok hmade]
      cases mode with
      | sync => exact .inr ⟨rfl, id, w₂, hstopped, rfl⟩
      | async =>
        have hqueued (s : Scope W) : (o.enqueue ⟨id, t, c, .async⟩ s).2.locals = s.locals := by
          show (Engine.enqueue ⟨id, t, c, .async⟩ ⟨s.locals, o.engine (o.look .workers s.world)⟩).2.locals = s.locals
          unfold Engine.enqueue
          split <;> rfl
        exact .inl (Run.bind_keeps Scope.locals hqueued (fun _ _ => rfl) _)
  · exact .inl rfl

/-- A caller loses its variables only where it waits for the main thread on another one, and there is no answer. -/
theorem start_of_cancelled (onMain : Bool) (t : Trigger) {c : Context (Diarist H)} (hc : c.Fair) (mode : Mode) (vars : Variables)
    {w : W} (h : o.Stopped c.id w) :
    let started := (o.start fuel onMain t c mode vars w).1
    started.2 = vars ∨ onMain = false ∧ mode = .sync ∧ started.2 = ∅ ∧
      ((∃ id f, started.1 = .ok ⟨id, some (.error (.bridge f))⟩) ∨ started.1 = .error .outOfFuel) := by
  intro started
  have hstarted : started = (Outlook.inScope vars (o.activateWith (o.runSyncFrom fuel onMain) t c mode) w).1 := rfl
  unfold Outlook.inScope at hstarted
  rcases A.activateWith_of_cancelled (o.runSyncFrom fuel onMain) t mode (s := ⟨vars, w⟩) h with
    hkept | ⟨hmode, id, w', hstopped, hrun⟩
  · exact .inl ((congrArg Prod.snd hstarted).trans hkept)
  rw [hrun] at hstarted
  cases onMain with
  | true =>
    obtain ⟨v, w'', htop⟩ := A.runTop_of_cancelled fuel (a := ⟨id, t, c, mode⟩) (s := ⟨vars, w'⟩) hstopped
    have hspread : o.runSyncFrom fuel true ⟨id, t, c, mode⟩ ⟨vars, w'⟩ = (.ok v, ⟨vars, w''⟩) :=
      Run.bind_ok (Run.liftM_apply htop)
    rw [Run.bind_ok hspread] at hstarted
    exact .inl (congrArg Prod.snd hstarted)
  | false =>
    rcases A.runAcross_of_cancelled fuel (a := ⟨id, t, c, mode⟩) (s := ⟨vars, w'⟩) hc hstopped with
      ⟨v, w'', hback⟩ | ⟨f, w'', hfault⟩ | ⟨w'', hstop⟩
    · have hsync : o.runSyncFrom fuel false ⟨id, t, c, mode⟩ ⟨vars, w'⟩ = _ := hback
      rw [Run.bind_ok hsync] at hstarted
      exact .inl (congrArg Prod.snd hstarted)
    · have hsync : o.runSyncFrom fuel false ⟨id, t, c, mode⟩ ⟨vars, w'⟩ = _ := hfault
      rw [Run.bind_ok hsync] at hstarted
      exact .inr ⟨rfl, hmode, congrArg Prod.snd hstarted, .inl ⟨id, f, congrArg Prod.fst hstarted⟩⟩
    · have hsync : o.runSyncFrom fuel false ⟨id, t, c, mode⟩ ⟨vars, w'⟩ = _ := hstop
      rw [Run.bind_error hsync] at hstarted
      exact .inr ⟨rfl, hmode, congrArg Prod.snd hstarted, .inr (congrArg Prod.fst hstarted)⟩

end Amid

end Outlook

/-! ## The whole of it -/

/-- Behind a sighting that finds a token cancelled there is none of its context. -/
theorem Timely.context_ne {start stop : List Nat} {front back : List Sighting} {s t : Sighting} {c : Nat}
    (h : Timely start (front ++ s :: back) stop) (hc : c ∈ s.found) (ht : t ∈ back) : t.context ≠ c := by
  have hlater : s.found ⊆ t.found := (List.pairwise_cons.mp (List.pairwise_append.mp h.ordered).2.1).1 t ht
  have hclear : t.context ∉ t.found := h.clear t (List.mem_append_right front (List.mem_cons_of_mem s ht))
  rintro rfl
  exact hclear (hlater hc)

/-- What code of the host reaches when a thread has done what it was given to do. -/
def Outlook.reachAfter (o : Outlook H W) (fuel : Nat) (chores : List (Chore H)) (w : W) : Reach H :=
  (o.engine (o.carryOutAll fuel chores w).2).reach

/-- Whatever a thread is given to do, and whatever other threads do meanwhile: a token that is cancelled stays cancelled, the hook is
asked about no node whose token was found cancelled in front of it, about none of a context whose token was cancelled before all, and
none whose token was found cancelled in front of any node before. A script whose token is cancelled before it comes to its first node
leaves all as it is, and an activation that the main thread takes up by then gives its variables back. Its caller has them back too,
unless it waits on another thread and the main thread gives no answer: then it has none. -/
theorem Outlook.Amid.cancelled_for_good {o : Outlook (Diarist H) W} (A : o.Amid) (fuel : Nat) {chores : List (Chore (Diarist H))}
    (hchores : ∀ chore ∈ chores, chore.Fair) {w : W} (hw : (o.engine w).code.Fair) :
    let before := (o.engine w).reach
    let after := o.reachAfter fuel chores w
    before.cancelled ⊆ after.cancelled ∧
      (∃ ss, after.host.diary = before.host.diary ++ ss ∧ (∀ s ∈ ss, s.context ∉ s.found) ∧
        (∀ c, before.isCancelled c = true → ∀ s ∈ ss, s.context ≠ c) ∧
        ∀ front s back, ss = front ++ s :: back → ∀ c ∈ s.found, ∀ t ∈ back, t.context ≠ c) ∧
      (∀ a caller deadline handOver runSync script (s : Scope W), (o.engine s.world).reach.isCancelled caller.context = true →
        (o.surroundings a caller deadline handOver runSync).run fuel script s =
          (if script.statements = [] then .completed else .halted .cancelled, s)) ∧
      (∀ a vars w', (o.engine w').code.Fair → (o.engine w').reach.isCancelled a.context.id = true →
        ∃ v, (o.runTask fuel (.activation a vars) w').1 = .ok (v, vars)) ∧
      ∀ onMain t c mode vars w', c.Fair → (o.engine w').code.Fair → (o.engine w').reach.isCancelled c.id = true →
        let started := (o.start fuel onMain t c mode vars w').1
        started.2 = vars ∨ onMain = false ∧ mode = .sync ∧ started.2 = ∅ ∧
          ((∃ id f, started.1 = .ok ⟨id, some (.error (.bridge f))⟩) ∨ started.1 = .error .outOfFuel) := by
  intro before after
  obtain ⟨-, honward⟩ := A.carryOutAll fuel hchores w hw
  obtain ⟨htokens, ss, hdiary, htimely⟩ : (o.engine w).Onward (o.engine (o.carryOutAll fuel chores w).2) := honward
  refine ⟨htokens, ⟨ss, hdiary, htimely.clear, ?_, ?_⟩, ?_, ?_, ?_⟩
  · rintro c hc s hs rfl
    have hfound : s.context ∈ s.found := htimely.since s hs (List.contains_iff_mem.mp hc)
    exact htimely.clear s hs hfound
  · rintro front s back rfl c hc t ht
    exact htimely.context_ne hc ht
  · intro a caller deadline handOver runSync script s hs
    have hcancelled : (o.surroundings a caller deadline handOver runSync).isCancelled s.world = true := hs
    exact Host.run_of_cancelled hcancelled fuel script
  · intro a vars w' hfair hcancelled
    obtain ⟨v, w'', htask⟩ := A.runTask_of_cancelled fuel vars ⟨hfair, hcancelled⟩
    exact ⟨v, congrArg Prod.fst htask⟩
  · exact fun onMain t c mode vars w' hc hfair hcancelled => A.start_of_cancelled fuel onMain t hc mode vars ⟨hfair, hcancelled⟩

/-! ## A run -/

/-- An engine at a moment. -/
structure Scene (H : Type) where
  engine : Engine (Diarist H)
  moment : Nat

/-- A moment goes by, and at one of them another thread cancels the token of a context. -/
def Scene.later (moment context : Nat) (s : Scene H) : Scene H :=
  ⟨{ s.engine with reach := if s.moment = moment then s.engine.reach.cancel context else s.engine.reach }, s.moment + 1⟩

/-- Keeps in mind which tokens are cancelled. -/
def Engine.noteCancelled (e : Engine (Diarist H)) : Engine (Diarist H) :=
  { e with reach := { e.reach with host.found := e.reach.cancelled } }

/-- A moment goes by whenever another thread may come in. -/
def Outlook.cancelling (moment context : Nat) : Outlook (Diarist H) (Scene H) where
  engine := Scene.engine
  put e s := Scene.later moment context { s with engine := e }
  pass s := Scene.later moment context { s with engine := s.engine.noteCancelled }
  look _ := Scene.later moment context
  hold := Scene.later moment context

/-- A token that is cancelled leaves the diary and what the host has found as they are. -/
theorem Reach.fairness_cancel (r : Reach (Diarist H)) (context : Nat) :
    (fairness H).Leads r (r.cancel context) ∧ (r.cancel context).host.found = r.host.found := by
  unfold Reach.cancel
  split
  · exact ⟨(fairness H).refl r, rfl⟩
  · exact ⟨⟨List.subset_cons_self .., rfl⟩, rfl⟩

/-- A moment that goes by brings at most a cancellation, which the host has not found yet. -/
theorem Scene.meanwhile_later (moment context : Nat) (s : Scene H) :
    s.engine.Meanwhile (s.later moment context).engine ∧
      (s.later moment context).engine.reach.host.found = s.engine.reach.host.found := by
  unfold later
  split
  · obtain ⟨hleads, hfound⟩ := s.engine.reach.fairness_cancel context
    exact ⟨⟨id, hleads⟩, hfound⟩
  · exact ⟨⟨id, (fairness H).refl _⟩, rfl⟩

/-- A token that is cancelled at some moment leaves the engine to go onward, as others about it have to. -/
theorem Outlook.amid_cancelling (moment context : Nat) : (Outlook.cancelling (H := H) moment context).Amid where
  put e s := (Scene.meanwhile_later moment context { s with engine := e }).1
  put_found e s := (Scene.meanwhile_later moment context { s with engine := e }).2
  pass s := by
    obtain ⟨hfair, htokens, hdiary⟩ := (Scene.meanwhile_later moment context { s with engine := s.engine.noteCancelled }).1
    exact ⟨hfair, htokens, hdiary⟩
  pass_found s := (Scene.meanwhile_later moment context { s with engine := s.engine.noteCancelled }).2
  look _ s := (s.meanwhile_later moment context).1
  hold s := (s.meanwhile_later moment context).1

/-- Another thread cancels a token while a trigger runs that another one has called. The trigger stops in front of its next node, and so
does its caller; the job that is queued afterwards comes to no node, and a trigger that is started in another context comes to all of
its own. Whoever then starts one in the first context from another thread has its variables back. -/
theorem Outlook.Amid.cancelled_for_good_called :
    let p : Position := ⟨1, 1⟩
    let n : Trigger := ⟨0, "n", "global.seen = true", ⟨[.assign p (.globalName "seen") (.literal p (.bool true))]⟩, .sync⟩
    let t : Trigger := ⟨1, "t", "#CALL(\"n\")\nglobal.done = true",
      ⟨[.command p "CALL" [.literal p (.string "n")], .assign p (.globalName "done") (.literal p (.bool true))]⟩, .sync⟩
    let c (id : Nat) : Context (Diarist Unit) := ⟨id, ⟨"tick", false⟩, none, (Hook.idle (Diarist Unit)).noting⟩
    let chores : List (Chore (Diarist Unit)) :=
      [.start true t (c 0) .sync ∅, .start true t (c 0) .async ∅, .jobs 1, .start true n (c 1) .sync ∅]
    let w : Scene Unit := ⟨Engine.insertTrigger n (.new {} .attached true { host := () } (.memory ∅) .empty (.steady 1)), 0⟩
    let o : Outlook (Diarist Unit) (Scene Unit) := .cancelling 20 0
    let vars : Variables := (∅ : Variables).insert "v" (.int 1)
    (∀ chore ∈ chores, chore.Fair) ∧ (o.engine w).code.Fair ∧
      (o.reachAfter 1 chores w).host.diary.map (fun s => (s.context, s.found)) =
        [(0, []), (0, []), (0, []), (1, [0]), (1, [0])] ∧
      ((o.reachAfter 1 chores w).globals.get? "done").isNone ∧ ((o.reachAfter 1 chores w).globals.get? "seen").isSome ∧
      (∃ ss, (o.reachAfter 1 chores w).host.diary = (o.engine w).reach.host.diary ++ ss ∧
        ∀ front s back, ss = front ++ s :: back → ∀ c ∈ s.found, ∀ t ∈ back, t.context ≠ c) ∧
      (o.start 1 false t (c 0) .sync vars (o.carryOutAll 1 chores w).2).1.2 = vars := by
  intro p n t c chores w o vars
  have hidle : (Hook.idle (Diarist Unit)).Fair := ⟨fun _ _ => .pure _, fun _ _ _ => .pure _, fun _ _ _ => .pure _⟩
  have hc (id : Nat) : (c id).Fair := ⟨_, hidle, rfl⟩
  have hchores : ∀ chore ∈ chores, chore.Fair := by
    simp only [chores, List.forall_mem_cons]
    exact ⟨hc 0, hc 0, trivial, hc 1, List.forall_mem_nil _⟩
  have hcode : (o.engine w).code.Fair := by
    refine ⟨fun name command hfound => ?_, fun name placeholder hfound => ?_, List.forall_mem_nil _, List.forall_mem_nil _⟩
    · cases (Registry.get?_empty Text.upper name).symm.trans hfound
    · cases (Registry.get?_empty Text.lower name).symm.trans hfound
  have hamid : o.Amid := amid_cancelling 20 0
  have hlater : (o.engine (o.carryOutAll 1 chores w).2).code.Fair := (hamid.carryOutAll 1 hchores w hcode).1
  obtain ⟨-, ⟨ss, hdiary, -, -, hclear⟩, -, -, hstarted⟩ := hamid.cancelled_for_good 1 hchores hcode
  have hrun : (o.reachAfter 1 chores w).host.diary.map (fun s => (s.context, s.found)) =
        [(0, []), (0, []), (0, []), (1, [0]), (1, [0])] ∧
      ((o.reachAfter 1 chores w).globals.get? "done").isNone ∧ ((o.reachAfter 1 chores w).globals.get? "seen").isSome ∧
      (o.reachAfter 1 chores w).isCancelled 0 = true ∧
      ((o.start 1 false t (c 0) .sync vars (o.carryOutAll 1 chores w).2).1.2["v"]?).isSome := by
    decide +kernel
  obtain ⟨hsightings, hdone, hseen, hcancelled, hback⟩ := hrun
  refine ⟨hchores, hcode, hsightings, hdone, hseen, ⟨ss, hdiary, hclear⟩, ?_⟩
  rcases hstarted false t (c 0) .sync vars _ (hc 0) hlater hcancelled with hvars | ⟨-, -, hnone, -⟩
  · exact hvars
  · rw [hnone, Std.ExtTreeMap.getElem?_empty] at hback
    cases hback

/-- A trigger is started from another thread in a context whose token is cancelled, and the thread of the host does not take it up in
time. It comes to no node, and yet the variable that its caller had is gone. -/
theorem Engine.cancelled_for_good_false :
    let t : Trigger := ⟨0, "t", "#RECORD(1)", ⟨[.command ⟨1, 1⟩ "RECORD" [.literal ⟨1, 1⟩ (.int 1)]]⟩, .sync⟩
    let c : Context (Diarist Unit) := ⟨0, ⟨"tick", false⟩, none, (Hook.idle (Diarist Unit)).noting⟩
    let settings : Settings := { execution := { bridgeTimeoutMs := some 10 } }
    let idle : Engine (Diarist Unit) := .new settings .attached false { host := () } (.memory ∅) .empty (.steady 1)
    let e := { idle with reach := idle.reach.cancel 0 }
    let started := (Outlook.plain (Diarist Unit)).start 1 false t c .sync ((∅ : Variables).insert "v" (.int 1)) e
    e.reach.isCancelled c.id = true ∧
      started.1.1 = .ok ⟨0, some (.error (.bridge (.timedOut (.ofMilliseconds 10))))⟩ ∧
      started.2.reach.host.diary = [] ∧ started.1.2["v"]? = none :=
  ⟨rfl, rfl, rfl, rfl⟩

end EventScript
