import EventScript.Proofs.Trigger.Diary

/-!
# Activations go onward

An activation goes onward whatever other threads do meanwhile, as long as they do not take back a cancellation themselves. What has to
be looked at is how a node is entered: the token is asked for, then other threads may do something, and then the hook is asked
(`Amid.enter`). For all else there is one statement for each part of an activation, up to `Amid.runJob` and `Amid.drain`.
-/

namespace EventScript

variable {H W α : Type}

/-- What other threads may have done: they hand in fair code alone, and what they write down is in diaries of their own. -/
structure Engine.Meanwhile (e e' : Engine (Diarist H)) : Prop where
  fair : e.code.Fair → e'.code.Fair
  reach : (fairness H).Leads e.reach e'.reach

/-- What other threads do leads onward, and leaves the code of the host fair. -/
theorem Engine.Meanwhile.onward {e e' : Engine (Diarist H)} (h : e.Meanwhile e') (he : e.code.Fair) :
    e'.code.Fair ∧ e.Onward e' := ⟨h.fair he, .of_fair h.reach⟩

namespace Outlook

open Engine

/-- An outlook on an engine with a diary. Other threads come in behind whatever the run does to the engine, and behind each question
for the token; what the question found is kept for the diary. -/
structure Amid (o : Outlook (Diarist H) W) : Prop where
  put : ∀ (e : Engine (Diarist H)) w, e.Meanwhile (o.engine (o.put e w))
  put_found : ∀ e w, (o.engine (o.put e w)).reach.host.found = e.reach.host.found
  pass : ∀ w, (o.engine w).Meanwhile (o.engine (o.pass w))
  pass_found : ∀ w, (o.engine (o.pass w)).reach.host.found = (o.engine w).reach.cancelled
  look : ∀ g w, (o.engine w).Meanwhile (o.engine (o.look g w))
  hold : ∀ w, (o.engine w).Meanwhile (o.engine (o.hold w))

/-- The engine goes onward. -/
def regime (o : Outlook (Diarist H) W) : Regime W := (onward H).onPart o.engine

namespace Amid

variable {o : Outlook (Diarist H) W} (A : o.Amid)

/-! ## Parts of the engine -/

include A

/-- The engine that the run puts back has gone onward, and so it has after what other threads do then. -/
theorem put_keeps {w w' : W} {e : Engine (Diarist H)} (h : e.code.Fair ∧ (o.engine w).Onward e) :
    o.regime.Holds (o.put e w') ∧ o.regime.Leads w (o.put e w') := by
  obtain ⟨hfair, honward⟩ := (A.put e w').onward h.1
  exact ⟨hfair, h.2.trans honward⟩

/-- A part that goes onward by itself does so among other threads. -/
theorem onScope {m : StateM (Scope (Engine (Diarist H))) α} (hm : (onward H).scope.Keeps m) : o.regime.scope.Keeps (o.onScope m) :=
  fun s hs => A.put_keeps (hm ⟨s.locals, o.engine s.world⟩ hs)

/-- The same of a part without variables. -/
theorem onEngine {m : StateM (Engine (Diarist H)) α} (hm : (onward H).Keeps m) : o.regime.Keeps (o.onEngine m) :=
  fun w hw => A.put_keeps (hm (o.engine w) hw)

omit A in
/-- And of a part on variables of its own. -/
theorem inScope (vars : Variables) {m : StateM (Scope W) α} (hm : o.regime.scope.Keeps m) : o.regime.Keeps (inScope vars m) :=
  fun w hw => hm ⟨vars, w⟩ hw

/-- Other threads alone go onward. -/
theorem pass_keeps : o.regime.Keeps (modify o.pass) := .change fun w hw => (A.pass w).onward hw

/-- So does a look at a gate, which they may come before. -/
theorem lookAt (g : Gate) : o.regime.KeepsRun (o.lookAt g) := fun s hs => (A.look g s.world).onward hs

/-! ## Code of the host -/

/-- Host code goes onward among other threads if it does by itself. -/
theorem act {m : Act (Engine (Diarist H)) α} (hm : (onward H).KeepsAct m) : o.regime.KeepsAct (o.act m) := A.onEngine hm

/-- And it gives what it gives by itself. -/
theorem gives_act {m : Act (Engine (Diarist H)) α} {P : α → Prop} (hm : (onward H).Gives m P) : o.regime.Gives (o.act m) P :=
  ⟨A.act hm.keeps, fun w hw => hm.gives (o.engine w) hw⟩

/-- Fair work goes onward on the spot. -/
theorem workHere {w : Work (Diarist H)} (hw : Work.Fair w) : o.regime.KeepsAct (o.workHere w) := A.act (keeps_workHere hw)

/-- Fair host code goes onward, wherever its work is done. -/
theorem perform {handOver : Work (Diarist H) → Act W (Except BridgeFault Value)}
    (hwork : ∀ w, Work.Fair w → o.regime.KeepsAct (handOver w)) {deed : Deed (Diarist H) α} (hdeed : deed.Fair) :
    o.regime.KeepsAct (o.perform handOver deed) := by
  induction deed with
  | act run => exact A.act (keeps_onReach hdeed)
  | handOver before work next ih =>
    obtain ⟨hbefore, hhanded, hnext⟩ := hdeed
    unfold Outlook.perform
    exact .andThen (A.act (keeps_onReach hbefore)) fun _ => .andThen (hwork work hhanded) fun answer => ih answer (hnext answer)

/-! ## Starting activations -/

/-- A part of a run goes onward if it does by itself. -/
theorem run {m : Run (Engine (Diarist H)) α} (hm : (onward H).KeepsRun m) : o.regime.KeepsRun (o.run m) := A.onScope hm

/-- So does one that cannot fail. -/
theorem toRun {m : StateM (Engine (Diarist H)) α} (hm : (onward H).Keeps m) : o.regime.KeepsRun (o.run (Engine.toRun m)) :=
  A.run hm.lift.ofAct

/-- To ask whether activations are accepted changes nothing. -/
theorem accepts : o.regime.KeepsRun o.accepts := .andThen (A.lookAt .accepting) fun _ => .get fun _ _ => .pure _

/-- A job is queued with a context that is fair. -/
theorem enqueue {a : Activation (Diarist H)} (ha : a.context.Fair) : o.regime.KeepsRun (o.enqueue a) :=
  .andThen (A.lookAt .workers) fun _ => A.run (keeps_enqueue ha)

section

variable {runSync : Activation (Diarist H) → Run W Verdict} (hsync : ∀ a, a.context.Fair → o.regime.KeepsRun (runSync a))
  {handOver : Work (Diarist H) → Act W (Except BridgeFault Value)} (hwork : ∀ w, Work.Fair w → o.regime.KeepsAct (handOver w))

include hsync

/-- A trigger is started, on the spot or as a job, whatever the engine answers. -/
theorem activateWith (t : Trigger) {c : Context (Diarist H)} (hc : c.Fair) (mode : Mode) :
    o.regime.KeepsRun (o.activateWith runSync t c mode) := by
  unfold Outlook.activateWith
  refine .andThen A.accepts fun accepting => ?_
  cases accepting with
  | false => exact .pure _
  | true =>
    refine .andThen (A.toRun (keeps_isCooling t c)) fun cooling => ?_
    cases cooling with
    | true => exact .andThen (A.toRun (keeps_newActivation _)) fun _ => .pure _
    | false =>
      refine .andThen (A.toRun (keeps_newActivation _)) fun id => ?_
      cases mode with
      | sync => exact .andThen (hsync _ hc) fun _ => .pure _
      | async => exact .andThen (A.enqueue hc) fun _ => .pure _

/-- What is called shares the context. -/
theorem call {c : Context (Diarist H)} (hc : c.Fair) (args : List Value) : o.regime.KeepsRun (o.call runSync c args) := by
  unfold Outlook.call
  cases Engine.callRequest args with
  | error f => exact .pure _
  | ok request =>
    obtain ⟨name, mode⟩ := request
    refine .andThen (A.run (keeps_named? name)) fun found => ?_
    cases found with
    | none => exact .pure _
    | some t =>
      refine .andThen (A.activateWith hsync t hc mode) fun h => ?_
      cases mode with
      | sync => exact .andThen (A.run (keeps_wait h).ofAct) fun _ => .pure _
      | async => exact .pure _

/-- The commands of the engine itself go onward, a call by what it starts. -/
theorem reservedCommand {a : Activation (Diarist H)} (ha : a.context.Fair) (caller : Caller) (name : String) (args : List Value) :
    o.regime.KeepsRun (o.reservedCommand runSync a caller name args) := by
  unfold Outlook.reservedCommand
  by_cases hcall : Text.upper name = "CALL"
  · rw [if_pos hcall]
    exact .andThen (A.call hsync ha args) fun _ => .pure _
  · rw [if_neg hcall]
    exact A.run (keeps_reservedCommand _ a caller args hcall)

/-! ## Scripts -/

omit hsync

section

variable {a : Activation (Diarist H)} (caller : Caller) (deadline : Option Deadline)

/-- Behind a question for the token that found it as it should be, other threads may cancel it before the hook is asked. -/
theorem consult (ha : a.context.Fair) (node : Node) {vars : Variables} {w : W} (hw : o.regime.Holds w)
    (hclear : caller.context ∉ (o.engine w).reach.cancelled) :
    let s' := ((o.surroundings a caller deadline handOver runSync).consult node ⟨vars, w⟩).2
    o.regime.Holds s'.world ∧ o.regime.Leads w s'.world := by
  obtain ⟨hook, hhook, hnoting⟩ := ha
  obtain ⟨overdue, e, hclock⟩ : ∃ overdue e, (alone a caller deadline).overdue? (o.engine (o.pass w)) = (overdue, e) :=
    ⟨_, _, rfl⟩
  obtain ⟨hcode, hsame⟩ : e.code = (o.engine (o.pass w)).code ∧ e.reach = (o.engine (o.pass w)).reach := by
    cases deadline <;> cases hclock <;> exact ⟨rfl, rfl⟩
  have hfair : e.code.Fair := by
    rw [hcode]
    exact (A.pass w).fair hw
  have hreach : (fairness H).Leads (o.engine w).reach e.reach := by
    rw [hsame]
    exact (A.pass w).reach
  have hfound : e.reach.host.found = (o.engine w).reach.cancelled := by
    rw [hsame]
    exact A.pass_found w
  have hasked : Run.ofAct (liftM (o.surroundings a caller deadline handOver runSync).overdue?) ⟨vars, w⟩ =
      (.ok overdue, ⟨vars, o.put e (o.pass w)⟩) := by
    show (Except.ok ((alone a caller deadline).overdue? (o.engine (o.pass w))).1, Scope.mk vars
      (o.put ((alone a caller deadline).overdue? (o.engine (o.pass w))).2 (o.pass w))) = _
    rw [hclock]
  intro s'
  have hs' : s' = ((o.surroundings a caller deadline handOver runSync).consult node ⟨vars, w⟩).2 := rfl
  rw [Host.consult_eq, Run.bind_ok hasked] at hs'
  cases overdue with
  | some timeout =>
    rw [hs']
    exact A.put_keeps ⟨hfair, .of_fair hreach⟩
  | none =>
    have hvetoed := Run.bind_state (m := Run.ofAct ((o.surroundings a caller deadline handOver runSync).veto node))
      (f := fun refused => bif refused then throw .vetoed else pure ()) (fun refused _ => by cases refused <;> rfl)
      ⟨vars, o.put e (o.pass w)⟩
    rw [hs'.trans hvetoed]
    have hlater := A.put e (o.pass w)
    have hnoted := (A.put_found e (o.pass w)).trans hfound
    have hveto := onward_veto hhook node ((fairness H).trans hreach hlater.reach) hnoted hclear
    show o.regime.Holds (o.put (onReach (a.context.hook.onNode caller node) (o.engine (o.put e (o.pass w)))).2 _) ∧
      o.regime.Leads w (o.put (onReach (a.context.hook.onNode caller node) (o.engine (o.put e (o.pass w)))).2 _)
    rw [hnoting]
    exact A.put_keeps ⟨hlater.fair hfair, hveto⟩

/-- A node is entered onward. -/
theorem enter (ha : a.context.Fair) (node : Node) :
    o.regime.KeepsRun ((o.surroundings a caller deadline handOver runSync).enter node) := by
  rintro ⟨vars, w⟩ hw
  have htoken : (o.surroundings a caller deadline handOver runSync).askToken ⟨vars, w⟩ =
      (.ok ((o.engine w).reach.isCancelled caller.context), ⟨vars, w⟩) := rfl
  rw [Host.enter_eq, Run.bind_ok htoken]
  cases hcancelled : (o.engine w).reach.isCancelled caller.context with
  | true => exact ⟨hw, o.regime.refl w⟩
  | false =>
    refine A.consult caller deadline ha node hw ?_
    simpa [Reach.isCancelled] using hcancelled

omit A in
/-- To read a global variable changes nothing. -/
theorem readGlobal (key : String) :
    o.regime.KeepsRun ((o.surroundings a caller deadline handOver runSync).readGlobal key) := .get fun _ _ => .pure _

omit A in
/-- Neither does reading a name. -/
theorem readName (n : String) : o.regime.KeepsRun ((o.surroundings a caller deadline handOver runSync).readName n) := by
  rw [Host.readName_eq]
  exact .get fun _ _ => .pure _

/-- The hook of a fair context goes onward when it is offered a placeholder. -/
theorem offerPlaceholder (ha : a.context.Fair) (n : String) (values : List Value) :
    o.regime.KeepsAct ((o.surroundings a caller deadline handOver runSync).offerPlaceholder n values) := by
  obtain ⟨hook, hhook, hnoting⟩ := ha
  have hoffer : (fairness H).KeepsAct (a.context.hook.onPlaceholder caller n values) := by
    rw [hnoting]
    exact hhook.onPlaceholder caller n values
  refine A.act (.andThen (keeps_onReach hoffer) fun answer => ?_)
  cases answer with
  | some v => exact .pure _
  | none => exact keeps_reservedPlaceholder a caller n

include hwork in
/-- So do the placeholders of the host, which are fair. -/
theorem callPlaceholder (n : String) (values : List Value) :
    o.regime.KeepsRun ((o.surroundings a caller deadline handOver runSync).callPlaceholder n values) := by
  refine .get fun s hs => ?_
  show o.regime.KeepsRun ((((o.engine s.world).placeholders.get? n).map fun p args => o.perform handOver (p caller args)).elim
    (pure .null) fun act => Run.ofAct (act values))
  cases hfound : (o.engine s.world).placeholders.get? n with
  | none => exact .pure _
  | some placeholder => exact (A.perform hwork (hs.placeholders n placeholder hfound caller values)).ofAct

include hsync in
/-- So it does when it is offered a command, and so do those of the engine itself. -/
theorem offerCommand (ha : a.context.Fair) (n : String) (values : List Value) :
    o.regime.KeepsRun ((o.surroundings a caller deadline handOver runSync).offerCommand n values) := by
  have hoffer : (fairness H).KeepsRun (a.context.hook.onCommand caller n values) := by
    obtain ⟨hook, hhook, hnoting⟩ := ha
    rw [hnoting]
    exact hhook.onCommand caller n values
  refine .andThen (A.run (keeps_offerToHook hoffer)) fun done => ?_
  cases done with
  | true => exact .pure _
  | false => exact A.reservedCommand hsync ha caller n values

include hwork in
/-- So do the commands of the host. -/
theorem callCommand (n : String) (values : List Value) :
    o.regime.KeepsRun ((o.surroundings a caller deadline handOver runSync).callCommand n values) := by
  refine .get fun s hs => ?_
  show o.regime.KeepsRun ((((o.engine s.world).commands.get? n).map fun c args => o.perform handOver (c caller args)).elim
    (Run.fail (.unknownCommand (Text.upper n))) fun act => Run.ofAct (act values))
  cases hfound : (o.engine s.world).commands.get? n with
  | none => exact .pure _
  | some command => exact (A.perform hwork (hs.commands n command hfound caller values)).ofAct

include hsync hwork in
/-- All in all, whatever a script asks of its surroundings leads onward. -/
theorem surroundings (ha : a.context.Fair) :
    let host := o.surroundings a caller deadline handOver runSync
    o.regime.link.Parts host host fun _ => True where
  readName n _ := readName caller deadline n
  readGlobal key _ := readGlobal caller deadline key
  offerPlaceholder n values := (A.offerPlaceholder caller deadline ha n values).ofAct
  callPlaceholder n values := A.callPlaceholder hwork caller deadline n values
  bind _ _ _ := .change fun s hs => ⟨hs, o.regime.refl s.world⟩
  writeGlobal key v _ := (A.act (keeps_writeGlobal key v)).ofAct
  offerCommand n values := A.offerCommand hsync caller deadline ha n values
  callCommand n values := A.callCommand hwork caller deadline n values

include hsync hwork in
/-- All nodes of a script are entered onward. -/
theorem runScript (fuel : Nat) (ha : a.context.Fair) (script : Script) :
    o.regime.scope.Keeps ((o.surroundings a caller deadline handOver runSync).run fuel script) :=
  .script (A.surroundings hsync hwork caller deadline ha) (A.enter caller deadline ha) fuel script

end

/-! ## Activations -/

variable (fuel : Nat)

include hsync hwork in
/-- So does an activation, with what comes before and after its script. -/
theorem runHere (onMain : Bool) (depth : Nat) {a : Activation (Diarist H)} (ha : a.context.Fair) :
    o.regime.scope.Keeps (o.runHere fuel onMain depth handOver runSync a) :=
  .bind (A.onScope (keeps_prepare a)) fun deadline => .bind (A.runScript hsync hwork _ deadline fuel ha _) fun outcome =>
    A.onScope (keeps_settle a outcome)

omit A in
/-- A crash spreads, which changes nothing. -/
theorem spread {m : StateM (Scope W) Conclusion} (hm : o.regime.scope.Keeps m) : o.regime.KeepsRun (Outlook.spread m) := by
  refine .andThen hm.lift fun c => ?_
  rcases c with (_ | _) | _ <;> exact .pure _

/-- An activation on the main thread, by induction on how many levels may still follow. -/
theorem runOnMain (levels depth : Nat) {a : Activation (Diarist H)} (ha : a.context.Fair) :
    o.regime.scope.Keeps (o.runOnMain fuel levels depth a) := by
  induction levels generalizing depth a with
  | zero => exact A.onScope (keeps_refuseDepth a)
  | succ levels ih =>
    exact A.runHere (fun b hb => spread (ih (depth + 1) hb)) (fun w hw => A.workHere hw) fuel true (depth + 1) ha

/-- The first activation on the main thread. -/
theorem runTop {a : Activation (Diarist H)} (ha : a.context.Fair) : o.regime.scope.Keeps (o.runTop fuel a) :=
  .bind (A.onScope keeps_levels) fun levels => A.runOnMain fuel levels 0 ha

/-- A task of the main thread, be it an activation or work of the host. -/
theorem runTask {t : MainTask (Diarist H)} (ht : t.Fair) : o.regime.Keeps (o.runTask fuel t) := by
  cases t with
  | work w => exact A.onEngine (keeps_runWork fuel ht)
  | activation a vars => exact .bind (inScope vars (A.runTop fuel ht)) fun _ => .pure _

/-- Tasks one after the other, up to the first crash. -/
theorem runTasks {ts : List (MainTask (Diarist H))} (hts : ∀ t ∈ ts, t.Fair) : o.regime.KeepsAct (o.runTasks fuel ts) := by
  induction ts with
  | nil => exact .pure _
  | cons t rest ih =>
    obtain ⟨ht, hrest⟩ := List.forall_mem_cons.mp hts
    refine .andThen (A.runTask fuel ht).lift fun r => ?_
    rcases r with (_ | _) | _
    · exact ih hrest
    · exact .pure _
    · exact ih hrest

end

/-! ## The bridge and the workers -/

section

variable (fuel : Nat)

omit A in
/-- All that is queued is taken up, or nothing. -/
theorem takeUp_cases (o : Outlook (Diarist H) W) (w : W) :
    (∃ r, o.takeUp w = (r, w) ∧ ∀ batch, r ≠ .ok (.ok batch)) ∨
      o.takeUp w = (.ok (.ok (o.engine w).bridge.pending),
        o.put { o.engine w with bridge := { (o.engine w).bridge with pending := [] } } w) := by
  simp only [Outlook.takeUp]
  split
  · exact .inl ⟨_, rfl, fun batch h => by cases h⟩
  · exact .inr rfl
  · split
    · exact .inl ⟨_, rfl, fun batch h => by cases h⟩
    · exact .inl ⟨_, rfl, fun batch h => by cases h⟩

/-- What the main thread takes up is fair, since all that is queued is. -/
theorem gives_takeUp : o.regime.Gives o.takeUp fun taken => ∀ batch, taken = .ok batch → ∀ t ∈ batch, t.Fair where
  keeps w hw := by
    rcases takeUp_cases o w with ⟨r, htake, -⟩ | htake
    · rw [htake]
      exact ⟨hw, o.regime.refl w⟩
    · rw [htake]
      exact A.put_keeps (onward_withBridge hw nofun)
  gives w hw taken htaken batch hbatch := by
    subst hbatch
    rcases takeUp_cases o w with ⟨r, htake, hr⟩ | htake
    · rw [htake] at htaken
      exact absurd htaken (hr batch)
    · rw [htake] at htaken
      cases htaken
      exact hw.tasks

/-- A fair task is queued. -/
theorem putQueued {e : Engine (Diarist H)} {w : W} (h : e.code.Fair ∧ (o.engine w).Onward e) :
    o.regime.Holds (o.putQueued e w) ∧ o.regime.Leads w (o.putQueued e w) := by
  obtain ⟨hput, hleads⟩ : o.regime.Holds (o.put e w) ∧ o.regime.Leads w (o.put e w) := A.put_keeps h
  unfold Outlook.putQueued
  cases e.hostIsMain with
  | false => exact ⟨hput, hleads⟩
  | true =>
    obtain ⟨hheld, hwaited⟩ := (A.hold (o.put e w)).onward hput
    exact ⟨hheld, o.regime.trans hleads hwaited⟩

/-- A fair task is handed in, and what is taken up with it is fair. -/
theorem gives_handIn {t : MainTask (Diarist H)} (ht : t.Fair) :
    o.regime.Gives (o.handIn t) fun taken => ∀ batch, taken = .ok batch → ∀ t ∈ batch, t.Fair := by
  have hcases (w : W) (hw : o.regime.Holds w) :
      (∃ f, o.handIn t w = (.ok (.error f), o.look .bridge w)) ∨
        ∃ w', o.handIn t w = o.takeUp w' ∧ o.regime.Holds w' ∧ o.regime.Leads w w' := by
    obtain ⟨hlooked, hleads⟩ := (A.look .bridge w).onward hw
    simp only [Outlook.handIn]
    cases hsubmit : (o.engine (o.look .bridge w)).bridge.submit t with
    | error f => exact .inl ⟨f, rfl⟩
    | ok b =>
      have hpending : ∀ t ∈ b.pending, t.Fair := by
        rw [Bridge.pending_submit hsubmit]
        exact List.forall_mem_append.mpr ⟨hlooked.tasks, List.forall_mem_singleton.mpr ht⟩
      obtain ⟨hqueued, hwaited⟩ := A.putQueued (onward_withBridge hlooked hpending)
      exact .inr ⟨_, rfl, hqueued, o.regime.trans hleads hwaited⟩
  refine ⟨fun w hw => ?_, fun w hw taken htaken => ?_⟩
  · rcases hcases w hw with ⟨f, hin⟩ | ⟨w', hin, hw', hleads⟩
    · rw [hin]
      exact (A.look .bridge w).onward hw
    · rw [hin]
      obtain ⟨htook, hleads'⟩ := A.gives_takeUp.keeps w' hw'
      exact ⟨htook, o.regime.trans hleads hleads'⟩
  · rcases hcases w hw with ⟨f, hin⟩ | ⟨w', hin, hw', -⟩
    · rw [hin] at htaken
      cases htaken
      intro batch hbatch
      cases hbatch
    · rw [hin] at htaken
      exact A.gives_takeUp.gives w' hw' taken htaken

/-- A task is handed to the main thread, and what is queued in front of it is done first. -/
theorem callMain {t : MainTask (Diarist H)} (ht : t.Fair) : o.regime.KeepsAct (o.callMain fuel t) := by
  refine (A.gives_handIn ht).andThen fun taken htaken => ?_
  cases taken with
  | error f => exact .pure _
  | ok batch =>
    have hbatch : ∀ t ∈ batch.dropLast, t.Fair := fun t hmem => htaken batch rfl t (List.dropLast_subset batch hmem)
    refine .andThen (A.runTasks fuel hbatch) fun _ => .andThen (A.runTask fuel ht).lift fun r => ?_
    rcases r with (_ | _) | _ <;> exact .pure _

/-- Work that a worker hands over. -/
theorem workAcross {w : Work (Diarist H)} (hw : Work.Fair w) : o.regime.KeepsAct (o.workAcross fuel w) :=
  A.callMain fuel (t := .work w) hw

/-- An activation that is handed over with its variables. -/
theorem runAcross {a : Activation (Diarist H)} (ha : a.context.Fair) : o.regime.KeepsRun (o.runAcross fuel a) := by
  have hlocals (vars : Variables) : o.regime.KeepsRun (modify fun s => { s with locals := vars } : Run W PUnit) :=
    .change fun s hs => ⟨hs, o.regime.refl s.world⟩
  refine .get fun s _ => .andThen (hlocals ∅) fun _ => .andThen (A.callMain fuel (t := .activation a s.locals) ha).ofAct ?_
  intro answer
  cases answer with
  | ok r => exact .andThen (hlocals r.2) fun _ => .pure _
  | error f => exact .andThen (A.run (keepsRun_of_record fun _ _ => rfl)) fun _ => .pure _

/-- The first activation on a worker. -/
theorem runFirst {a : Activation (Diarist H)} (ha : a.context.Fair) : o.regime.scope.Keeps (o.runFirst fuel a) := by
  refine .bind (A.onScope keeps_levels) fun levels => ?_
  cases levels with
  | zero => exact A.onScope (keeps_refuseDepth a)
  | succ => exact A.runHere (fun b hb => A.runAcross fuel hb) (fun w hw => A.workAcross fuel hw) fuel false 1 ha

/-- A job, and what is kept of it for those who wait. -/
theorem runJob {job : Job (Diarist H)} (hjob : job.Fair) : o.regime.KeepsAct (o.runJob fuel job) := by
  refine .andThen (inScope job.locals (A.runFirst fuel hjob)).lift fun r => ?_
  obtain ⟨(_ | _) | _, reached⟩ := r
  · exact A.act (keeps_keep _ _)
  · exact .pure _
  · exact A.act (keeps_keep _ _)

/-- All that is queued before the workers, and all that is queued meanwhile. -/
theorem drain (jobs : Nat) : o.regime.KeepsAct (o.drain fuel jobs) := by
  induction jobs with
  | zero => exact .pure _
  | succ jobs ih =>
    refine .andThen A.pass_keeps.lift fun _ => (A.gives_act gives_takeJob).andThen fun found hfound => ?_
    cases found with
    | none => exact .pure _
    | some job => exact .andThen (A.runJob fuel (hfound job rfl)) fun _ => ih

end

end Amid

end Outlook

end EventScript
