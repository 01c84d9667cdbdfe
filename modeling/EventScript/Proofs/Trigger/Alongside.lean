import EventScript.Proofs.Trigger.Gates

/-!
# A shutdown beside a run

Two runs go side by side, and for the first one some gates of the engine are closed that are open for the second. As soon as the
first one looks at a gate that is closed for it, it is lost; as long as it does not, both do the same, up to the gates themselves.
There is one statement for each part of an activation, and they come together in `Alongside.runJob` and `Alongside.drain`.
-/

namespace EventScript.Outlook

open Engine

variable {H W₁ W₂ α : Type}

/-- Two ways of looking at an engine, the first with some of the gates closed that are open in the second. -/
structure Alongside (o₁ : Outlook H W₁) (o₂ : Outlook H W₂) extends Pairing W₁ W₂ where
  /-- The gates that are closed in the first. -/
  closed : W₁ → List Gate
  engine : ∀ w₁ w₂, Near w₁ w₂ → o₁.engine w₁ = (o₂.engine w₂).close (closed w₁)
  put : ∀ w₁ w₂ e, Near w₁ w₂ → (o₂.engine w₂).Ages e → Near (o₁.put (e.close (closed w₁)) w₁) (o₂.put e w₂)
  closed_put : ∀ w₁ e, closed (o₁.put e w₁) = closed w₁
  pass : ∀ w₁ w₂, Near w₁ w₂ → Near (o₁.pass w₁) (o₂.pass w₂)
  /-- To look at a gate that is closed is to be lost. -/
  look : ∀ g w₁ w₂, Near w₁ w₂ → Lost (o₁.look g w₁) ∨ Near (o₁.look g w₁) (o₂.look g w₂) ∧ g ∉ closed (o₁.look g w₁)
  /-- To have the bridge closed while a task waits is to be lost too. -/
  hold : ∀ w₁ w₂, Near w₁ w₂ → Lost (o₁.hold w₁) ∨ Near (o₁.hold w₁) (o₂.hold w₂) ∧ .bridge ∉ closed (o₁.hold w₁)
  put_lost : ∀ w₁ e, Lost w₁ → Lost (o₁.put e w₁)
  pass_lost : ∀ w₁, Lost w₁ → Lost (o₁.pass w₁)
  look_lost : ∀ g w₁, Lost w₁ → Lost (o₁.look g w₁)
  hold_lost : ∀ w₁, Lost w₁ → Lost (o₁.hold w₁)

namespace Alongside

variable {o₁ : Outlook H W₁} {o₂ : Outlook H W₂} (A : Alongside o₁ o₂)

/-! ## Parts of the engine -/

/-- What can be told from an engine whatever gates are closed is the same in both. -/
theorem same {w₁ : W₁} {w₂ : W₂} (h : A.Near w₁ w₂) (f : Engine H → α) (hf : ∀ gates e, f (e.close gates) = f e) :
    f (o₁.engine w₁) = f (o₂.engine w₂) := by
  rw [A.engine w₁ w₂ h, hf]

/-- A part that does the same behind the gates that are closed here is done alike on both sides. -/
theorem onScope_same {m : StateM (Scope (Engine H)) α} {s₁ : Scope W₁} {s₂ : Scope W₂}
    (hm : (upTo (A.closed s₁.world) (o₂.engine s₂.world)).scope.Kept m m) (h : A.scope.Near s₁ s₂) :
    A.scope.Same (o₁.onScope m s₁) (o₂.onScope m s₂) := by
  obtain ⟨hlocals, hworld⟩ := h
  have hnear := hm.near ⟨s₁.locals, o₁.engine s₁.world⟩ ⟨s₂.locals, o₂.engine s₂.world⟩ ⟨hlocals, A.engine _ _ hworld, .refl _⟩
  obtain ⟨hsame, hvars, hengine, hages⟩ := hnear.resolve_left id
  refine .inr ⟨hsame, hvars, ?_⟩
  show A.Near (o₁.put _ s₁.world) (o₂.put _ s₂.world)
  rw [show (m ⟨s₁.locals, o₁.engine s₁.world⟩).2.world = _ from hengine]
  exact A.put _ _ _ hworld hages

/-- A part that looks at no gate is done alike. -/
theorem onScope {m : StateM (Scope (Engine H)) α} (hm : GatelessPart m) : A.scope.Kept (o₁.onScope m) (o₂.onScope m) :=
  ⟨fun s₁ h => A.put_lost s₁.world _ h, fun s₁ _ h => A.onScope_same (hm (A.closed s₁.world) _) h⟩

/-- The same of a part without variables. -/
theorem onEngine {m : StateM (Engine H) α} (hm : Gateless m) : A.Kept (o₁.onEngine m) (o₂.onEngine m) where
  lost w₁ h := A.put_lost w₁ _ h
  near w₁ w₂ h := by
    obtain ⟨hsame, hengine, hages⟩ := ((hm (A.closed w₁) (o₂.engine w₂)).near _ _ ⟨A.engine _ _ h, .refl _⟩).resolve_left id
    refine .inr ⟨hsame, ?_⟩
    show A.Near (o₁.put _ w₁) (o₂.put _ w₂)
    rw [show (m (o₁.engine w₁)).2 = _ from hengine]
    exact A.put _ _ _ h hages

/-- Variables of its own do not tell the two runs apart. -/
theorem inScope (vars : Variables) {m₁ : StateM (Scope W₁) α} {m₂ : StateM (Scope W₂) α} (h : A.scope.Kept m₁ m₂) :
    A.Kept (inScope vars m₁) (inScope vars m₂) where
  lost w₁ hlost := h.lost ⟨vars, w₁⟩ hlost
  near w₁ w₂ hnear := (h.near ⟨vars, w₁⟩ ⟨vars, w₂⟩ ⟨rfl, hnear⟩).imp_right fun hr =>
    ⟨Prod.ext hr.1 hr.2.1, hr.2.2⟩

/-- Other threads come in on both sides, and keep the two together. -/
theorem pass_kept : A.Kept (modify o₁.pass) (modify o₂.pass) :=
  .change A.pass_lost fun _ _ h => .inr (A.pass _ _ h)

/-! ## Host code -/

/-- Host code that looks at no gate is done alike. -/
theorem act {m : Act (Engine H) α} (hm : GatelessAct m) :
    A.KeptAct (o₁.act m) (o₂.act m) := A.onEngine hm

/-- So is work of the host on the spot. -/
theorem workHere (w : Work H) :
    A.KeptAct (o₁.workHere w) (o₂.workHere w) := A.act (gateless_workHere w)

/-- Host code that hands work over is done alike if the work is, wherever that comes to be done. -/
theorem perform {handOver₁ : Work H → Act W₁ (Except BridgeFault Value)}
    {handOver₂ : Work H → Act W₂ (Except BridgeFault Value)}
    (hwork : ∀ w, A.KeptAct (handOver₁ w) (handOver₂ w)) (deed : Deed H α) :
    A.KeptAct (o₁.perform handOver₁ deed) (o₂.perform handOver₂ deed) := by
  induction deed with
  | act run => exact A.act (gateless_onReach run)
  | handOver before work next ih =>
    unfold Outlook.perform
    exact .andThen (A.act (gateless_onReach before)) fun _ => .andThen (hwork work) fun answer => ih answer

/-! ## Starting activations -/

section

variable {runSync₁ : Activation H → Run W₁ Verdict} {runSync₂ : Activation H → Run W₂ Verdict}

/-- A part of a run that looks at no gate is done alike. -/
theorem run {m : Run (Engine H) α} (hm : GatelessRun m) :
    A.KeptRun (o₁.run m) (o₂.run m) := A.onScope hm

/-- So is one that cannot fail. -/
theorem toRun {m : StateM (Engine H) α} (hm : Gateless m) :
    A.KeptRun (o₁.run (Engine.toRun m)) (o₂.run (Engine.toRun m)) := A.run hm.toRun

/-- Both find the engine accepting, or neither, unless the first looks too late. -/
theorem accepts : A.KeptRun o₁.accepts o₂.accepts where
  lost s₁ h := A.look_lost .accepting s₁.world h
  near s₁ s₂ h := by
    rcases A.look .accepting s₁.world s₂.world h.2 with hlost | ⟨hnear, hopen⟩
    · exact .inl hlost
    · refine .inr ⟨?_, h.1, hnear⟩
      show Except.ok (o₁.engine (o₁.look .accepting s₁.world)).accepting = _
      rw [A.engine _ _ hnear, accepting_close hopen]
      rfl

/-- Both have the activation queued, or neither, unless the first looks too late. -/
theorem enqueue (a : Activation H) : A.KeptRun (o₁.enqueue a) (o₂.enqueue a) where
  lost s₁ h := A.put_lost _ _ (A.look_lost .workers s₁.world h)
  near s₁ s₂ h := by
    rcases A.look .workers s₁.world s₂.world h.2 with hlost | ⟨hnear, hopen⟩
    · exact .inl (A.put_lost _ _ hlost)
    · have hscope : A.scope.Near ⟨s₁.locals, o₁.look .workers s₁.world⟩ ⟨s₂.locals, o₂.look .workers s₂.world⟩ :=
        ⟨h.1, hnear⟩
      exact A.onScope_same (enqueue_kept hopen _ a) hscope

/-- To start a trigger is to look at the first gate and, for a job, at the workers. Behind a closed one the first run is lost. -/
theorem activateWith (hsync : ∀ a, A.KeptRun (runSync₁ a) (runSync₂ a)) (t : Trigger)
    (c : Context H) (mode : Mode) :
    A.KeptRun (o₁.activateWith runSync₁ t c mode) (o₂.activateWith runSync₂ t c mode) := by
  unfold Outlook.activateWith
  refine .andThen A.accepts fun accepting => ?_
  cases accepting with
  | false => exact .pure _
  | true =>
    refine .andThen (A.toRun (gateless_isCooling t c)) fun cooling => ?_
    cases cooling with
    | true => exact .andThen (A.toRun (gateless_newActivation _)) fun _ => .pure _
    | false =>
      refine .andThen (A.toRun (gateless_newActivation _)) fun id => ?_
      cases mode with
      | sync => exact .andThen (hsync _) fun _ => .pure _
      | async => exact .andThen (A.enqueue _) fun _ => .pure _

/-- A script that calls a trigger does as the start of that trigger does. -/
theorem call (hsync : ∀ a, A.KeptRun (runSync₁ a) (runSync₂ a)) (c : Context H)
    (args : List Value) : A.KeptRun (o₁.call runSync₁ c args) (o₂.call runSync₂ c args) := by
  unfold Outlook.call
  cases Engine.callRequest args with
  | error f => exact .pure _
  | ok request =>
    obtain ⟨name, mode⟩ := request
    refine .andThen (A.run (gatelessRun_named? name)) fun found => ?_
    cases found with
    | none => exact .pure _
    | some t =>
      refine .andThen (A.activateWith hsync t c mode) fun h => ?_
      cases mode with
      | sync => exact .andThen (A.run (gateless_wait h).ofAct) fun _ => .pure _
      | async => exact .pure _

/-- Of the commands of the engine itself only a call looks at gates. -/
theorem reservedCommand (hsync : ∀ a, A.KeptRun (runSync₁ a) (runSync₂ a)) (a : Activation H)
    (caller : Caller) (name : String) (args : List Value) :
    A.KeptRun (o₁.reservedCommand runSync₁ a caller name args)
      (o₂.reservedCommand runSync₂ a caller name args) := by
  unfold Outlook.reservedCommand
  by_cases hcall : Text.upper name = "CALL"
  · rw [if_pos hcall, if_pos hcall]
    exact .andThen (A.call hsync a.context args) fun _ => .pure _
  · rw [if_neg hcall, if_neg hcall]
    exact A.run (gatelessRun_reservedCommand _ a caller args hcall)

/-! ## Scripts -/

variable {handOver₁ : Work H → Act W₁ (Except BridgeFault Value)} {handOver₂ : Work H → Act W₂ (Except BridgeFault Value)}
  (hwork : ∀ w, A.KeptAct (handOver₁ w) (handOver₂ w))
  (hsync : ∀ a, A.KeptRun (runSync₁ a) (runSync₂ a))

section

variable (a : Activation H) (caller : Caller) (deadline : Option Deadline)

/-- The clock is read alike on both sides. -/
theorem overdue? : A.Kept (o₁.surroundings a caller deadline handOver₁ runSync₁).overdue?
    (o₂.surroundings a caller deadline handOver₂ runSync₂).overdue? :=
  .bind A.pass_kept fun _ => A.onEngine (gateless_overdue? a caller deadline)

/-- The token is asked for alike. -/
theorem askToken :
    A.KeptRun (o₁.surroundings a caller deadline handOver₁ runSync₁).askToken
      (o₂.surroundings a caller deadline handOver₂ runSync₂).askToken := by
  refine Pairing.Kept.get _ _ pure pure (fun s₁ s₂ h => ?_) fun _ => .pure _
  exact A.same h.2 (alone a caller deadline).isCancelled fun _ _ => rfl

/-- Global variables are read alike. -/
theorem readGlobal (key : String) :
    A.KeptRun ((o₁.surroundings a caller deadline handOver₁ runSync₁).readGlobal key)
      ((o₂.surroundings a caller deadline handOver₂ runSync₂).readGlobal key) := by
  unfold Host.readGlobal
  refine Pairing.Kept.get _ _ pure pure (fun s₁ s₂ h => ?_) fun _ => .pure _
  exact congrArg (·.getD .null) (A.same h.2 ((alone a caller deadline).readGlobal? key) fun _ _ => rfl)

/-- So are names, local or global. -/
theorem readName (n : String) :
    A.KeptRun ((o₁.surroundings a caller deadline handOver₁ runSync₁).readName n)
      ((o₂.surroundings a caller deadline handOver₂ runSync₂).readName n) := by
  rw [Host.readName_eq, Host.readName_eq]
  refine Pairing.Kept.get _ _ pure pure (fun s₁ s₂ h => ?_) fun _ => .pure _
  have hglobal := A.same h.2 ((alone a caller deadline).readGlobal? n) fun _ _ => rfl
  show s₁.locals[n]?.getD (((alone a caller deadline).readGlobal? n (o₁.engine s₁.world)).getD .null) = _
  rw [h.1, hglobal]
  rfl

include hwork in
/-- The placeholders of the host are asked for alike, or are missing alike. -/
theorem callPlaceholder (n : String) (values : List Value) :
    A.KeptRun ((o₁.surroundings a caller deadline handOver₁ runSync₁).callPlaceholder n values)
      ((o₂.surroundings a caller deadline handOver₂ runSync₂).callPlaceholder n values) := by
  have hregistered (s₁ : Scope W₁) (s₂ : Scope W₂) (h : A.scope.Near s₁ s₂) :=
    A.same h.2 (·.placeholders.get? n) fun _ _ => rfl
  refine Pairing.Kept.get _ _
    (fun found => (found.map fun p args => o₁.perform handOver₁ (p caller args)).elim (pure .null) fun act =>
      Run.ofAct (act values))
    (fun found => (found.map fun p args => o₂.perform handOver₂ (p caller args)).elim (pure .null) fun act =>
      Run.ofAct (act values)) hregistered fun found => ?_
  cases found with
  | none => exact .pure _
  | some p => exact (A.perform hwork (p caller values)).ofAct

include hsync in
/-- The hook is offered a command alike, and then it is looked for among those of the engine itself. -/
theorem offerCommand (n : String) (values : List Value) :
    A.KeptRun ((o₁.surroundings a caller deadline handOver₁ runSync₁).offerCommand n values)
      ((o₂.surroundings a caller deadline handOver₂ runSync₂).offerCommand n values) := by
  refine .andThen (A.run (gatelessRun_offerToHook _)) fun done => ?_
  cases done with
  | true => exact .pure _
  | false => exact A.reservedCommand hsync a caller n values

include hwork in
/-- A command is carried out alike, or both sides fail alike. -/
theorem callCommand (n : String) (values : List Value) :
    A.KeptRun ((o₁.surroundings a caller deadline handOver₁ runSync₁).callCommand n values)
      ((o₂.surroundings a caller deadline handOver₂ runSync₂).callCommand n values) := by
  have hregistered (s₁ : Scope W₁) (s₂ : Scope W₂) (h : A.scope.Near s₁ s₂) :=
    A.same h.2 (·.commands.get? n) fun _ _ => rfl
  refine Pairing.Kept.get _ _
    (fun found => (found.map fun c args => o₁.perform handOver₁ (c caller args)).elim
      (Run.fail (.unknownCommand (Text.upper n))) fun act => Run.ofAct (act values))
    (fun found => (found.map fun c args => o₂.perform handOver₂ (c caller args)).elim
      (Run.fail (.unknownCommand (Text.upper n))) fun act => Run.ofAct (act values)) hregistered fun found => ?_
  cases found with
  | none => exact .pure _
  | some c => exact (A.perform hwork (c caller values)).ofAct

omit hwork hsync in
/-- A local variable is bound alike. -/
theorem bind (n : String) (v : Value) :
    A.KeptRun (Host.bind (W := W₁) n v) (Host.bind (W := W₂) n v) :=
  ⟨fun _ h => h, fun _ _ h => .inr ⟨rfl, congrArg (·.insert n v) h.1, h.2⟩⟩

include hwork hsync in
/-- All in all, what a script finds around it does alike whatever the script asks of it. -/
theorem surroundings :
    A.link.Hosts (o₁.surroundings a caller deadline handOver₁ runSync₁) (o₂.surroundings a caller deadline handOver₂ runSync₂)
      fun _ => True where
  askToken := A.askToken a caller deadline
  overdue := (A.overdue? a caller deadline).lift.ofAct
  veto _ _ := (A.act (gateless_onReach _)).ofAct
  readName n _ := A.readName a caller deadline n
  readGlobal key _ := A.readGlobal a caller deadline key
  offerPlaceholder n values := (A.act (gateless_offerPlaceholder a caller deadline n values)).ofAct
  callPlaceholder n values := A.callPlaceholder hwork a caller deadline n values
  bind n v _ := A.bind n v
  writeGlobal key v _ := (A.act (gateless_writeGlobal key v)).ofAct
  offerCommand n values := A.offerCommand hsync a caller deadline n values
  callCommand n values := A.callCommand hwork a caller deadline n values

end

end

/-! ## Activations -/

section

variable (fuel : Nat) {handOver₁ : Work H → Act W₁ (Except BridgeFault Value)}
  {handOver₂ : Work H → Act W₂ (Except BridgeFault Value)} {runSync₁ : Activation H → Run W₁ Verdict}
  {runSync₂ : Activation H → Run W₂ Verdict}

/-- So the script does, whatever its fuel. -/
theorem runScript (hwork : ∀ w, A.KeptAct (handOver₁ w) (handOver₂ w))
    (hsync : ∀ a, A.KeptRun (runSync₁ a) (runSync₂ a)) (a : Activation H) (caller : Caller)
    (deadline : Option Deadline) (script : Script) :
    A.scope.Kept ((o₁.surroundings a caller deadline handOver₁ runSync₁).run fuel script)
      ((o₂.surroundings a caller deadline handOver₂ runSync₂).run fuel script) := by
  have hhosts := A.surroundings hwork hsync a caller deadline
  exact .script hhosts.toParts (fun node => hhosts.enter node trivial) fuel script

/-- And so does its activation, with what comes before and after the script. -/
theorem runHere (onMain : Bool) (depth : Nat)
    (hwork : ∀ w, A.KeptAct (handOver₁ w) (handOver₂ w))
    (hsync : ∀ a, A.KeptRun (runSync₁ a) (runSync₂ a)) (a : Activation H) :
    A.scope.Kept (o₁.runHere fuel onMain depth handOver₁ runSync₁ a) (o₂.runHere fuel onMain depth handOver₂ runSync₂ a) :=
  .bind (A.onScope (gatelessPart_prepare a)) fun deadline => .bind (A.runScript fuel hwork hsync a _ deadline _) fun outcome =>
    A.onScope (gatelessPart_settle a outcome)

/-- A crash spreads alike to the run that waits. -/
theorem spread {m₁ : StateM (Scope W₁) Conclusion} {m₂ : StateM (Scope W₂) Conclusion} (h : A.scope.Kept m₁ m₂) :
    A.KeptRun (Outlook.spread m₁) (Outlook.spread m₂) := by
  refine .andThen h.lift fun c => ?_
  rcases c with (_ | _) | _ <;> exact .pure _

/-- An activation on the main thread, by induction on how many levels may still follow. -/
theorem runOnMain (levels depth : Nat) (a : Activation H) :
    A.scope.Kept (o₁.runOnMain fuel levels depth a) (o₂.runOnMain fuel levels depth a) := by
  induction levels generalizing depth a with
  | zero => exact A.onScope (gatelessPart_refuseDepth a)
  | succ levels ih => exact A.runHere fuel true (depth + 1) A.workHere (fun b => A.spread (ih (depth + 1) b)) a

/-- The first activation on the main thread. -/
theorem runTop (a : Activation H) : A.scope.Kept (o₁.runTop fuel a) (o₂.runTop fuel a) :=
  .bind (A.onScope gatelessPart_levels) fun n => A.runOnMain fuel n 0 a

/-- A task of the main thread, be it an activation or work of the host. -/
theorem runTask (t : MainTask H) : A.Kept (o₁.runTask fuel t) (o₂.runTask fuel t) := by
  cases t with
  | work w => exact A.onEngine (gateless_runWork fuel w)
  | activation a vars => exact .bind (A.inScope vars (A.runTop fuel a)) fun _ => .pure _

/-- Tasks one after the other, up to the first crash. -/
theorem runTasks (ts : List (MainTask H)) : A.KeptAct (o₁.runTasks fuel ts) (o₂.runTasks fuel ts) := by
  induction ts with
  | nil => exact .pure _
  | cons t rest ih =>
    refine .andThen (A.runTask fuel t).lift fun r => ?_
    rcases r with (_ | _) | _
    · exact ih
    · exact .pure _
    · exact ih

/-- The main thread takes up the same tasks in both. -/
theorem takeUp {w₁ : W₁} {w₂ : W₂} (h : A.Near w₁ w₂) (hopen : .bridge ∉ A.closed w₁) :
    A.Same (o₁.takeUp w₁) (o₂.takeUp w₂) := by
  have hengine := A.engine _ _ h
  have hbridge : (o₁.engine w₁).bridge = (o₂.engine w₂).bridge := by rw [hengine, bridge_close hopen]
  have hdrops : drops (o₁.engine w₁) = drops (o₂.engine w₂) := by
    unfold drops hostIsMain
    rw [hbridge]
  have hserved : (o₁.engine w₁).isServed = (o₂.engine w₂).isServed := by
    unfold isServed
    rw [hengine, bridge_close hopen]
    rfl
  have htimeout := A.same h (·.settings.execution.bridgeTimeout) fun _ _ => rfl
  have hput (b : Bridge (MainTask H)) :
      A.Near (o₁.put { o₁.engine w₁ with bridge := b } w₁) (o₂.put { o₂.engine w₂ with bridge := b } w₂) := by
    rw [hengine, close_withBridge hopen]
    exact A.put _ _ _ h (.of_clock rfl rfl)
  unfold Outlook.takeUp
  simp only [hdrops, hserved, htimeout, hbridge]
  cases drops (o₂.engine w₂) with
  | true => exact .inr ⟨rfl, h⟩
  | false =>
    cases (o₂.engine w₂).isServed with
    | true => exact .inr ⟨rfl, hput _⟩
    | false => cases (o₂.engine w₂).settings.execution.bridgeTimeout <;> exact .inr ⟨rfl, h⟩

/-- A run that is lost stays lost when the main thread takes up what is queued. -/
theorem takeUp_lost {w₁ : W₁} (h : A.Lost w₁) : A.Lost (o₁.takeUp w₁).2 := by
  simp only [Outlook.takeUp]
  split
  · exact h
  · exact A.put_lost _ _ h
  · split <;> exact h

/-- It stays lost when the queue is put back. -/
theorem putQueued_lost {w₁ : W₁} (e : Engine H) (h : A.Lost w₁) : A.Lost (o₁.putQueued e w₁) := by
  unfold Outlook.putQueued
  cases e.hostIsMain with
  | true => exact A.hold_lost _ (A.put_lost _ _ h)
  | false => exact A.put_lost _ _ h

/-- In both a task waits until it is taken up, unless the first one's is dropped. -/
theorem putQueued {w₁ : W₁} {w₂ : W₂} (h : A.Near w₁ w₂) (hopen : .bridge ∉ A.closed w₁) (e : Engine H)
    (hages : (o₂.engine w₂).Ages e) :
    A.Lost (o₁.putQueued (e.close (A.closed w₁)) w₁) ∨
      A.Near (o₁.putQueued (e.close (A.closed w₁)) w₁) (o₂.putQueued e w₂) ∧
        .bridge ∉ A.closed (o₁.putQueued (e.close (A.closed w₁)) w₁) := by
  have hmain : (e.close (A.closed w₁)).hostIsMain = e.hostIsMain := by
    unfold hostIsMain
    rw [bridge_close hopen]
  have hput := A.put _ _ e h hages
  unfold Outlook.putQueued
  rw [hmain]
  cases e.hostIsMain with
  | true => exact A.hold _ _ hput
  | false =>
    refine .inr ⟨hput, ?_⟩
    show _ ∉ A.closed (o₁.put _ w₁)
    rw [A.closed_put]
    exact hopen

/-- And so it does if it is lost by a look at the bridge. -/
theorem handIn_lost {w₁ : W₁} (t : MainTask H) (h : A.Lost (o₁.look .bridge w₁)) : A.Lost (o₁.handIn t w₁).2 := by
  simp only [Outlook.handIn]
  split
  · exact h
  · exact A.takeUp_lost (A.putQueued_lost _ h)

/-- In both a task is refused or taken up together with the same others, unless the first looks too late. -/
theorem handIn (t : MainTask H) :
    A.KeptAct (o₁.handIn t) (o₂.handIn t) where
  lost w₁ h := A.handIn_lost t (A.look_lost .bridge w₁ h)
  near w₁ w₂ h := by
    rcases A.look .bridge w₁ w₂ h with hlost | ⟨hnear, hopen⟩
    · exact .inl (A.handIn_lost t hlost)
    · have hengine := A.engine _ _ hnear
      unfold Outlook.handIn
      simp only [hengine, bridge_close hopen]
      cases (o₂.engine (o₂.look .bridge w₂)).bridge.submit t with
      | error f => exact .inr ⟨rfl, hnear⟩
      | ok b =>
        simp only
        rw [close_withBridge hopen]
        rcases A.putQueued hnear hopen { o₂.engine (o₂.look .bridge w₂) with bridge := b } (.of_clock rfl rfl) with
          hlost | ⟨hqueued, hstill⟩
        · exact .inl (A.takeUp_lost hlost)
        · exact A.takeUp hqueued hstill

/-- A task that is handed to the main thread: the first run is lost where the bridge is closed for it, and else both wait alike. -/
theorem callMain (t : MainTask H) :
    A.KeptAct (o₁.callMain fuel t) (o₂.callMain fuel t) := by
  refine .andThen (A.handIn t) fun taken => ?_
  cases taken with
  | error f => exact .pure _
  | ok batch =>
    refine .andThen (A.runTasks fuel batch.dropLast) fun _ => .andThen (A.runTask fuel t).lift fun r => ?_
    rcases r with (_ | _) | _ <;> exact .pure _

/-- Work that a worker hands over. -/
theorem workAcross (w : Work H) :
    A.KeptAct (o₁.workAcross fuel w) (o₂.workAcross fuel w) :=
  A.callMain fuel (.work w)

/-- An activation that is handed over with its variables. -/
theorem runAcrossWith (a : Activation H) (vars : Variables) :
    A.KeptRun (o₁.runAcrossWith fuel a vars) (o₂.runAcrossWith fuel a vars) := by
  have hlocals (vars : Variables) : A.KeptRun
      (modify fun s => { s with locals := vars } : Run W₁ PUnit) (modify fun s => { s with locals := vars } : Run W₂ PUnit) :=
    ⟨fun _ h => h, fun _ _ h => .inr ⟨rfl, rfl, h.2⟩⟩
  refine .andThen (hlocals ∅) fun _ => .andThen (A.callMain fuel _).ofAct fun answer => ?_
  cases answer with
  | ok r => exact .andThen (hlocals r.2) fun _ => .pure _
  | error f => exact .andThen (A.run (.of (fun _ _ => .of_clock rfl rfl) fun _ _ _ => rfl)) fun _ => .pure _

/-- So the caller has them back alike. -/
theorem runAcross (a : Activation H) :
    A.KeptRun (o₁.runAcross fuel a) (o₂.runAcross fuel a) :=
  Pairing.Kept.get (fun s : Scope W₁ => s.locals) (fun s : Scope W₂ => s.locals) (o₁.runAcrossWith fuel a)
    (o₂.runAcrossWith fuel a) (fun s₁ s₂ (h : A.scope.Near s₁ s₂) => h.1) (A.runAcrossWith fuel a)

/-- The first activation on a worker. -/
theorem runFirst (a : Activation H) : A.scope.Kept (o₁.runFirst fuel a) (o₂.runFirst fuel a) := by
  refine .bind (A.onScope gatelessPart_levels) fun n => ?_
  cases n with
  | zero => exact A.onScope (gatelessPart_refuseDepth a)
  | succ => exact A.runHere fuel false 1 (A.workAcross fuel) (A.runAcross fuel) a

/-- Both do the same about a job, unless the first looks too late at a gate. -/
theorem runJob (job : Job H) : A.KeptAct (o₁.runJob fuel job) (o₂.runJob fuel job) := by
  refine .andThen (A.inScope job.locals (A.runFirst fuel job.activation)).lift fun r => ?_
  obtain ⟨(_ | _) | _, reached⟩ := r
  · exact A.act (gateless_keep _ _)
  · exact .pure _
  · exact A.act (gateless_keep _ _)

/-- Both do the same about all that is queued, unless the first looks too late at a gate. -/
theorem drain (jobs : Nat) : A.KeptAct (o₁.drain fuel jobs) (o₂.drain fuel jobs) := by
  induction jobs with
  | zero => exact .pure _
  | succ jobs ih =>
    refine .andThen A.pass_kept.lift fun _ => .andThen (A.act gateless_takeJob) fun taken => ?_
    cases taken with
    | none => exact .pure _
    | some job => exact .andThen (A.runJob fuel job) fun _ => ih

end

end Alongside

end EventScript.Outlook
