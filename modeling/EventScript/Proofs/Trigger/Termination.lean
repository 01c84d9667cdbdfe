import EventScript.Proofs.Trigger.Basic
import EventScript.Proofs.Trigger.Calls

/-!
# Scripts that always end

Fuel bounds the passes of conditional loops, and a run that has used it up stands for one that goes on for ever. Where no script has
a conditional loop and host code returns, a synchronous activation on the main thread ends, in one way whatever the fuel is:
`activate_ends`. Scripts call each other by names that are computed, so no order among them bounds the calls. What bounds them is
the limit on their depth: the proof goes by induction on the levels that are left, within one level along the tree of the script,
and within a counting loop along its passes, which are counted before the first one.
-/

namespace EventScript

/-! ## Host code that returns -/

section

variable {H W α : Type}

/-- The act comes to a result, if only to a fault or a panic. -/
def Act.Returns (a : Act W α) : Prop := ∀ w, (a w).1 ≠ .error .outOfFuel

def Run.Returns (m : Run W α) : Prop := ∀ s, (m s).1 ≠ .error .outOfFuel

/-- All that a command or a placeholder does comes to a result. -/
def Deed.Returns : Deed H α → Prop
  | .act run => Act.Returns run
  | .handOver before _ next => Act.Returns before ∧ ∀ answer, (next answer).Returns

/-- Whatever the hook is asked, it answers. -/
structure Hook.Returns (hook : Hook H) : Prop where
  onNode : ∀ caller node, Act.Returns (hook.onNode caller node)
  onCommand : ∀ caller name args, Run.Returns (hook.onCommand caller name args)
  onPlaceholder : ∀ caller name args, Act.Returns (hook.onPlaceholder caller name args)

end

/-- The node is a conditional loop. -/
def Node.IsWhile : Node → Prop
  | .statement (.whileLoop ..) => True
  | _ => False

instance (node : Node) : Decidable node.IsWhile := by
  unfold Node.IsWhile
  split <;> infer_instance

/-- The only loops of the script are counting ones. -/
def Script.WhileFree (s : Script) : Prop := ∀ node ∈ s.nodes, ¬node.IsWhile

instance (s : Script) : Decidable s.WhileFree := inferInstanceAs (Decidable (∀ _ ∈ _, _))

namespace Engine

variable {H α β : Type}

/-- Nothing that is registered can go on for ever by itself. -/
structure Registries.Return (R : Registries H) : Prop where
  command : ∀ n command, R.commands.get? n = some command → ∀ caller args, (command caller args).Returns
  placeholder : ∀ n placeholder, R.placeholders.get? n = some placeholder → ∀ caller args, (placeholder caller args).Returns
  named : ∀ (n : String) (t : Trigger), R.named[n]? = some t → t.script.WhileFree

/-- Where this is registered, the two parts come to one and the same result, and this stays registered. -/
def EndAlike (R : Registries H) (m₁ m₂ : Run (Engine H) α) : Prop :=
  ∀ s, s.world.registries = R → m₁ s = m₂ s ∧ (m₁ s).1 ≠ .error .outOfFuel ∧ (m₁ s).2.world.registries = R

variable {R : Registries H}

namespace EndAlike

/-- A result is the end. -/
theorem pure (a : α) : EndAlike R (Pure.pure a) (Pure.pure a) := fun _ h => ⟨rfl, nofun, h⟩

/-- So is a stop that is not for want of fuel. -/
theorem stop {reason : Halt} (hreason : reason ≠ .outOfFuel) : EndAlike (α := α) R (throw reason) (throw reason) :=
  fun _ h => ⟨rfl, fun hdry => hreason (Except.error.inj hdry), h⟩

/-- Two parts that end do so one after the other. -/
theorem bind {m₁ m₂ : Run (Engine H) α} {f₁ f₂ : α → Run (Engine H) β} (hm : EndAlike R m₁ m₂)
    (hf : ∀ a, EndAlike R (f₁ a) (f₂ a)) : EndAlike R (m₁ >>= f₁) (m₂ >>= f₂) := by
  intro s h
  obtain ⟨hsame, hend, hkept⟩ := hm s h
  rcases Run.cases m₁ s with ⟨a, s', hrun⟩ | ⟨reason, s', hrun⟩
  · rw [hrun] at hsame hkept
    rw [Run.bind_ok hrun, Run.bind_ok hsame.symm]
    exact hf a s' hkept
  · rw [hrun] at hsame hend hkept
    rw [Run.bind_error hrun, Run.bind_error hsame.symm]
    exact ⟨rfl, fun hdry => hend (congrArg Except.error (Except.error.inj hdry)), hkept⟩

/-- The scope may be looked at, with what is registered in it. -/
theorem get {f₁ f₂ : Scope (Engine H) → Run (Engine H) α}
    (h : ∀ s, s.world.registries = R → EndAlike R (f₁ s) (f₂ s)) :
    EndAlike R (MonadState.get >>= f₁) (MonadState.get >>= f₂) := fun s hs => h s hs s hs

/-- A part that comes to a result and leaves alone what is registered. -/
theorem of {m : Run (Engine H) α} (hend : Run.Returns m) (hkept : ∀ s, (m s).2.world.registries = s.world.registries) :
    EndAlike R m m := fun s h => ⟨rfl, hend s, (hkept s).trans h⟩

end EndAlike

/-- The interpreter keeps coming to an end. -/
def endLink (R : Registries H) : Link (Engine H) (Engine H) where
  Rel := EndAlike R
  pure := .pure
  stop _ := .stop
  bind := .bind

/-! ## The steps of a script -/

/-- Host code that returns ends. -/
theorem endAlike_onReach {a : Act (Reach H) α} (h : Act.Returns a) : EndAlike R (Run.ofAct (onReach a)) (Run.ofAct (onReach a)) :=
  .of (fun s => h s.world.reach) fun _ => rfl

/-- So does work of the host on the spot: even a panic is an answer. -/
theorem endAlike_workHere (w : Work H) : EndAlike R (Run.ofAct (workHere w)) (Run.ofAct (workHere w)) := by
  refine .of (fun s => ?_) fun s => registries_workHere w s.world
  simp only [Run.ofAct, workHere]
  rcases w s.world.reach with ⟨_ | _, _⟩
  · intro h
    cases h
  · intro h
    cases h

/-- So does a command or a placeholder that returns. -/
theorem endAlike_perform {deed : Deed H α} (h : deed.Returns) :
    EndAlike R (Run.ofAct (perform workHere deed)) (Run.ofAct (perform workHere deed)) := by
  induction deed with
  | act run => exact endAlike_onReach h
  | handOver before work next ih =>
    obtain ⟨hbefore, hnext⟩ := h
    rw [perform, Run.ofAct_bind]
    refine (endAlike_onReach hbefore).bind fun _ => ?_
    rw [Run.ofAct_bind]
    exact (endAlike_workHere work).bind fun answer => ih answer (hnext answer)

/-- To write a global variable ends. -/
theorem endAlike_writeGlobal (key : String) (v : Value) :
    EndAlike R (Run.ofAct (writeGlobal key v)) (Run.ofAct (writeGlobal key v)) := by
  refine .of (fun s => ?_) fun s => registries_writeGlobal key v s.world
  simp only [Run.ofAct, writeGlobal]
  cases s.world.reach.globals.set key v with
  | ok globals =>
    intro h
    cases h
  | error f =>
    intro h
    cases h

/-- So does it to cancel the event. -/
theorem endAlike_cancelEventFor (caller : Caller) :
    EndAlike R (Run.ofAct (cancelEventFor caller)) (Run.ofAct (cancelEventFor caller)) := by
  unfold cancelEventFor
  split
  · exact .stop nofun
  · split
    · refine .of (fun s => nofun) fun s => ?_
      show (s.world.cancelEvent caller.context).registries = _
      unfold cancelEvent
      split <;> rfl
    · exact .stop nofun

/-- So does it to start a cooldown, whatever its arguments. -/
theorem endAlike_startCooldown (t : Trigger) (actor : Option Actor) (args : List Value) :
    EndAlike R (Run.ofAct (startCooldown t actor args)) (Run.ofAct (startCooldown t actor args)) := by
  unfold startCooldown
  cases args.head?.bind Value.asFloat? with
  | none => exact .stop nofun
  | some seconds =>
    cases actor with
    | none => exact .pure _
    | some actor => exact .of (fun _ => nofun) fun _ => rfl

/-- So do the placeholders of the engine itself. -/
theorem endAlike_reservedPlaceholder (a : Activation H) (caller : Caller) (name : String) :
    EndAlike R (Run.ofAct (reservedPlaceholder a caller name)) (Run.ofAct (reservedPlaceholder a caller name)) := by
  unfold reservedPlaceholder cooldownLeft
  split
  · cases caller.actor with
    | none => exact .of (fun _ => nofun) fun _ => rfl
    | some actor => exact .of (fun _ => nofun) fun _ => rfl
  · exact .pure _

/-- A job is queued or refused, and not waited for. -/
theorem endAlike_enqueue (a : Activation H) : EndAlike R (enqueue a) (enqueue a) := by
  refine .of (fun s => ?_) fun s => ?_
  all_goals
    unfold enqueue
    cases s.world.workers.submit ⟨a, s.locals⟩
  · exact nofun
  · exact nofun
  · rfl
  · rfl

/-- To ask for a cooldown ends. -/
theorem endAlike_isCooling (t : Trigger) (c : Context H) :
    EndAlike R (toRun (isCooling t c)) (toRun (isCooling t c)) :=
  .of (fun _ => nofun) fun s => registries_isCooling t c s.world

/-! ## Calls -/

/-- Both ways to run an activation that is waited for come to the same end, if its script and its hook do not go on for ever. -/
def SyncEnds (R : Registries H) (run₁ run₂ : RunSync H) : Prop :=
  ∀ a, a.trigger.script.WhileFree → a.context.hook.Returns → EndAlike R (run₁ a) (run₂ a)

section

variable {run₁ run₂ : RunSync H}

/-- A trigger is started, and waited for only where it runs on the spot. -/
theorem endAlike_activateWith (hsync : SyncEnds R run₁ run₂) {t : Trigger} {c : Context H} (ht : t.script.WhileFree)
    (hhook : c.hook.Returns) (mode : Mode) :
    EndAlike R
      (activateWith run₁ t c mode >>= fun h => if mode = .sync then do let _ ← Run.ofAct (wait h) else pure ())
      (activateWith run₂ t c mode >>= fun h => if mode = .sync then do let _ ← Run.ofAct (wait h) else pure ()) := by
  have hnumber (p : Phase) : EndAlike R (toRun (newActivation p)) (toRun (newActivation p)) :=
    .of (fun _ => nofun) fun _ => rfl
  rw [activateWith_wait, activateWith_wait]
  refine .get fun s _ => ?_
  cases s.world.accepting with
  | false => exact .stop nofun
  | true =>
    refine (endAlike_isCooling t c).bind fun cooling => ?_
    cases cooling with
    | true => exact (hnumber .cancelled).bind fun _ => .pure ()
    | false =>
      refine (hnumber .created).bind fun id => ?_
      cases mode with
      | async => exact endAlike_enqueue _
      | sync =>
        have hanswer (v : Verdict) : EndAlike R (answer v) (answer v) := by
          refine .of (fun s => ?_) fun s => ?_
          · rcases v with _ | _ <;> exact nofun
          · exact congrArg registries (answerOf_state (.ok v) s.world)
        exact ((hsync ⟨id, t, c, .sync⟩ ht hhook).bind hanswer).bind fun _ => .pure ()

/-- So a script that calls a trigger comes to an end if what it calls does. -/
theorem endAlike_call (hR : R.Return) (hsync : SyncEnds R run₁ run₂) {c : Context H} (hhook : c.hook.Returns)
    (args : List Value) : EndAlike R (call run₁ c args) (call run₂ c args) := by
  unfold call
  cases callRequest args with
  | error f => exact .stop nofun
  | ok request =>
    obtain ⟨n, mode⟩ := request
    refine .get fun s hs => ?_
    cases ht : s.world.named[n]? with
    | none => exact .stop nofun
    | some t =>
      have hnamed : R.named[n]? = some t := hs ▸ ht
      exact endAlike_activateWith hsync (hR.named n t hnamed) hhook mode

/-- So do the commands of the engine itself. -/
theorem endAlike_reservedCommand (hR : R.Return) (hsync : SyncEnds R run₁ run₂) {a : Activation H}
    (hhook : a.context.hook.Returns) (caller : Caller) (name : String) (args : List Value) :
    EndAlike R (reservedCommand run₁ a caller name args) (reservedCommand run₂ a caller name args) := by
  unfold reservedCommand
  dsimp only
  split
  · exact (endAlike_call hR hsync hhook args).bind fun _ => .pure _
  split
  · exact (endAlike_cancelEventFor caller).bind fun _ => .pure _
  split
  · exact (endAlike_startCooldown a.trigger caller.actor args).bind fun _ => .pure _
  · exact .pure _

/-- What a script finds around it on the main thread, next to the same with another way to run what it calls. -/
theorem hosts_endLink (hR : R.Return) (hsync : SyncEnds R run₁ run₂) {a : Activation H} (hhook : a.context.hook.Returns)
    (caller : Caller) (deadline : Option Deadline) (Allowed : Node → Prop) :
    (endLink R).Hosts (triggerSurroundings a caller deadline workHere run₁) (triggerSurroundings a caller deadline workHere run₂)
      Allowed where
  askToken := .get fun _ _ => .pure _
  overdue := by
    cases deadline with
    | none => exact .pure _
    | some d => exact .of (fun _ => nofun) fun _ => rfl
  veto node _ := endAlike_onReach (hhook.onNode caller node)
  readName n _ := by
    rw [Host.readName_eq, Host.readName_eq]
    exact .get fun _ _ => .pure _
  readGlobal key _ := .get fun _ _ => .pure _
  offerPlaceholder n args := by
    show EndAlike R (Run.ofAct (onReach (a.context.hook.onPlaceholder caller n args) >>= _))
      (Run.ofAct (onReach (a.context.hook.onPlaceholder caller n args) >>= _))
    rw [Run.ofAct_bind]
    refine (endAlike_onReach (hhook.onPlaceholder caller n args)).bind fun answer => ?_
    cases answer with
    | some v => exact .pure _
    | none => exact endAlike_reservedPlaceholder a caller n
  callPlaceholder n args := .get fun s hs => by
    show EndAlike R (((s.world.placeholders.get? n).map _).elim _ _) (((s.world.placeholders.get? n).map _).elim _ _)
    cases hplaceholder : s.world.placeholders.get? n with
    | none => exact .pure _
    | some placeholder =>
      have hregistered : R.placeholders.get? n = some placeholder := hs ▸ hplaceholder
      exact endAlike_perform (hR.placeholder n placeholder hregistered caller args)
  bind n v _ := .of (fun _ => nofun) fun _ => rfl
  writeGlobal key v _ := endAlike_writeGlobal key v
  offerCommand n args := by
    show EndAlike R (offerToHook (a.context.hook.onCommand caller n args) >>= _)
      (offerToHook (a.context.hook.onCommand caller n args) >>= _)
    refine EndAlike.bind (.of (fun s => hhook.onCommand caller n args _) fun _ => rfl) fun done => ?_
    cases done with
    | true => exact .pure _
    | false => exact endAlike_reservedCommand hR hsync hhook caller n args
  callCommand n args := .get fun s hs => by
    show EndAlike R (((s.world.commands.get? n).map _).elim _ _) (((s.world.commands.get? n).map _).elim _ _)
    cases hcommand : s.world.commands.get? n with
    | none => exact .stop nofun
    | some command =>
      have hregistered : R.commands.get? n = some command := hs ▸ hcommand
      exact endAlike_perform (hR.command n command hregistered caller args)

end

/-! ## Activations -/

/-- An activation ends as its script does, once the two are prepared alike. -/
theorem runHere_congr {fuel₁ fuel₂ depth : Nat} {onMain : Bool} {handOver₁ handOver₂ : HandOver H} {run₁ run₂ : RunSync H}
    {a : Activation H} {s : Scope (Engine H)}
    (h : let running := s.world.setPhase a.id .running
      let start := Deadline.start running.settings.execution.activationTimeout running
      let caller : Caller := ⟨a.context.id, a.context.event, a.context.actor, a.mode, onMain, depth⟩
      let host₁ := triggerSurroundings a caller start.1 handOver₁ run₁
      let host₂ := triggerSurroundings a caller start.1 handOver₂ run₂
      host₁.executeAll host₁.enter fuel₁ a.trigger.script.statements ⟨s.locals, start.2⟩ =
        host₂.executeAll host₂.enter fuel₂ a.trigger.script.statements ⟨s.locals, start.2⟩) :
    runHere fuel₁ onMain depth handOver₁ run₁ a s = runHere fuel₂ onMain depth handOver₂ run₂ a s := by
  obtain ⟨deadline, world, hstart⟩ : ∃ deadline world, Deadline.start
    (s.world.setPhase a.id .running).settings.execution.activationTimeout (s.world.setPhase a.id .running) =
      (deadline, world) := ⟨_, _, rfl⟩
  simp only [hstart] at h
  unfold runHere
  simp only [stateM_bind_apply, stateM_get_apply, stateM_modify_apply, hstart, Host.run_apply, h]

/-- The script of an activation ends, and what is done about its end comes to the same. -/
theorem endAlike_runHere {fuel₁ fuel₂ : Nat} {run₁ run₂ : RunSync H} (hR : R.Return) (hsync : SyncEnds R run₁ run₂)
    {a : Activation H} (ha : a.trigger.script.WhileFree) (hhook : a.context.hook.Returns) (depth : Nat) :
    EndAlike R (spread (runHere fuel₁ true depth workHere run₁ a)) (spread (runHere fuel₂ true depth workHere run₂ a)) := by
  intro s hs
  have hstart : (Deadline.start (s.world.setPhase a.id .running).settings.execution.activationTimeout
      (s.world.setPhase a.id .running)).2.registries = R := by
    cases (s.world.setPhase a.id .running).settings.execution.activationTimeout <;> exact hs
  have hfuel : (endLink R).Fuels (fun node => ¬node.IsWhile) fuel₁ fuel₂ :=
    .unused (fun _ _ _ hallowed => hallowed trivial) fuel₁ fuel₂
  have hhosts := hosts_endLink hR hsync hhook ⟨a.context.id, a.context.event, a.context.actor, a.mode, true, depth⟩
    (Deadline.start (s.world.setPhase a.id .running).settings.execution.activationTimeout
      (s.world.setPhase a.id .running)).1 fun node => ¬node.IsWhile
  obtain ⟨hsame, hend, hkept⟩ := (hhosts.linked hhosts.enter).executeAll hfuel a.trigger.script.statements ha
    ⟨s.locals, _⟩ hstart
  obtain ⟨conclusion, s', hrun⟩ : ∃ conclusion s', runHere fuel₁ true depth workHere run₁ a s = (conclusion, s') :=
    ⟨_, _, rfl⟩
  rw [spread_apply, spread_apply, ← runHere_congr hsame, hrun]
  obtain ⟨r, scope, hexecuted, hcases⟩ := runHere_cases hrun
  rw [hexecuted] at hend hkept
  rcases hcases with ⟨hdry, -⟩ | ⟨-, ⟨v, rfl, rfl⟩ | ⟨p, rfl, rfl⟩⟩
  · exact absurd hdry hend
  · exact ⟨rfl, nofun, hkept⟩
  · exact ⟨rfl, nofun, hkept⟩

/-- An activation on the main thread ends. At the limit on the depth of calls it is refused; below it its script ends, and so does
all that the script calls, which has a level less. -/
theorem endAlike_runOnMain (hR : R.Return) (fuel₁ fuel₂ levels depth : Nat) :
    SyncEnds R (fun a => spread (runOnMain fuel₁ levels depth a)) fun a => spread (runOnMain fuel₂ levels depth a) := by
  induction levels generalizing depth with
  | zero => exact fun a _ _ s hs => ⟨rfl, nofun, hs⟩
  | succ levels ih => exact fun a ha hhook => endAlike_runHere hR (ih (depth + 1)) ha hhook (depth + 1)

/-- A run is told by what the one who waits for it sees of it. -/
theorem spread_injective {m₁ m₂ : StateM (Scope (Engine H)) Conclusion} {s : Scope (Engine H)}
    (h : spread m₁ s = spread m₂ s) : m₁ s = m₂ s := by
  rw [spread_apply, spread_apply] at h
  rcases hm₁ : m₁ s with ⟨(p₁ | _) | v₁, s₁⟩ <;> rcases hm₂ : m₂ s with ⟨(p₂ | _) | v₂, s₂⟩ <;> rw [hm₁, hm₂] at h <;> cases h <;>
    rfl

/-- On the main thread every activation ends, by induction on how many levels may still follow. -/
theorem runOnMain_ends {a : Activation H} {s : Scope (Engine H)} (hs : s.world.registries.Return)
    (ha : a.trigger.script.WhileFree) (hhook : a.context.hook.Returns) (levels depth : Nat) :
    ∃ conclusion s', (∀ fuel, runOnMain fuel levels depth a s = (conclusion, s')) ∧ conclusion ≠ .error .outOfFuel := by
  have hsync (fuel : Nat) := endAlike_runOnMain hs 0 fuel levels depth a ha hhook s rfl
  obtain ⟨conclusion, s', hrun⟩ : ∃ conclusion s', runOnMain 0 levels depth a s = (conclusion, s') := ⟨_, _, rfl⟩
  refine ⟨conclusion, s', fun fuel => (spread_injective (hsync fuel).1).symm.trans hrun, ?_⟩
  rintro rfl
  refine (hsync 0).2.1 ?_
  show (spread (runOnMain 0 levels depth a) s).1 = _
  rw [spread_apply, hrun]

/-- The host waits on the main thread for what it starts there. -/
theorem runForHost_apply (fuel : Nat) (a : Activation H) {s : Scope (Engine H)} (hmain : s.world.hostIsMain = true) :
    runForHost fuel a s = spread (runOnMain fuel s.world.maxDepth 0 a) s := by
  unfold runForHost
  rw [Run.get_bind, if_pos hmain]

/-- An activation that the host starts on the main thread comes to the verdict on its script, unless it is refused or passed over. -/
theorem activate_on_main {e : Engine H} (hmain : e.hostIsMain = true) {t : Trigger} {c : Context H} (ht : t.script.WhileFree)
    (he : e.registries.Return) (hhook : c.hook.Returns) (vars : Variables) :
    ∃ r s, (∀ fuel, activate fuel t c .sync ⟨vars, e⟩ = (r, s)) ∧ r ≠ .error .outOfFuel ∧
      ∀ h, r = .ok h → h.verdict.isSome = true := by
  cases haccepting : e.accepting with
  | false => exact ⟨_, _, fun _ => activateWith_closed _ .sync haccepting, nofun, nofun⟩
  | true =>
    cases hcooling : (isCooling t c e).1 with
    | true =>
      refine ⟨_, _, fun _ => activateWith_cooling _ .sync haccepting hcooling, nofun, ?_⟩
      rintro h ⟨⟩
      rfl
    | false =>
      have hbridge : (isCooling t c e).2.bridge = e.bridge := by
        unfold isCooling
        cases c.actor <;> rfl
      have hmain' : (newActivation .created (isCooling t c e).2).2.hostIsMain = true := by
        rw [← hmain]
        exact congrArg (fun b : Bridge (MainTask H) => b.main == .attached) hbridge
      obtain ⟨conclusion, s', hrun, hend⟩ := runOnMain_ends (a := ⟨(isCooling t c e).2.nextActivation, t, c, .sync⟩)
        (s := ⟨vars, (newActivation .created (isCooling t c e).2).2⟩) ((registries_isCooling t c e).symm ▸ he) ht hhook
        (newActivation .created (isCooling t c e).2).2.maxDepth 0
      have hhost (fuel : Nat) := runForHost_apply fuel ⟨(isCooling t c e).2.nextActivation, t, c, .sync⟩
        (s := ⟨vars, (newActivation .created (isCooling t c e).2).2⟩) hmain'
      have hstart (fuel : Nat) : activate fuel t c .sync ⟨vars, e⟩ = _ :=
        activateWith_sync (runForHost fuel) haccepting hcooling
      rcases conclusion with (p | _) | v
      · refine ⟨.error (.panicked p), s', fun fuel => (hstart fuel).trans ?_, nofun, nofun⟩
        rw [Run.bind_error ((hhost fuel).trans (by rw [spread_apply, hrun fuel]))]
      · exact absurd rfl hend
      · refine ⟨.ok ⟨(isCooling t c e).2.nextActivation, some v⟩, s', fun fuel => (hstart fuel).trans ?_, nofun, ?_⟩
        · rw [Run.bind_ok ((hhost fuel).trans (by rw [spread_apply, hrun fuel]))]
          rfl
        · rintro h ⟨⟩
          rfl

/-- A synchronous activation on the main thread ends, with a verdict or in a fault or a panic, and the end is the same whatever the
fuel is, if the script that is started and all named ones are without conditional loops and host code returns. This holds of one that
the host starts on its own thread and of one that another thread hands to the main thread, for all variables and whatever the scripts
call. -/
theorem activate_ends {e : Engine H} {t : Trigger} {c : Context H} (ht : t.script.WhileFree) (he : e.registries.Return)
    (hhook : c.hook.Returns) (vars : Variables) :
    (e.hostIsMain = true → ∃ r s, (∀ fuel, activate fuel t c .sync ⟨vars, e⟩ = (r, s)) ∧ r ≠ .error .outOfFuel ∧
      ∀ h, r = .ok h → h.verdict.isSome = true) ∧
    ∀ id, ∃ r e', (∀ fuel, runTask fuel (.activation ⟨id, t, c, .sync⟩ vars) e = (r, e')) ∧ r ≠ .error .outOfFuel := by
  refine ⟨fun hmain => activate_on_main hmain ht he hhook vars, fun id => ?_⟩
  obtain ⟨conclusion, s', hrun, hend⟩ := runOnMain_ends (a := ⟨id, t, c, .sync⟩) (s := ⟨vars, e⟩) he ht hhook e.maxDepth 0
  refine ⟨conclusion.map fun v => (v, s'.locals), s'.world, fun fuel => ?_, fun hdry => ?_⟩
  · simp only [runTask, hrun]
  · rcases conclusion with (p | _) | v
    · cases hdry
    · exact hend rfl
    · cases hdry

/-- A script that calls itself in every pass of a loop whose variable it sets back. -/
theorem activate_ends_self_call :
    let p : Position := ⟨1, 1⟩
    let script : Script := ⟨[.forLoop p "i" (.literal p (.int 0)) (.literal p (.int 3))
      [.assign p (.name "i") (.literal p (.int 0)), .command p "SAY" [], .command p "CALL" [.name p "again"]]]⟩
    let t : Trigger := ⟨0, "loop", "", script, .sync⟩
    let say : Command Unit := fun _ _ => .act (pure ())
    let e : Engine Unit := insertTrigger t (.new {} .attached true () (.memory ∅) .empty (.steady 1))
    let e : Engine Unit := { e with commands := e.commands.insert "SAY" say }
    let c : Context Unit := ⟨0, ⟨"join", false⟩, none, .idle Unit⟩
    let vars : Variables := (∅ : Variables).insert "again" (.string "loop")
    t.script.WhileFree ∧ ∃ r s, (∀ fuel, activate fuel t c .sync ⟨vars, e⟩ = (r, s)) ∧ r ≠ .error .outOfFuel := by
  intro p script t say e₀ e c vars
  have ht : t.script.WhileFree := by decide
  have hhook : c.hook.Returns := ⟨fun _ _ _ => nofun, fun _ _ _ _ => nofun, fun _ _ _ _ => nofun⟩
  have he : e.registries.Return :=
    { command := fun n command hcommand caller args => by
        rcases Registry.get?_insert_cases hcommand with rfl | hbefore
        · exact fun _ => nofun
        · cases (Registry.get?_empty Text.upper n).symm.trans hbefore
      placeholder := fun n placeholder hplaceholder => by cases (Registry.get?_empty Text.lower n).symm.trans hplaceholder
      named := fun n u hu => by
        have hlookup := Std.ExtTreeMap.getElem?_insert.symm.trans hu
        split at hlookup
        · cases hlookup
          exact ht
        · cases Std.ExtTreeMap.getElem?_empty.symm.trans hlookup }
  obtain ⟨r, s, hrun, hend, -⟩ := (activate_ends ht he hhook vars).1 rfl
  exact ⟨ht, r, s, hrun, hend⟩

end Engine

end EventScript
