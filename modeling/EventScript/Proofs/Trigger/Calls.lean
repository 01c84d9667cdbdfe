import EventScript.Proofs.Trigger.Alike

/-!
# What scripts without cooldowns see

A script that neither starts a cooldown nor asks for one, and the scripts it calls, run alike in engines that are alike, whichever
activation they belong to and however many calls deep they are, up to the limit on that depth. Here are the steps of one level
(`linked_hostOnMain`), given that the calls it makes run alike; `syncAlike_runOnMain` in `Proofs/Trigger/Inlining` goes on by induction.
-/

namespace EventScript.Engine

variable {H : Type} {e₀ : Engine H}

/-! ## Host code -/

/-- Host code concerns what it reaches, and no variables. -/
theorem ofAct_onReach (a : Act (Reach H) α) : Run.ofAct (onReach a) = onlyReach (Run.ofAct a) := rfl

/-- Work of the host concerns what it reaches alone. -/
theorem runsAlike_workHere (w : Work H) : RunsAlike e₀ (Run.ofAct (workHere w)) (Run.ofAct (workHere w)) := by
  have hreach : Run.ofAct (workHere w) =
      onlyReach (Run.ofAct fun r => (.ok ((w r).1.mapError .panicked), (w r).2)) := by
    funext s
    simp only [Run.ofAct, workHere, onlyReach]
    rcases w s.world.reach with ⟨_ | _, _⟩ <;> rfl
  rw [hreach]
  exact runsAlike_onlyReach _

/-- What a command or a placeholder does on the main thread concerns what it reaches alone. -/
theorem runsAlike_perform (deed : Deed H α) :
    RunsAlike e₀ (Run.ofAct (perform workHere deed)) (Run.ofAct (perform workHere deed)) := by
  induction deed with
  | act run =>
    rw [perform, ofAct_onReach]
    exact runsAlike_onlyReach _
  | handOver before work next ih =>
    rw [perform, Run.ofAct_bind, ofAct_onReach]
    refine (runsAlike_onlyReach _).bind fun _ => ?_
    rw [Run.ofAct_bind]
    exact (runsAlike_workHere work).bind fun answer => ih answer

/-- So does a global variable that is written. -/
theorem runsAlike_writeGlobal (key : String) (v : Value) :
    RunsAlike e₀ (Run.ofAct (writeGlobal key v)) (Run.ofAct (writeGlobal key v)) := by
  have hreach : Run.ofAct (writeGlobal (H := H) key v) = onlyReach (Run.ofAct fun r =>
      let written := r.globals.set key v
      ((written.map fun _ => ()).mapError .failed, { r with globals := written.toOption.getD r.globals })) := by
    funext s
    simp only [Run.ofAct, writeGlobal, onlyReach]
    cases s.world.reach.globals.set key v <;> rfl
  rw [hreach]
  exact runsAlike_onlyReach _

/-! ## Starting activations -/

/-- Whether the actor is cooling down for the trigger is the same at every later reading of the clock. -/
def Settled (e : Engine H) (c : Context H) (t : Trigger) : Prop :=
  ∀ actor, c.actor = some actor → ∀ i, e.clock.readings ≤ i →
    (e.cooldownsOf t.id).isCooling (e.clock.time i) actor.id = (e.cooldownsOf t.id).isCooling e.clock.now actor.id

/-- An actor that is not cooling down does not start to by itself. -/
theorem Settled.of_not_cooling {e : Engine H} {c : Context H} {t : Trigger} (h : (isCooling t c e).1 = false) :
    Settled e c t := by
  intro actor hactor i hi
  have hnow : (e.cooldownsOf t.id).isCooling e.clock.now actor.id = false := by
    unfold Engine.isCooling at h
    rw [hactor] at h
    exact h
  rw [hnow]
  have hle : e.clock.now ≤ e.clock.time i := e.clock.monotone _ _ hi
  unfold Cooldowns.isCooling Cooldowns.remaining at hnow ⊢
  cases hexpiry : (e.cooldownsOf t.id).expiries[actor.id]? with
  | none => rfl
  | some expiry =>
    simp only [hexpiry, bne_eq_false_iff_eq] at hnow ⊢
    omega

/-- Reading the clock leaves an engine where it was. -/
theorem Within.readClock {e : Engine H} (h : Within e₀ e) : Within e₀ (readClock e).2 :=
  ⟨h.fixtures, Nat.le_succ_of_le h.readings⟩

/-- Whether a settled actor cools down is the same as at the beginning, and to ask leaves an engine where it was. -/
theorem Within.isCooling {e : Engine H} {c : Context H} {t : Trigger} (h : Within e₀ e) (hsettled : Settled e₀ c t) :
    (isCooling t c e).1 = (isCooling t c e₀).1 ∧ (isCooling t c e).2.anonymousQueue = e.anonymousQueue ∧
      (isCooling t c e).2.reach = e.reach ∧ (isCooling t c e).2.cancelledEvents = e.cancelledEvents ∧
      Within e₀ (isCooling t c e).2 := by
  unfold Engine.isCooling
  cases hactor : c.actor with
  | none => exact ⟨rfl, rfl, rfl, rfl, h⟩
  | some actor =>
    refine ⟨?_, rfl, rfl, rfl, h.readClock⟩
    have hnow := hsettled actor hactor e.clock.readings h.readings
    show (e.cooldownsOf t.id).isCooling (e.clock.time e.clock.readings) actor.id = _
    unfold cooldownsOf at hnow ⊢
    rw [h.cooldowns, h.time, hnow]
    rfl

/-- So the question is answered alike. -/
theorem runsAlike_isCooling {c : Context H} {t : Trigger} (hsettled : Settled e₀ c t) :
    RunsAlike e₀ (toRun (isCooling t c)) (toRun (isCooling t c)) := by
  intro s₁ s₂ hs
  obtain ⟨hresult₁, hqueue₁, hreach₁, hevents₁, hwithin₁⟩ := hs.world.first.isCooling hsettled
  obtain ⟨hresult₂, hqueue₂, hreach₂, hevents₂, hwithin₂⟩ := hs.world.second.isCooling hsettled
  refine .inr ⟨congrArg Except.ok (hresult₁.trans hresult₂.symm), hs.locals, ?_⟩
  exact ⟨hreach₁.trans (hs.world.reach.trans hreach₂.symm), hevents₁.trans (hs.world.events.trans hevents₂.symm),
    hqueue₁.trans (hs.world.queue.trans hqueue₂.symm), hwithin₁, hwithin₂⟩

/-- Activations may have other numbers. -/
theorem runsAlike_newActivation (p : Phase) {f₁ f₂ : Nat → Run (Engine H) α} (h : ∀ i j, RunsAlike e₀ (f₁ i) (f₂ j)) :
    RunsAlike e₀ (toRun (newActivation p) >>= f₁) (toRun (newActivation p) >>= f₂) := by
  intro s₁ s₂ hs
  refine h s₁.world.nextActivation s₂.world.nextActivation _ _ ⟨hs.locals, ?_⟩
  have hphase := hs.world.setPhase s₁.world.nextActivation s₂.world.nextActivation p p
  exact ⟨hphase.reach, hphase.events, hphase.queue, ⟨hphase.first.fixtures, hphase.first.readings⟩,
    ⟨hphase.second.fixtures, hphase.second.readings⟩⟩

/-! ## Calls within calls -/

/-- The names that a call may ask for are among those given. Only a call with a literal in front says in the script which one it
asks for. -/
def CallsWithin (S : String → Prop) : List Expression → Prop
  | [] => True
  | .literal _ l :: _ => ∀ n, l.value = .string n → S n
  | _ => ∀ n, S n

/-- The node starts no cooldown and asks for none, and what it calls is among the names given. -/
def QuietNode (S : String → Prop) : Node → Prop
  | .statement (.command _ n args) => Text.upper n ≠ "COOLDOWN" ∧ (Text.upper n = "CALL" → CallsWithin S args)
  | .expression (.placeholder _ n _) => asciiLower n ≠ "cooldown"
  | _ => True

/-- What a trigger of one of these names does in this context does not depend on the time, on the depth of calls, or on which
activation it is done for. -/
structure Steady (e : Engine H) (c : Context H) (S : String → Prop) : Prop where
  hook : c.hook = .idle H
  timeout : e.settings.execution.activationTimeout = none
  quiet : ∀ n t, S n → e.named[n]? = some t → ∀ node ∈ t.script.nodes, QuietNode S node
  settled : ∀ n t, S n → e.named[n]? = some t → Settled e c t
  /-- Commands are not told how deep the calls are. -/
  command : ∀ n command, e.commands.get? n = some command → ∀ caller d, command { caller with depth := d } = command caller
  placeholder : ∀ n placeholder, e.placeholders.get? n = some placeholder →
    ∀ caller d, placeholder { caller with depth := d } = placeholder caller

/-- What the caller of an activation sees of its end. -/
def answer (v : Verdict) : Run (Engine H) Completion := Run.ofAct (answerOf (.ok v))

/-- Both ways to run a trigger that is called look alike to its caller. -/
def SyncAlike (e₀ : Engine H) (c : Context H) (S : String → Prop) (run₁ run₂ : RunSync H) : Prop :=
  ∀ n t i j, S n → e₀.named[n]? = some t →
    RunsAlike e₀ (run₁ ⟨i, t, c, .sync⟩ >>= answer) (run₂ ⟨j, t, c, .sync⟩ >>= answer)

/-- A job is queued alike, whatever its number. -/
theorem runsAlike_enqueue (t : Trigger) (c : Context H) (mode : Mode) (i j : Nat) :
    RunsAlike e₀ (enqueue ⟨i, t, c, mode⟩) (enqueue ⟨j, t, c, mode⟩) := by
  intro s₁ s₂ hs
  have haccepting : s₁.world.workers.accepting = s₂.world.workers.accepting :=
    congrArg (·.accepting) hs.world.queue
  refine .inr ?_
  unfold enqueue Pool.submit
  rw [haccepting]
  by_cases hopen : s₂.world.workers.accepting
  · simp only [hopen, if_true]
    refine ⟨trivial, hs.locals, hs.world.reach, hs.world.events, ?_,
      ⟨hs.world.first.fixtures, hs.world.first.readings⟩, ⟨hs.world.second.fixtures, hs.world.second.readings⟩⟩
    have hqueue := hs.world.queue
    simp only [anonymousQueue, Pool.mk.injEq] at hqueue ⊢
    simp only [List.map_append, hqueue, hs.locals]
    exact ⟨trivial, trivial, rfl⟩
  · simp only [hopen]
    exact ⟨rfl, hs⟩

/-- What a call makes of its trigger: one that cools down is passed over, and only a synchronous activation is waited for. -/
theorem activateWith_wait (run : RunSync H) (t : Trigger) (c : Context H) (mode : Mode) :
    (activateWith run t c mode >>= fun h => if mode = .sync then do let _ ← Run.ofAct (wait h) else pure ()) =
      get >>= fun s => bif s.world.accepting then
          toRun (isCooling t c) >>= fun cooling => bif cooling then toRun (newActivation .cancelled) >>= fun _ => pure ()
            else toRun (newActivation .created) >>= fun id =>
              match mode with
              | .sync => run ⟨id, t, c, .sync⟩ >>= answer >>= fun _ => pure ()
              | .async => enqueue ⟨id, t, c, .async⟩
        else Run.fail .shuttingDown := by
  unfold activateWith
  rw [bind_assoc]
  refine bind_congr fun s => ?_
  cases s.world.accepting with
  | false => rfl
  | true =>
    show ((toRun (isCooling t c) >>= _) >>= _) = _
    rw [bind_assoc]
    refine bind_congr fun cooling => ?_
    cases cooling with
    | true => cases mode <;> rfl
    | false =>
      show ((toRun (newActivation .created) >>= _) >>= _) = _
      rw [bind_assoc]
      refine bind_congr fun id => ?_
      cases mode with
      | sync =>
        show ((run _ >>= _) >>= _) = _
        rw [bind_assoc, bind_assoc]
        rfl
      | async =>
        show ((enqueue _ >>= _) >>= _) = _
        rw [bind_assoc]
        exact bind_pure_unit

/-- A trigger of a name is started alike, if what is waited for runs alike. -/
theorem runsAlike_activateWith {c : Context H} {S : String → Prop} {run₁ run₂ : RunSync H} (hsync : SyncAlike e₀ c S run₁ run₂)
    {n : String} {t : Trigger} (hn : S n) (ht : e₀.named[n]? = some t) (hsettled : Settled e₀ c t) (mode : Mode) :
    RunsAlike e₀
      (activateWith run₁ t c mode >>= fun h => if mode = .sync then do let _ ← Run.ofAct (wait h) else pure ())
      (activateWith run₂ t c mode >>= fun h => if mode = .sync then do let _ ← Run.ofAct (wait h) else pure ()) := by
  rw [activateWith_wait, activateWith_wait]
  refine runsAlike_get fun s₁ s₂ hs => ?_
  rw [hs.world.first.accepting, hs.world.second.accepting]
  cases e₀.accepting with
  | false => exact .stop _
  | true =>
    refine (runsAlike_isCooling hsettled).bind fun cooling => ?_
    cases cooling with
    | true => exact runsAlike_newActivation _ fun _ _ => .pure ()
    | false =>
      refine runsAlike_newActivation _ fun i j => ?_
      cases mode with
      | sync => exact (hsync n t i j hn ht).bind fun _ => .pure ()
      | async => exact runsAlike_enqueue t c .async i j

/-- So is one that a script calls, by any of the names that it may call. -/
theorem runsAlike_call {c : Context H} {S : String → Prop} {run₁ run₂ : RunSync H} (h : Steady e₀ c S)
    (hsync : SyncAlike e₀ c S run₁ run₂) {args : List Value} (hargs : ∀ n mode, callRequest args = .ok (n, mode) → S n) :
    RunsAlike e₀ (call run₁ c args) (call run₂ c args) := by
  unfold call
  cases hrequest : callRequest args with
  | error f => exact .stop _
  | ok request =>
    obtain ⟨n, mode⟩ := request
    refine runsAlike_get fun s₁ s₂ hs => ?_
    rw [hs.world.first.named, hs.world.second.named]
    cases ht : e₀.named[n]? with
    | none => exact .stop _
    | some t =>
      have hn := hargs n mode hrequest
      exact runsAlike_activateWith hsync hn ht (h.settled n t hn ht) mode

/-! ## What a script finds around it -/

/-- The caller that host code is told about on the main thread. -/
def callerAt (a : Activation H) (depth : Nat) : Caller :=
  ⟨a.context.id, a.context.event, a.context.actor, a.mode, true, depth⟩

/-- What the script of an activation finds around it that runs on the main thread inside `depth - 1` others, without a
deadline. -/
def hostOnMain (fuel levels depth : Nat) (a : Activation H) : Host (Engine H) :=
  triggerSurroundings a (callerAt a depth) none workHere fun b => spread (runOnMain fuel levels depth b)

section

variable {fuel levels depth : Nat} {a : Activation H}

/-- Without a hook no node is vetoed. -/
theorem hostOnMain_veto (hhook : a.context.hook = .idle H) (node : Node) :
    (hostOnMain fuel levels depth a).veto node = pure false := by
  show onReach (a.context.hook.onNode _ node) = _
  rw [hhook]
  rfl

/-- Without a hook and a deadline entering a node asks for the token and no more. -/
theorem hostOnMain_enter (hhook : a.context.hook = .idle H) (node : Node) :
    (hostOnMain fuel levels depth a).enter node =
      onlyReach fun s => (if s.world.isCancelled a.context.id then .error .cancelled else .ok (), s) := by
  funext s
  unfold Host.enter onlyReach
  rw [hostOnMain_veto hhook, Run.get_bind]
  by_cases hcancelled : (hostOnMain fuel levels depth a).isCancelled s.world = true
  · have hreach : s.world.reach.isCancelled a.context.id = true := hcancelled
    rw [if_pos hcancelled]
    simp only [hreach]
    rfl
  · have hreach : ¬s.world.reach.isCancelled a.context.id = true := hcancelled
    rw [if_neg hcancelled]
    simp only [hreach]
    rfl

/-- A name is a local variable or, if there is none, a global one, or `null`. -/
theorem hostOnMain_readName (n : String) :
    (hostOnMain fuel levels depth a).readName n =
      onlyReach fun s => (.ok (s.locals[n]?.getD ((s.world.globals.get? n).getD .null)), s) := by
  funext s
  unfold Host.readName onlyReach
  rw [Run.get_bind]
  cases hlocal : s.locals[n]? with
  | some v => simp only [hlocal]; rfl
  | none => simp only [hlocal]; rfl

/-- A global variable that is not set is `null`. -/
theorem hostOnMain_readGlobal (key : String) :
    (hostOnMain fuel levels depth a).readGlobal key =
      onlyReach fun s => (.ok ((s.world.globals.get? key).getD .null), s) := rfl

/-- Without a hook a placeholder other than that of the cooldown is looked up among those that are registered. -/
theorem hostOnMain_resolve (hhook : a.context.hook = .idle H) {n : String} (hn : asciiLower n ≠ "cooldown")
    (args : List Value) :
    (hostOnMain fuel levels depth a).resolve n args = get >>= fun s =>
      match s.world.placeholders.get? n with
      | some placeholder => Run.ofAct (perform workHere (placeholder (callerAt a depth) args))
      | none => pure .null := by
  have hoffer : (hostOnMain fuel levels depth a).offerPlaceholder n args = pure none := by
    show (onReach (a.context.hook.onPlaceholder _ n args) >>= _) = _
    rw [hhook]
    show reservedPlaceholder a _ n = _
    unfold reservedPlaceholder
    rw [if_neg hn]
  unfold Host.resolve
  rw [hoffer]
  funext s
  have hplaceholder : (hostOnMain fuel levels depth a).placeholder? n s.world =
      (s.world.placeholders.get? n).map fun p args => perform workHere (p (callerAt a depth) args) := rfl
  rw [Run.ofAct_pure, pure_bind]
  dsimp only
  rw [Run.get_bind, Run.get_bind, hplaceholder]
  cases s.world.placeholders.get? n with
  | some placeholder => rfl
  | none => rfl

/-- Without a hook a command is one of the engine itself or one that is registered. -/
theorem hostOnMain_runCommand (hhook : a.context.hook = .idle H) (n : String) (args : List Value) :
    (hostOnMain fuel levels depth a).runCommand n args =
      (reservedCommand (fun b => spread (runOnMain fuel levels depth b)) a (callerAt a depth) n args >>= fun done =>
        if done then pure ()
        else get >>= fun s =>
          match s.world.commands.get? n with
          | some command => Run.ofAct (perform workHere (command (callerAt a depth) args))
          | none => Run.fail (.unknownCommand (Text.upper n))) := by
  have hoffer : (hostOnMain fuel levels depth a).offerCommand n args =
      reservedCommand (fun b => spread (runOnMain fuel levels depth b)) a (callerAt a depth) n args := by
    show (offerToHook (a.context.hook.onCommand _ n args) >>= _) = _
    rw [hhook]
    rfl
  unfold Host.runCommand
  rw [hoffer]
  refine bind_congr fun done => ?_
  cases done with
  | true => rfl
  | false =>
    funext s
    have hcommand : (hostOnMain fuel levels depth a).command? n s.world =
        (s.world.commands.get? n).map fun c args => perform workHere (c (callerAt a depth) args) := rfl
    rw [if_neg Bool.false_ne_true, if_neg Bool.false_ne_true, Run.get_bind, Run.get_bind, hcommand]
    cases s.world.commands.get? n with
    | some command => rfl
    | none => rfl

end

/-! ## What it does to engines that are alike -/

/-- The event is cancelled alike. -/
theorem runsAlike_cancelEventFor (caller : Caller) :
    RunsAlike e₀ (Run.ofAct (cancelEventFor caller)) (Run.ofAct (cancelEventFor caller)) := by
  unfold cancelEventFor
  split
  · exact .stop _
  · split
    · intro s₁ s₂ hs
      exact .inr ⟨rfl, hs.locals, hs.world.cancelEvent caller.context⟩
    · exact .stop _

/-- The arguments that a call comes to begin with the literal that it is written with. -/
theorem evaluateAll_literal {W : Type} {host : Host W} {enter : Node → Run W Unit} {p : Position} {l : Literal}
    {rest : List Expression} {s s' : Scope W} {vs : List Value}
    (h : host.evaluateAll enter (.literal p l :: rest) s = (.ok vs, s')) : vs.head? = some l.value := by
  unfold Host.evaluateAll Host.evaluate at h
  rw [bind_assoc] at h
  rcases Run.cases (enter (.expression (.literal p l))) s with ⟨_, s₁, henter⟩ | ⟨reason, s₁, henter⟩
  · rw [Run.bind_ok henter, pure_bind] at h
    rcases Run.cases (host.evaluateAll enter rest) s₁ with ⟨values, s₂, hrest⟩ | ⟨reason, s₂, hrest⟩
    · rw [Run.bind_ok hrest] at h
      cases h
      rfl
    · rw [Run.bind_error hrest] at h
      cases h
  · rw [Run.bind_error henter] at h
    cases h

/-- What a call asks for is named by its first argument. -/
theorem callRequest_head {args : List Value} {n : String} {mode : Mode} (h : callRequest args = .ok (n, mode)) :
    args.head? = some (.string n) := by
  unfold callRequest at h
  split at h <;> cases h <;> rfl

/-- What a call comes to ask for is among the names that it may ask for. -/
theorem CallsWithin.mem {S : String → Prop} {args : List Expression} (h : CallsWithin S args) {W : Type} {host : Host W}
    {enter : Node → Run W Unit} {s s' : Scope W} {vs : List Value} (hvs : host.evaluateAll enter args s = (.ok vs, s'))
    {n : String} {mode : Mode} (hrequest : callRequest vs = .ok (n, mode)) : S n := by
  have hhead := callRequest_head hrequest
  match args, h, hvs with
  | [], _, hvs =>
    unfold Host.evaluateAll at hvs
    cases hvs
    cases hhead
  | .literal p l :: rest, h, hvs =>
    rw [evaluateAll_literal hvs] at hhead
    exact h n (Option.some.inj hhead)
  | .name .. :: _, h, _ => exact h n
  | .globalName .. :: _, h, _ => exact h n
  | .globalAt .. :: _, h, _ => exact h n
  | .binary .. :: _, h, _ => exact h n
  | .unary .. :: _, h, _ => exact h n
  | .ternary .. :: _, h, _ => exact h n
  | .placeholder .. :: _, h, _ => exact h n

/-- The commands of the engine itself run alike, but for cooldowns. -/
theorem runsAlike_reservedCommand {c : Context H} {S : String → Prop} {run₁ run₂ : RunSync H} (h : Steady e₀ c S)
    (hsync : SyncAlike e₀ c S run₁ run₂) {i j d₁ d₂ : Nat} {t₁ t₂ : Trigger} {n : String} {args : List Value}
    (hcooldown : Text.upper n ≠ "COOLDOWN")
    (hcall : Text.upper n = "CALL" → ∀ m mode, callRequest args = .ok (m, mode) → S m) :
    RunsAlike e₀ (reservedCommand run₁ ⟨i, t₁, c, .sync⟩ (callerAt ⟨i, t₁, c, .sync⟩ d₁) n args)
      (reservedCommand run₂ ⟨j, t₂, c, .sync⟩ (callerAt ⟨j, t₂, c, .sync⟩ d₂) n args) := by
  unfold reservedCommand
  dsimp only
  split
  next hupper => exact (runsAlike_call h hsync (hcall hupper)).bind fun _ => .pure _
  split
  · exact (runsAlike_cancelEventFor (callerAt ⟨j, t₂, c, .sync⟩ d₂)).bind fun _ => .pure _
  · exact .pure _

/-- All in all, scripts are linked on the main thread whatever their activation and the number of levels around them. -/
theorem linked_hostOnMain {c : Context H} {S : String → Prop} (h : Steady e₀ c S) {fuel l₁ l₂ d₁ d₂ : Nat}
    (hsync : SyncAlike e₀ c S (fun b => spread (runOnMain fuel l₁ d₁ b)) fun b => spread (runOnMain fuel l₂ d₂ b))
    (i j : Nat) (t₁ t₂ : Trigger) :
    Linked (alikeLink e₀) (hostOnMain fuel l₁ d₁ ⟨i, t₁, c, .sync⟩) (hostOnMain fuel l₁ d₁ ⟨i, t₁, c, .sync⟩).enter
      (hostOnMain fuel l₂ d₂ ⟨j, t₂, c, .sync⟩) (hostOnMain fuel l₂ d₂ ⟨j, t₂, c, .sync⟩).enter (QuietNode S) where
  enter node _ := by
    rw [hostOnMain_enter h.hook, hostOnMain_enter h.hook]
    exact runsAlike_onlyReach _
  readName n _ := by
    rw [hostOnMain_readName, hostOnMain_readName]
    exact runsAlike_onlyReach _
  readGlobal key _ := by
    rw [hostOnMain_readGlobal, hostOnMain_readGlobal]
    exact runsAlike_onlyReach _
  bind n v _ := runsAlike_onlyReach (Host.bind n v)
  writeGlobal key v _ := runsAlike_writeGlobal key v
  resolve p n args values hquiet := by
    rw [hostOnMain_resolve h.hook hquiet, hostOnMain_resolve h.hook hquiet]
    refine runsAlike_get fun s₁ s₂ hs => ?_
    rw [hs.world.first.placeholders, hs.world.second.placeholders]
    cases hplaceholder : e₀.placeholders.get? n with
    | none => exact .pure _
    | some placeholder =>
      have hdepth : placeholder (callerAt ⟨i, t₁, c, .sync⟩ d₁) = placeholder (callerAt ⟨j, t₂, c, .sync⟩ d₂) :=
        h.placeholder n placeholder hplaceholder (callerAt ⟨j, t₂, c, .sync⟩ d₂) d₁
      simp only [hdepth]
      exact runsAlike_perform _
  runCommand p n args hquiet hargs := by
    obtain ⟨hcooldown, hcall⟩ := hquiet
    refine RunsAlike.bind_of hargs fun vs ⟨s, s', hvs⟩ => ?_
    rw [hostOnMain_runCommand h.hook, hostOnMain_runCommand h.hook]
    refine (runsAlike_reservedCommand h hsync hcooldown fun hupper m mode hrequest => ?_).bind fun done => ?_
    · exact (hcall hupper).mem hvs hrequest
    · cases done with
      | true => exact .pure _
      | false =>
        refine runsAlike_get fun s₁ s₂ hs => ?_
        rw [hs.world.first.commands, hs.world.second.commands]
        cases hcommand : e₀.commands.get? n with
        | none => exact .stop _
        | some command =>
          have hdepth : command (callerAt ⟨i, t₁, c, .sync⟩ d₁) = command (callerAt ⟨j, t₂, c, .sync⟩ d₂) :=
            h.command n command hcommand (callerAt ⟨j, t₂, c, .sync⟩ d₂) d₁
          simp only [hdepth]
          exact runsAlike_perform _

end EventScript.Engine
