import Mathlib.Control.Monad.Basic
import EventScript.Proofs.Threads.Stations
import EventScript.Proofs.Threads.Ticks

/-!
# What a cooldown stops

A cooldown is looked at where an activation is started, and nowhere else. Whoever starts a trigger for an actor on whom a cooldown
of that trigger is in force can only be skipped (`System.Step.of_asking`), and the number that the skipped activation has never
runs. Whatever does run was made while no cooldown was in force (`System.Chronicle.admitted`). Both together are
`System.Chronicle.cooldown_gates`. An activation that has been made is not asked again: it runs even if a cooldown has been started
before it comes to its turn (`Engine.cooldown_gates_false`).
-/

namespace EventScript

variable {H : Type}

/-- Where there is an actor, the clock is read, and the table of the trigger says the rest. -/
theorem Engine.isCooling_of_actor {c : Context H} {actor : Actor} (h : c.actor = some actor) (t : Trigger) (e : Engine H) :
    isCooling t c e = ((e.cooldownsOf t.id).isCooling e.clock.now actor.id, { e with clock := e.clock.read.2 }) := by
  unfold isCooling
  rw [h]
  rfl

namespace System

variable {s s' : System H} {θ : Thread} {σ : List (Level H)} {history events : List CooldownEvent}

/-! ## Who is made -/

theorem Chronicle.isCooling (h : Chronicle s history) {c : Context H} {actor : Actor} (hactor : c.actor = some actor)
    (t : Trigger) :
    (Engine.isCooling t c s.engine).1 = true ↔ CoolsDown history t.id actor.id s.engine.clock.now := by
  rw [Engine.isCooling_of_actor hactor]
  exact h.agrees t.id actor.id s.engine.clock.now (Nat.le_refl _)

/-- The activation was made at a moment at which no cooldown of its trigger was in force on its actor. -/
def Admitted (s : System H) (history : List CooldownEvent) (a : Activation H) : Prop :=
  ∃ (s₀ s₁ : System H) (past made recent : List CooldownEvent) (φ : Thread), Chronicle s₀ past ∧ Tick s₀ made s₁ ∧
    Ticks s₁ recent s ∧ history = recent ++ (made ++ past) ∧ s₀.Makes s₁ φ a ∧
    ∀ actor, a.context.actor = some actor → ¬CoolsDown past a.trigger.id actor.id s₀.engine.clock.now

theorem Admitted.tick {a : Activation H} (h : s.Admitted history a) (htick : Tick s events s') :
    s'.Admitted (events ++ history) a := by
  obtain ⟨s₀, s₁, past, made, recent, φ, hpast, hmade, hrecent, rfl, hrest⟩ := h
  exact ⟨s₀, s₁, past, made, events ++ recent, φ, hpast, hmade, hrecent.tail htick, (List.append_assoc ..).symm, hrest⟩

theorem Chronicle.admitted_of_makes (h : Chronicle s history) (htick : Tick s events s') {a : Activation H}
    (hmakes : s.Makes s' θ a) : s'.Admitted (events ++ history) a := by
  refine ⟨s, s', history, events, [], θ, h, htick, .refl s', rfl, hmakes, fun actor hactor hcools => ?_⟩
  have hcooling := (h.isCooling hactor a.trigger).mpr hcools
  rw [hmakes.passed] at hcooling
  cases hcooling

/-- Every activation was admitted, wherever it is now. -/
theorem Chronicle.admitted (h : Chronicle s history) : s.Each fun _ => s.Admitted history := by
  induction h with
  | new => exact each_new ..
  | tick hbefore htick ih =>
    exact htick.step.each (Station.goesOn_of_activation _) (fun _ _ hmakes => hbefore.admitted_of_makes htick hmakes)
      (ih.imp fun _ _ hadmitted => hadmitted.tick htick)

/-! ## Who is skipped -/

/-- The thread goes on without the activation that it asked for, which is reported as cancelled. -/
def skipped (s : System H) (θ : Thread) (duty : Duty H) (vars : Variables) (σ : List (Level H)) : System H :=
  { s with
    engine := { s.engine with
      clock := s.engine.clock.read.2
      phases := s.engine.phases.insert s.engine.nextActivation .cancelled
      nextActivation := s.engine.nextActivation + 1 }
    stack := Function.update s.stack θ (⟨duty, vars, .idle⟩ :: σ)
    handles := ⟨s.engine.nextActivation, some (.ok .cancelled)⟩ :: s.handles }

section

variable {duty : Duty H} {vars : Variables} {t : Trigger} {c : Context H} {mode : Mode} {actor : Actor}

theorem Step.skipped (hθ : s.stack θ = ⟨duty, vars, .asking t c mode⟩ :: σ) (hactor : c.actor = some actor)
    (hcooling : (Engine.isCooling t c s.engine).1 = true) : Step s (s.skipped θ duty vars σ) := by
  have hskip := Step.skip hθ hcooling
  rw [Engine.isCooling_of_actor hactor] at hskip
  exact hskip

/-- The only step of a thread that starts a trigger while the actor is cooling down. -/
theorem Step.of_asking (hstep : Step s s') (hθ : s.stack θ = ⟨duty, vars, .asking t c mode⟩ :: σ) (hactor : c.actor = some actor)
    (hcooling : (Engine.isCooling t c s.engine).1 = true) : s'.stack θ = s.stack θ ∨ s' = s.skipped θ duty vars σ := by
  -- A step of another thread leaves this one as it is.
  have hstays {φ : Thread} (hφ : θ ≠ φ) {levels : List (Level H)} (hstack : s'.stack = Function.update s.stack φ levels) :
      s'.stack θ = s.stack θ := by
    rw [hstack, Function.update_of_ne hφ]
  cases hstep with
  | act | cancelEvent | handOver | close | closeBridge | closeWorkers => exact .inl rfl
  | hostEnters hadmits | runPending _ hadmits => exact .inl (hstays (ne_of_admitsHost hθ nofun hadmits) rfl)
  | takeTask _ hφ | takeJob _ hφ => exact .inl (hstays (ne_of_resting hθ hφ) rfl)
  | assign hφ | hostLeaves hφ | ask _ _ _ hφ | stay hφ | cross hφ | crossRefused hφ | queue hφ | queueRefused hφ | enter hφ
  | nextActivation hφ | nextWork hφ | batchEnds hφ | answered hφ | faulted hφ | timedOut hφ =>
    exact .inl (hstays (ne_of_errand hθ hφ nofun) rfl)
  | refuse hφ => exact .inl (hstays (ne_of_errand hθ hφ nofun) (endsIn_deliver ..).stack)
  | finish v hφ => exact .inl (hstays (ne_of_errand hθ hφ nofun) (endsIn_deliver ..).stack)
  | panic p hφ => exact .inl (hstays (ne_of_errand hθ hφ nofun) (endsIn_unwind ..).stack)
  | @skip φ _ _ _ _ _ _ hφ =>
    by_cases hφθ : θ = φ
    · subst hφθ
      cases hφ.symm.trans hθ
      rw [Engine.isCooling_of_actor hactor]
      exact .inr rfl
    · exact .inl (hstays hφθ rfl)
  | @make φ _ _ _ _ _ _ hφ hpasses =>
    by_cases hφθ : θ = φ
    · subst hφθ
      cases hφ.symm.trans hθ
      cases hcooling.symm.trans hpasses
    · exact .inl (hstays hφθ rfl)

end

/-! ## Numbers -/

theorem Step.nextActivation_le (hstep : Step s s') : s.engine.nextActivation ≤ s'.engine.nextActivation := by
  have hends {s₁ s₂ : System H} {θ : Thread} {levels : List (Level H)} (hends : s₁.EndsIn θ levels s₂) :
      s₂.engine.nextActivation = s₁.engine.nextActivation := by
    obtain ⟨_, he⟩ := hends.affairs
    exact congrArg Affairs.nextActivation he
  have hsame (hnext : s'.engine.nextActivation = s.engine.nextActivation) :
      s.engine.nextActivation ≤ s'.engine.nextActivation := Nat.le_of_eq hnext.symm
  cases hstep with
  | act he => exact hsame (congrArg Affairs.nextActivation he)
  | @cancelEvent θ a outside =>
    obtain ⟨events, he⟩ := Engine.affairs_cancelEventFor (a.callerOn θ outside) s.engine
    exact hsame (congrArg Affairs.nextActivation he)
  | @skip _ _ _ _ t c | @make _ _ _ _ t c =>
    have hnext := congrArg Affairs.nextActivation (Engine.affairs_isCooling t c s.engine)
    exact Nat.le_succ_of_le (Nat.le_of_eq hnext.symm)
  | refuse | finish => exact hsame ((hends (endsIn_deliver ..)).trans rfl)
  | panic => exact hsame ((hends (endsIn_unwind ..)).trans rfl)
  | _ => exact Nat.le_refl _

/-- Numbers are given out in order. -/
theorem Reachable.numbered (h : Reachable s) : s.Each fun _ a => a.id < s.engine.nextActivation := by
  induction h with
  | new => exact each_new ..
  | @step s s' _ hstep ih =>
    have hmade (φ : Thread) (a : Activation H) (hmakes : s.Makes s' φ a) : a.id < s'.engine.nextActivation := by
      rw [hmakes.next]
      exact Nat.lt_succ_self _
    exact hstep.each (Station.goesOn_of_activation _) hmade
      (ih.imp fun _ _ hid => Nat.lt_of_lt_of_le hid hstep.nextActivation_le)

/-- No activation ever has a number that was given out and that none has. -/
theorem Steps.absent (hsteps : Steps s s') {n : Nat} (hgiven : n < s.engine.nextActivation)
    (h : s.Each fun _ a => a.id ≠ n) : n < s'.engine.nextActivation ∧ s'.Each fun _ a => a.id ≠ n := by
  induction hsteps with
  | refl => exact ⟨hgiven, h⟩
  | @tail s₁ s₂ _ hstep ih =>
    have hmade (φ : Thread) (a : Activation H) (hmakes : s₁.Makes s₂ φ a) : a.id ≠ n := by
      rw [hmakes.number]
      exact Nat.ne_of_gt ih.1
    exact ⟨Nat.lt_of_lt_of_le ih.1 hstep.nextActivation_le, hstep.each (Station.goesOn_of_activation _) hmade ih.2⟩

/-- The number of an activation that is skipped is that of no other one. -/
theorem Reachable.skipped_absent (h : Reachable s) {duty : Duty H} {vars : Variables} {errand : Errand H}
    (hθ : s.stack θ = ⟨duty, vars, errand⟩ :: σ) (hsteps : Steps (s.skipped θ duty vars σ) s') {a : Activation H} {φ : Thread}
    {outside : Nat} (hrun : s'.Runs φ a outside) : a.id ≠ s.engine.nextActivation := by
  have hfresh : s.Each fun _ a => a.id ≠ s.engine.nextActivation := h.numbered.imp fun _ _ hid => Nat.ne_of_lt hid
  have hskipped : (s.skipped θ duty vars σ).Each fun _ a => a.id ≠ s.engine.nextActivation :=
    (hfresh.rest hθ vars).congr rfl rfl rfl
  exact (hsteps.absent (Nat.lt_succ_self _) hskipped).2.runs hrun

/-! ## The whole of it -/

/-- Whatever runs was made while no cooldown of its trigger was in force on its actor. A thread that starts a trigger while one is
in force can only skip it: the handle says that the activation was cancelled, the clock has been read, and nothing else has
changed, and an activation of this number never runs. -/
theorem Chronicle.cooldown_gates (h : Chronicle s history) :
    (∀ θ a outside actor, s.Runs θ a outside → a.context.actor = some actor →
      ∃ (s₀ s₁ : System H) (past made recent : List CooldownEvent) (φ : Thread), Chronicle s₀ past ∧ Tick s₀ made s₁ ∧
        Ticks s₁ recent s ∧ history = recent ++ (made ++ past) ∧ s₀.Makes s₁ φ a ∧
        ∀ c : Cooldown, c.trigger = a.trigger.id → c.actor = actor.id → ¬c.InForce past s₀.engine.clock.now) ∧
    ∀ θ duty vars t ctx mode σ actor (c : Cooldown), s.stack θ = ⟨duty, vars, .asking t ctx mode⟩ :: σ →
      ctx.actor = some actor → c.trigger = t.id → c.actor = actor.id → c.InForce history s.engine.clock.now →
      Tick s [] (s.skipped θ duty vars σ) ∧
      (∀ events s', Tick s events s' → s'.stack θ = s.stack θ ∨ s' = s.skipped θ duty vars σ) ∧
      ∀ later s' φ a outside, Ticks (s.skipped θ duty vars σ) later s' → s'.Runs φ a outside →
        a.id ≠ s.engine.nextActivation := by
  refine ⟨fun θ a outside actor hrun hactor => ?_, fun θ duty vars t ctx mode σ actor c hθ hactor htrigger hc hforce => ?_⟩
  · obtain ⟨s₀, s₁, past, made, recent, φ, hpast, hmade, hrecent, hhistory, hmakes, hfree⟩ := h.admitted.runs hrun
    refine ⟨s₀, s₁, past, made, recent, φ, hpast, hmade, hrecent, hhistory, hmakes, fun c htrigger hc hforce => ?_⟩
    exact hfree actor hactor ⟨c, htrigger, hc, hforce⟩
  · have hcooling := (h.isCooling hactor t).mpr ⟨c, htrigger, hc, hforce⟩
    have hskip := Step.skipped hθ hactor hcooling
    refine ⟨.quiet hskip ⟨rfl, s.engine.clock.now_le_now_read⟩, fun events s' htick => ?_, fun later s' φ a outside hticks hrun => ?_⟩
    · exact htick.step.of_asking hθ hactor hcooling
    · exact h.reachable.skipped_absent hθ hticks.steps hrun

/-- A script puts its actor on a cooldown of sixty seconds. It was made while there was none, and when the host starts the trigger
once more, it is told that the activation was cancelled. -/
theorem cooldown_gates_twice :
    let t : Trigger := ⟨0, "reward", "#COOLDOWN(60)",
      ⟨[.command ⟨1, 1⟩ "COOLDOWN" [.literal ⟨1, 1⟩ (.int 60)]]⟩, .sync⟩
    let ctx : Context Unit := ⟨0, ⟨"click", false⟩, some ⟨"steve", none⟩, .idle Unit⟩
    let cooldown : Cooldown := ⟨0, "steve", 1, .ofSeconds 60, some 0⟩
    ∃ s s' : System Unit, Chronicle s [] ∧ s.Runs .main ⟨0, t, ctx, .sync⟩ 0 ∧ Ticks s [.started cooldown] s' ∧
      s'.stack .main = [⟨.host, ∅, .asking t ctx .sync⟩] ∧
      cooldown.InForce [.started cooldown] s'.engine.clock.now ∧
      (∃ (s₀ s₁ : System Unit) (past made recent : List CooldownEvent) (φ : Thread), Chronicle s₀ past ∧ Tick s₀ made s₁ ∧
        Ticks s₁ recent s ∧ [] = recent ++ (made ++ past) ∧ s₀.Makes s₁ φ ⟨0, t, ctx, .sync⟩ ∧
        ∀ c : Cooldown, c.trigger = 0 → c.actor = "steve" → ¬c.InForce past s₀.engine.clock.now) ∧
      ∀ events s'', Tick s' events s'' → s''.stack .main ≠ s'.stack .main → ⟨1, some (.ok .cancelled)⟩ ∈ s''.handles := by
  intro t ctx cooldown
  let a : Activation Unit := ⟨0, t, ctx, .sync⟩
  obtain ⟨s, hs, hmain, hclock, haccepting, hnext⟩ : ∃ s : System Unit, Chronicle s [] ∧
      s.stack .main = [⟨.script a 0, ∅, .idle⟩, ⟨.host, ∅, .inside⟩] ∧ s.engine.clock.now = 1 ∧ s.engine.accepting ∧
      s.engine.nextActivation = 1 := by
    have h₀ : Chronicle _ [] := .new {} .attached true () (.memory ∅) .empty (.steady 1)
    have h₁ := h₀.tick (.quiet (@Step.hostEnters _ _ .main ∅ rfl) (.same rfl rfl))
    have h₂ := h₁.tick (.quiet (@Step.ask _ _ .main .host ∅ [] t ctx .sync rfl trivial rfl) (.same rfl rfl))
    have h₃ := h₂.tick (.quiet (@Step.make _ _ .main .host ∅ [] t ctx .sync rfl rfl) ⟨rfl, Nat.zero_le _⟩)
    have h₄ := h₃.tick (.quiet (@Step.stay _ _ .host ∅ a [] rfl rfl) (.same rfl rfl))
    have h₅ := h₄.tick (.quiet (@Step.enter _ _ .main .host ∅ a [] rfl (by decide)) (.same rfl rfl))
    exact ⟨_, h₅, rfl, rfl, rfl, rfl⟩
  have hruns : s.Runs .main a 0 := ⟨_, hmain ▸ List.mem_cons_self, rfl⟩
  obtain ⟨s₁, hcool, hmain₁, hclock₁, haccepting₁, hnext₁⟩ : ∃ s₁, Tick s [.started cooldown] s₁ ∧
      s₁.stack .main = [⟨.script a 0, ∅, .idle⟩, ⟨.host, ∅, .inside⟩] ∧ s₁.engine.clock.now = 1 ∧ s₁.engine.accepting ∧
      s₁.engine.nextActivation = 1 :=
    ⟨_, .cool (.ofSeconds 60) hmain rfl (Nat.le_of_eq hclock.symm), hmain, hclock, haccepting, hnext⟩
  obtain ⟨s', hticks, hmain', hclock', hnext'⟩ : ∃ s', Ticks s [.started cooldown] s' ∧
      s'.stack .main = [⟨.host, ∅, .asking t ctx .sync⟩] ∧ s'.engine.clock.now = 1 ∧ s'.engine.nextActivation = 1 := by
    have hended := ((Ticks.refl s).tail hcool).tail (.quiet (.finish (.ok .completed) hmain₁) (.same rfl rfl))
    have hasked := hended.tail (.quiet (.ask t ctx .sync (stack_put_self ..) trivial haccepting₁) (.same rfl rfl))
    exact ⟨_, hasked, stack_put_self .., hclock₁, hnext₁⟩
  have hforce : cooldown.InForce [.started cooldown] s'.engine.clock.now := by
    rw [hclock']
    exact Cooldown.inForce_cons.mpr (.inl ⟨rfl, by decide⟩)
  have hskips := (hs.ticks hticks).cooldown_gates.2 .main .host ∅ t ctx .sync [] _ cooldown hmain' rfl rfl rfl hforce
  refine ⟨s, s', hs, hruns, hticks, hmain', hforce, hs.cooldown_gates.1 .main a 0 _ hruns rfl, fun events s'' htick hother => ?_⟩
  obtain hsame | rfl := hskips.2.1 events s'' htick
  · exact absurd hsame hother
  · rw [← hnext']
    exact List.mem_cons_self

end System

/-! ## Where it does not hold -/

/-- Two activations of a trigger wait before the worker for the same actor. The first one starts a cooldown of sixty seconds; it is
in force until after the second one has run, which enters its node and completes. A cooldown that has been replaced by a shorter
one holds nobody up either: within the sixty seconds of the first, the next activation completes. -/
theorem Engine.cooldown_gates_false :
    let p : Position := ⟨1, 1⟩
    let cooldown (seconds : Int64) : Statement := .command p "COOLDOWN" [.literal p (.int seconds)]
    let t : Trigger := ⟨0, "reward", "#COOLDOWN(60)", ⟨[cooldown 60]⟩, .async⟩
    let t' : Trigger := ⟨1, "reward", "#COOLDOWN(60); #COOLDOWN(1)", ⟨[cooldown 60, cooldown 1]⟩, .sync⟩
    let hook : Hook Nat := { Hook.idle Nat with
      onNode := fun _ _ r => (.ok false, { r with host := r.host + 1 }) }
    let c : Context Nat := ⟨0, ⟨"click", false⟩, some ⟨"steve", none⟩, hook⟩
    let e : Engine Nat := .new {} .attached true 0 (.memory ∅) .empty (.steady 1000000000)
    let queued := (fire 1 t c (fire 1 t c e).2).2
    let first := (drain 1 1 queued).2
    let second := (drain 1 1 first).2
    let replaced := (fire 1 t' c e).2
    (queued.workers.queue.map (·.activation.id) = [0, 1] ∧ first.phases[0]? = some .completed ∧
      (first.cooldownsOf 0).isCooling second.clock.now "steve" = true ∧ first.reach.host < second.reach.host ∧
      (wait ⟨1, none⟩ second).1 = .ok .completed) ∧
    replaced.clock.now < 60000000000 ∧ (fire 1 t' c replaced).1.toOption.map (·.verdict) = some (some (.ok .completed)) := by
  decide +kernel

end EventScript
