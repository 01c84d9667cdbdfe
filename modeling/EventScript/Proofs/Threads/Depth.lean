import EventScript.Proofs.Threads.Basic

/-!
# The depth of a thread

A thread counts the activations that it runs, each inside the one before. The count is kept apart from the levels of the thread,
and changes when a script is entered and when it ends, also where it ends in a panic. It is exact all the same and never above
the limit, and an activation that finds it at the limit is refused: `System.Reachable.depth_exact`.

What a step may do to the count and to the levels of one thread is said once (`Turn`), and kept is what every turn keeps
(`Turn.exact`).
-/

namespace EventScript

variable {H : Type}

/-- One if a script runs on the level, and none otherwise. -/
def Duty.scripts : Duty H → Nat
  | .script .. => 1
  | .host | .task | .job | .batch _ => 0

/-- How many scripts run on the levels. -/
def scripts : List (Level H) → Nat
  | [] => 0
  | l :: σ => l.duty.scripts + scripts σ

/-- A script that runs on the level was entered inside `n` others. -/
def Duty.Inside (n : Nat) : Duty H → Prop
  | .script _ outside => outside = n
  | .host | .task | .job | .batch _ => True

/-- Every script was entered inside as many others as are under it. -/
def Nested : List (Level H) → Prop
  | [] => True
  | l :: σ => l.duty.Inside (scripts σ) ∧ Nested σ

/-- What one step may do to the count of a thread and to its levels. -/
inductive Turn (limit : Nat) : Nat → List (Level H) → Nat → List (Level H) → Prop
  | stay (n : Nat) (σ : List (Level H)) : Turn limit n σ n σ
  /-- A level goes on with what it does, as long as it is not about to run an activation and none runs for it. -/
  | goOn {n duty vars errand σ} (vars' : Variables) (errand' : Errand H) : (∀ a, errand ≠ .entering a) → errand ≠ .inside →
      Turn limit n (⟨duty, vars, errand⟩ :: σ) n (⟨duty, vars', errand'⟩ :: σ)
  /-- A level comes that runs no script. -/
  | push {n l σ} : l.duty.scripts = 0 → Turn limit n σ n (l :: σ)
  /-- A level ends that runs no script. -/
  | pop {n l σ} : l.duty.scripts = 0 → Turn limit n (l :: σ) n σ
  /-- The next task of a batch comes. -/
  | next {n l t rest vars σ} : l.duty.scripts = 0 →
      Turn limit n (⟨.batch (t :: rest), vars, .idle⟩ :: σ) n (l :: ⟨.batch rest, vars, .idle⟩ :: σ)
  | enter {n duty vars a σ} : n < limit →
      Turn limit n (⟨duty, vars, .entering a⟩ :: σ) (n + 1) (⟨.script a n, vars, .idle⟩ :: ⟨duty, ∅, .inside⟩ :: σ)
  | refuse {n duty vars a σ} : limit ≤ n → Turn limit n (⟨duty, vars, .entering a⟩ :: σ) n (System.goneOn duty vars σ)
  /-- A script ends, and the count is what it was when the script was entered. -/
  | leave {n a outside reached duty vars σ} (vars' : Variables) :
      Turn limit n (⟨.script a outside, reached, .idle⟩ :: ⟨duty, vars, .inside⟩ :: σ) outside (System.goneOn duty vars' σ)

/-- The count of a thread is that of its scripts, each of which knows its own place, and is not above the limit. -/
structure Exact (limit n : Nat) (σ : List (Level H)) : Prop where
  count : n = scripts σ
  nested : Nested σ
  bounded : n ≤ limit

/-- The scripts on a stack are those of its uppermost level and those of the levels below. -/
theorem scripts_cons (l : Level H) (σ : List (Level H)) : scripts (l :: σ) = l.duty.scripts + scripts σ := rfl

/-- A duty that is no script may be anywhere. -/
theorem Duty.inside_of_scripts {duty : Duty H} (h : duty.scripts = 0) (n : Nat) : duty.Inside n := by
  cases duty with
  | script => cases h
  | host | task | job | batch => trivial

/-- What goes on where a script ended runs as many scripts as before. -/
theorem scripts_goneOn (duty : Duty H) (vars : Variables) (σ : List (Level H)) :
    scripts (System.goneOn duty vars σ) = duty.scripts + scripts σ := by
  cases duty with
  | task | job => exact (Nat.zero_add _).symm
  | host | script | batch => exact scripts_cons _ σ

/-- A level that goes on leaves the levels nested. -/
theorem nested_goneOn {duty : Duty H} {σ : List (Level H)} (hduty : duty.Inside (scripts σ)) (hσ : Nested σ) (vars : Variables) :
    Nested (System.goneOn duty vars σ) := by
  cases duty with
  | task | job => exact hσ
  | host | script | batch => exact ⟨hduty, hσ⟩

/-- A turn keeps the depth exact. -/
theorem Turn.exact {limit n n' : Nat} {σ σ' : List (Level H)} (hturn : Turn limit n σ n' σ') (h : Exact limit n σ) :
    Exact limit n' σ' := by
  obtain ⟨hcount, hnested, hbounded⟩ := h
  cases hturn with
  | stay => exact ⟨hcount, hnested, hbounded⟩
  | goOn vars' errand' => exact ⟨hcount, hnested, hbounded⟩
  | push hl => exact ⟨by rw [scripts_cons, hl, Nat.zero_add, hcount], ⟨Duty.inside_of_scripts hl _, hnested⟩, hbounded⟩
  | pop hl => exact ⟨by rw [hcount, scripts_cons, hl, Nat.zero_add], hnested.2, hbounded⟩
  | next hl =>
    refine ⟨?_, ⟨Duty.inside_of_scripts hl _, trivial, hnested.2⟩, hbounded⟩
    rw [scripts_cons, hl, Nat.zero_add, hcount]
    rfl
  | enter hlimit =>
    refine ⟨?_, ⟨hcount, hnested⟩, hlimit⟩
    rw [scripts_cons, hcount, Nat.add_comm]
    rfl
  | refuse =>
    refine ⟨?_, nested_goneOn hnested.1 hnested.2 _, hbounded⟩
    rw [hcount, scripts_cons, scripts_goneOn]
  | @leave a _ reached duty vars σ vars' =>
    obtain ⟨houtside, hduty, hσ⟩ := hnested
    have houtside : n' = duty.scripts + scripts σ := houtside
    refine ⟨houtside.trans (scripts_goneOn duty vars' σ).symm, nested_goneOn hduty hσ vars', ?_⟩
    rw [hcount, scripts_cons] at hbounded
    rw [houtside]
    exact Nat.le_trans (Nat.le_add_left ..) hbounded

namespace System

variable {s s' : System H} {θ φ : Thread} {σ : List (Level H)}

/-- A step is a turn of every thread, and of all but one of them one in which nothing happens. -/
theorem Step.turn (hstep : Step s s') (θ : Thread) :
    Turn s.engine.maxDepth (s.depth θ) (s.stack θ) (s'.depth θ) (s'.stack θ) := by
  -- A thread `φ` gets other levels, and its count stays.
  have hput {φ : Thread} {levels : List (Level H)} (hstack : s'.stack = Function.update s.stack φ levels)
      (hdepth : s'.depth = s.depth) (hturn : Turn s.engine.maxDepth (s.depth φ) (s.stack φ) (s.depth φ) levels) :
      Turn s.engine.maxDepth (s.depth θ) (s.stack θ) (s'.depth θ) (s'.stack θ) := by
    rw [hstack, hdepth]
    by_cases hθ : θ = φ
    · subst hθ
      rw [Function.update_self]
      exact hturn
    · rw [Function.update_of_ne hθ]
      exact .stay ..
  -- A thread `φ` gets another count as well.
  have hset {φ : Thread} {levels : List (Level H)} {n : Nat} (hstack : s'.stack = Function.update s.stack φ levels)
      (hdepth : s'.depth = Function.update s.depth φ n)
      (hturn : Turn s.engine.maxDepth (s.depth φ) (s.stack φ) n levels) :
      Turn s.engine.maxDepth (s.depth θ) (s.stack θ) (s'.depth θ) (s'.stack θ) := by
    rw [hstack, hdepth]
    by_cases hθ : θ = φ
    · subst hθ
      rw [Function.update_self, Function.update_self]
      exact hturn
    · rw [Function.update_of_ne hθ, Function.update_of_ne hθ]
      exact .stay ..
  have hgoOn {φ : Thread} {duty : Duty H} {vars vars' : Variables} {errand errand' : Errand H} {σ : List (Level H)}
      (hφ : s.stack φ = ⟨duty, vars, errand⟩ :: σ) (hentering : ∀ a, errand ≠ .entering a) (hinside : errand ≠ .inside)
      (hstack : s'.stack = Function.update s.stack φ (⟨duty, vars', errand'⟩ :: σ)) (hdepth : s'.depth = s.depth) :
      Turn s.engine.maxDepth (s.depth θ) (s.stack θ) (s'.depth θ) (s'.stack θ) :=
    hput hstack hdepth (hφ ▸ .goOn vars' errand' hentering hinside)
  cases hstep with
  | act | cancelEvent | handOver | close | closeBridge | closeWorkers => exact .stay ..
  | assign hφ | ask _ _ _ hφ | skip hφ | make hφ | stay hφ | cross hφ | crossRefused hφ | queue hφ | queueRefused hφ
  | answered hφ | faulted hφ | timedOut hφ => exact hgoOn hφ nofun nofun rfl rfl
  | hostEnters | runPending => exact hput rfl rfl (.push rfl)
  | hostLeaves hφ | batchEnds hφ => exact hput rfl rfl (hφ ▸ .pop rfl)
  | takeTask _ hφ | takeJob _ hφ => exact hput rfl rfl (hφ ▸ .push rfl)
  | nextActivation hφ | nextWork hφ => exact hput rfl rfl (hφ ▸ .next rfl)
  | enter hφ hlimit => exact hset rfl rfl (hφ ▸ .enter hlimit)
  | refuse hφ hlimit => exact hput (endsIn_deliver ..).stack (endsIn_deliver ..).depth (hφ ▸ .refuse hlimit)
  | finish v hφ => exact hset (endsIn_deliver ..).stack (endsIn_deliver ..).depth (hφ ▸ .leave _)
  | panic p hφ => exact hset (endsIn_unwind ..).stack (endsIn_unwind ..).depth (hφ ▸ .leave _)

/-- No step changes the limit of the depth. -/
theorem Step.maxDepth (hstep : Step s s') : s'.engine.maxDepth = s.engine.maxDepth :=
  congrArg (·.execution.maxCallDepth) hstep.settings

/-- The depth of a thread is exact in every system that is reached. -/
theorem Reachable.exact (h : Reachable s) (θ : Thread) : Exact s.engine.maxDepth (s.depth θ) (s.stack θ) := by
  induction h with
  | new => exact ⟨rfl, trivial, Nat.zero_le _⟩
  | step _ hstep ih =>
    rw [hstep.maxDepth]
    exact (hstep.turn θ).exact ih

/-! ## At the limit -/

/-- The only step of a thread that is about to run an activation: the activation is entered, or refused at the limit. -/
theorem Step.of_entering (hstep : Step s s') {duty : Duty H} {vars : Variables} {a : Activation H}
    (hθ : s.stack θ = ⟨duty, vars, .entering a⟩ :: σ) (hother : s'.stack θ ≠ s.stack θ) :
    s.depth θ < s.engine.maxDepth ∧
        s' = ((s.put θ (⟨.script a (s.depth θ), vars, .idle⟩ :: ⟨duty, ∅, .inside⟩ :: σ)).setDepth θ
          (s.depth θ + 1)).setPhase a.id .running ∨
      s.engine.maxDepth ≤ s.depth θ ∧
        s' = (s.setPhase a.id .failed).deliver θ a
          (.error (.runtime (.callDepth a.trigger.name s.engine.maxDepth))) vars duty σ := by
  -- A step of another thread leaves this one as it is.
  have hstays {φ : Thread} (hφ : θ ≠ φ) {levels : List (Level H)} (hstack : s'.stack = Function.update s.stack φ levels) :
      False := by
    rw [hstack, Function.update_of_ne hφ] at hother
    exact hother rfl
  cases hstep with
  | act | cancelEvent | handOver | close | closeBridge | closeWorkers => exact absurd rfl hother
  | hostEnters hadmits | runPending _ hadmits => exact (hstays (ne_of_admitsHost hθ nofun hadmits) rfl).elim
  | takeTask _ hφ | takeJob _ hφ => exact (hstays (ne_of_resting hθ hφ) rfl).elim
  | assign hφ | hostLeaves hφ | ask _ _ _ hφ | skip hφ | make hφ | stay hφ | cross hφ | crossRefused hφ | queue hφ
  | queueRefused hφ | nextActivation hφ | nextWork hφ | batchEnds hφ | answered hφ | faulted hφ | timedOut hφ =>
    exact (hstays (ne_of_errand hθ hφ nofun) rfl).elim
  | finish v hφ => exact (hstays (ne_of_errand hθ hφ nofun) (endsIn_deliver ..).stack).elim
  | panic p hφ => exact (hstays (ne_of_errand hθ hφ nofun) (endsIn_unwind ..).stack).elim
  | @enter φ _ _ b _ hφ hlimit =>
    obtain rfl : θ = φ := by_contra fun hne => hstays hne rfl
    cases hφ.symm.trans hθ
    exact .inl ⟨hlimit, rfl⟩
  | @refuse φ _ _ b _ hφ hlimit =>
    obtain rfl : θ = φ := by_contra fun hne => hstays hne (endsIn_deliver ..).stack
    cases hφ.symm.trans hθ
    exact .inr ⟨hlimit, rfl⟩

/-- A level that goes on is not about to enter an activation. -/
theorem goneOn_ne_entering (duty : Duty H) (vars : Variables) (a : Activation H) (σ : List (Level H)) :
    goneOn duty vars σ ≠ ⟨duty, vars, .entering a⟩ :: σ := by
  cases duty with
  | task | job => exact (List.cons_ne_self _ _).symm
  | host | script | batch => exact nofun

/-! ## The end of a script -/

/-- A step that ends a script gives the count back that the script found. -/
theorem Step.of_ended (hstep : Step s s') {a : Activation H} {outside : Nat} {reached w : Variables} {errand : Errand H}
    {duty : Duty H} (hθ : s.stack θ = ⟨.script a outside, reached, errand⟩ :: ⟨duty, w, .inside⟩ :: σ)
    (hended : ¬s'.Runs θ a outside) : s'.depth θ = outside ∧ ∃ vars, s'.stack θ = goneOn duty vars σ := by
  have hturn := hstep.turn θ
  rw [hθ] at hturn
  have hgone (l : Level H) (hl : l.duty = .script a outside) : l ∉ s'.stack θ := fun hmem => hended ⟨l, hmem, hl⟩
  generalize s'.stack θ = levels at hturn hgone
  generalize s'.depth θ = n at hturn
  cases hturn with
  | stay => exact absurd List.mem_cons_self (hgone _ rfl)
  | goOn vars' errand' => exact absurd List.mem_cons_self (hgone ⟨_, vars', errand'⟩ rfl)
  | push | enter => exact absurd (List.mem_cons_of_mem _ List.mem_cons_self) (hgone _ rfl)
  | refuse => exact absurd List.mem_cons_self (hgone _ rfl)
  | pop hl => cases hl
  | leave vars' => exact ⟨rfl, vars', rfl⟩

/-- The count of a thread is the number of scripts that run on it, each inside the one before, and is never above the limit. An
activation that is about to run where the count is at the limit can only fail, with the fault that says so: no script is entered,
and the variables and the count are what they were. An activation that is entered leaves the count, however it ends, as it found
it. -/
theorem Reachable.depth_exact (h : Reachable s) (θ : Thread) :
    (s.depth θ = scripts (s.stack θ) ∧ s.depth θ ≤ s.engine.maxDepth) ∧
    (∀ duty vars a σ, s.stack θ = ⟨duty, vars, .entering a⟩ :: σ → s.depth θ = s.engine.maxDepth →
      (∃ s', Step s s' ∧ s'.stack θ ≠ s.stack θ) ∧
      ∀ s', Step s s' → s'.stack θ ≠ s.stack θ →
        s' = (s.setPhase a.id .failed).deliver θ a
          (.error (.runtime (.callDepth a.trigger.name s.engine.maxDepth))) vars duty σ ∧
        s'.stack θ = goneOn duty vars σ ∧ s'.depth θ = s.depth θ) ∧
    ∀ duty vars a σ s₁ s₂ outside reached errand w, s.stack θ = ⟨duty, vars, .entering a⟩ :: σ → Steps s s₁ →
      s₁.stack θ = ⟨.script a outside, reached, errand⟩ :: ⟨duty, w, .inside⟩ :: σ → Step s₁ s₂ → ¬s₂.Runs θ a outside →
      s₂.depth θ = s.depth θ := by
  have hexact := h.exact θ
  refine ⟨⟨hexact.count, hexact.bounded⟩, fun duty vars a σ hθ hlimit => ?_, ?_⟩
  · have hends := endsIn_deliver (s.setPhase a.id .failed) θ a
      (.error (.runtime (.callDepth a.trigger.name s.engine.maxDepth))) vars duty σ
    have hstack := (congrFun hends.stack θ).trans (Function.update_self ..)
    refine ⟨⟨_, .refuse hθ (Nat.le_of_eq hlimit.symm), ?_⟩, fun s' hstep hother => ?_⟩
    · rw [hstack, hθ]
      exact goneOn_ne_entering duty vars a σ
    · obtain ⟨hbelow, -⟩ | ⟨-, rfl⟩ := hstep.of_entering hθ hother
      · exact absurd hlimit (Nat.ne_of_lt hbelow)
      · exact ⟨rfl, hstack, congrFun hends.depth θ⟩
  · intro duty vars a σ s₁ s₂ outside reached errand w hθ hsteps hθ₁ hstep hended
    -- Both counts are those of the scripts under the one that ends.
    have houtside : outside = scripts (⟨duty, w, .inside⟩ :: σ) := by
      have hnested := ((h.steps hsteps).exact θ).nested
      rw [hθ₁] at hnested
      exact hnested.1
    rw [(hstep.of_ended hθ₁ hended).1, houtside, hexact.count, hθ]
    rfl

/-- A script on the main thread may come to start a trigger of its own context there. -/
theorem Reachable.exists_entering (h : Reachable s) {a : Activation H} {outside : Nat} {vars : Variables} (t : Trigger)
    (hmain : s.stack .main = ⟨.script a outside, vars, .idle⟩ :: σ) (haccepting : s.engine.accepting)
    (hactor : a.context.actor = none) :
    ∃ s', Reachable s' ∧ s'.engine.settings = s.engine.settings ∧
      s'.stack .main = ⟨.script a outside, vars, .entering ⟨s.engine.nextActivation, t, a.context, .sync⟩⟩ :: σ := by
  have hcooling : Engine.isCooling t a.context s.engine = (false, s.engine) := by
    unfold Engine.isCooling
    rw [hactor]
    rfl
  have hask := Step.ask t a.context .sync hmain rfl haccepting
  let b : Activation H := ⟨s.engine.nextActivation, t, a.context, .sync⟩
  obtain ⟨s₁, hmake, hmain₁⟩ : ∃ s₁, Step _ s₁ ∧ s₁.stack .main = ⟨.script a outside, vars, .starting b⟩ :: σ :=
    ⟨_, .make (stack_put_self s ..) (congrArg Prod.fst hcooling), stack_put_self ..⟩
  have hstay := Step.stay hmain₁ rfl
  have hsettings := hstay.settings.trans (hmake.settings.trans hask.settings)
  exact ⟨_, ((h.step hask).step hmake).step hstay, hsettings, stack_put_self ..⟩

/-- A script that calls its own trigger where one activation is allowed: the call fails, and the script goes on with its
variables. -/
theorem depth_exact_self_call :
    let t : Trigger := ⟨0, "t", "#CALL(\"t\")", ⟨[.command ⟨1, 1⟩ "CALL" [.literal ⟨1, 1⟩ (.string "t")]]⟩, .sync⟩
    let c : Context Unit := ⟨0, ⟨"tick", false⟩, none, .idle Unit⟩
    let vars : Variables := (∅ : Variables).insert "v" (.int 1)
    let script : Level Unit := ⟨.script ⟨0, t, c, .sync⟩ 0, vars, .idle⟩
    let below : List (Level Unit) := [⟨.task, ∅, .inside⟩, ⟨.batch [], ∅, .idle⟩]
    ∃ s s' : System Unit, Reachable s ∧ Step s s' ∧ s.engine.maxDepth = 1 ∧ s.depth .main = 1 ∧
      s.stack .main = { script with errand := .entering ⟨1, t, c, .sync⟩ } :: below ∧
      s'.stack .main = script :: below ∧ s'.depth .main = 1 ∧
      ⟨1, some (.error (.runtime (.callDepth "t" 1)))⟩ ∈ s'.handles := by
  intro t c vars script below
  obtain ⟨s, hs, hengine, hmain, -⟩ := exists_running { execution := { maxCallDepth := 1 } } () (.memory ∅) .empty (.steady 1)
    t c vars rfl (by decide)
  obtain ⟨s₁, hs₁, hsettings, hmain₁⟩ := hs.exists_entering t hmain (congrArg Engine.accepting hengine) rfl
  have hnext : s.engine.nextActivation = 1 := congrArg Engine.nextActivation hengine
  rw [hnext] at hmain₁
  have hlimit : s₁.engine.maxDepth = 1 := by
    have hinitial := hsettings.trans (congrArg Engine.settings hengine)
    exact congrArg (·.execution.maxCallDepth) hinitial
  obtain ⟨⟨hcount, -⟩, hrefused, -⟩ := hs₁.depth_exact .main
  have hdepth : s₁.depth .main = 1 := by
    rw [hcount, hmain₁]
    rfl
  obtain ⟨⟨s₂, hstep, hother⟩, honly⟩ := hrefused _ _ _ _ hmain₁ (hdepth.trans hlimit.symm)
  obtain ⟨hsystem, hstack, hdepth₂⟩ := honly s₂ hstep hother
  refine ⟨s₁, s₂, hs₁, hstep, hlimit, hdepth, hmain₁, hstack, hdepth₂.trans hdepth, ?_⟩
  rw [hsystem, hlimit]
  exact List.mem_cons_self

end System

end EventScript
