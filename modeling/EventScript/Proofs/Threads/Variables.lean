import EventScript.Proofs.Threads.Basic

/-!
# The variables of a caller on another thread

A caller that hands an activation to the main thread hands its variables over as well, and gets back those that the activation
reached. If the main thread gives no answer, for whatever reason, it gets back none: `System.Reachable.bridged_variables`.
-/

namespace EventScript

variable {H : Type}

/-- A caller that waits for the main thread holds no variables. -/
def Level.EmptyHanded (l : Level H) : Prop := ∀ a, l.errand = .waiting a → l.vars = ∅

theorem Level.emptyHanded_idle (duty : Duty H) (vars : Variables) : Level.EmptyHanded ⟨duty, vars, .idle⟩ :=
  fun _ hwaiting => nomatch hwaiting

/-- The errand of a caller whose activation is for the main thread, which is another one. -/
def Errand.IsBridged (a : Activation H) (θ : Thread) : Errand H → Prop
  | .starting b => b = a ∧ a.mode = .sync ∧ θ ≠ .main
  | .waiting b => b = a
  | .idle | .asking .. | .entering _ | .inside => False

namespace System

variable {s s' : System H} {θ φ : Thread} {σ : List (Level H)}

def EmptyHanded (s : System H) : Prop := ∀ θ, ∀ l ∈ s.stack θ, l.EmptyHanded

namespace EmptyHanded

theorem congr (h : s.EmptyHanded) (hstack : s'.stack = s.stack) : s'.EmptyHanded := by
  unfold EmptyHanded
  rw [hstack]
  exact h

/-- Levels come to a thread above some that were there. -/
theorem above (h : s.EmptyHanded) (new : List (Level H)) (hσ : ∀ l ∈ σ, l ∈ s.stack θ)
    (hnew : ∀ l ∈ new, l.EmptyHanded) : (s.put θ (new ++ σ)).EmptyHanded := by
  intro θ' l hmem
  by_cases hθ : θ' = θ
  · subst hθ
    rw [stack_put_self] at hmem
    rcases List.mem_append.mp hmem with hl | hl
    · exact hnew l hl
    · exact h θ' l (hσ l hl)
  · rw [stack_put_of_ne s θ _ hθ] at hmem
    exact h θ' l hmem

theorem endsIn (h : s.EmptyHanded) {duty : Duty H} {vars : Variables} (hends : s.EndsIn θ (goneOn duty vars σ) s')
    (hσ : ∀ l ∈ σ, l ∈ s.stack θ) : s'.EmptyHanded := by
  have hnew := forall_goneOn (Level.emptyHanded_idle duty vars) fun l hl => h θ l (hσ l hl)
  have hput : (s.put θ (goneOn duty vars σ ++ [])).EmptyHanded := h.above _ (fun _ hl => nomatch hl) hnew
  rw [List.append_nil] at hput
  exact hput.congr hends.stack

end EmptyHanded

/-- Every step leaves those who wait without variables. -/
theorem Step.emptyHanded (hstep : Step s s') (h : s.EmptyHanded) : s'.EmptyHanded := by
  have hbelow {φ : Thread} {l : Level H} {σ : List (Level H)} (hφ : s.stack φ = l :: σ) : ∀ l ∈ σ, l ∈ s.stack φ :=
    fun l hl => hφ ▸ List.mem_cons_of_mem _ hl
  -- The innermost level of a thread goes, and others come in its place.
  have hinstead {φ : Thread} {l : Level H} {σ : List (Level H)} (hφ : s.stack φ = l :: σ) (new : List (Level H))
      (hnew : ∀ l ∈ new, l.EmptyHanded) : (s.put φ (new ++ σ)).EmptyHanded :=
    h.above new (hbelow hφ) hnew
  have hidle {duty : Duty H} {vars : Variables} : ∀ l ∈ [(⟨duty, vars, .idle⟩ : Level H)], l.EmptyHanded :=
    List.forall_mem_singleton.mpr (Level.emptyHanded_idle duty vars)
  cases hstep with
  | act | cancelEvent | handOver | close | closeBridge | closeWorkers => exact h
  | assign hφ => exact hinstead hφ [_] hidle
  | hostEnters => exact h.above [_] (fun _ hl => hl) hidle
  | hostLeaves hφ => exact hinstead hφ [] (List.forall_mem_nil _)
  | ask t c mode hφ => exact hinstead hφ [⟨_, _, .asking t c mode⟩] (List.forall_mem_singleton.mpr nofun)
  | skip hφ => exact hinstead hφ [_] hidle
  | @make _ _ _ _ t c mode hφ =>
    exact hinstead hφ [⟨_, _, .starting ⟨_, t, c, mode⟩⟩] (List.forall_mem_singleton.mpr nofun)
  | stay hφ => exact hinstead hφ [⟨_, _, .entering _⟩] (List.forall_mem_singleton.mpr nofun)
  | cross hφ => exact hinstead hφ [⟨_, ∅, .waiting _⟩] (List.forall_mem_singleton.mpr fun _ _ => rfl)
  | crossRefused hφ => exact hinstead hφ [_] hidle
  | queue hφ => exact hinstead hφ [_] hidle
  | queueRefused hφ => exact hinstead hφ [_] hidle
  | @enter θ duty vars a σ hφ =>
    refine hinstead hφ [⟨.script a (s.depth θ), vars, .idle⟩, ⟨duty, ∅, .inside⟩] ?_
    exact List.forall_mem_cons.mpr ⟨Level.emptyHanded_idle _ _, List.forall_mem_singleton.mpr nofun⟩
  | @refuse _ _ _ a _ hφ => exact EmptyHanded.endsIn (s := s.setPhase a.id .failed) h (endsIn_deliver ..) (hbelow hφ)
  | @finish _ _ _ _ a outside _ v hφ =>
    refine EmptyHanded.endsIn (s := (s.setDepth _ outside).setPhase a.id (.ofVerdict v)) h (endsIn_deliver ..) fun l hl => ?_
    exact hbelow hφ l (List.mem_cons_of_mem _ hl)
  | @panic _ _ _ _ _ outside _ p hφ =>
    refine EmptyHanded.endsIn (s := s.setDepth _ outside) h (endsIn_unwind ..) fun l hl => ?_
    exact hbelow hφ l (List.mem_cons_of_mem _ hl)
  | takeTask => exact h.above [_] (List.forall_mem_nil _) hidle
  | runPending => exact h.above [_] (fun _ hl => hl) hidle
  | @nextActivation a vars rest w σ hφ =>
    refine hinstead hφ [⟨.task, vars, .entering a⟩, ⟨.batch rest, w, .idle⟩] ?_
    exact List.forall_mem_cons.mpr ⟨nofun, hidle⟩
  | @nextWork work rest w σ hφ =>
    refine hinstead hφ [⟨.host, ∅, .idle⟩, ⟨.batch rest, w, .idle⟩] ?_
    exact List.forall_mem_cons.mpr ⟨Level.emptyHanded_idle _ _, hidle⟩
  | batchEnds hφ => exact hinstead hφ [] (List.forall_mem_nil _)
  | @takeJob i job p =>
    exact h.above [⟨.job, job.locals, .entering job.activation⟩] (List.forall_mem_nil _)
      (List.forall_mem_singleton.mpr nofun)
  | answered hφ => exact hinstead hφ [_] hidle
  | faulted hφ => exact hinstead hφ [_] hidle
  | timedOut hφ => exact hinstead hφ [_] hidle

theorem Reachable.emptyHanded (h : Reachable s) : s.EmptyHanded := by
  induction h with
  | new => exact fun _ => List.forall_mem_nil _
  | step _ hstep ih => exact hstep.emptyHanded ih

/-- When a caller on another thread than the main thread goes on, it has the variables that the activation reached, with the
verdict of the activation, or none at all, with a failure of the bridge. -/
theorem Reachable.bridged_variables (h : Reachable s) (hstep : Step s s') {a : Activation H} {duty : Duty H}
    {vars vars' : Variables} {errand : Errand H} (hθ : s.stack θ = ⟨duty, vars, errand⟩ :: σ)
    (hbridged : errand.IsBridged a θ) (hθ' : s'.stack θ = ⟨duty, vars', .idle⟩ :: σ) :
    (∃ v, s.replies a.id = some (.ok (v, vars')) ∧ s'.handles = ⟨a.id, some v⟩ :: s.handles) ∨
      vars' = ∅ ∧ ∃ f, s'.handles = ⟨a.id, some (.error (.bridge f))⟩ :: s.handles := by
  have hidle : errand ≠ .idle := by
    rintro rfl
    exact hbridged
  have hsame (hstack : s'.stack θ = s.stack θ) : False := by
    have hlevel := hθ'.symm.trans (hstack.trans hθ)
    injection hlevel with hlevel
    injection hlevel with _ _ herrand
    exact hidle herrand.symm
  have hempty (hwaiting : errand = .waiting a) : vars = ∅ :=
    h.emptyHanded θ _ (hθ ▸ List.mem_cons_self) a hwaiting
  -- A step that gives this thread other levels is one of this thread.
  have hhere {φ : Thread} {levels : List (Level H)} (hstack : s'.stack = Function.update s.stack φ levels) : θ = φ := by
    by_contra hne
    exact hsame (by rw [hstack, Function.update_of_ne hne])
  have hadmitted {φ : Thread} (hadmits : s.AdmitsHost φ) : θ ≠ φ := by
    rintro rfl
    unfold AdmitsHost at hadmits
    rw [hθ] at hadmits
    exact hidle hadmits.2
  have helsewhere {φ : Thread} (hφ : θ ≠ φ) (levels : List (Level H)) : (s.put φ levels).stack θ = s.stack θ :=
    stack_put_of_ne s φ levels hφ
  -- A step of another level is one of another thread.
  have hapart {φ : Thread} {l : Level H} {σ' : List (Level H)} (hφ : s.stack φ = l :: σ') (hl : l.errand ≠ errand) :
      θ ≠ φ := by
    rintro rfl
    injection hφ.symm.trans hθ with hlevel
    exact hl (congrArg Level.errand hlevel)
  have hother {φ : Thread} {l : Level H} {σ' levels : List (Level H)} (hφ : s.stack φ = l :: σ') (hl : l.errand ≠ errand) :
      (s.put φ levels).stack θ = s.stack θ := helsewhere (hapart hφ hl) levels
  cases hstep with
  | act | cancelEvent | handOver | close | closeBridge | closeWorkers => exact (hsame rfl).elim
  | assign hφ => exact (hsame (hother hφ hidle.symm)).elim
  | hostEnters hadmits => exact (hsame (helsewhere (hadmitted hadmits) _)).elim
  | hostLeaves hφ => exact (hsame (hother hφ hidle.symm)).elim
  | ask t c mode hφ => exact (hsame (hother hφ hidle.symm)).elim
  | skip hφ => exact (hsame (hother hφ (by rintro rfl; exact hbridged))).elim
  | make hφ => exact (hsame (hother hφ (by rintro rfl; exact hbridged))).elim
  | stay hφ =>
    obtain rfl := hhere rfl
    cases hφ.symm.trans hθ
    exact absurd rfl hbridged.2.2
  | cross hφ =>
    obtain rfl := hhere rfl
    cases hφ.symm.trans hθ
    cases (stack_put_self ..).symm.trans hθ'
  | @crossRefused _ _ _ b _ f hφ =>
    obtain rfl := hhere rfl
    cases hφ.symm.trans hθ
    cases (stack_put_self ..).symm.trans hθ'
    obtain ⟨rfl, -⟩ := hbridged
    exact .inr ⟨rfl, f, rfl⟩
  | queue hφ hasync =>
    obtain rfl := hhere rfl
    cases hφ.symm.trans hθ
    obtain ⟨rfl, hsync, -⟩ := hbridged
    cases hsync.symm.trans hasync
  | queueRefused hφ hasync =>
    obtain rfl := hhere rfl
    cases hφ.symm.trans hθ
    obtain ⟨rfl, hsync, -⟩ := hbridged
    cases hsync.symm.trans hasync
  | enter hφ => exact (hsame (hother hφ (by rintro rfl; exact hbridged))).elim
  | refuse hφ => exact (hsame ((endsIn_deliver ..).elsewhere (hapart hφ (by rintro rfl; exact hbridged)))).elim
  | finish v hφ => exact (hsame ((endsIn_deliver ..).elsewhere (hapart hφ hidle.symm))).elim
  | panic p hφ => exact (hsame ((endsIn_unwind ..).elsewhere (hapart hφ hidle.symm))).elim
  | takeTask _ hφ => exact (hsame (helsewhere (by rintro rfl; cases hφ.symm.trans hθ) _)).elim
  | runPending _ hadmits => exact (hsame (helsewhere (hadmitted hadmits) _)).elim
  | nextActivation hφ => exact (hsame (hother hφ hidle.symm)).elim
  | nextWork hφ => exact (hsame (hother hφ hidle.symm)).elim
  | batchEnds hφ => exact (hsame (hother hφ hidle.symm)).elim
  | takeJob _ hφ => exact (hsame (helsewhere (by rintro rfl; cases hφ.symm.trans hθ) _)).elim
  | @answered _ _ _ b _ v reached hφ hreply =>
    obtain rfl := hhere rfl
    cases hφ.symm.trans hθ
    cases (stack_put_self ..).symm.trans hθ'
    obtain rfl := hbridged
    exact .inl ⟨v, hreply, rfl⟩
  | @faulted _ _ _ b _ f hφ hreply =>
    obtain rfl := hhere rfl
    cases hφ.symm.trans hθ
    cases (stack_put_self ..).symm.trans hθ'
    obtain rfl := hbridged
    exact .inr ⟨hempty rfl, f, rfl⟩
  | @timedOut _ _ _ b _ t hφ =>
    obtain rfl := hhere rfl
    cases hφ.symm.trans hθ
    cases (stack_put_self ..).symm.trans hθ'
    obtain rfl := hbridged
    exact .inr ⟨hempty rfl, .timedOut t, rfl⟩

/-- The activation panics on the main thread, and its caller is left without the variable that it had. -/
theorem bridged_variables_panicked :
    ∃ s s' : System Unit, Reachable s ∧ Step s s' ∧ ∃ (a : Activation Unit) (vars' : Variables),
      s'.stack (.other 0) = [⟨.host, vars', .idle⟩] ∧
      ((∃ v, s.replies a.id = some (.ok (v, vars')) ∧ s'.handles = ⟨a.id, some v⟩ :: s.handles) ∨
        vars' = ∅ ∧ ∃ f, s'.handles = ⟨a.id, some (.error (.bridge f))⟩ :: s.handles) := by
  let a : Activation Unit := ⟨0, ⟨0, "t", "", ⟨[]⟩, .sync⟩, ⟨0, ⟨"tick", false⟩, none, .idle Unit⟩, .sync⟩
  obtain ⟨s, hs, -, hmain, hhost, -⟩ := exists_running {} () (.memory ∅) .empty (.steady 1) a.trigger a.context
    ((∅ : Variables).insert "v" (.int 1)) rfl (by decide)
  obtain ⟨s₁, hs₁, hstill, hreply⟩ : ∃ s₁ : System Unit, Reachable s₁ ∧ s₁.stack (.other 0) = [⟨.host, ∅, .waiting a⟩] ∧
      s₁.replies a.id = some (.error (.panicked (.text "boom"))) := by
    have hother : Thread.other 0 ≠ .main := nofun
    have hpanicked := hs.step (.panic (.text "boom") hmain)
    exact ⟨_, hpanicked, ((endsIn_unwind (s.setDepth .main 0) ..).elsewhere hother).trans hhost, rfl⟩
  have hfaulted := Step.faulted hstill hreply
  have hafter := stack_put_self s₁ (.other 0) [⟨.host, ∅, .idle⟩]
  exact ⟨s₁, _, hs₁, hfaulted, a, ∅, hafter, hs₁.bridged_variables hfaulted hstill rfl hafter⟩

end System

/-- A hook panics in a trigger that the host starts from another thread than the main thread. The variable that the host had
before the call is gone. -/
theorem Engine.bridged_variables_false :
    let t : Trigger := ⟨0, "t", "#PANIC(\"boom\")", ⟨[.command ⟨1, 1⟩ "PANIC" [.literal ⟨1, 1⟩ (.string "boom")]]⟩, .sync⟩
    let hook : Hook Unit := { Hook.idle Unit with onCommand := fun _ _ _ => throw (.panicked (.text "boom")) }
    let c : Context Unit := ⟨0, ⟨"tick", false⟩, none, hook⟩
    let e : Engine Unit := .new {} .dedicated true () (.memory ∅) .empty (.steady 1)
    let started := activate 1 t c .sync ⟨(∅ : Variables).insert "v" (.int 1), e⟩
    started.1 = .ok ⟨0, some (.error (.bridge (.panicked (.text "boom"))))⟩ ∧ started.2.locals["v"]? = none :=
  ⟨rfl, rfl⟩

end EventScript
