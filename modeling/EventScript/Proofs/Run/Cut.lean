import EventScript.Proofs.Run.Fuel
import EventScript.Proofs.Run.Watched

/-!
# Where a run is cut

A run that the hook cuts short, by a veto or by cancelling, goes along with the uncut run up to one node and stops in the scope
that the uncut run has there: `cut_run`. The invariant is `Abreast`: as long as no node has stopped the run, both runs are in the
same scope, and the record is as long as the hook's count. Once the run is cut, all that matters of the uncut run is that it never
takes back what is on record.
-/

namespace EventScript

open Host

variable {W α β : Type}

namespace Run

/-- A part behind the hook does to the bare scope what it does alone. -/
theorem behind_apply (m : Run W α) (s : Scope (Watched W)) :
    m.behind s = ((m s.bare).1, s.withBare (m s.bare).2) := rfl

/-- Two parts behind the hook are both behind it. -/
theorem behind_bind (m : Run W α) (f : α → Run W β) : (m >>= f).behind = m.behind >>= fun a => (f a).behind := by
  funext s
  rw [bind_apply, behind_apply, behind_apply, bind_apply]
  rcases m s.bare with ⟨_ | _, _⟩ <;> rfl

/-- To look at the scope is to look at the bare one. -/
theorem behind_get_bind (f : Scope W → Run W α) (s : Scope (Watched W)) :
    (get >>= f).behind s = (f s.bare).behind s := rfl

end Run

/-! ## Steps that the hook is not asked about -/

section steps

variable (host : Host W) (hook : Nat → Answer)

/-- Names are read behind the hook. -/
theorem watch_readName (n : String) : (host.watch hook).readName n = (host.readName n).behind := by
  funext s
  unfold readName
  rw [Run.get_bind, Run.behind_get_bind]
  dsimp only [Scope.bare]
  cases s.locals[n]? <;> rfl

/-- So are global variables. -/
theorem watch_readGlobal (key : String) : (host.watch hook).readGlobal key = (host.readGlobal key).behind := rfl

/-- So are placeholders. -/
theorem watch_resolve (n : String) (values : List Value) :
    (host.watch hook).resolve n values = (host.resolve n values).behind := by
  unfold resolve
  rw [Run.behind_bind]
  refine congrArg _ (funext fun answer => ?_)
  cases answer with
  | some v => rfl
  | none =>
    funext s
    dsimp only
    rw [Run.get_bind, Run.behind_get_bind]
    dsimp only [Scope.bare, watch]
    cases host.placeholder? n s.world.world <;> rfl

/-- So are commands. -/
theorem watch_runCommand (n : String) (values : List Value) :
    (host.watch hook).runCommand n values = (host.runCommand n values).behind := by
  unfold runCommand
  rw [Run.behind_bind]
  refine congrArg _ (funext fun dealt => ?_)
  cases dealt with
  | true => rfl
  | false =>
    funext s
    simp only [Bool.false_eq_true, if_false]
    rw [Run.get_bind, Run.behind_get_bind]
    dsimp only [Scope.bare, watch]
    cases host.command? n s.world.world <;> rfl

end steps

/-! ## Side by side with the uncut run -/

/-- What stops a run that enters a node behind `e` others. A token that was cancelled while the last of those was entered comes
first. -/
def stopAt (hook : Nat → Answer) (e : Nat) : Option Halt :=
  if 0 < e ∧ hook e = .cancel then some .cancelled
  else if hook (e + 1) = .veto then some .vetoed
  else none

/-- The hook has let `e` nodes pass. -/
def Passed (hook : Nat → Answer) (e : Nat) : Prop := ∀ i < e, stopAt hook i = none

/-- The uncut run, which keeps a record, and the run behind the hook have entered the same nodes and are in the same scope. -/
structure Abreast (hook : Nat → Answer) (s₁ s₂ : Scope (Watched W)) : Prop where
  bare : s₁.bare = s₂.bare
  entered : s₂.world.entered = s₁.world.record.length
  running : s₁.world.cancelled = false
  cancelled : s₂.world.cancelled = decide (0 < s₂.world.entered ∧ hook s₂.world.entered = .cancel)
  passed : Passed hook s₂.world.entered

/-- The run behind the hook has been stopped for this reason, in the scope on record for the node that stopped it. -/
def CutAt (hook : Nat → Answer) (reason : Halt) (s₂ : Scope (Watched W)) (record : List (Scope W)) : Prop :=
  ∃ e, Passed hook e ∧ stopAt hook e = some reason ∧ record[e]? = some s₂.bare

/-- The part keeps what is on record. -/
def KeepsRecord (m : Run (Watched W) α) : Prop := ∀ s, s.world.record <+: (m s).2.world.record

/-- From scopes abreast the runs come to the same result abreast, or the second one is cut. -/
def CutShort (hook : Nat → Answer) (m₁ m₂ : Run (Watched W) α) : Prop :=
  ∀ s₁ s₂, Abreast hook s₁ s₂ →
    ((m₁ s₁).1 = (m₂ s₂).1 ∧ Abreast hook (m₁ s₁).2 (m₂ s₂).2) ∨
      ∃ reason, (m₂ s₂).1 = .error reason ∧ CutAt hook reason (m₂ s₂).2 (m₁ s₁).2.world.record

/-- What has been cut stays cut while the record goes on. -/
theorem CutAt.mono {hook : Nat → Answer} {reason : Halt} {s₂ : Scope (Watched W)} {record record' : List (Scope W)}
    (h : CutAt hook reason s₂ record) (hkept : record <+: record') : CutAt hook reason s₂ record' := by
  obtain ⟨e, hpassed, hstop, hrecord⟩ := h
  obtain ⟨more, rfl⟩ := hkept
  obtain ⟨hlt, -⟩ := List.getElem?_eq_some_iff.mp hrecord
  exact ⟨e, hpassed, hstop, by rw [List.getElem?_append_left hlt]; exact hrecord⟩

/-- Two parts keep the record if both do. -/
theorem KeepsRecord.bind {m : Run (Watched W) α} {f : α → Run (Watched W) β} (hm : KeepsRecord m)
    (hf : ∀ a, KeepsRecord (f a)) : KeepsRecord (m >>= f) := by
  intro s
  have hkept := hm s
  rw [Run.bind_apply]
  rcases hr : m s with ⟨reason | a, s'⟩
  · rw [hr] at hkept
    exact hkept
  · rw [hr] at hkept
    exact hkept.trans (hf a s')

/-- They are cut short together: if the first is cut, what follows in the uncut run keeps the record of the cut. -/
theorem CutShort.bind {hook : Nat → Answer} {m₁ m₂ : Run (Watched W) α} {f₁ f₂ : α → Run (Watched W) β}
    (hm : CutShort hook m₁ m₂) (hf : ∀ a, CutShort hook (f₁ a) (f₂ a)) (hkeeps : ∀ a, KeepsRecord (f₁ a)) :
    CutShort hook (m₁ >>= f₁) (m₂ >>= f₂) := by
  intro s₁ s₂ habreast
  have h := hm s₁ s₂ habreast
  rw [Run.bind_apply, Run.bind_apply]
  rcases hr₁ : m₁ s₁ with ⟨reason₁ | a₁, s₁'⟩ <;> rcases hr₂ : m₂ s₂ with ⟨reason₂ | a₂, s₂'⟩ <;>
    rw [hr₁, hr₂] at h <;> dsimp only at h ⊢
  · rcases h with ⟨hsame, habreast'⟩ | ⟨reason, hreason, hcut⟩
    · cases hsame
      exact .inl ⟨rfl, habreast'⟩
    · cases hreason
      exact .inr ⟨_, rfl, hcut⟩
  · rcases h with ⟨hsame, -⟩ | ⟨reason, hreason, -⟩
    · cases hsame
    · cases hreason
  · rcases h with ⟨hsame, -⟩ | ⟨reason, hreason, hcut⟩
    · cases hsame
    · cases hreason
      exact .inr ⟨_, rfl, hcut.mono (hkeeps a₁ s₁')⟩
  · rcases h with ⟨hsame, habreast'⟩ | ⟨reason, hreason, -⟩
    · cases hsame
      exact hf a₁ s₁' s₂' habreast'
    · cases hreason

/-- The relation between the uncut run and the run behind a hook. -/
def cutLink (W : Type) (hook : Nat → Answer) : Link (Watched W) (Watched W) where
  Rel m₁ m₂ := KeepsRecord m₁ ∧ CutShort hook m₁ m₂
  pure _ := ⟨fun _ => List.prefix_refl _, fun _ _ h => .inl ⟨rfl, h⟩⟩
  stop _ _ := ⟨fun _ => List.prefix_refl _, fun _ _ h => .inl ⟨rfl, h⟩⟩
  bind hm hf := ⟨hm.1.bind fun a => (hf a).1, hm.2.bind (fun a => (hf a).2) fun a => (hf a).1⟩

/-- A step behind the hook is the same in both runs. -/
theorem cutLink_behind {hook : Nat → Answer} (m : Run W α) : (cutLink W hook).Rel m.behind m.behind := by
  refine ⟨fun s => List.prefix_refl _, fun s₁ s₂ h => .inl ?_⟩
  rw [Run.behind_apply, Run.behind_apply, h.bare]
  exact ⟨rfl, rfl, h.entered, h.running, h.cancelled, h.passed⟩

/-- What entering a node does behind a hook. -/
theorem watch_enter (host : Host W) (hook : Nat → Answer) (node : Node) (s : Scope (Watched W)) :
    (host.watch hook).enter node s =
      if s.world.cancelled then (.error .cancelled, s)
      else
        let s' : Scope (Watched W) := { s with world.entered := s.world.entered + 1 }
        match hook s'.world.entered with
        | .pass => (.ok (), s')
        | .veto => (.error .vetoed, s')
        | .cancel => (.ok (), { s' with world.cancelled := true }) := by
  unfold enter
  rw [Run.get_bind]
  have hcancelled : (host.watch hook).isCancelled s.world = s.world.cancelled := rfl
  rw [hcancelled]
  cases s.world.cancelled with
  | true => rfl
  | false =>
    have hveto : Run.ofAct ((host.watch hook).veto node) s =
        let r := (hook (s.world.entered + 1)).give { s.world with entered := s.world.entered + 1 }
        (r.1, { s with world := r.2 }) := rfl
    simp only [Bool.false_eq_true, if_false]
    show (Run.ofAct ((host.watch hook).veto node) >>= _) s = _
    rw [Run.bind_apply, hveto]
    dsimp only
    cases hook (s.world.entered + 1) <;> rfl

/-- Entering a node, on record, next to entering it behind the hook. -/
theorem cutLink_enter (host : Host W) (hook : Nat → Answer) (node : Node) :
    (cutLink W hook).Rel (host.enterRecorded node) ((host.watch hook).enter node) := by
  have hrecorded : ∀ s : Scope (Watched W), host.enterRecorded node s =
      (host.watch counting).enter node { s with world.record := s.world.record ++ [s.bare] } := fun s =>
    Run.bind_ok rfl
  refine ⟨fun s => ?_, fun s₁ s₂ h => ?_⟩
  · rw [hrecorded, watch_enter]
    cases s.world.cancelled <;> exact List.prefix_append _ _
  · rw [hrecorded, watch_enter, watch_enter, h.cancelled]
    simp only [h.running, Bool.false_eq_true, if_false, counting, decide_eq_true_eq]
    generalize he : s₂.world.entered = e
    have hlength : s₁.world.record.length = e := h.entered.symm.trans he
    have hpassed : Passed hook e := he ▸ h.passed
    have hnow : (s₁.world.record ++ [s₁.bare])[e]? = some s₂.bare := by
      rw [← hlength, List.getElem?_concat_length, h.bare]
    by_cases hcancel : 0 < e ∧ hook e = .cancel
    · simp only [if_pos hcancel]
      refine .inr ⟨_, rfl, e, hpassed, ?_, hnow⟩
      rw [stopAt, if_pos hcancel]
    · have hrunning : s₂.world.cancelled = false := by rw [h.cancelled, he]; exact decide_eq_false hcancel
      have hpassed' : hook (e + 1) ≠ .veto → Passed hook (e + 1) := by
        intro hveto i hi
        rcases Nat.lt_succ_iff_lt_or_eq.mp hi with hlt | rfl
        · exact hpassed i hlt
        · rw [stopAt, if_neg hcancel, if_neg hveto]
      simp only [if_neg hcancel]
      cases hanswer : hook (e + 1) with
      | veto =>
        refine .inr ⟨_, rfl, e, hpassed, ?_, hnow⟩
        rw [stopAt, if_neg hcancel, if_pos hanswer]
      | pass =>
        refine .inl ⟨rfl, h.bare, ?_, rfl, ?_, hpassed' (by rw [hanswer]; decide)⟩
        · simp [hlength]
        · simp [hrunning, hanswer]
      | cancel =>
        refine .inl ⟨rfl, h.bare, ?_, rfl, ?_, hpassed' (by rw [hanswer]; decide)⟩
        · simp [hlength]
        · simp [hanswer]

/-- The steps of the uncut run, on record, next to those of the run behind the hook. -/
theorem cutLinked (host : Host W) (hook : Nat → Answer) :
    Linked (cutLink W hook) (host.watch counting) host.enterRecorded (host.watch hook) (host.watch hook).enter
      fun _ => True where
  enter node _ := cutLink_enter host hook node
  readName n _ := by
    rw [watch_readName, watch_readName]
    exact cutLink_behind _
  readGlobal key _ := by
    rw [watch_readGlobal, watch_readGlobal]
    exact cutLink_behind _
  resolve p n args values _ := by
    rw [watch_resolve, watch_resolve]
    exact cutLink_behind _
  bind n v _ := cutLink_behind (Host.bind n v)
  writeGlobal key v _ := cutLink_behind (Run.ofAct (host.writeGlobal key v))
  runCommand p n args _ hargs := by
    refine (cutLink W hook).bind hargs fun values => ?_
    rw [watch_runCommand, watch_runCommand]
    exact cutLink_behind _

/-- Both runs begin abreast. -/
theorem abreast_watched (hook : Nat → Answer) (s : Scope W) : Abreast hook s.watched s.watched :=
  ⟨rfl, rfl, rfl, by simp [Scope.watched], fun _ hi => absurd hi (Nat.not_lt_zero _)⟩

/-- The run that keeps a record, next to the run behind a hook. -/
theorem recorded_run (host : Host W) (hook : Nat → Answer) (script : Script) (s : Scope W) (fuel : Nat) :
    let recorded := (host.watch counting).executeAll host.enterRecorded fuel script.statements s.watched
    let r := (host.watch hook).run fuel script s.watched
    Outcome.of recorded.1 = r.1 ∧ Abreast hook recorded.2 r.2 ∨
      ∃ reason, r.1 = .halted reason ∧ CutAt hook reason r.2 (host.moments fuel script s) := by
  intro recorded r
  have hdry : (cutLink W hook).Rel (α := Signal) (throw .outOfFuel) (throw .outOfFuel) :=
    ⟨fun _ => List.prefix_refl _, fun _ _ h => .inl ⟨rfl, h⟩⟩
  have hlink := (cutLinked host hook).executeAll (.same hdry fuel) script.statements fun _ _ => trivial
  have hr : r = _ := run_apply (host.watch hook) fuel script s.watched
  rw [hr]
  rcases hlink.2 s.watched s.watched (abreast_watched hook s) with ⟨hsame, habreast⟩ | ⟨reason, hreason, hcut⟩
  · exact .inl ⟨congrArg Outcome.of hsame, habreast⟩
  · refine .inr ⟨reason, ?_, hcut⟩
    rw [hreason]
    rfl

/-- A hook that only counts stops nothing. -/
theorem stopAt_counting (e : Nat) : stopAt counting e = none := by simp [stopAt, counting]

/-- Keeping the record does not change the uncut run, and it holds one scope for each node that the hook counts. -/
theorem recorded_run_counting (host : Host W) (script : Script) (s : Scope W) (fuel : Nat) :
    let recorded := (host.watch counting).executeAll host.enterRecorded fuel script.statements s.watched
    let r := (host.watch counting).run fuel script s.watched
    Outcome.of recorded.1 = r.1 ∧ Abreast counting recorded.2 r.2 := by
  intro recorded r
  rcases recorded_run host counting script s fuel with h | ⟨reason, -, e, -, hstop, -⟩
  · exact h
  · rw [stopAt_counting] at hstop
    cases hstop

/-- How the run of a script goes behind a hook, next to the moments of the uncut run: it is stopped at the first node that stops
it, in the scope the uncut run has there; if no node of the uncut run stops it, it ends as the uncut run does. -/
theorem watch_run (host : Host W) (hook : Nat → Answer) (script : Script) (s : Scope W) (fuel : Nat) :
    (∃ reason, ((host.watch hook).run fuel script s.watched).1 = .halted reason ∧
        CutAt hook reason ((host.watch hook).run fuel script s.watched).2 (host.moments fuel script s)) ∨
      Passed hook (host.moments fuel script s).length ∧
        ((host.watch hook).run fuel script s.watched).1 = ((host.watch counting).run fuel script s.watched).1 ∧
        ((host.watch hook).run fuel script s.watched).2.bare = ((host.watch counting).run fuel script s.watched).2.bare := by
  obtain ⟨hsame, huncut⟩ := recorded_run_counting host script s fuel
  rcases recorded_run host hook script s fuel with ⟨hsame', habreast⟩ | hcut
  · refine .inr ⟨habreast.entered ▸ habreast.passed, hsame'.symm.trans hsame, ?_⟩
    exact habreast.bare.symm.trans huncut.bare
  · exact .inl hcut

/-! ## The record and more fuel -/

/-- With less fuel the record is a beginning of the record with more. -/
def recordLink (W : Type) : Link (Watched W) (Watched W) where
  Rel m₁ m₂ := KeepsRecord m₂ ∧ ∀ s,
    ((m₁ s).1 = .error .outOfFuel ∧ (m₁ s).2.world.record <+: (m₂ s).2.world.record) ∨ m₁ s = m₂ s
  pure _ := ⟨fun _ => List.prefix_refl _, fun _ => .inr rfl⟩
  stop _ _ := ⟨fun _ => List.prefix_refl _, fun _ => .inr rfl⟩
  bind := by
    rintro α β m₁ m₂ f₁ f₂ ⟨hkeeps, hm⟩ hf
    refine ⟨hkeeps.bind fun a => (hf a).1, fun s => ?_⟩
    rw [Run.bind_apply, Run.bind_apply]
    rcases hm s with ⟨hdry, hkept⟩ | hsame
    · rcases hr₁ : m₁ s with ⟨reason | a, s'⟩
      · rw [hr₁] at hdry hkept
        refine .inl ⟨congrArg Except.error (Except.error.inj hdry), hkept.trans ?_⟩
        rcases m₂ s with ⟨reason' | a', s''⟩
        · exact List.prefix_refl _
        · exact (hf a').1 s''
      · rw [hr₁] at hdry
        cases hdry
    · rw [hsame]
      rcases m₂ s with ⟨reason | a, s'⟩
      · exact .inr rfl
      · exact (hf a).2 s'

/-- A part that keeps its record has it as a beginning of itself. -/
theorem recordLink_self {m : Run (Watched W) α} (h : KeepsRecord m) : (recordLink W).Rel m m := ⟨h, fun _ => .inr rfl⟩

/-- A recorded run is linked with itself, whatever the fuel. -/
theorem recordLinked (host : Host W) :
    Linked (recordLink W) (host.watch counting) host.enterRecorded (host.watch counting) host.enterRecorded
      fun _ => True where
  enter node _ := recordLink_self (cutLink_enter host counting node).1
  readName n hn := recordLink_self ((cutLinked host counting).readName n hn).1
  readGlobal key hkey := recordLink_self ((cutLinked host counting).readGlobal key hkey).1
  resolve p n args values _ := recordLink_self ((cutLinked host counting).resolve p n args values trivial).1
  bind n v hn := recordLink_self ((cutLinked host counting).bind n v hn).1
  writeGlobal key v hkey := recordLink_self ((cutLinked host counting).writeGlobal key v hkey).1
  runCommand _ n _ _ hargs := by
    refine (recordLink W).bind hargs fun values => recordLink_self ?_
    rw [watch_runCommand]
    exact ((cutLink_behind _ : (cutLink W counting).Rel _ _)).1

/-- With more fuel a run has the same moments, and perhaps more. -/
theorem moments_more_fuel (host : Host W) {fuel₁ fuel₂ : Nat} (h : fuel₁ ≤ fuel₂) (script : Script) (s : Scope W) :
    host.moments fuel₁ script s <+: host.moments fuel₂ script s := by
  have hdry : (recordLink W).Rel (α := Signal) (throw .outOfFuel) (throw .outOfFuel) :=
    recordLink_self fun _ => List.prefix_refl _
  have hfuel : (recordLink W).Fuels (fun _ => True) fuel₁ fuel₂ :=
    .more hdry (fun _ _ hm => ⟨hm.1, fun s => .inl ⟨rfl, hm.1 s⟩⟩) h
  have hlink := (recordLinked host).executeAll hfuel script.statements fun _ _ => trivial
  rcases hlink.2 s.watched with ⟨-, hkept⟩ | hsame
  · exact hkept
  · have hrecord : host.moments fuel₁ script s = host.moments fuel₂ script s :=
      congrArg (fun r => r.2.world.record) hsame
    exact hrecord ▸ List.prefix_refl _

/-- A moment that a run with some fuel has is one that the run reaches. -/
theorem Reaches.of_moments {host : Host W} {script : Script} {s m : Scope W} {k fuel : Nat}
    (h : (host.moments fuel script s)[k]? = some m) : host.Reaches script s (k + 1) m := by
  refine ⟨Nat.succ_pos k, fuel, fun more => ?_⟩
  obtain ⟨rest, hrest⟩ := moments_more_fuel host (Nat.le_add_right fuel more) script s
  obtain ⟨hlt, -⟩ := List.getElem?_eq_some_iff.mp h
  rw [← hrest, Nat.add_sub_cancel, List.getElem?_append_left hlt]
  exact h

/-! ## One veto, one cancellation -/

/-- A veto of the `k`th node stops exactly there. -/
theorem stopAt_vetoing {k e : Nat} {reason : Halt} :
    stopAt (vetoing k) e = some reason ↔ e + 1 = k ∧ reason = .vetoed := by
  have hcancel : ¬(0 < e ∧ vetoing k e = .cancel) := by
    rintro ⟨-, h⟩
    unfold vetoing at h
    split at h <;> cases h
  rw [stopAt, if_neg hcancel]
  by_cases hk : e + 1 = k
  · simp [vetoing, hk, eq_comm]
  · simp [vetoing, hk]

/-- A token that is cancelled at the `k`th node stops at the next one. -/
theorem stopAt_cancelling {k e : Nat} (hk : 0 < k) {reason : Halt} :
    stopAt (cancelling k) e = some reason ↔ e = k ∧ reason = .cancelled := by
  have hveto : cancelling k (e + 1) ≠ .veto := by
    unfold cancelling
    split <;> simp
  by_cases he : e = k
  · subst he
    simp [stopAt, cancelling, hk, eq_comm]
  · rw [stopAt, if_neg (by simp [cancelling, he]), if_neg hveto]
    simp [he]

/-- The uncut run has one moment for each node that its hook counts. A run that is vetoed at its `k`-th node ends there, in the
scope that the uncut run has in front of that node. A run that is cancelled while its `k`-th node is entered ends in front of the next one, in the scope that the uncut run has there. If the uncut
run enters no further node, both end in the same way, if they end at all. -/
theorem cut_run (host : Host W) (script : Script) (s : Scope W) (k : Nat) (hk : 0 < k) :
    (∀ fuel, (host.moments fuel script s).length = ((host.watch counting).run fuel script s.watched).2.world.entered) ∧
    (∀ m, host.Reaches script s k m →
      ∃ s', (host.watch (vetoing k)).Ends script s.watched (.halted .vetoed) s' ∧ s'.bare = m) ∧
    (∀ m, host.Reaches script s (k + 1) m →
      ∃ s', (host.watch (cancelling k)).Ends script s.watched (.halted .cancelled) s' ∧ s'.bare = m) ∧
    ((∀ m, ¬host.Reaches script s (k + 1) m) → ∀ outcome m,
      (∃ s', (host.watch counting).Ends script s.watched outcome s' ∧ s'.bare = m) ↔
        ∃ s', (host.watch (cancelling k)).Ends script s.watched outcome s' ∧ s'.bare = m) := by
  refine ⟨fun fuel => ?_, fun m hreach => ?_, fun m hreach => ?_, fun hnever outcome m => ?_⟩
  · exact (recorded_run_counting host script s fuel).2.entered.symm
  · obtain ⟨-, fuel, hmoment⟩ := hreach
    replace hmoment := hmoment 0
    rcases watch_run host (vetoing k) script s (fuel + 0) with ⟨reason, hreason, e, -, hstop, hrecord⟩ | ⟨hpassed, -, -⟩
    · obtain ⟨he, rfl⟩ := stopAt_vetoing.mp hstop
      obtain rfl : e = k - 1 := by omega
      refine ⟨_, .of_run hreason (by simp), ?_⟩
      exact Option.some.inj (hrecord.symm.trans hmoment)
    · obtain ⟨hlt, -⟩ := List.getElem?_eq_some_iff.mp hmoment
      have hstop := stopAt_vetoing.mpr ⟨Nat.sub_add_cancel hk, rfl⟩
      rw [hpassed (k - 1) hlt] at hstop
      cases hstop
  · obtain ⟨-, fuel, hmoment⟩ := hreach
    replace hmoment := hmoment 0
    rw [Nat.add_sub_cancel] at hmoment
    rcases watch_run host (cancelling k) script s (fuel + 0) with
      ⟨reason, hreason, e, -, hstop, hrecord⟩ | ⟨hpassed, -, -⟩
    · obtain ⟨rfl, rfl⟩ := (stopAt_cancelling hk).mp hstop
      refine ⟨_, .of_run hreason (by simp), ?_⟩
      exact Option.some.inj (hrecord.symm.trans hmoment)
    · obtain ⟨hlt, -⟩ := List.getElem?_eq_some_iff.mp hmoment
      have hstop := (stopAt_cancelling hk).mpr ⟨rfl, rfl⟩
      rw [hpassed k hlt] at hstop
      cases hstop
  · have hsame : ∀ fuel,
        ((host.watch (cancelling k)).run fuel script s.watched).1 = ((host.watch counting).run fuel script s.watched).1 ∧
        ((host.watch (cancelling k)).run fuel script s.watched).2.bare =
          ((host.watch counting).run fuel script s.watched).2.bare := by
      intro fuel
      rcases watch_run host (cancelling k) script s fuel with ⟨reason, -, e, -, hstop, hrecord⟩ | ⟨-, hsame⟩
      · obtain ⟨rfl, -⟩ := (stopAt_cancelling hk).mp hstop
        exact absurd (Reaches.of_moments hrecord) (hnever _)
      · exact hsame
    constructor
    · rintro ⟨s', ⟨hend, fuel, hrun⟩, rfl⟩
      replace hrun := hrun 0
      obtain ⟨houtcome, hbare⟩ := hsame (fuel + 0)
      rw [hrun] at houtcome hbare
      exact ⟨_, .of_run houtcome hend, hbare⟩
    · rintro ⟨s', ⟨hend, fuel, hrun⟩, rfl⟩
      replace hrun := hrun 0
      obtain ⟨houtcome, hbare⟩ := hsame (fuel + 0)
      rw [hrun] at houtcome hbare
      exact ⟨_, .of_run houtcome.symm hend, hbare.symm⟩

/-- A command behind an assignment: cut at the command, the variable is bound and nothing has been said. -/
theorem cut_run_command :
    let host : Host (List (List Value)) :=
      { isCancelled := fun _ => false, overdue? := pure none, veto := fun _ => pure false,
        offerCommand := fun _ _ => pure false, command? := fun _ _ => some fun args => modify fun log => args :: log,
        offerPlaceholder := fun _ _ => pure none, placeholder? := fun _ _ => none, readGlobal? := fun _ _ => none,
        writeGlobal := fun _ _ => pure () }
    let p : Position := ⟨1, 1⟩
    let script : Script := ⟨[.assign p (.name "x") (.literal p (.int 1)), .command p "SAY" [.name p "x"]]⟩
    let s : Scope (List (List Value)) := ⟨∅, []⟩
    let m : Scope (List (List Value)) := ⟨s.locals.insert "x" (.int 1), []⟩
    0 < 3 ∧ host.Reaches script s 3 m ∧ host.Reaches script s 4 m ∧
      (∃ s', (host.watch (vetoing 3)).Ends script s.watched (.halted .vetoed) s' ∧ s'.bare = m) ∧
      ∃ s', (host.watch (cancelling 3)).Ends script s.watched (.halted .cancelled) s' ∧ s'.bare = m := by
  intro host p script s m
  have hmoments : (host.moments 0 script s)[2]? = some m ∧ (host.moments 0 script s)[3]? = some m := ⟨rfl, rfl⟩
  have hthird : host.Reaches script s 3 m := Reaches.of_moments hmoments.1
  have hfourth : host.Reaches script s 4 m := Reaches.of_moments hmoments.2
  obtain ⟨-, hveto, hcancel, -⟩ := cut_run host script s 3 (by decide)
  exact ⟨by decide, hthird, hfourth, hveto m hthird, hcancel m hfourth⟩

end EventScript
