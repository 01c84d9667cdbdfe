import EventScript.Proofs.Threads.Ledger

/-!
# The phases of activations

An activation is in one place at a time, and while it is, it is in the phase that goes with the place (`Ledger.Sound`). So its
phase only moves on, from made to running and from either to an end, and what one learns of its end is what its phase says. Both
hold but for the activations that were abandoned: the main thread may come to such an activation after its caller has gone on
without it, and a phase that was final moves again.
-/

namespace EventScript

namespace Ledger

/-- How often an activation is in a place. -/
def occurrences (T : Place → List (Nat × Phase)) (id : Nat) (P : Place) : Nat := ((T P).map Prod.fst).count id

/-- No activation is in two places, or in one place twice. -/
def Sole (T : Place → List (Nat × Phase)) : Prop :=
  ∀ id P Q, P ≠ Q → occurrences T id P + occurrences T id Q ≤ 1

section

variable {T T' : Place → List (Nat × Phase)} {P Q : Place} {k : List (Nat × Phase)} {id : Nat} {p q : Phase} {t : Nat × Phase}

/-- An activation occurs in a place exactly if it is there. -/
theorem occurrences_pos : 0 < occurrences T id P ↔ id ∈ (T P).map Prod.fst := List.count_pos_iff

/-- What is in a place occurs there. -/
theorem occurrences_pos_of_mem (h : t ∈ T P) : 0 < occurrences T t.1 P := occurrences_pos.mpr (List.mem_map_of_mem h)

/-- Of the places only the one that is written to changes what occurs in it. -/
theorem occurrences_update (k : List (Nat × Phase)) :
    occurrences (Function.update T P k) id Q = if Q = P then (k.map Prod.fst).count id else occurrences T id Q := by
  unfold occurrences
  rw [Function.update_apply]
  split <;> rfl

/-- What is in some place was put there now or was there before. -/
theorem mem_update {k' : List (Nat × Phase)} (h : t ∈ Function.update T P k' Q) : t ∈ k' ∨ Q ≠ P ∧ t ∈ T Q := by
  rw [Function.update_apply] at h
  split at h
  · exact .inl h
  next hQ => exact .inr ⟨hQ, h⟩

/-- What is in some place is the new one or was put there with the others. -/
theorem mem_update_cons {x : Nat × Phase} (h : t ∈ Function.update T P (x :: k) Q) : t = x ∨ t ∈ Function.update T P k Q := by
  rw [Function.update_apply] at h ⊢
  split at h
  next hQ =>
    rw [if_pos hQ]
    exact List.mem_cons.mp h
  next hQ =>
    rw [if_neg hQ]
    exact .inr h

/-- There is more than one place. -/
theorem Place.exists_ne (P : Place) : ∃ Q, P ≠ Q := by
  cases P with
  | bridge => exact ⟨.pool, nofun⟩
  | thread | pool => exact ⟨.bridge, nofun⟩

/-- In no place an activation is twice. -/
theorem Sole.le_one (h : Sole T) (id : Nat) (P : Place) : occurrences T id P ≤ 1 := by
  obtain ⟨Q, hPQ⟩ := Place.exists_ne P
  have hboth := h id P Q hPQ
  omega

/-- A rearrangement moves at most what there was, between two places. -/
theorem Rearranged.occurrences_le (h : Rearranged T T') (id : Nat) : ∃ P Q, P ≠ Q ∧
    occurrences T' id P + occurrences T' id Q ≤ occurrences T id P + occurrences T id Q ∧
    ∀ R, R ≠ P → R ≠ Q → occurrences T' id R = occurrences T id R := by
  obtain ⟨P, Q, hPQ, ⟨l, hperm, hsub⟩, hrest⟩ := h
  refine ⟨P, Q, hPQ, ?_, fun R hRP hRQ => ?_⟩
  · have hcount := (hperm.map Prod.fst).count_eq id ▸ (hsub.map Prod.fst).count_le id
    rw [List.map_append, List.map_append, List.count_append, List.count_append] at hcount
    exact hcount
  · unfold occurrences
    rw [hrest R hRP hRQ]

/-- What is anywhere after a rearrangement was somewhere before it. -/
theorem Rearranged.mem (h : Rearranged T T') {R : Place} (ht : t ∈ T' R) : ∃ R', t ∈ T R' := by
  obtain ⟨P, Q, -, hsub, hrest⟩ := h
  have htwo (hmem : t ∈ T' P ++ T' Q) : ∃ R', t ∈ T R' := by
    rcases List.mem_append.mp (hsub.subset hmem) with hP | hQ
    · exact ⟨P, hP⟩
    · exact ⟨Q, hQ⟩
  by_cases hP : R = P
  · exact htwo (List.mem_append_left _ (hP ▸ ht))
  by_cases hQ : R = Q
  · exact htwo (List.mem_append_right _ (hQ ▸ ht))
  · exact ⟨R, hrest R hP hQ ▸ ht⟩

/-- So it leaves no activation in two. -/
theorem Sole.rearranged (h : Sole T) (hT : Rearranged T T') : Sole T' := by
  intro id R S hRS
  obtain ⟨P, Q, hPQ, hboth, hrest⟩ := hT.occurrences_le id
  -- Of three places at most one has the activation, and the first two together have it no more often than before.
  have hPQ := h id P Q hPQ
  have hplace : ∀ R, (R = P ∨ R = Q) ∨ occurrences T' id R = occurrences T id R ∧
      occurrences T id P + occurrences T id R ≤ 1 ∧ occurrences T id Q + occurrences T id R ≤ 1 := by
    intro R
    by_cases hRP : R = P
    · exact .inl (.inl hRP)
    by_cases hRQ : R = Q
    · exact .inl (.inr hRQ)
    · exact .inr ⟨hrest R hRP hRQ, h id P R (Ne.symm hRP), h id Q R (Ne.symm hRQ)⟩
  have hold := h id R S hRS
  rcases hplace R with (rfl | rfl) | ⟨hR, hRP, hRQ⟩ <;> rcases hplace S with (rfl | rfl) | ⟨hS, hSP, hSQ⟩ <;>
    first | exact absurd rfl hRS | omega

/-- What is beside the first of a place, there or elsewhere, has another number. -/
theorem Sole.others (h : Sole T) (hP : T P = (id, p) :: k) (ht : t ∈ Function.update T P k Q) :
    t.1 ≠ id ∧ ∃ R, t ∈ T R := by
  have hcount : occurrences T id P = (k.map Prod.fst).count id + 1 := by
    unfold occurrences
    rw [hP, List.map_cons, List.count_cons_self]
  rcases mem_update ht with hk | ⟨hQ, hmem⟩
  · refine ⟨fun heq => ?_, P, hP ▸ List.mem_cons_of_mem _ hk⟩
    have hpos : 0 < (k.map Prod.fst).count t.1 := List.count_pos_iff.mpr (List.mem_map_of_mem hk)
    have hone := h.le_one id P
    rw [heq] at hpos
    omega
  · refine ⟨fun heq => ?_, Q, hmem⟩
    have hpos := occurrences_pos_of_mem hmem
    have hone := h id P Q hQ.symm
    rw [heq] at hpos
    omega

/-- What changes in phases alone stays in one place. -/
theorem Sole.of_same (h : Sole T) (hsame : ∀ R, (T' R).map Prod.fst = (T R).map Prod.fst) : Sole T' := by
  intro id R S hRS
  unfold occurrences
  rw [hsame, hsame]
  exact h id R S hRS

/-- One more in a place is one more of that activation there. -/
theorem occurrences_cons (i : Nat) :
    occurrences (Function.update T P ((id, p) :: T P)) i Q = occurrences T i Q + if Q = P ∧ id = i then 1 else 0 := by
  rw [occurrences_update]
  by_cases hQ : Q = P
  · subst hQ
    rw [if_pos rfl, List.map_cons, List.count_cons]
    simp [occurrences]
  · rw [if_neg hQ, if_neg (fun hboth => hQ hboth.1), Nat.add_zero]

/-- A new number may come to any place. -/
theorem Sole.cons (h : Sole T) (hnew : ∀ R, id ∉ (T R).map Prod.fst) : Sole (Function.update T P ((id, p) :: T P)) := by
  intro i R S hRS
  rw [occurrences_cons, occurrences_cons]
  have hold := h i R S hRS
  have hnone (heq : id = i) (R : Place) : occurrences T i R = 0 := List.count_eq_zero.mpr (heq ▸ hnew R)
  by_cases hi : id = i
  · rw [hnone hi R, hnone hi S]
    by_cases hR : R = P
    · exact Nat.le_of_eq (by rw [if_pos ⟨hR, hi⟩, if_neg (fun hboth => hRS (hR.trans hboth.1.symm))])
    · rw [if_neg (fun hboth => hR hboth.1)]
      split <;> omega
  · rw [if_neg (fun hboth => hi hboth.2), if_neg (fun hboth => hi hboth.2)]
    exact hold

end

/-- What holds of an activation that has not ended, as long as its caller waits for it. -/
structure Holds (L : Ledger) (t : Nat × Phase) : Prop where
  old : t.1 < L.next
  phase : t.1 ∉ L.abandoned → L.phases t.1 = some t.2
  silent : t.1 ∉ L.abandoned → ∀ r, ¬L.reports t.1 r

/-- What holds of an activation of which something is reported, as long as its caller did not go on without it. -/
structure Tells (L : Ledger) (id : Nat) (r : Report) : Prop where
  old : id < L.next
  suits : ∃ p, L.phases id = some p ∧ r.Suits p
  /-- Where the main thread gave no answer, only what suits a failure is reported. -/
  failed : ∀ f, L.reports id (.reply (.error f)) → r.Suits .failed

/-- The ledger of an engine that works as it should. -/
structure Sound (L : Ledger) : Prop where
  sole : Sole L.tokens
  known : ∀ id p, id ∉ L.abandoned → L.phases id = some p → id < L.next
  holds : ∀ P, ∀ t ∈ L.tokens P, L.Holds t
  tells : ∀ id r, id ∉ L.abandoned → L.reports id r → L.Tells id r

section

variable {L L' : Ledger}

/-- Every step keeps an activation from being in two places. -/
theorem Move.sole (hmove : Move L L') (h : L.Sound) : Sole L'.tokens := by
  cases hmove with
  | pass hT => exact h.sole.rearranged hT
  | make P hT =>
    rw [hT]
    refine h.sole.cons fun R hmem => ?_
    obtain ⟨t, ht, hid⟩ := List.mem_map.mp hmem
    exact absurd (h.holds R t ht).old (by omega)
  | skip hT => exact hT ▸ h.sole
  | enter P id k hP hT =>
    refine h.sole.of_same fun R => ?_
    rw [hT, Function.update_apply]
    split
    next hR =>
      rw [hR, hP]
      rfl
    · rfl
  | finish P id p q k r hP _ _ hT =>
    rw [hT]
    exact h.sole.rearranged (.within P (hP ▸ (List.sublist_cons_self _ k).subperm))
  | panic P id k r hP _ hT =>
    rw [hT]
    exact h.sole.rearranged (.within P (hP ▸ (List.sublist_cons_self _ k).subperm))
  | hear id v _ hT => exact hT ▸ h.sole
  | fault id f g _ hT => exact hT ▸ h.sole
  | abandon id f hT => exact hT ▸ h.sole
  | drop P hT =>
    rw [hT]
    exact h.sole.rearranged (.within P (List.nil_sublist _).subperm)

/-- Nothing changes but what concerns one activation. -/
structure Beside (L L' : Ledger) (id : Nat) : Prop where
  phases : ∀ i, i ≠ id → L'.phases i = L.phases i
  reports : ∀ i r, i ≠ id → L'.reports i r → L.reports i r
  abandoned : ∀ i, i ≠ id → (i ∈ L'.abandoned ↔ i ∈ L.abandoned)
  next : L.next ≤ L'.next

section

variable {id : Nat} {q : Phase} {r : Report}

/-- A report about one activation says nothing about the others. -/
theorem Adds.of_ne (h : L.Adds L' id r) (i : Nat) (r' : Report) (hi : i ≠ id) (hr : L'.reports i r') : L.reports i r' :=
  (h i r' hr).resolve_right fun hnew => hi hnew.1

/-- To move the phase of one activation leaves the others beside it. -/
theorem Beside.of_update (hphases : L'.phases = Function.update L.phases id (some q))
    (hreports : ∀ i r, i ≠ id → L'.reports i r → L.reports i r) (habandoned : L'.abandoned = L.abandoned)
    (hnext : L.next ≤ L'.next) : L.Beside L' id where
  phases i hi := by rw [hphases, Function.update_of_ne hi]
  reports := hreports
  abandoned i _ := by rw [habandoned]
  next := hnext

/-- So does what changes no phase. -/
theorem Beside.of_same (hphases : L'.phases = L.phases) (hreports : ∀ i r, i ≠ id → L'.reports i r → L.reports i r)
    (habandoned : L'.abandoned = L.abandoned) (hnext : L'.next = L.next) : L.Beside L' id where
  phases i _ := by rw [hphases]
  reports := hreports
  abandoned i _ := by rw [habandoned]
  next := Nat.le_of_eq hnext.symm

/-- What holds of another activation goes on to hold. -/
theorem Beside.holds (h : L.Beside L' id) {t : Nat × Phase} (ht : L.Holds t) (hne : t.1 ≠ id) : L'.Holds t where
  old := Nat.lt_of_lt_of_le ht.old h.next
  phase habandoned := (h.phases _ hne).trans (ht.phase (mt (h.abandoned _ hne).mpr habandoned))
  silent habandoned r hr := ht.silent (mt (h.abandoned _ hne).mpr habandoned) r (h.reports _ r hne hr)

/-- And what is reported of it is still so. -/
theorem Beside.tells (h : L.Beside L' id) {i : Nat} (hr : L.Tells i r) (hne : i ≠ id) : L'.Tells i r where
  old := Nat.lt_of_lt_of_le hr.old h.next
  suits := by
    rw [h.phases i hne]
    exact hr.suits
  failed f hf := hr.failed f (h.reports i _ hne hf)

/-- Where one activation moves, only it needs to be looked at. -/
theorem Sound.of_beside (h : L.Sound) (hbeside : L.Beside L' id) (hsole : Sole L'.tokens)
    (hknown : id ∉ L'.abandoned → id < L'.next)
    (hholds : ∀ P, ∀ t ∈ L'.tokens P, (t.1 ≠ id ∧ ∃ R, t ∈ L.tokens R) ∨ L'.Holds t)
    (htells : id ∉ L'.abandoned → ∀ r, L'.reports id r → L'.Tells id r) : L'.Sound where
  sole := hsole
  known i p habandoned hp := by
    by_cases hi : i = id
    · exact hi ▸ hknown (hi ▸ habandoned)
    · rw [hbeside.phases i hi] at hp
      exact Nat.lt_of_lt_of_le (h.known i p (mt (hbeside.abandoned i hi).mpr habandoned) hp) hbeside.next
  holds P t ht := by
    obtain ⟨hne, R, hmem⟩ | hnew := hholds P t ht
    · exact hbeside.holds (h.holds R t hmem) hne
    · exact hnew
  tells i r habandoned hr := by
    by_cases hi : i = id
    · subst hi
      exact htells habandoned r hr
    · exact hbeside.tells (h.tells i r (mt (hbeside.abandoned i hi).mpr habandoned) (hbeside.reports i r hi hr)) hi

end

/-- An activation that has ended is in no place any more, and the one report of its end suits its phase. -/
theorem Sound.of_ended (h : L.Sound) {P : Place} {id : Nat} {p q : Phase} {k : List (Nat × Phase)} {r : Report}
    (hP : L.tokens P = (id, p) :: k) (hT : L'.tokens = Function.update L.tokens P k) (hsole : Sole L'.tokens)
    (hbeside : L.Beside L' id) (hphase : id ∉ L.abandoned → L'.phases id = some q) (hsuits : r.Suits q)
    (hadds : L.Adds L' id r) (habandoned : L'.abandoned = L.abandoned) (hnext : L'.next = L.next) : L'.Sound := by
  have hid : L.Holds (id, p) := h.holds P _ (hP ▸ List.mem_cons_self)
  have hold : id < L'.next := hnext ▸ hid.old
  refine h.of_beside hbeside hsole (fun _ => hold) (fun Q t ht => .inl (h.sole.others hP (hT ▸ ht))) fun hwaits r' hr' => ?_
  rw [habandoned] at hwaits
  have honly {r' : Report} (hr' : L'.reports id r') : r' = r :=
    ((hadds id r' hr').resolve_left (hid.silent hwaits r')).2
  obtain rfl := honly hr'
  refine ⟨hold, ⟨q, hphase hwaits, hsuits⟩, fun f hf => ?_⟩
  obtain rfl := honly hf
  exact ⟨nofun, nofun⟩

/-- What is in a place still has its report to come, if anybody waits for it. -/
theorem Sound.unreported (h : L.Sound) {id : Nat} {r : Report} (hr : L.reports id r) (hT : L'.tokens = L.tokens)
    (habandoned : ∀ i, i ∈ L.abandoned → i ∈ L'.abandoned) (hnext : L'.next = L.next) (P : Place) (t : Nat × Phase)
    (ht : t ∈ L'.tokens P) : (t.1 ≠ id ∧ ∃ R, t ∈ L.tokens R) ∨ L'.Holds t := by
  rw [hT] at ht
  have hold := h.holds P t ht
  by_cases hid : t.1 = id
  · have hgone (hwaits : t.1 ∉ L'.abandoned) : False := hold.silent (mt (habandoned _) hwaits) r (hid ▸ hr)
    exact .inr ⟨hnext ▸ hold.old, fun hwaits => (hgone hwaits).elim, fun hwaits => (hgone hwaits).elim⟩
  · exact .inl ⟨hid, P, ht⟩

/-- Every move leaves the ledger as it should be. -/
theorem Move.sound (hmove : Move L L') (h : L.Sound) : L'.Sound := by
  have hsole := hmove.sole h
  cases hmove with
  | pass hT hphases hreports habandoned hnext =>
    refine ⟨hsole, ?_, fun P t ht => ?_, fun i r hwaits hr => ?_⟩
    · rw [hphases, habandoned, hnext]
      exact h.known
    · obtain ⟨R, hmem⟩ := hT.mem ht
      have hold := h.holds R t hmem
      refine ⟨hnext ▸ hold.old, ?_, fun hwaits r hr => hold.silent (habandoned ▸ hwaits) r (hreports _ r hr)⟩
      rw [habandoned, hphases]
      exact hold.phase
    · have hold := h.tells i r (habandoned ▸ hwaits) (hreports i r hr)
      refine ⟨hnext ▸ hold.old, ?_, fun f hf => hold.failed f (hreports i _ hf)⟩
      rw [hphases]
      exact hold.suits
  | make P hT hphases hreports habandoned hnext =>
    have hunheard (hwaits : L.next ∉ L'.abandoned) (r : Report) : ¬L'.reports L.next r := fun hr =>
      Nat.lt_irrefl _ (h.tells _ r (habandoned ▸ hwaits) (hreports _ r hr)).old
    refine h.of_beside (.of_update hphases (fun i r _ => hreports i r) habandoned (by omega)) hsole (fun _ => by omega)
      (fun Q t ht => ?_) fun hwaits r hr => absurd hr (hunheard hwaits r)
    rcases mem_update_cons (hT ▸ ht) with rfl | hmem
    · exact .inr ⟨by omega, fun _ => by rw [hphases, Function.update_self], hunheard⟩
    · rw [Function.update_eq_self] at hmem
      exact .inl ⟨Nat.ne_of_lt (h.holds Q t hmem).old, Q, hmem⟩
  | skip hT hphases hreports habandoned hnext =>
    refine h.of_beside (.of_update hphases hreports.of_ne habandoned (by omega)) hsole (fun _ => by omega) (fun Q t ht => ?_)
      fun hwaits r hr => ?_
    · rw [hT] at ht
      exact .inl ⟨Nat.ne_of_lt (h.holds Q t ht).old, Q, ht⟩
    · have honly {r : Report} (hr : L'.reports L.next r) : r = .handle (.ok .cancelled) :=
        ((hreports _ r hr).resolve_left fun hold => Nat.lt_irrefl _ (h.tells _ r (habandoned ▸ hwaits) hold).old).2
      obtain rfl := honly hr
      exact ⟨by omega, ⟨.cancelled, by rw [hphases, Function.update_self], rfl⟩, fun f hf => nomatch honly hf⟩
  | enter P id k hP hT hphases hreports habandoned hnext =>
    have hid : L.Holds (id, .created) := h.holds P _ (hP ▸ List.mem_cons_self)
    have hsilent (hwaits : id ∉ L'.abandoned) (r : Report) : ¬L'.reports id r := fun hr =>
      hid.silent (habandoned ▸ hwaits) r (hreports id r hr)
    refine h.of_beside (.of_update hphases (fun i r _ => hreports i r) habandoned (by omega)) hsole (fun _ => hnext ▸ hid.old)
      (fun Q t ht => ?_) fun hwaits r hr => absurd hr (hsilent hwaits r)
    rcases mem_update_cons (hT ▸ ht) with rfl | hmem
    · exact .inr ⟨hnext ▸ hid.old, fun _ => by rw [hphases, Function.update_self], hsilent⟩
    · exact .inl (h.sole.others hP hmem)
  | finish P id p q k r hP hstep hsuits hT hphases hreports habandoned hnext =>
    refine h.of_ended hP hT hsole (.of_update hphases hreports.of_ne habandoned (by omega)) (fun _ => ?_) hsuits hreports
      habandoned hnext
    rw [hphases, Function.update_self]
  | panic P id k r hP hsuits hT hphases hreports habandoned hnext =>
    refine h.of_ended hP hT hsole (.of_same hphases hreports.of_ne habandoned hnext) (fun hwaits => ?_) hsuits hreports
      habandoned hnext
    rw [hphases]
    exact (h.holds P _ (hP ▸ List.mem_cons_self)).phase hwaits
  | hear id v hreply hT hphases hreports habandoned hnext =>
    refine h.of_beside (.of_same hphases hreports.of_ne habandoned hnext) hsole (fun hwaits => ?_)
      (h.unreported hreply hT (fun _ hi => habandoned ▸ hi) hnext) fun hwaits r hr => ?_
    · exact hnext ▸ (h.tells id _ (habandoned ▸ hwaits) hreply).old
    · -- The handle says what the reply said.
      have hsame : L.Tells id r := by
        have hid := h.tells id _ (habandoned ▸ hwaits) hreply
        obtain hold | ⟨-, rfl⟩ := hreports id r hr
        · exact h.tells id r (habandoned ▸ hwaits) hold
        · exact ⟨hid.old, hid.suits, hid.failed⟩
      refine ⟨hnext ▸ hsame.old, hphases ▸ hsame.suits, fun f hf => hsame.failed f ?_⟩
      exact (hreports id _ hf).resolve_right fun hnew => nomatch hnew.2
  | fault id f g hreply hT hphases hreports habandoned hnext =>
    refine h.of_beside (.of_update hphases hreports.of_ne habandoned (by omega)) hsole (fun hwaits => ?_)
      (h.unreported hreply hT (fun _ hi => habandoned ▸ hi) hnext) fun hwaits r hr => ?_
    · exact hnext ▸ (h.tells id _ (habandoned ▸ hwaits) hreply).old
    · have hfailed : r.Suits .failed := by
        obtain hold | ⟨-, rfl⟩ := hreports id r hr
        · exact (h.tells id r (habandoned ▸ hwaits) hold).failed f hreply
        · exact rfl
      have hold := (h.tells id _ (habandoned ▸ hwaits) hreply).old
      exact ⟨hnext ▸ hold, ⟨.failed, by rw [hphases, Function.update_self], hfailed⟩, fun _ _ => hfailed⟩
  | abandon id f hT hphases hreports habandoned hnext =>
    have hmem : id ∈ L'.abandoned := habandoned ▸ List.mem_cons_self
    have hbeside : L.Beside L' id :=
      { phases := fun i hi => by rw [hphases, Function.update_of_ne hi]
        reports := hreports.of_ne
        abandoned := fun i hi => by rw [habandoned, List.mem_cons, or_iff_right hi]
        next := by omega }
    refine h.of_beside hbeside hsole (fun hwaits => absurd hmem hwaits) (fun Q t ht => ?_) fun hwaits => absurd hmem hwaits
    have hold := h.holds Q t (hT ▸ ht)
    by_cases hid : t.1 = id
    · exact .inr ⟨hnext ▸ hold.old, fun hwaits => absurd (hid ▸ hmem) hwaits, fun hwaits => absurd (hid ▸ hmem) hwaits⟩
    · exact .inl ⟨hid, Q, hT ▸ ht⟩
  | drop P hT hphases hreports habandoned hnext =>
    refine ⟨hsole, ?_, fun Q t ht => ?_, fun i r hwaits hr => ?_⟩
    · rw [hphases, habandoned, hnext]
      exact h.known
    · rcases mem_update (hT ▸ ht) with hnone | ⟨hQ, hmem⟩
      · cases hnone
      · have hold := h.holds Q t hmem
        refine ⟨hnext ▸ hold.old, by rw [habandoned, hphases]; exact hold.phase, fun hwaits r hr => ?_⟩
        obtain hr | ⟨hdropped, -⟩ := hreports _ r hr
        · exact hold.silent (habandoned ▸ hwaits) r hr
        · -- It would be in two places.
          have hboth := h.sole t.1 P Q hQ.symm
          have hP := occurrences_pos_of_mem hdropped
          have hQ := occurrences_pos_of_mem hmem
          dsimp only at hP
          omega
    · rw [habandoned] at hwaits
      obtain hr | ⟨hdropped, rfl⟩ := hreports i r hr
      · have hold := h.tells i r hwaits hr
        refine ⟨hnext ▸ hold.old, hphases ▸ hold.suits, fun f hf => ?_⟩
        obtain hf | ⟨hdropped, -⟩ := hreports i _ hf
        · exact hold.failed f hf
        · exact absurd hr ((h.holds P _ hdropped).silent hwaits r)
      · have hold := h.holds P _ hdropped
        exact ⟨hnext ▸ hold.old, ⟨.created, hphases ▸ hold.phase hwaits, nofun, nofun⟩, fun _ _ => ⟨nofun, nofun⟩⟩

/-- A move takes no phase back. -/
theorem Move.forward (hmove : Move L L') (h : L.Sound) {id : Nat} {p : Phase} (hp : L.phases id = some p)
    (hwaits : id ∉ L'.abandoned) : ∃ q, L'.phases id = some q ∧ (q = p ∨ p.Next q) := by
  have hsame (hphases : L'.phases id = L.phases id) : ∃ q, L'.phases id = some q ∧ (q = p ∨ p.Next q) :=
    ⟨p, hphases.trans hp, .inl rfl⟩
  -- Only the phase of one activation changes.
  have hother {i : Nat} {q : Phase} (hphases : L'.phases = Function.update L.phases i (some q))
      (hi : id = i → q = p ∨ p.Next q) : ∃ q, L'.phases id = some q ∧ (q = p ∨ p.Next q) := by
    by_cases hid : id = i
    · exact ⟨q, by rw [hphases, hid, Function.update_self], hi hid⟩
    · exact hsame (by rw [hphases, Function.update_of_ne hid])
  cases hmove with
  | pass _ hphases => exact hsame (congrFun hphases id)
  | make P _ hphases _ habandoned =>
    refine hother hphases fun hid => ?_
    exact absurd (h.known id p (habandoned ▸ hwaits) hp) (by omega)
  | skip _ hphases _ habandoned =>
    refine hother hphases fun hid => ?_
    exact absurd (h.known id p (habandoned ▸ hwaits) hp) (by omega)
  | enter P i k hP _ hphases _ habandoned =>
    refine hother hphases fun hid => ?_
    have hcreated := (h.holds P _ (hP ▸ List.mem_cons_self)).phase (hid ▸ habandoned ▸ hwaits)
    obtain rfl : p = .created := Option.some.inj (hp.symm.trans (hid ▸ hcreated))
    exact .inr .start
  | finish P i p' q k r hP hstep hsuits _ hphases _ habandoned =>
    refine hother hphases fun hid => ?_
    have hheld := (h.holds P _ (hP ▸ List.mem_cons_self)).phase (hid ▸ habandoned ▸ hwaits)
    obtain rfl : p = p' := Option.some.inj (hp.symm.trans (hid ▸ hheld))
    exact .inr hstep
  | panic P i k r hP _ _ hphases => exact hsame (congrFun hphases id)
  | hear i v _ _ hphases => exact hsame (congrFun hphases id)
  | fault i f g hreply _ hphases _ habandoned =>
    refine hother hphases fun hid => ?_
    obtain ⟨p', hp', hcompleted, hcancelled⟩ := (h.tells i _ (hid ▸ habandoned ▸ hwaits) hreply).suits
    obtain rfl : p = p' := Option.some.inj (hp.symm.trans (hid ▸ hp'))
    cases p with
    | created => exact .inr .fail
    | running => exact .inr (.finish rfl)
    | completed => exact absurd rfl hcompleted
    | cancelled => exact absurd rfl hcancelled
    | failed => exact .inl rfl
  | abandon i f _ hphases _ habandoned =>
    refine hother hphases fun hid => ?_
    exact absurd (habandoned ▸ hid ▸ List.mem_cons_self) hwaits
  | drop P _ hphases => exact hsame (congrFun hphases id)

end

end Ledger

namespace System

variable {H : Type} {s s' : System H}

/-- The ledger of a new engine is empty, and sound. -/
theorem sound_new (settings : Settings) (main : MainThread) (attended : Bool) (host : H) (globals : Globals) (files : Files)
    (clock : Clock) : (atRest (.new settings main attended host globals files clock)).ledger.Sound where
  sole id P Q _ := by cases P <;> cases Q <;> exact Nat.zero_le 1
  known id p _ hp := nomatch Std.ExtTreeMap.getElem?_empty.symm.trans hp
  holds P t ht := by cases P <;> cases ht
  tells id r _ hr := by
    cases r with
    | reply =>
      obtain ⟨_, hanswer, -⟩ := hr
      cases hanswer
    | conclusion => cases Std.ExtTreeMap.getElem?_empty.symm.trans hr
    | handle => cases hr

/-- So is every ledger that it may come to. -/
theorem Reachable.sound (h : Reachable s) : s.ledger.Sound := by
  induction h with
  | new => exact sound_new ..
  | step _ hstep ih => exact hstep.move.sound ih

/-- Only a caller whose time is limited goes on without its activation. -/
theorem Step.abandoned (hstep : Step s s') :
    s'.abandoned = s.abandoned ∨
      s.engine.settings.execution.bridgeTimeout.isSome ∧ ∃ id, s'.abandoned = id :: s.abandoned := by
  cases hstep with
  | timedOut hθ htimeout => exact .inr ⟨by rw [htimeout]; rfl, _, rfl⟩
  | refuse | finish => exact .inl ((endsIn_deliver ..).abandoned.trans rfl)
  | panic => exact .inl ((endsIn_unwind ..).abandoned.trans rfl)
  | _ => exact .inl rfl

/-- Without a limit on the time that callers wait, no activation is abandoned. -/
theorem Reachable.abandoned (h : Reachable s) (htimeout : s.engine.settings.execution.bridgeTimeout = none) :
    s.abandoned = [] := by
  induction h with
  | new => rfl
  | step _ hstep ih =>
    rw [hstep.settings] at htimeout
    obtain hsame | ⟨hsome, -⟩ := hstep.abandoned
    · exact hsame.trans (ih htimeout)
    · rw [htimeout] at hsome
      cases hsome

/-- The phase of an activation moves on from made to running, from running to an end, and from made to a failure, and never
otherwise, unless the time of its caller is limited and has run out. -/
theorem Reachable.phase_forward (h : Reachable s) (hstep : Step s s') {id : Nat} {p : Phase}
    (hp : s.engine.phases[id]? = some p) :
    (∃ q, s'.engine.phases[id]? = some q ∧ (q = p ∨ p.Next q)) ∨
      id ∈ s'.abandoned ∧ s'.engine.settings.execution.bridgeTimeout.isSome := by
  by_cases hwaits : id ∈ s'.abandoned
  · refine .inr ⟨hwaits, ?_⟩
    cases htimeout : s'.engine.settings.execution.bridgeTimeout with
    | some _ => rfl
    | none =>
      rw [(h.step hstep).abandoned htimeout] at hwaits
      cases hwaits
  · exact .inl (hstep.move.forward h.sound hp hwaits)

/-- An activation that runs on the main thread for another one completes. -/
theorem phase_forward_completing :
    ∃ s s' : System Unit, Reachable s ∧ Step s s' ∧ s.engine.phases[0]? = some .running ∧
      ((∃ q, s'.engine.phases[0]? = some q ∧ (q = .running ∨ Phase.running.Next q)) ∨
        0 ∈ s'.abandoned ∧ s'.engine.settings.execution.bridgeTimeout.isSome) := by
  obtain ⟨s, hs, hengine, hmain, -⟩ := exists_running {} () (.memory ∅) .empty (.steady 1)
    ⟨0, "t", "", ⟨[]⟩, .sync⟩ ⟨0, ⟨"tick", false⟩, none, .idle Unit⟩ ∅ rfl (by decide)
  have hrunning : s.engine.phases[0]? = some .running := by
    rw [hengine]
    decide +kernel
  exact ⟨s, _, hs, .finish (.ok .completed) hmain, hrunning, hs.phase_forward (.finish (.ok .completed) hmain) hrunning⟩

/-- In any number of steps a phase goes on from phase to phase, and one that is an end stays. -/
theorem Reachable.phases_forward (h : Reachable s) (hsteps : Steps s s') {id : Nat} {p : Phase}
    (hp : s.engine.phases[id]? = some p) (hwaits : id ∉ s'.abandoned) :
    ∃ q, s'.engine.phases[id]? = some q ∧ Relation.ReflTransGen Phase.Next p q ∧ (p.isFinished → q = p) := by
  induction hsteps with
  | refl => exact ⟨p, hp, .refl, fun _ => rfl⟩
  | @tail s₁ s₂ hsteps hstep ih =>
    have hwaits₁ : id ∉ s₁.abandoned := by
      obtain hsame | ⟨-, i, hmore⟩ := hstep.abandoned
      · exact hsame ▸ hwaits
      · exact fun hmem => hwaits (hmore ▸ List.mem_cons_of_mem i hmem)
    obtain ⟨q₁, hq₁, hchain, hend⟩ := ih hwaits₁
    obtain ⟨q₂, hq₂, rfl | hnext⟩ := hstep.move.forward (h.steps hsteps).sound hq₁ hwaits
    · exact ⟨q₂, hq₂, hchain, hend⟩
    · refine ⟨q₂, hq₂, hchain.tail hnext, fun hfinished => ?_⟩
      rw [hend hfinished] at hnext
      exact absurd hfinished hnext.not_finished

/-- What one learns by waiting for an activation is what its phase says. A panic on a worker is the exception: the activation
counts as dropped and stays in the phase of one that runs. -/
theorem Reachable.wait_agrees (h : Reachable s) {x : Handle} (hx : x ∈ s.handles) (hwaits : x.activation ∉ s.abandoned)
    (hanswer : (Engine.wait x s.engine).1 ≠ .error .outOfFuel) :
    (∃ v, Engine.wait x s.engine = Engine.answerOf (.ok v) s.engine ∧ s.engine.phases[x.activation]? = some (.ofVerdict v)) ∨
      ∃ p, s.engine.conclusions[x.activation]? = some (.error (.panicked p)) ∧
        Engine.wait x s.engine = (.error (.failed (.runtime .dropped)), s.engine) ∧
        s.engine.phases[x.activation]? = some .running := by
  obtain ⟨id, verdict⟩ := x
  cases verdict with
  | some v =>
    obtain ⟨p, hp, hsuits⟩ := (h.sound.tells id (.handle v) hwaits hx).suits
    exact .inl ⟨v, rfl, hsuits ▸ hp⟩
  | none =>
    cases hconclusion : s.engine.conclusions[id]? with
    | none => exact absurd (congrArg Prod.fst (Engine.wait_of_none hconclusion)) hanswer
    | some c =>
      have hwait := Engine.wait_of_some hconclusion
      obtain ⟨p, hp, hsuits⟩ := (h.sound.tells id (.conclusion c) hwaits hconclusion).suits
      rcases c with (p' | _) | v
      · exact .inr ⟨p', rfl, hwait, hsuits ▸ hp⟩
      · exact absurd (congrArg Prod.fst hwait) hanswer
      · exact .inl ⟨v, hwait, hsuits ▸ hp⟩

/-- The host hears from the main thread that its activation completed. -/
theorem wait_agrees_completed :
    ∃ (s : System Unit) (x : Handle), Reachable s ∧ x ∈ s.handles ∧ x.activation ∉ s.abandoned ∧
      (Engine.wait x s.engine).1 ≠ .error .outOfFuel ∧
      ((∃ v, Engine.wait x s.engine = Engine.answerOf (.ok v) s.engine ∧
          s.engine.phases[x.activation]? = some (.ofVerdict v)) ∨
        ∃ p, s.engine.conclusions[x.activation]? = some (.error (.panicked p)) ∧
          Engine.wait x s.engine = (.error (.failed (.runtime .dropped)), s.engine) ∧
          s.engine.phases[x.activation]? = some .running) := by
  obtain ⟨s, hs, -, hmain, hhost, -, habandoned⟩ := exists_running {} () (.memory ∅) .empty (.steady 1)
    ⟨0, "t", "", ⟨[]⟩, .sync⟩ ⟨0, ⟨"tick", false⟩, none, .idle Unit⟩ ∅ rfl (by decide)
  have hfinished := hs.step (.finish (.ok .completed) hmain)
  have hother : Thread.other 0 ≠ .main := nofun
  have hstill := (stack_put_of_ne s .main [⟨.batch [], ∅, .idle⟩] hother).trans hhost
  have hanswered := hfinished.step (@Step.answered _ _ (.other 0) _ _ _ _ (.ok .completed) ∅ hstill rfl)
  have hwaits : 0 ∉ s.abandoned := habandoned ▸ List.not_mem_nil
  exact ⟨_, ⟨0, some (.ok .completed)⟩, hanswered, List.mem_cons_self, hwaits, nofun,
    hanswered.wait_agrees List.mem_cons_self hwaits nofun⟩

end System

/-! ## Where the exceptions come from -/

namespace Engine

/-- A worker gives up on a call after ten milliseconds, and the call has failed. The main thread takes it up later; the call runs
and completes. -/
theorem phase_forward_false :
    let p : Position := ⟨1, 1⟩
    let late : Trigger :=
      ⟨0, "late", "global.done = true", ⟨[.assign p (.globalName "done") (.literal p (.bool true))]⟩, .sync⟩
    let t : Trigger := ⟨1, "t", "#CALL(\"late\")", ⟨[.command p "CALL" [.literal p (.string "late")]]⟩, .async⟩
    let c : Context Unit := ⟨0, ⟨"tick", false⟩, none, .idle Unit⟩
    let e : Engine Unit := insertTrigger late
      (.new { execution := { bridgeTimeoutMs := some 10 } } .attached false () (.memory ∅) .empty (.steady 1))
    let e₁ := (drain 1 1 (fire 1 t c e).2).2
    let e₂ := (runPending 1 e₁).2
    e₁.phases[1]? = some .failed ∧ (e₁.reach.globals.get? "done").isNone ∧
      e₂.phases[1]? = some .completed ∧ (e₂.reach.globals.get? "done").isSome := by
  decide +kernel

/-- A hook panics on a worker: the host learns that the activation was dropped, and sees it run for ever. -/
theorem wait_agrees_false :
    let t : Trigger := ⟨0, "t", "#PANIC(\"boom\")", ⟨[.command ⟨1, 1⟩ "PANIC" [.literal ⟨1, 1⟩ (.string "boom")]]⟩, .async⟩
    let hook : Hook Unit := { Hook.idle Unit with onCommand := fun _ _ _ => throw (.panicked (.text "boom")) }
    let c : Context Unit := ⟨0, ⟨"tick", false⟩, none, hook⟩
    let started := fire 1 t c (.new {} .attached true () (.memory ∅) .empty (.steady 1))
    let e := (drain 1 1 started.2).2
    started.1.toOption.map (·.activation) = some 0 ∧ started.1.toOption.map (·.verdict) = some none ∧
      (wait ⟨0, none⟩ e).1 = .error (.failed (.runtime .dropped)) ∧ e.phases[0]? = some .running := by
  decide +kernel

end Engine

end EventScript
