import EventScript.Proofs.Text.Folding

/-!
# Texts in either case

A text in upper case stays what it is in upper case, and so does a text in lower case. The lower case of a text has the same upper case
unless there is one of a few capitals in it (`upper_lower_iff`). The upper case of a text has the same lower case unless there is one of
the characters in it whose upper case is that of other letters, or a small sigma in a place where the capital becomes the other one
(`lower_upper_iff`).
-/

namespace EventScript.Text

/-! ## Characters -/

/-- A valid code is the code of its character. -/
theorem toNat_ofNat {n : Nat} (h : n.isValidChar) : (Char.ofNat n).toNat = n := by
  unfold Char.ofNat
  rw [dif_pos h]
  rfl

/-- Texts with the same code points are the same. -/
theorem map_toNat_injective : Function.Injective (List.map Char.toNat) :=
  List.map_injective_iff.mpr fun _ _ h => Char.toNat_inj.mp h

/-- The same of a list of codes. -/
theorem map_toNat_ofNat {codes : List Nat} (h : ∀ n ∈ codes, n.isValidChar) : (codes.map Char.ofNat).map Char.toNat = codes := by
  rw [List.map_map]
  exact (List.map_congr_left fun n hn => toNat_ofNat (h n hn)).trans (List.map_id' codes)

/-- The upper case of a character, code by code. -/
theorem map_toNat_upperChar (c : Char) : (upperChar c).map Char.toNat = upperCodes c.toNat := by
  rw [upperChar, mapCase_eq]
  exact map_toNat_ofNat (foldsUp c).valid

/-- Its lower case, code by code. -/
theorem map_toNat_lowerChar (c : Char) : (lowerChar c).map Char.toNat = lowerCodes c.toNat := by
  rw [lowerChar, mapCase_eq]
  exact map_toNat_ofNat (foldsDown c).valid

/-- The upper case of a text, code by code. -/
theorem map_toNat_flatMap_upperChar (text : List Char) :
    (text.flatMap upperChar).map Char.toNat = (text.map Char.toNat).flatMap upperCodes := by
  rw [List.map_flatMap, List.flatMap_map]
  simp only [map_toNat_upperChar]

/-- What is in the upper case of a character is among its codes. -/
theorem mem_upperCodes {c d : Char} (h : d ∈ upperChar c) : d.toNat ∈ upperCodes c.toNat :=
  map_toNat_upperChar c ▸ List.mem_map_of_mem h

/-- What is in its lower case is among those. -/
theorem mem_lowerCodes {c d : Char} (h : d ∈ lowerChar c) : d.toNat ∈ lowerCodes c.toNat :=
  map_toNat_lowerChar c ▸ List.mem_map_of_mem h

/-- The lower case of the character has another upper case. -/
def IsOneWayCapital (c : Char) : Prop := c.toNat ∈ oneWayCapitals

instance (c : Char) : Decidable (IsOneWayCapital c) := inferInstanceAs (Decidable (_ ∈ _))

/-- The upper case of the character has another lower case, wherever it stands. -/
def IsOneWaySmall (c : Char) : Prop := within oneWaySmall c.toNat = true

instance (c : Char) : Decidable (IsOneWaySmall c) := inferInstanceAs (Decidable (_ = _))

/-- The capital sigma by its code. -/
theorem eq_sigma_iff {c : Char} : c = 'Σ' ↔ c.toNat = 0x3A3 := Char.toNat_inj.symm

/-- There are three sigmas: the capital, the final one and the small one. -/
theorem mem_sigmas_iff {c : Char} : c.toNat ∈ sigmas ↔ c = 'Σ' ∨ c = 'ς' ∨ c = 'σ' := by
  simp only [sigmas, List.mem_cons, List.not_mem_nil, or_false, ← Char.toNat_inj]
  rfl

/-- Characters in upper case stay as they are in upper case. -/
theorem flatMap_upperChar (c : Char) : (upperChar c).flatMap upperChar = upperChar c := by
  refine map_toNat_injective ?_
  rw [map_toNat_flatMap_upperChar, map_toNat_upperChar, (foldsUp c).upper_twice]

/-- The character stays as it is in lower case, in any place. -/
def IsSmall (c : Char) : Prop := lowerChar c = [c] ∧ c ≠ 'Σ'

/-- Lower case is made of small characters. -/
theorem isSmall_of_mem_lowerChar {c d : Char} (h : d ∈ lowerChar c) : IsSmall d := by
  obtain ⟨hlower, hsigma⟩ := (foldsDown c).lower_twice d.toNat (mem_lowerCodes h)
  refine ⟨map_toNat_injective ?_, fun heq => hsigma (eq_sigma_iff.mp heq)⟩
  rw [map_toNat_lowerChar, hlower]
  rfl

/-- No character vanishes in lower case. -/
theorem lowerChar_ne_nil (c : Char) : lowerChar c ≠ [] := fun h =>
  (foldsDown c).not_nil (by rw [← map_toNat_lowerChar, h]; rfl)

/-- None vanishes in upper case. -/
theorem upperChar_ne_nil (c : Char) : upperChar c ≠ [] := by
  intro h
  have hcodes : upperCodes c.toNat = [] := by rw [← map_toNat_upperChar, h]; rfl
  by_cases hsmall : IsOneWaySmall c
  · exact ((foldsUp c).lower_upper_head hsmall).2.1 hcodes
  · have hlength := ((foldsUp c).lower_upper (Bool.eq_false_iff.mpr hsmall)).1
    rw [hcodes] at hlength
    cases hlength

/-- The lower case of a character has the same upper case, unless it is one of the few capitals. -/
theorem flatMap_upperChar_lowerChar {c : Char} (h : ¬IsOneWayCapital c) : (lowerChar c).flatMap upperChar = upperChar c := by
  refine map_toNat_injective ?_
  rw [map_toNat_flatMap_upperChar, map_toNat_lowerChar, map_toNat_upperChar, (foldsDown c).upper_lower h]

/-- For those the upper case of the lower case begins with another character. -/
theorem head?_upperChar_lowerChar {c : Char} (h : IsOneWayCapital c) :
    ((lowerChar c).flatMap upperChar).head? ≠ (upperChar c).head? := by
  intro heq
  refine (foldsDown c).upper_lower_head h ?_
  rw [← map_toNat_lowerChar, ← map_toNat_flatMap_upperChar, ← map_toNat_upperChar, List.head?_map, List.head?_map, heq]

/-- In lower case the two characters are the same but for a sigma, and in the places behind and in front of them sigmas are the same. -/
structure Alike (d c : Char) : Prop where
  cased : within casedRanges d.toNat = within casedRanges c.toNat
  ignored : within caseIgnorableRanges d.toNat = within caseIgnorableRanges c.toNat
  sigma : d = 'Σ' ↔ c = 'Σ' ∨ c = 'ς' ∨ c = 'σ'
  lower : c ≠ 'Σ' → c ≠ 'ς' → c ≠ 'σ' → lowerChar d = lowerChar c

/-- But for a few small characters the upper case is a single one that is alike in lower case. -/
theorem upperChar_alike {c : Char} (h : ¬IsOneWaySmall c) : ∃ d, upperChar c = [d] ∧ Alike d c := by
  obtain ⟨hlength, hall⟩ := (foldsUp c).lower_upper (Bool.eq_false_iff.mpr h)
  rw [← map_toNat_upperChar, List.length_map] at hlength
  obtain ⟨d, hd⟩ := List.length_eq_one_iff.mp hlength
  obtain ⟨hcased, hignored, hsigma, hlower⟩ := hall d.toNat (mem_upperCodes (hd ▸ List.mem_singleton_self d))
  refine ⟨d, hd, hcased, hignored, ?_, fun h₁ h₂ h₃ => map_toNat_injective ?_⟩
  · rw [eq_sigma_iff, hsigma, mem_sigmas_iff]
  · rw [map_toNat_lowerChar, map_toNat_lowerChar]
    exact hlower fun hmem => (mem_sigmas_iff.mp hmem).elim h₁ (Or.rec h₂ h₃)

/-- For those the upper case begins with a character of another lower case. -/
theorem upperChar_of_isOneWaySmall {c : Char} (h : IsOneWaySmall c) :
    c ≠ 'Σ' ∧ ∃ d rest, upperChar c = d :: rest ∧ d ≠ 'Σ' ∧ (lowerChar d).head? ≠ (lowerChar c).head? := by
  obtain ⟨hsigma, -, hhead⟩ := (foldsUp c).lower_upper_head h
  obtain ⟨d, rest, hd⟩ := List.exists_cons_of_ne_nil (upperChar_ne_nil c)
  have hcodes := map_toNat_upperChar c
  rw [hd, List.map_cons] at hcodes
  obtain ⟨hne, hheads⟩ := hhead d.toNat (by rw [← hcodes]; exact List.mem_cons_self)
  refine ⟨fun heq => hsigma (mem_sigmas_iff.mpr (.inl heq)), d, rest, hd, fun heq => hne (eq_sigma_iff.mp heq), fun heq => hheads ?_⟩
  rw [← map_toNat_lowerChar, ← map_toNat_lowerChar, List.head?_map, List.head?_map, heq]

/-! ## Texts -/

/-- Texts that start with different characters are different, whatever follows. -/
theorem append_ne_append {start start' rest rest' : List Char} (hstart : start ≠ []) (hstart' : start' ≠ [])
    (h : start.head? ≠ start'.head?) : start ++ rest ≠ start' ++ rest' := by
  intro heq
  refine h ?_
  rw [← List.head?_append_of_ne_nil start hstart, heq, List.head?_append_of_ne_nil start' hstart']

/-- The lower case of a capital sigma between these texts, the one before it nearest first. -/
def sigmaIn (before rest : List Char) : Char := if meetsCased before && !meetsCased rest then 'ς' else 'σ'

/-- A capital sigma becomes the one that its place asks for. -/
theorem lowerFrom_sigma (before rest : List Char) :
    lowerFrom before ('Σ' :: rest) = sigmaIn before rest :: lowerFrom ('Σ' :: before) rest := by
  rw [lowerFrom, sigmaIn, beq_self_eq_true, if_pos rfl]
  split <;> rfl

/-- Every other character has its lower case wherever it stands. -/
theorem lowerFrom_cons {c : Char} (hc : c ≠ 'Σ') (before rest : List Char) :
    lowerFrom before (c :: rest) = lowerChar c ++ lowerFrom (c :: before) rest := by
  rw [lowerFrom, beq_false_of_ne hc]
  rfl

/-- All sigmas have the capital for their upper case, and the small ones are their own lower case. -/
theorem sigmas_in_case : upperChar 'Σ' = ['Σ'] ∧ (upperChar 'ς' = ['Σ'] ∧ lowerChar 'ς' = ['ς']) ∧
    upperChar 'σ' = ['Σ'] ∧ lowerChar 'σ' = ['σ'] := by
  decide +kernel

/-- The small sigmas are small characters, both of the capital. -/
theorem small_sigma {c : Char} (h : c = 'ς' ∨ c = 'σ') : IsSmall c ∧ upperChar c = ['Σ'] := by
  obtain ⟨-, ⟨hupper, hlower⟩, hupper', hlower'⟩ := sigmas_in_case
  rcases h with rfl | rfl
  · exact ⟨⟨hlower, by decide⟩, hupper⟩
  · exact ⟨⟨hlower', by decide⟩, hupper'⟩

/-- In any place it is one of two sigmas. -/
theorem sigmaIn_cases (before rest : List Char) : sigmaIn before rest = 'ς' ∨ sigmaIn before rest = 'σ' := by
  unfold sigmaIn
  split
  · exact .inl rfl
  · exact .inr rfl

/-- Both are small. -/
theorem isSmall_sigmaIn (before rest : List Char) : IsSmall (sigmaIn before rest) :=
  (small_sigma (sigmaIn_cases before rest)).1

/-- Both have the capital for their upper case. -/
theorem upperChar_sigmaIn (before rest : List Char) : upperChar (sigmaIn before rest) = ['Σ'] :=
  (small_sigma (sigmaIn_cases before rest)).2

/-- A text in lower case is made of small characters. -/
theorem isSmall_of_mem_lowerFrom (before text : List Char) : ∀ c ∈ lowerFrom before text, IsSmall c := by
  induction text generalizing before with
  | nil => exact nofun
  | cons c rest ih =>
    intro d hd
    by_cases hc : c = 'Σ'
    · subst hc
      rw [lowerFrom_sigma] at hd
      rcases List.mem_cons.mp hd with rfl | hd
      · exact isSmall_sigmaIn before rest
      · exact ih _ d hd
    · rw [lowerFrom_cons hc] at hd
      rcases List.mem_append.mp hd with hd | hd
      · exact isSmall_of_mem_lowerChar hd
      · exact ih _ d hd

/-- A text of small characters stays as it is in lower case. -/
theorem lowerFrom_of_isSmall {text : List Char} (h : ∀ c ∈ text, IsSmall c) (before : List Char) : lowerFrom before text = text := by
  induction text generalizing before with
  | nil => rfl
  | cons c rest ih =>
    obtain ⟨⟨hlower, hsigma⟩, hrest⟩ := List.forall_mem_cons.mp h
    rw [lowerFrom_cons hsigma, hlower, ih hrest]
    rfl

/-- A text in upper case stays what it is. -/
theorem upper_upper (s : String) : upper (upper s) = upper s := by
  unfold upper
  rw [String.toList_ofList, List.flatMap_assoc]
  simp only [flatMap_upperChar]

/-- A text in lower case stays what it is. -/
theorem lower_lower (s : String) : lower (lower s) = lower s := by
  rw [lower, lower, String.toList_ofList, lowerFrom_of_isSmall (isSmall_of_mem_lowerFrom [] s.toList)]

/-- The lower case of a text has the same upper case exactly if there is none of the few capitals in it. -/
theorem flatMap_upperChar_lowerFrom_iff (before text : List Char) :
    (lowerFrom before text).flatMap upperChar = text.flatMap upperChar ↔ ∀ c ∈ text, ¬IsOneWayCapital c := by
  induction text generalizing before with
  | nil => exact iff_of_true rfl nofun
  | cons c rest ih =>
    rw [List.forall_mem_cons, ← ih (c :: before), List.flatMap_cons]
    by_cases hc : c = 'Σ'
    · subst hc
      have honeWay : ¬IsOneWayCapital 'Σ' := by decide
      rw [lowerFrom_sigma, List.flatMap_cons, upperChar_sigmaIn, sigmas_in_case.1, List.append_cancel_left_eq]
      exact (and_iff_right honeWay).symm
    rw [lowerFrom_cons hc, List.flatMap_append]
    by_cases honeWay : IsOneWayCapital c
    · have hne : (lowerChar c).flatMap upperChar ≠ [] := fun hnil => by
        obtain ⟨d, more, hd⟩ := List.exists_cons_of_ne_nil (lowerChar_ne_nil c)
        rw [hd, List.flatMap_cons] at hnil
        exact upperChar_ne_nil d (List.append_eq_nil_iff.mp hnil).1
      exact iff_of_false (append_ne_append hne (upperChar_ne_nil c) (head?_upperChar_lowerChar honeWay)) fun h => h.1 honeWay
    · rw [flatMap_upperChar_lowerChar honeWay, List.append_cancel_left_eq]
      exact (and_iff_right honeWay).symm

/-- The lower case of a text has the upper case of the text just if none of the one-way capitals is in it. -/
theorem upper_lower_iff (s : String) : upper (lower s) = upper s ↔ ∀ c ∈ s.toList, ¬IsOneWayCapital c := by
  rw [← flatMap_upperChar_lowerFrom_iff [] s.toList, upper, upper, lower, String.toList_ofList, String.ofList_inj]

/-! ## Small sigmas -/

/-- Letters are met in the upper case of a text where they are met in the text. -/
theorem meetsCased_flatMap_upperChar {text : List Char} (h : ∀ c ∈ text, ¬IsOneWaySmall c) :
    meetsCased (text.flatMap upperChar) = meetsCased text := by
  induction text with
  | nil => rfl
  | cons c rest ih =>
    obtain ⟨hc, hrest⟩ := List.forall_mem_cons.mp h
    obtain ⟨d, hd, halike⟩ := upperChar_alike hc
    have hstep : ∀ (e : Char) (more : List Char), meetsCased (e :: more) =
        if within caseIgnorableRanges e.toNat then meetsCased more else within casedRanges e.toNat := by
      intro e more
      unfold meetsCased
      rw [List.dropWhile_cons]
      by_cases hignored : within caseIgnorableRanges e.toNat = true
      · rw [if_pos hignored, if_pos hignored]
      · rw [if_neg hignored, if_neg hignored]
    rw [List.flatMap_cons, hd, List.singleton_append, hstep, hstep, halike.ignored, halike.cased, ih hrest]

/-- Each small sigma of a text is the one that the capital becomes in its place, given the characters before the text, nearest first. -/
def SigmasInPlace (before : List Char) : List Char → Prop
  | [] => True
  | c :: rest => (c = 'ς' ∨ c = 'σ' → c = sigmaIn before rest) ∧ SigmasInPlace (c :: before) rest

instance decidableSigmasInPlace : (before text : List Char) → Decidable (SigmasInPlace before text)
  | _, [] => .isTrue trivial
  | before, c :: rest =>
    have := decidableSigmasInPlace (c :: before) rest
    inferInstanceAs (Decidable ((_ → _) ∧ _))

/-- So a sigma is the same one between texts in upper case. -/
theorem sigmaIn_flatMap_upperChar {before rest : List Char} (hbefore : ∀ c ∈ before, ¬IsOneWaySmall c)
    (hrest : ∀ c ∈ rest, ¬IsOneWaySmall c) : sigmaIn (before.flatMap upperChar) (rest.flatMap upperChar) = sigmaIn before rest := by
  rw [sigmaIn, sigmaIn, meetsCased_flatMap_upperChar hbefore, meetsCased_flatMap_upperChar hrest]

/-- In lower case, texts that start with characters that are alike are the same if their rests are and the sigmas are that they may start
with. -/
theorem lowerFrom_eq_iff {c d : Char} (halike : Alike d c) (before before' rest rest' : List Char) :
    lowerFrom before (d :: rest) = lowerFrom before' (c :: rest') ↔
      ((c = 'Σ' → sigmaIn before rest = sigmaIn before' rest') ∧ (c = 'ς' ∨ c = 'σ' → c = sigmaIn before rest)) ∧
        lowerFrom (d :: before) rest = lowerFrom (c :: before') rest' := by
  by_cases hcapital : c = 'Σ'
  · subst hcapital
    obtain rfl := halike.sigma.mpr (.inl rfl)
    rw [lowerFrom_sigma, lowerFrom_sigma, List.cons.injEq]
    exact and_congr_left' ⟨fun h => ⟨fun _ => h, fun hsmall => absurd hsmall (by decide)⟩, fun h => h.1 rfl⟩
  by_cases hsmall : c = 'ς' ∨ c = 'σ'
  · have hlower : lowerChar c = [c] := (small_sigma hsmall).1.1
    obtain rfl := halike.sigma.mpr (.inr hsmall)
    rw [lowerFrom_sigma, lowerFrom_cons hcapital, hlower, List.singleton_append, List.cons.injEq]
    exact and_congr_left' ⟨fun h => ⟨fun heq => absurd heq hcapital, fun _ => h.symm⟩, fun h => (h.2 hsmall).symm⟩
  · obtain ⟨hfinal, hinner⟩ := not_or.mp hsmall
    have hsigma : d ≠ 'Σ' := fun h => (halike.sigma.mp h).elim hcapital hsmall
    rw [lowerFrom_cons hsigma, lowerFrom_cons hcapital, halike.lower hcapital hfinal hinner, List.append_cancel_left_eq]
    exact (and_iff_right ⟨fun h => absurd h hcapital, fun h => absurd h hsmall⟩).symm

/-- Without one-way characters, putting a text into upper case first matters to no more than its small sigmas. -/
theorem lowerFrom_flatMap_upperChar_iff {before text : List Char} (hbefore : ∀ c ∈ before, ¬IsOneWaySmall c)
    (htext : ∀ c ∈ text, ¬IsOneWaySmall c) :
    lowerFrom (before.flatMap upperChar) (text.flatMap upperChar) = lowerFrom before text ↔ SigmasInPlace before text := by
  induction text generalizing before with
  | nil => exact iff_of_true rfl trivial
  | cons c rest ih =>
    obtain ⟨hc, hrest⟩ := List.forall_mem_cons.mp htext
    obtain ⟨d, hd, halike⟩ := upperChar_alike hc
    have ih := ih (List.forall_mem_cons.mpr ⟨hc, hbefore⟩) hrest
    rw [List.flatMap_cons, hd] at ih
    rw [List.flatMap_cons, hd, List.singleton_append, SigmasInPlace, ← ih, lowerFrom_eq_iff halike,
      sigmaIn_flatMap_upperChar hbefore hrest]
    exact and_congr_left' (and_iff_right fun _ => rfl)

/-- A text with a one-way character in it is another one in lower case than its upper case is. -/
theorem not_isOneWaySmall_of_lowerFrom_eq {before before' text : List Char}
    (h : lowerFrom before (text.flatMap upperChar) = lowerFrom before' text) : ∀ c ∈ text, ¬IsOneWaySmall c := by
  induction text generalizing before before' with
  | nil => exact fun c hc => absurd hc List.not_mem_nil
  | cons c rest ih =>
    rw [List.flatMap_cons] at h
    by_cases hc : IsOneWaySmall c
    · obtain ⟨hcapital, d, more, hd, hsigma, hhead⟩ := upperChar_of_isOneWaySmall hc
      rw [hd, List.cons_append, lowerFrom_cons hsigma, lowerFrom_cons hcapital] at h
      exact absurd h (append_ne_append (lowerChar_ne_nil d) (lowerChar_ne_nil c) hhead)
    · obtain ⟨d, hd, halike⟩ := upperChar_alike hc
      rw [hd, List.singleton_append, lowerFrom_eq_iff halike] at h
      exact List.forall_mem_cons.mpr ⟨hc, ih h.2⟩

/-- The upper case of a text has the lower case of the text just if none of the one-way characters is in it and each small sigma is the
one that the capital becomes in its place. -/
theorem lower_upper_iff (s : String) :
    lower (upper s) = lower s ↔ (∀ c ∈ s.toList, ¬IsOneWaySmall c) ∧ SigmasInPlace [] s.toList := by
  rw [lower, lower, upper, String.toList_ofList, String.ofList_inj]
  constructor
  · intro h
    have hsmall := not_isOneWaySmall_of_lowerFrom_eq h
    exact ⟨hsmall, (lowerFrom_flatMap_upperChar_iff (List.forall_mem_nil _) hsmall).mp h⟩
  · rintro ⟨hsmall, hplace⟩
    exact (lowerFrom_flatMap_upperChar_iff (List.forall_mem_nil _) hsmall).mpr hplace

end EventScript.Text
