import EventScript.Proofs.Text.Search

/-!
# Case by case

What the tables of cases say of all characters (`foldsUp`, `foldsDown`). Putting a character into upper case and then into lower case, or the other way
round, is putting it into the second case, but for a few: those whose lower case is that of another letter too (`oneWayCapitals`) and
those whose upper case is (`oneWaySmall`).
-/

namespace EventScript.Text

/-! ## Code points -/

/-- The images of a code point in a case. -/
def codes (special : List (Nat × List Nat)) (runs : List (Row (Nat × Nat))) (n : Nat) : List Nat :=
  (special.lookup n).getD [mapRuns runs n]

def upperCodes : Nat → List Nat := codes upperSpecial upperRuns

def lowerCodes : Nat → List Nat := codes lowerSpecial lowerRuns

/-- The case mapping of a character is that of its code point. -/
theorem mapCase_eq (special : List (Nat × List Nat)) (runs : List (Row (Nat × Nat))) (c : Char) :
    mapCase special runs c = (codes special runs c.toNat).map Char.ofNat := by
  unfold mapCase codes
  cases special.lookup c.toNat <;> rfl

/-- Capitals whose lower case has another upper case: `İ`, `ϴ`, `ẞ`, and the signs of the ohm, the kelvin and the ångström. -/
def oneWayCapitals : List Nat := [0x130, 0x3F4, 0x1E9E, 0x2126, 0x212A, 0x212B]

/-- Characters whose upper case has another lower case, but for the small sigmas: variants of small letters, such as `ı`, `ſ` and `ϑ`, and
characters that become several in upper case, such as `ß` and `ﬁ`. -/
def oneWaySmall : List (Nat × Nat) := [
  (0xB5, 0xB5), (0xDF, 0xDF), (0x131, 0x131), (0x149, 0x149), (0x17F, 0x17F), (0x1F0, 0x1F0), (0x345, 0x345), (0x390, 0x390),
  (0x3B0, 0x3B0), (0x3D0, 0x3D1), (0x3D5, 0x3D6), (0x3F0, 0x3F1), (0x3F5, 0x3F5), (0x587, 0x587), (0x1C80, 0x1C88),
  (0x1E96, 0x1E9B), (0x1F50, 0x1F50), (0x1F52, 0x1F52), (0x1F54, 0x1F54), (0x1F56, 0x1F56), (0x1F80, 0x1FAF), (0x1FB2, 0x1FB4),
  (0x1FB6, 0x1FB7), (0x1FBC, 0x1FBC), (0x1FBE, 0x1FBE), (0x1FC2, 0x1FC4), (0x1FC6, 0x1FC7), (0x1FCC, 0x1FCC), (0x1FD2, 0x1FD3),
  (0x1FD6, 0x1FD7), (0x1FE2, 0x1FE4), (0x1FE6, 0x1FE7), (0x1FF2, 0x1FF4), (0x1FF6, 0x1FF7), (0x1FFC, 0x1FFC), (0xFB00, 0xFB06),
  (0xFB13, 0xFB17)]

/-- The sigmas. The lower case of the capital depends on its place; one of the small ones is for the end of a word. -/
def sigmas : List Nat := [0x3A3, 0x3C2, 0x3C3]

/-- What the two cases make of the upper case of a code point. The place of a sigma depends on which characters are `cased` and which are
`ignored`. -/
structure FoldsUp (upper lower : Nat → List Nat) (cased ignored oneWay : Nat → Bool) (n : Nat) : Prop where
  valid : ∀ m ∈ upper n, m.isValidChar
  upper_twice : (upper n).flatMap upper = upper n
  lower_upper : oneWay n = false → (upper n).length = 1 ∧ ∀ m ∈ upper n,
    cased m = cased n ∧ ignored m = ignored n ∧ (m = 0x3A3 ↔ n ∈ sigmas) ∧ (n ∉ sigmas → lower m = lower n)
  lower_upper_head : oneWay n = true → n ∉ sigmas ∧ upper n ≠ [] ∧
    ∀ m ∈ (upper n).take 1, m ≠ 0x3A3 ∧ (lower m).head? ≠ (lower n).head?

instance (upper lower : Nat → List Nat) (cased ignored oneWay : Nat → Bool) (n : Nat) :
    Decidable (FoldsUp upper lower cased ignored oneWay n) :=
  decidable_of_iff (_ ∧ _ ∧ _ ∧ _) ⟨fun ⟨h₁, h₂, h₃, h₄⟩ => ⟨h₁, h₂, h₃, h₄⟩, fun ⟨h₁, h₂, h₃, h₄⟩ => ⟨h₁, h₂, h₃, h₄⟩⟩

/-- What the two cases make of the lower case of a code point. -/
structure FoldsDown (upper lower : Nat → List Nat) (n : Nat) : Prop where
  valid : ∀ m ∈ lower n, m.isValidChar
  not_nil : lower n ≠ []
  lower_twice : ∀ m ∈ lower n, lower m = [m] ∧ m ≠ 0x3A3
  upper_lower : n ∉ oneWayCapitals → (lower n).flatMap upper = upper n
  upper_lower_head : n ∈ oneWayCapitals → ((lower n).flatMap upper).head? ≠ (upper n).head?

instance (upper lower : Nat → List Nat) (n : Nat) : Decidable (FoldsDown upper lower n) :=
  decidable_of_iff (_ ∧ _ ∧ _ ∧ _ ∧ _)
    ⟨fun ⟨h₁, h₂, h₃, h₄, h₅⟩ => ⟨h₁, h₂, h₃, h₄, h₅⟩, fun ⟨h₁, h₂, h₃, h₄, h₅⟩ => ⟨h₁, h₂, h₃, h₄, h₅⟩⟩

/-! ## The tables in trees -/

/-- The images of a code point in a case, found in trees. -/
def codesIn (special : Search (List Nat)) (runs : Search (Nat × Nat)) (n : Nat) : List Nat :=
  match special.find? n with
  | some row => row.value
  | none => [runImage n (runs.find? n)]

/-- Rising tables map a code point as the trees made of them do. -/
theorem codesIn_eq {special : List (Nat × List Nat)} {runs : List (Row (Nat × Nat))} (hspecial : Rising (keyed special))
    (hruns : Rising runs) : codesIn (.ofRows (keyed special)) (.ofRows runs) = codes special runs := by
  funext n
  unfold codesIn codes
  rw [Search.find?_ofRows hspecial, Search.find?_ofRows hruns, lookup_eq, mapRuns_eq hruns]
  cases (keyed special).find? (Row.holds n) <;> rfl

def withinTree (ranges : Search Unit) (n : Nat) : Bool := (ranges.find? n).isSome

/-- A code point is in one of rising ranges if the tree made of them has it. -/
theorem withinTree_eq {ranges : List (Nat × Nat)} (h : Rising (spread ranges)) :
    withinTree (.ofRows (spread ranges)) = within ranges := by
  funext n
  rw [withinTree, Search.find?_ofRows h, within_eq h]

/-- The code points of a list of ranges. -/
def rangeCodes (ranges : List (Nat × Nat)) : List Nat := ranges.flatMap fun range => List.range' range.1 (range.2 - range.1 + 1)

/-- The code points that runs are about. -/
def runCodes (runs : List (Row (Nat × Nat))) : List Nat :=
  runs.flatMap fun r => List.range' r.first ((r.last - r.first) / r.value.1 + 1) r.value.1

/-- The code points that a case changes. -/
def changedCodes (special : List (Nat × List Nat)) (runs : List (Row (Nat × Nat))) : List Nat := special.map Prod.fst ++ runCodes runs

/-- The code points that change in upper case fold as they should, by the tables themselves. -/
theorem foldsUp_changed : ∀ n ∈ changedCodes upperSpecial upperRuns ++ rangeCodes oneWaySmall,
    FoldsUp (codesIn (.ofRows (keyed upperSpecial)) (.ofRows upperRuns)) (codesIn (.ofRows (keyed lowerSpecial)) (.ofRows lowerRuns))
      (withinTree (.ofRows (spread casedRanges))) (withinTree (.ofRows (spread caseIgnorableRanges)))
      (withinTree (.ofRows (spread oneWaySmall))) n := by
  decide +kernel

/-- The code points that change in lower case fold as they should, by the tables themselves. -/
theorem foldsDown_changed : ∀ n ∈ changedCodes lowerSpecial lowerRuns ++ oneWayCapitals,
    FoldsDown (codesIn (.ofRows (keyed upperSpecial)) (.ofRows upperRuns))
      (codesIn (.ofRows (keyed lowerSpecial)) (.ofRows lowerRuns)) n := by
  decide +kernel

/-! ## All code points -/

/-- The tables of the mappings rise. -/
theorem mappings_rising :
    (Rising (keyed upperSpecial) ∧ Rising upperRuns) ∧ Rising (keyed lowerSpecial) ∧ Rising lowerRuns := by
  decide +kernel

/-- The tables of ranges rise. -/
theorem ranges_rising :
    Rising (spread casedRanges) ∧ Rising (spread caseIgnorableRanges) ∧ Rising (spread oneWaySmall) := by
  decide +kernel

/-- Each sigma is changed by one of the cases: the small ones in upper case, the capital in lower case. -/
theorem sigmas_changed : (0x3C2 ∈ changedCodes upperSpecial upperRuns ∧ 0x3C3 ∈ changedCodes upperSpecial upperRuns) ∧
    0x3A3 ∈ changedCodes lowerSpecial lowerRuns := by
  decide +kernel

/-- The trees for upper case map as the tables do. -/
theorem codesIn_upper : codesIn (.ofRows (keyed upperSpecial)) (.ofRows upperRuns) = upperCodes :=
  codesIn_eq mappings_rising.1.1 mappings_rising.1.2

/-- The trees for lower case map as the tables do. -/
theorem codesIn_lower : codesIn (.ofRows (keyed lowerSpecial)) (.ofRows lowerRuns) = lowerCodes :=
  codesIn_eq mappings_rising.2.1 mappings_rising.2.2

/-- A code point that no run is about stays as it is. -/
theorem mapRuns_of_notMem {runs : List (Row (Nat × Nat))} {n : Nat} (h : n ∉ runCodes runs) : mapRuns runs n = n := by
  induction runs with
  | nil => rfl
  | cons run rest ih =>
    obtain ⟨first, last, step, image⟩ := run
    obtain ⟨hrun, hrest⟩ := not_or.mp (fun hmem => h (List.mem_append.mpr hmem))
    unfold mapRuns
    split
    next => rfl
    next hle =>
      rw [if_neg, ih hrest]
      intro hin
      obtain ⟨hlast, hstep⟩ := Bool.and_eq_true_iff.mp hin
      have hlast := of_decide_eq_true hlast
      refine hrun (List.mem_range'.mpr ⟨(n - first) / step, ?_, ?_⟩)
      · exact Nat.lt_succ_of_le (Nat.div_le_div_right (Nat.sub_le_sub_right hlast first))
      · have hdiv := Nat.div_add_mod (n - first) step
        rw [eq_of_beq hstep, Nat.add_zero] at hdiv
        show n = first + step * ((n - first) / step)
        omega

/-- A code point that a case does not change is its own image. -/
theorem codes_of_notMem {special : List (Nat × List Nat)} {runs : List (Row (Nat × Nat))} {n : Nat}
    (h : n ∉ changedCodes special runs) : codes special runs n = [n] := by
  obtain ⟨hspecial, hruns⟩ := not_or.mp (fun hmem => h (List.mem_append.mpr hmem))
  have hlookup : special.lookup n = none := by
    refine List.lookup_eq_none_iff.mpr fun entry hentry => bne_iff_ne.mpr fun hkey => hspecial ?_
    exact List.mem_map.mpr ⟨entry, hentry, hkey.symm⟩
  rw [codes, hlookup, mapRuns_of_notMem hruns]
  rfl

/-- A code point in one of the ranges is listed with them. -/
theorem mem_rangeCodes {ranges : List (Nat × Nat)} {n : Nat} (h : within ranges n = true) : n ∈ rangeCodes ranges := by
  induction ranges with
  | nil => cases h
  | cons range rest ih =>
    obtain ⟨first, last⟩ := range
    unfold within at h
    split at h
    next => cases h
    next hle =>
      refine List.mem_append.mpr ?_
      rcases Bool.or_eq_true_iff.mp h with h | h
      · exact .inl (List.mem_range'.mpr ⟨n - first, by have := of_decide_eq_true h; omega, by omega⟩)
      · exact .inr (ih h)

/-- Every code point folds up as it should. -/
theorem foldsUp (c : Char) :
    FoldsUp upperCodes lowerCodes (within casedRanges) (within caseIgnorableRanges) (within oneWaySmall) c.toNat := by
  have hn : c.toNat.isValidChar := c.valid
  generalize c.toNat = n at hn ⊢
  by_cases h : n ∈ changedCodes upperSpecial upperRuns ++ rangeCodes oneWaySmall
  · have hfolds := foldsUp_changed n h
    obtain ⟨hcased, hignorable, hsmall⟩ := ranges_rising
    rwa [codesIn_upper, codesIn_lower, withinTree_eq hcased, withinTree_eq hignorable, withinTree_eq hsmall] at hfolds
  · obtain ⟨hchanged, hrange⟩ := not_or.mp (fun hmem => h (List.mem_append.mpr hmem))
    have hupper : upperCodes n = [n] := codes_of_notMem hchanged
    have hsigma : n ∈ sigmas ↔ n = 0x3A3 := by
      refine ⟨fun hmem => ?_, fun heq => heq ▸ List.mem_cons_self⟩
      simp only [sigmas, List.mem_cons, List.not_mem_nil, or_false] at hmem
      rcases hmem with rfl | rfl | rfl
      · rfl
      · exact absurd sigmas_changed.1.1 hchanged
      · exact absurd sigmas_changed.1.2 hchanged
    refine ⟨?_, ?_, fun _ => ?_, fun honeWay => absurd (mem_rangeCodes honeWay) hrange⟩
    · rwa [hupper, List.forall_mem_singleton]
    · rw [hupper, List.flatMap_singleton, hupper]
    · rw [hupper, List.forall_mem_singleton]
      exact ⟨rfl, rfl, rfl, hsigma.symm, fun _ => rfl⟩

/-- Every code point folds down as it should. -/
theorem foldsDown (c : Char) : FoldsDown upperCodes lowerCodes c.toNat := by
  have hn : c.toNat.isValidChar := c.valid
  generalize c.toNat = n at hn ⊢
  by_cases h : n ∈ changedCodes lowerSpecial lowerRuns ++ oneWayCapitals
  · have hfolds := foldsDown_changed n h
    rwa [codesIn_upper, codesIn_lower] at hfolds
  · obtain ⟨hchanged, honeWay⟩ := not_or.mp (fun hmem => h (List.mem_append.mpr hmem))
    have hlower : lowerCodes n = [n] := codes_of_notMem hchanged
    refine ⟨?_, ?_, ?_, fun _ => ?_, fun hmem => absurd hmem honeWay⟩
    · rwa [hlower, List.forall_mem_singleton]
    · rw [hlower]
      exact List.cons_ne_nil n []
    · rw [hlower, List.forall_mem_singleton]
      refine ⟨hlower, fun heq => hchanged ?_⟩
      rw [heq]
      exact sigmas_changed.2
    · rw [hlower, List.flatMap_singleton]

end EventScript.Text
