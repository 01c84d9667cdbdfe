import EventScript.Registry

/-!
# Names of entries

Which entry a name finds after others were registered or removed. Two names that fold alike are one name of one entry
(`sameName_of_fold_eq`), and two that do not have nothing to do with each other (`otherName_of_fold_ne`).
-/

namespace EventScript.Registry

variable {α : Type} {r : Registry α} {name spelling : String}

/-- A name finds what was inserted last under a name that is the same but for case. -/
theorem get?_insert (r : Registry α) (m n : String) (a : α) :
    (r.insert m a).get? n = if r.fold m = r.fold n then some a else r.get? n := by
  unfold get? insert
  rw [Std.ExtTreeMap.getElem?_insert]
  simp only [Std.LawfulEqCmp.compare_eq_iff_eq]

/-- A name that was erased is not found, in either case. -/
theorem get?_erase (r : Registry α) (m n : String) :
    (r.erase m).get? n = if r.fold m = r.fold n then none else r.get? n := by
  unfold get? erase
  rw [Std.ExtTreeMap.getElem?_erase]
  simp only [Std.LawfulEqCmp.compare_eq_iff_eq]

/-- Of two entries under names that are the same but for case the later one stays. -/
theorem insert_insert (h : r.fold spelling = r.fold name) (x y : α) : (r.insert name x).insert spelling y = r.insert name y := by
  unfold insert
  rw [h]
  congr 1
  refine Std.ExtTreeMap.ext_getElem? fun k => ?_
  simp only [Std.ExtTreeMap.getElem?_insert]
  split <;> rfl

/-- What is inserted and erased under names that are the same but for case is gone. -/
theorem erase_insert (h : r.fold spelling = r.fold name) (x : α) : (r.insert name x).erase spelling = r.erase name := by
  unfold insert erase
  dsimp only
  rw [h]
  congr 1
  refine Std.ExtTreeMap.ext_getElem? fun k => ?_
  simp only [Std.ExtTreeMap.getElem?_insert, Std.ExtTreeMap.getElem?_erase]
  split <;> rfl

/-- What is registered under the name is found, removed and replaced under the spelling. -/
structure SameName (r : Registry α) (name spelling : String) : Prop where
  found (x : α) : (r.insert name x).get? spelling = some x
  removed (x : α) : (r.insert name x).erase spelling = r.erase name ∧ (r.erase name).has name = false
  replaced (x y : α) : (r.insert name x).insert spelling y = r.insert name y

/-- What is registered under the name is neither found nor removed nor replaced under the spelling. -/
structure OtherName (r : Registry α) (name spelling : String) : Prop where
  missed (x : α) : (r.insert name x).get? spelling = r.get? spelling
  kept (x : α) : ((r.insert name x).erase spelling).get? name = some x
  added (x y : α) : ((r.insert name x).insert spelling y).get? name = some x ∧
    ((r.insert name x).insert spelling y).get? spelling = some y

/-- Names that fold alike are one name to a registry. -/
theorem sameName_of_fold_eq (h : r.fold spelling = r.fold name) : r.SameName name spelling where
  found x := by rw [get?_insert, if_pos h.symm]
  removed x := by
    refine ⟨erase_insert h x, ?_⟩
    unfold has erase
    rw [Std.ExtTreeMap.contains_erase]
    simp
  replaced x y := insert_insert h x y

/-- Names that do not fold alike are two names to a registry. -/
theorem otherName_of_fold_ne (h : r.fold spelling ≠ r.fold name) : r.OtherName name spelling where
  missed x := by rw [get?_insert, if_neg h.symm]
  kept x := by
    rw [get?_erase, get?_insert, if_pos rfl]
    exact if_neg h
  added x y := by
    rw [get?_insert, get?_insert, get?_insert, if_pos rfl]
    exact ⟨if_neg h, if_pos rfl⟩

end EventScript.Registry
