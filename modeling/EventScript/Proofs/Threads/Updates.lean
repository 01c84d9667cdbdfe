import Mathlib.Logic.Function.Basic

/-!
# What one of many does

Threads, workers and calls go by numbers, and a step is one of one of them. What they are at is a function of the number, changed at
one place. These lemmas say what can be told of another place from what is known behind the change.
-/

namespace EventScript

variable {i k : Nat}

theorem of_update {α : Type} {f : Nat → α} {x y : α} (h : Function.update f i x k = y) : k = i ∧ x = y ∨ k ≠ i ∧ f k = y := by
  rw [Function.update_apply] at h
  split at h
  next hk => exact .inl ⟨hk, h⟩
  next hk => exact .inr ⟨hk, h⟩

/-- Where something else was done, it is what it was. -/
theorem of_update_of_ne {α : Type} {f : Nat → α} {x y : α} (h : Function.update f i x k = y) (hxy : x ≠ y) : f k = y := by
  rcases of_update h with ⟨-, hx⟩ | ⟨-, hy⟩
  · exact absurd hx hxy
  · exact hy

/-- What is elsewhere stays. -/
theorem update_of_eq_of_ne {α : Type} {f : Nat → α} {x y z : α} (hi : f i = z) (hzy : z ≠ y) (h : f k = y) :
    Function.update f i x k = y := by
  have hk : k ≠ i := by
    rintro rfl
    exact hzy (hi.symm.trans h)
  exact (Function.update_of_ne hk ..).trans h

end EventScript
