import EventScript.Proofs.Run.Basic
import EventScript.Proofs.Run.Linked

/-!
# More fuel

A run that ends before its fuel is used up ends in the same way with more of it. So a script has at most one end: `Host.Ends`.
-/

namespace EventScript

open Host

variable {W α β : Type}

/-- With less fuel a part runs dry, or does the same as with more. -/
def fuelLink (W : Type) : Link W W where
  Rel m₁ m₂ := ∀ s, (m₁ s).1 = .error .outOfFuel ∨ m₁ s = m₂ s
  pure _ := fun _ => .inr rfl
  stop _ _ := fun _ => .inr rfl
  bind := by
    intro α β m₁ m₂ f₁ f₂ hm hf s
    rw [Run.bind_apply, Run.bind_apply]
    rcases hm s with hdry | hsame
    · rcases hr : m₁ s with ⟨reason | a, s'⟩
      · rw [hr] at hdry
        exact .inl (congrArg Except.error (Except.error.inj hdry))
      · rw [hr] at hdry
        cases hdry
    · rw [hsame]
      rcases m₂ s with ⟨reason | a, s'⟩
      · exact .inr rfl
      · exact hf a s'

theorem fuelLink_refl (m : Run W α) : (fuelLink W).Rel m m := fun _ => .inr rfl

theorem fuelLinked (host : Host W) (enter : Node → Run W Unit) :
    Linked (fuelLink W) host enter host enter fun _ => True where
  enter _ _ := fuelLink_refl _
  readName _ _ := fuelLink_refl _
  readGlobal _ _ := fuelLink_refl _
  resolve _ _ _ _ _ := fuelLink_refl _
  bind _ _ _ := fuelLink_refl _
  writeGlobal _ _ _ := fuelLink_refl _
  runCommand _ _ _ _ _ := fuelLink_refl _

theorem fuelLink_fuels {Allowed : Node → Prop} {fuel₁ fuel₂ : Nat} (h : fuel₁ ≤ fuel₂) :
    (fuelLink W).Fuels Allowed fuel₁ fuel₂ :=
  .more (fuelLink_refl _) (fun _ _ _ _ => .inl rfl) h

theorem executeAll_more_fuel (host : Host W) (enter : Node → Run W Unit) {fuel₁ fuel₂ : Nat} (h : fuel₁ ≤ fuel₂)
    (ss : List Statement) (s : Scope W) (hend : (host.executeAll enter fuel₁ ss s).1 ≠ .error .outOfFuel) :
    host.executeAll enter fuel₂ ss s = host.executeAll enter fuel₁ ss s := by
  rcases (fuelLinked host enter).executeAll (fuelLink_fuels h) ss (fun _ _ => trivial) s with hdry | hsame
  · exact absurd hdry hend
  · exact hsame.symm

/-- A run that does not run dry ends in the same way with more fuel. -/
theorem run_more_fuel (host : Host W) {fuel₁ fuel₂ : Nat} (h : fuel₁ ≤ fuel₂) (script : Script) (s : Scope W)
    (hend : (host.run fuel₁ script s).1 ≠ .halted .outOfFuel) : host.run fuel₂ script s = host.run fuel₁ script s := by
  rw [run_apply] at hend ⊢
  rw [run_apply, executeAll_more_fuel host host.enter h script.statements s]
  intro hdry
  rw [hdry] at hend
  exact hend rfl

namespace Host

/-- The run ends with this outcome in this scope, in the same way with any fuel beyond some. A run that never ends has no such
end. -/
def Ends (host : Host W) (script : Script) (s : Scope W) (outcome : Outcome) (s' : Scope W) : Prop :=
  outcome ≠ .halted .outOfFuel ∧ ∃ fuel, ∀ more, host.run (fuel + more) script s = (outcome, s')

/-- A run that does not run dry is the end of the script. -/
theorem Ends.of_run {host : Host W} {script : Script} {s : Scope W} {outcome : Outcome} {fuel : Nat}
    (h : (host.run fuel script s).1 = outcome) (hend : outcome ≠ .halted .outOfFuel) :
    host.Ends script s outcome (host.run fuel script s).2 := by
  refine ⟨hend, fuel, fun more => ?_⟩
  rw [run_more_fuel host (Nat.le_add_right fuel more) script s (by rw [h]; exact hend)]
  exact Prod.ext h rfl

/-- A script has at most one end. -/
theorem Ends.unique {host : Host W} {script : Script} {s s₁ s₂ : Scope W} {outcome₁ outcome₂ : Outcome}
    (h₁ : host.Ends script s outcome₁ s₁) (h₂ : host.Ends script s outcome₂ s₂) : outcome₁ = outcome₂ ∧ s₁ = s₂ := by
  obtain ⟨-, fuel₁, h₁⟩ := h₁
  obtain ⟨-, fuel₂, h₂⟩ := h₂
  have hsame := (h₁ fuel₂).symm.trans (Nat.add_comm fuel₁ fuel₂ ▸ h₂ fuel₁)
  exact ⟨congrArg Prod.fst hsame, congrArg Prod.snd hsame⟩

end Host

end EventScript
