import EventScript.Proofs.Run.Basic
import EventScript.Proofs.Run.Linked

/-!
# Runs that stay together until one is lost

Two runs go side by side from states that belong together. What happens in both leaves them in states that belong together, with
the same result, unless the first run gets lost on the way: then nothing is said about it any more, except that it stays lost. A
`Pairing` says which states belong together and which ones are lost, `Pairing.Kept` that two parts keep it. The interpreter keeps
every tie (`Pairing.link`).
-/

namespace EventScript

/-- Which states of two runs belong together, and in which states the first run is lost. -/
structure Pairing (σ₁ σ₂ : Type) where
  Near : σ₁ → σ₂ → Prop
  Lost : σ₁ → Prop

namespace Pairing

variable {σ₁ σ₂ W₁ W₂ ε α β : Type}

/-- The first run ends up lost, or both come to the same in states that belong together. -/
def Same (T : Pairing σ₁ σ₂) (r₁ : α × σ₁) (r₂ : α × σ₂) : Prop := T.Lost r₁.2 ∨ r₁.1 = r₂.1 ∧ T.Near r₁.2 r₂.2

/-- What is lost stays lost, and what is together comes to the same unless it gets lost. -/
structure Kept (T : Pairing σ₁ σ₂) (m₁ : StateM σ₁ α) (m₂ : StateM σ₂ α) : Prop where
  lost : ∀ s₁, T.Lost s₁ → T.Lost (m₁ s₁).2
  near : ∀ s₁ s₂, T.Near s₁ s₂ → T.Same (m₁ s₁) (m₂ s₂)

/-- Scopes belong together that have the same variables. -/
def scope (T : Pairing W₁ W₂) : Pairing (Scope W₁) (Scope W₂) where
  Near s₁ s₂ := s₁.locals = s₂.locals ∧ T.Near s₁.world s₂.world
  Lost s₁ := T.Lost s₁.world

section

variable {T : Pairing σ₁ σ₂}

theorem Kept.pure (a : α) : T.Kept (Pure.pure a) (Pure.pure a) := ⟨fun _ h => h, fun _ _ h => .inr ⟨rfl, h⟩⟩

theorem Kept.bind {m₁ : StateM σ₁ α} {m₂ : StateM σ₂ α} {f₁ : α → StateM σ₁ β} {f₂ : α → StateM σ₂ β} (hm : T.Kept m₁ m₂)
    (hf : ∀ a, T.Kept (f₁ a) (f₂ a)) : T.Kept (m₁ >>= f₁) (m₂ >>= f₂) where
  lost s₁ h := (hf _).lost _ (hm.lost s₁ h)
  near s₁ s₂ h := by
    show T.Same (f₁ (m₁ s₁).1 (m₁ s₁).2) (f₂ (m₂ s₂).1 (m₂ s₂).2)
    rcases hm.near s₁ s₂ h with hlost | ⟨hsame, hnear⟩
    · exact .inl ((hf _).lost _ hlost)
    · rw [← hsame]
      exact (hf _).near _ _ hnear

/-- A change of both states that keeps them together. -/
theorem Kept.change {f₁ : σ₁ → σ₁} {f₂ : σ₂ → σ₂} (hlost : ∀ s₁, T.Lost s₁ → T.Lost (f₁ s₁))
    (hnear : ∀ s₁ s₂, T.Near s₁ s₂ → T.Lost (f₁ s₁) ∨ T.Near (f₁ s₁) (f₂ s₂)) :
    T.Kept (modify f₁ : StateM σ₁ PUnit) (modify f₂ : StateM σ₂ PUnit) :=
  ⟨hlost, fun s₁ s₂ h => (hnear s₁ s₂ h).imp_right fun hs => ⟨rfl, hs⟩⟩

/-- One part that may stop after another. -/
theorem Kept.andThen {m₁ : ExceptT ε (StateM σ₁) α} {m₂ : ExceptT ε (StateM σ₂) α} {f₁ : α → ExceptT ε (StateM σ₁) β}
    {f₂ : α → ExceptT ε (StateM σ₂) β} (hm : T.Kept (α := Except ε α) m₁ m₂)
    (hf : ∀ a, T.Kept (α := Except ε β) (f₁ a) (f₂ a)) :
    T.Kept (α := Except ε β) (m₁ >>= f₁ : ExceptT ε (StateM σ₁) β) (m₂ >>= f₂ : ExceptT ε (StateM σ₂) β) := by
  show T.Kept (StateT.bind m₁ (ExceptT.bindCont f₁)) (StateT.bind m₂ (ExceptT.bindCont f₂))
  refine Kept.bind hm fun r => ?_
  cases r with
  | ok a => exact hf a
  | error reason => exact Kept.pure (Except.error reason)

/-- What goes on with something that is read off both states alike. -/
theorem Kept.get (f₁ : σ₁ → α) (f₂ : σ₂ → α) (m₁ : α → ExceptT ε (StateM σ₁) β) (m₂ : α → ExceptT ε (StateM σ₂) β)
    (hsame : ∀ s₁ s₂, T.Near s₁ s₂ → f₁ s₁ = f₂ s₂) (hm : ∀ a, T.Kept (α := Except ε β) (m₁ a) (m₂ a)) :
    T.Kept (α := Except ε β) (MonadState.get >>= fun s => m₁ (f₁ s) : ExceptT ε (StateM σ₁) β)
      (MonadState.get >>= fun s => m₂ (f₂ s) : ExceptT ε (StateM σ₂) β) where
  lost s₁ h := (hm (f₁ s₁)).lost s₁ h
  near s₁ s₂ h := by
    show T.Same (m₁ (f₁ s₁) s₁) (m₂ (f₂ s₂) s₂)
    rw [hsame s₁ s₂ h]
    exact (hm _).near s₁ s₂ h

end

section

variable {T : Pairing W₁ W₂}

abbrev KeptAct (T : Pairing W₁ W₂) (m₁ : Act W₁ α) (m₂ : Act W₂ α) : Prop := T.Kept (α := Except Halt α) m₁ m₂

abbrev KeptRun (T : Pairing W₁ W₂) (m₁ : Run W₁ α) (m₂ : Run W₂ α) : Prop := T.scope.Kept (α := Except Halt α) m₁ m₂

theorem Kept.lift {m₁ : StateM σ₁ α} {m₂ : StateM σ₂ α} {T : Pairing σ₁ σ₂} (h : T.Kept m₁ m₂) :
    T.Kept (α := Except Halt α) (liftM m₁ : ExceptT Halt (StateM σ₁) α) (liftM m₂ : ExceptT Halt (StateM σ₂) α) :=
  ⟨h.lost, fun s₁ s₂ hs => (h.near s₁ s₂ hs).imp_right fun hr => ⟨congrArg Except.ok hr.1, hr.2⟩⟩

theorem Kept.ofAct {m₁ : Act W₁ α} {m₂ : Act W₂ α} (h : T.KeptAct m₁ m₂) : T.KeptRun (Run.ofAct m₁) (Run.ofAct m₂) where
  lost s₁ := h.lost s₁.world
  near s₁ s₂ hs := (h.near s₁.world s₂.world hs.2).imp_right fun hr => ⟨hr.1, hs.1, hr.2⟩

/-- The interpreter keeps every pairing of scopes. -/
def scopeLink (T : Pairing (Scope W₁) (Scope W₂)) : Link W₁ W₂ where
  Rel {α} m₁ m₂ := T.Kept (α := Except Halt α) m₁ m₂
  pure a := Kept.pure (Except.ok a)
  stop reason _ := Kept.pure (Except.error reason)
  bind := Kept.andThen

/-- The interpreter keeps every pairing. -/
def link (T : Pairing W₁ W₂) : Link W₁ W₂ := T.scope.scopeLink

/-- So scripts keep what all that they find around them keeps. -/
theorem Kept.script {host₁ : Host W₁} {host₂ : Host W₂} (hparts : T.link.Parts host₁ host₂ fun _ => True)
    (henter : ∀ node, T.KeptRun (host₁.enter node) (host₂.enter node)) (fuel : Nat) (script : Script) :
    T.scope.Kept (host₁.run fuel script) (host₂.run fuel script) := by
  have hlinked : Linked T.link host₁ host₁.enter host₂ host₂.enter fun _ => True := hparts.linked fun node _ => henter node
  have hall : T.KeptRun _ _ := hlinked.executeAll (.same (Kept.pure _) fuel) script.statements fun _ _ => trivial
  refine ⟨fun s₁ h => ?_, fun s₁ s₂ h => ?_⟩
  · rw [Host.run_apply]
    exact hall.lost s₁ h
  · rw [Host.run_apply, Host.run_apply]
    exact (hall.near s₁ s₂ h).imp_right fun hr => ⟨congrArg Outcome.of hr.1, hr.2⟩

end

end Pairing

end EventScript
