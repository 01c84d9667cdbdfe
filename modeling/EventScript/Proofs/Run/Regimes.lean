import EventScript.Proofs.Run.Basic
import EventScript.Proofs.Run.Linked

/-!
# Parts under a regime

A `Regime` is an invariant together with a way that the state may go. A part of a program keeps it if, from a state with the
invariant, it comes to one that has the invariant and lies that way (`Regime.Keeps`). Parts that are put together keep what each of
them keeps, and so does the interpreter (`Regime.link`).
-/

namespace EventScript

/-- An invariant, and a way that the state may go. -/
structure Regime (σ : Type) where
  Holds : σ → Prop
  Leads : σ → σ → Prop
  refl : ∀ s, Leads s s
  trans : ∀ {s s' s'' : σ}, Leads s s' → Leads s' s'' → Leads s s''

namespace Regime

variable {σ W ε α β : Type}

/-- From a state with the invariant the part goes the way, to a state with the invariant. -/
def Keeps (R : Regime σ) (m : StateM σ α) : Prop := ∀ s, R.Holds s → R.Holds (m s).2 ∧ R.Leads s (m s).2

/-- The values that the part comes to have a property too. -/
structure Gives (R : Regime σ) (m : ExceptT ε (StateM σ) α) (P : α → Prop) : Prop where
  keeps : R.Keeps (α := Except ε α) m
  gives : ∀ s, R.Holds s → ∀ a, (m s).1 = .ok a → P a

/-- The same for states of which only a part counts. -/
def onPart {τ : Type} (R : Regime σ) (part : τ → σ) : Regime τ where
  Holds s := R.Holds (part s)
  Leads s s' := R.Leads (part s) (part s')
  refl s := R.refl (part s)
  trans h h' := R.trans h h'

/-- The same for scopes, whatever the variables are. -/
def scope (R : Regime W) : Regime (Scope W) := R.onPart Scope.world

section

variable {R : Regime σ}

theorem Keeps.pure (a : α) : R.Keeps (Pure.pure a) := fun s hs => ⟨hs, R.refl s⟩

theorem Keeps.bind {m : StateM σ α} {f : α → StateM σ β} (hm : R.Keeps m) (hf : ∀ a, R.Keeps (f a)) : R.Keeps (m >>= f) := by
  intro s hs
  obtain ⟨hmid, hfirst⟩ := hm s hs
  obtain ⟨hend, hsecond⟩ := hf (m s).1 (m s).2 hmid
  exact ⟨hend, R.trans hfirst hsecond⟩

theorem Keeps.change {f : σ → σ} (h : ∀ s, R.Holds s → R.Holds (f s) ∧ R.Leads s (f s)) :
    R.Keeps (modify f : StateM σ PUnit) := h

/-- One part that may stop after another. -/
theorem Keeps.andThen {m : ExceptT ε (StateM σ) α} {f : α → ExceptT ε (StateM σ) β} (hm : R.Keeps (α := Except ε α) m)
    (hf : ∀ a, R.Keeps (α := Except ε β) (f a)) : R.Keeps (α := Except ε β) (m >>= f : ExceptT ε (StateM σ) β) := by
  show R.Keeps (StateT.bind m (ExceptT.bindCont f))
  refine Keeps.bind hm fun r => ?_
  cases r with
  | ok a => exact hf a
  | error reason => exact Keeps.pure (Except.error reason)

/-- What goes on from values with a property. -/
theorem Gives.andThen {m : ExceptT ε (StateM σ) α} {f : α → ExceptT ε (StateM σ) β} {P : α → Prop} (hm : R.Gives m P)
    (hf : ∀ a, P a → R.Keeps (α := Except ε β) (f a)) : R.Keeps (α := Except ε β) (m >>= f : ExceptT ε (StateM σ) β) := by
  intro s hs
  obtain ⟨hmid, hfirst⟩ := hm.keeps s hs
  rcases Run.cases m s with ⟨a, t, hrun⟩ | ⟨reason, t, hrun⟩
  · rw [hrun] at hmid hfirst
    rw [Run.bind_ok hrun]
    obtain ⟨hend, hsecond⟩ := hf a (hm.gives s hs a (by rw [hrun])) t hmid
    exact ⟨hend, R.trans hfirst hsecond⟩
  · rw [hrun] at hmid hfirst
    rw [Run.bind_error hrun]
    exact ⟨hmid, hfirst⟩

/-- What goes on with the state, which has the invariant. -/
theorem Keeps.get {f : σ → ExceptT ε (StateM σ) β} (hf : ∀ s, R.Holds s → R.Keeps (α := Except ε β) (f s)) :
    R.Keeps (α := Except ε β) (MonadState.get >>= f : ExceptT ε (StateM σ) β) := fun s hs => hf s hs s hs

theorem Keeps.lift {m : StateM σ α} (h : R.Keeps m) : R.Keeps (α := Except ε α) (liftM m : ExceptT ε (StateM σ) α) := h

end

section

variable {R : Regime W}

abbrev KeepsAct (R : Regime W) (m : Act W α) : Prop := R.Keeps (α := Except Halt α) m

abbrev KeepsRun (R : Regime W) (m : Run W α) : Prop := R.scope.Keeps (α := Except Halt α) m

theorem Keeps.ofAct {m : Act W α} (h : R.KeepsAct m) : R.KeepsRun (Run.ofAct m) := fun s hs => h s.world hs

/-- The interpreter keeps every regime. -/
def link (R : Regime W) : Link W W where
  Rel m _ := R.KeepsRun m
  pure a := Keeps.pure (Except.ok a)
  stop reason _ := Keeps.pure (Except.error reason)
  bind := Keeps.andThen

/-- So a script keeps what all that it finds around it keeps. -/
theorem Keeps.script {host : Host W} (hparts : R.link.Parts host host fun _ => True) (henter : ∀ node, R.KeepsRun (host.enter node))
    (fuel : Nat) (script : Script) : R.scope.Keeps (host.run fuel script) := by
  have hlinked : Linked R.link host host.enter host host.enter fun _ => True := hparts.linked fun node _ => henter node
  have hall := hlinked.executeAll (.same (Keeps.pure _) fuel) script.statements fun _ _ => trivial
  intro s hs
  rw [Host.run_apply]
  exact hall s hs

end

end Regime

end EventScript
