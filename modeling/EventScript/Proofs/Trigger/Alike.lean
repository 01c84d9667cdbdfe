import EventScript.Proofs.Run.Basic
import EventScript.Proofs.Run.Linked
import EventScript.Trigger.Activation

/-!
# Engines alike

Two engines are alike if a script cannot tell them apart: they agree on what host code reaches, on the cancelled events and on the
activations queued before the workers, and both still have what the engine they come from has and no script changes. They may
differ in how often the clock was read, in the numbers of activations and in their phases. Parts of a run are told alike by
`alikeLink`; one of them may be cut off by the limit on the depth of calls.
-/

namespace EventScript.Engine

variable {H : Type}

/-- A queued activation apart from its number. -/
def anonymous (j : Job H) : Job H := { j with activation := { j.activation with id := 0 } }

/-- The queue before the workers apart from the numbers of its activations. -/
def anonymousQueue (e : Engine H) : Pool (Job H) := { e.workers with queue := e.workers.queue.map anonymous }

/-- What a script finds in an engine and does not change as long as it starts no cooldown. -/
structure Fixtures (H : Type) where
  settings : Settings
  commands : Registry (Command H)
  placeholders : Registry (Placeholder H)
  named : Std.ExtTreeMap String Trigger compare
  cooldowns : Std.ExtTreeMap Nat Cooldowns compare
  accepting : Bool
  time : Nat → Nat

def fixtures (e : Engine H) : Fixtures H :=
  ⟨e.settings, e.commands, e.placeholders, e.named, e.cooldowns, e.accepting, e.clock.time⟩

/-- An engine that `e₀` may become while scripts run that start no cooldown. -/
structure Within (e₀ e : Engine H) : Prop where
  fixtures : e.fixtures = e₀.fixtures
  readings : e₀.clock.readings ≤ e.clock.readings

/-- Two engines that come from `e₀` and look the same to scripts. -/
structure Alike (e₀ e₁ e₂ : Engine H) : Prop where
  reach : e₁.reach = e₂.reach
  events : e₁.cancelledEvents = e₂.cancelledEvents
  queue : e₁.anonymousQueue = e₂.anonymousQueue
  first : Within e₀ e₁
  second : Within e₀ e₂

/-- Scopes with the same variables over engines alike. -/
structure SameScope (e₀ : Engine H) (s₁ s₂ : Scope (Engine H)) : Prop where
  locals : s₁.locals = s₂.locals
  world : Alike e₀ s₁.world s₂.world

section

variable {e₀ e e₁ e₂ : Engine H}

/-- No command comes or goes. -/
theorem Within.commands (h : Within e₀ e) : e.commands = e₀.commands := congrArg (·.commands) h.fixtures

/-- No placeholder does. -/
theorem Within.placeholders (h : Within e₀ e) : e.placeholders = e₀.placeholders := congrArg (·.placeholders) h.fixtures

/-- No trigger gets a name or loses it. -/
theorem Within.named (h : Within e₀ e) : e.named = e₀.named := congrArg (·.named) h.fixtures

/-- No cooldown is started or cleared. -/
theorem Within.cooldowns (h : Within e₀ e) : e.cooldowns = e₀.cooldowns := congrArg (·.cooldowns) h.fixtures

/-- The engine accepts as it did. -/
theorem Within.accepting (h : Within e₀ e) : e.accepting = e₀.accepting := congrArg (·.accepting) h.fixtures

/-- No time goes by but with readings of the clock. -/
theorem Within.time (h : Within e₀ e) : e.clock.time = e₀.clock.time := congrArg (·.time) h.fixtures

/-- The settings stay. -/
theorem Within.settings (h : Within e₀ e) : e.settings = e₀.settings := congrArg (·.settings) h.fixtures

/-- An engine may stay what it is. -/
theorem Within.refl (e : Engine H) : Within e e := ⟨rfl, Nat.le_refl _⟩

/-- It is alike to itself. -/
theorem Alike.refl (e : Engine H) : Alike e e e := ⟨rfl, rfl, rfl, .refl e, .refl e⟩

/-- Phases cannot be seen by scripts. -/
theorem Alike.setPhase (h : Alike e₀ e₁ e₂) (id₁ id₂ : Nat) (p₁ p₂ : Phase) :
    Alike e₀ (e₁.setPhase id₁ p₁) (e₂.setPhase id₂ p₂) :=
  ⟨h.reach, h.events, h.queue, ⟨h.first.fixtures, h.first.readings⟩, ⟨h.second.fixtures, h.second.readings⟩⟩

/-- What host code reaches may change in both. -/
theorem Alike.withReach (h : Alike e₀ e₁ e₂) (r : Reach H) :
    Alike e₀ { e₁ with reach := r } { e₂ with reach := r } :=
  ⟨rfl, h.events, h.queue, ⟨h.first.fixtures, h.first.readings⟩, ⟨h.second.fixtures, h.second.readings⟩⟩

/-- So may the event be cancelled in both. -/
theorem Alike.cancelEvent (h : Alike e₀ e₁ e₂) (context : Nat) :
    Alike e₀ (e₁.cancelEvent context) (e₂.cancelEvent context) := by
  have hsame : e₁.isEventCancelled context = e₂.isEventCancelled context := by
    unfold isEventCancelled
    rw [h.events]
  unfold Engine.cancelEvent
  rw [hsame]
  split
  · exact h
  · exact ⟨h.reach, congrArg (context :: ·) h.events, h.queue, ⟨h.first.fixtures, h.first.readings⟩,
      ⟨h.second.fixtures, h.second.readings⟩⟩

end

/-! ## Runs alike -/

/-- The result is the fault of a call beyond the limit on their depth. -/
def DepthFault {α : Type} (r : Except Halt α) : Prop :=
  ∃ trigger limit, r = .error (.failed (.runtime (.callDepth trigger limit)))

/-- What follows a part that is cut off does not happen. -/
theorem DepthFault.bind {W α β : Type} {m : Run W α} {f : α → Run W β} {s : Scope W} (h : DepthFault (m s).1) :
    DepthFault ((m >>= f) s).1 := by
  obtain ⟨trigger, limit, hfault⟩ := h
  refine ⟨trigger, limit, ?_⟩
  rcases hr : m s with ⟨reason | a, s'⟩
  · rw [hr] at hfault
    rw [Run.bind_error hr]
    exact congrArg Except.error (Except.error.inj hfault)
  · rw [hr] at hfault
    cases hfault

/-- The two parts come to the same result in scopes that are the same, or the first is cut off by the depth limit. -/
def RunsAlike {α : Type} (e₀ : Engine H) (m₁ m₂ : Run (Engine H) α) : Prop :=
  ∀ s₁ s₂, SameScope e₀ s₁ s₂ →
    DepthFault (m₁ s₁).1 ∨ (m₁ s₁).1 = (m₂ s₂).1 ∧ SameScope e₀ (m₁ s₁).2 (m₂ s₂).2

section

variable {α β : Type} {e₀ : Engine H}

/-- A result is alike. -/
theorem RunsAlike.pure (a : α) : RunsAlike e₀ (Pure.pure a) (Pure.pure a) := fun _ _ h => .inr ⟨rfl, h⟩

/-- So is a stop. -/
theorem RunsAlike.stop (reason : Halt) : RunsAlike (α := α) e₀ (throw reason) (throw reason) := fun _ _ h => .inr ⟨rfl, h⟩

/-- One part after another, where the second needs to be looked at only for values that the first comes to. -/
theorem RunsAlike.bind_of {m₁ m₂ : Run (Engine H) α} {f₁ f₂ : α → Run (Engine H) β} (hm : RunsAlike e₀ m₁ m₂)
    (hf : ∀ a, (∃ s s', m₂ s = (.ok a, s')) → RunsAlike e₀ (f₁ a) (f₂ a)) :
    RunsAlike e₀ (m₁ >>= f₁) (m₂ >>= f₂) := by
  intro s₁ s₂ hs
  rcases hm s₁ s₂ hs with hdepth | ⟨hsame, hs'⟩
  · exact .inl hdepth.bind
  · rcases hr₁ : m₁ s₁ with ⟨r₁, s₁'⟩
    rcases hr₂ : m₂ s₂ with ⟨r₂, s₂'⟩
    rw [hr₁, hr₂] at hsame hs'
    cases hsame
    cases r₁ with
    | error reason =>
      rw [Run.bind_error hr₁, Run.bind_error hr₂]
      exact .inr ⟨rfl, hs'⟩
    | ok a =>
      rw [Run.bind_ok hr₁, Run.bind_ok hr₂]
      exact hf a ⟨s₂, s₂', hr₂⟩ s₁' s₂' hs'

/-- Two parts run alike if both do. -/
theorem RunsAlike.bind {m₁ m₂ : Run (Engine H) α} {f₁ f₂ : α → Run (Engine H) β} (hm : RunsAlike e₀ m₁ m₂)
    (hf : ∀ a, RunsAlike e₀ (f₁ a) (f₂ a)) : RunsAlike e₀ (m₁ >>= f₁) (m₂ >>= f₂) :=
  hm.bind_of fun a _ => hf a

/-- Being alike is kept by the interpreter. -/
def alikeLink (e₀ : Engine H) : Link (Engine H) (Engine H) where
  Rel := RunsAlike e₀
  pure := .pure
  stop reason _ := .stop reason
  bind := .bind

/-- A part of a run that sees the variables and what host code reaches, and no more. -/
def onlyReach (m : Run (Reach H) α) : Run (Engine H) α := fun s =>
  let r := m ⟨s.locals, s.world.reach⟩
  (r.1, ⟨r.2.locals, { s.world with reach := r.2.world }⟩)

/-- What sees no more than variables and what host code reaches runs alike. -/
theorem runsAlike_onlyReach (m : Run (Reach H) α) : RunsAlike e₀ (onlyReach m) (onlyReach m) := by
  intro s₁ s₂ hs
  refine .inr ?_
  unfold onlyReach
  rw [hs.locals, hs.world.reach]
  exact ⟨rfl, rfl, hs.world.withReach _⟩

/-- What is decided by looking at the engine comes out the same if the engines agree on it. -/
theorem runsAlike_get {f₁ f₂ : Scope (Engine H) → Run (Engine H) α}
    (h : ∀ s₁ s₂, SameScope e₀ s₁ s₂ → RunsAlike e₀ (f₁ s₁) (f₂ s₂)) : RunsAlike e₀ (get >>= f₁) (get >>= f₂) :=
  fun s₁ s₂ hs => h s₁ s₂ hs s₁ s₂ hs

end

end EventScript.Engine
