import EventScript.Proofs.Threads.Basic
import EventScript.Proofs.Trigger.Cooldowns

/-!
# Time and cooldowns

A `System.Step` leaves open what becomes of the clock and of the cooldowns. A tick is a step of which this is said: the clock does
not go back, and cooldowns are started by the scripts that run, each of its own trigger for its own actor, and otherwise changed by
the host alone. A number of ticks gives a history, and an engine agrees with the history of all the ticks that led to it
(`System.Chronicle.agrees`). Ticks are all that an engine does: `Engine.Operation.chronicle`.
-/

namespace EventScript

variable {H : Type}

namespace Engine

/-- Nothing is done to the cooldowns, and the clock does not go back. -/
structure Quiet (e e' : Engine H) : Prop where
  cooldowns : e'.cooldowns = e.cooldowns
  clock : e.clock.now ≤ e'.clock.now

section

variable {e e' e'' : Engine H}

/-- Where the cooldowns and the clock are the same, nothing has been done to them. -/
theorem Quiet.same (hcooldowns : e'.cooldowns = e.cooldowns) (hclock : e'.clock = e.clock) : e.Quiet e' :=
  ⟨hcooldowns, Nat.le_of_eq (congrArg Clock.now hclock).symm⟩

/-- To read the clock moves it onward and leaves the cooldowns alone. -/
theorem quiet_readClock (e : Engine H) : e.Quiet (readClock e).2 := ⟨rfl, e.clock.now_le_now_read⟩

/-- What at most reads the clock is quiet. -/
theorem AtMostReads.quiet (h : e.AtMostReads e') : e.Quiet e' := by
  rcases h with rfl | rfl
  · exact .same rfl rfl
  · exact quiet_readClock e

/-- To ask whether an actor cools down starts no cooldown. -/
theorem quiet_isCooling (t : Trigger) (c : Context H) (e : Engine H) : e.Quiet (isCooling t c e).2 :=
  (isCooling_reads t c e).quiet

/-- To set a deadline starts none either. -/
theorem quiet_start (timeout : Option Duration) (e : Engine H) : e.Quiet (Deadline.start timeout e).2 :=
  (start_reads timeout e).quiet

/-- Neither does a placeholder of the engine itself. -/
theorem quiet_reservedPlaceholder (a : Activation H) (caller : Caller) (name : String) (e : Engine H) :
    e.Quiet (reservedPlaceholder a caller name e).2 := (reservedPlaceholder_reads a caller name e).quiet

/-- Work of the host does not reach the cooldowns. -/
theorem quiet_workHere (w : Work H) (e : Engine H) : e.Quiet (workHere w e).2 := by
  rw [workHere_state]
  exact .same rfl rfl

/-- Global variables have nothing to do with them. -/
theorem quiet_writeGlobal (key : String) (v : Value) (e : Engine H) : e.Quiet (writeGlobal key v e).2 := by
  obtain ⟨globals, h⟩ := writeGlobal_state key v e
  rw [h]
  exact .same rfl rfl

/-- Neither has the event. -/
theorem quiet_cancelEventFor (caller : Caller) (e : Engine H) : e.Quiet (cancelEventFor caller e).2 := by
  obtain h | ⟨-, -, h⟩ := cancelEventFor_cases caller e
  · rw [h]
    exact .same rfl rfl
  · rw [h]
    unfold cancelEvent
    split <;> exact .same rfl rfl

end

end Engine

namespace System

/-- The end of an activation is quiet if nothing was done to the engine before it. -/
theorem EndsIn.quiet {s s' : System H} {θ : Thread} {levels : List (Level H)} {e : Engine H} (h : s.EndsIn θ levels s')
    (hcooldowns : s.engine.cooldowns = e.cooldowns) (hclock : s.engine.clock = e.clock) : e.Quiet s'.engine := by
  obtain ⟨_, he⟩ := h.engine
  rw [he]
  exact .same hcooldowns hclock

/-- Puts another table in the place of one. -/
def setCooldowns (s : System H) (trigger : Nat) (t : Cooldowns) : System H :=
  { s with engine := s.engine.setCooldowns trigger t }

/-- One step, and what is done to the cooldowns in it. Whoever changes a table may have read the clock a while before. -/
inductive Tick : System H → List CooldownEvent → System H → Prop
  | quiet {s s' : System H} : Step s s' → s.engine.Quiet s'.engine → Tick s [] s'
  /-- A script starts a cooldown. -/
  | cool {s : System H} {θ a outside vars σ actor start} (length : Duration) :
      s.stack θ = ⟨.script a outside, vars, .idle⟩ :: σ → a.context.actor = some actor → start ≤ s.engine.clock.now →
      Tick s [.started ⟨a.trigger.id, actor.id, start, length, some a.id⟩]
        (s.setCooldowns a.trigger.id ((s.engine.cooldownsOf a.trigger.id).start start actor.id length))
  /-- The host starts a cooldown. -/
  | hostCools {s : System H} {start} (trigger : Nat) (actor : String) (length : Duration) : start ≤ s.engine.clock.now →
      Tick s [.started ⟨trigger, actor, start, length, none⟩]
        (s.setCooldowns trigger ((s.engine.cooldownsOf trigger).start start actor length))
  /-- The host ends the cooldown of an actor. -/
  | hostClears {s : System H} (trigger : Nat) (actor : String) :
      Tick s [.cleared trigger actor] (s.setCooldowns trigger ((s.engine.cooldownsOf trigger).clear actor))
  /-- The host drops what has run out. -/
  | hostPurges {s : System H} {start} (trigger : Nat) : start ≤ s.engine.clock.now →
      Tick s [] (s.setCooldowns trigger ((s.engine.cooldownsOf trigger).purge start).2)

/-- A number of ticks, and what is done to the cooldowns in them, the last first. -/
inductive Ticks : System H → List CooldownEvent → System H → Prop
  | refl (s : System H) : Ticks s [] s
  | tail {s s' s'' : System H} {history events} : Ticks s history s' → Tick s' events s'' → Ticks s (events ++ history) s''

/-- Any number of ticks. -/
abbrev Passes : System H → System H → Prop := Relation.ReflTransGen fun s s' => ∃ events, Tick s events s'

/-- The systems that a new engine may come to, and what has been done to the cooldowns. -/
inductive Chronicle : System H → List CooldownEvent → Prop
  | new (settings : Settings) (main : MainThread) (attended : Bool) (host : H) (globals : Globals) (files : Files)
      (clock : Clock) : Chronicle (atRest (.new settings main attended host globals files clock)) []
  | tick {s s' : System H} {history events} : Chronicle s history → Tick s events s' → Chronicle s' (events ++ history)

section

variable {s s' s'' : System H} {history events later : List CooldownEvent}

/-- A quiet step is a tick with nothing in its history. -/
theorem Step.tick (hstep : Step s s') (hquiet : s.engine.Quiet s'.engine) : ∃ events, Tick s events s' := ⟨[], .quiet hstep hquiet⟩

/-- A tick is a step. -/
theorem Tick.step (htick : Tick s events s') : Step s s' := by
  cases htick with
  | quiet hstep => exact hstep
  | cool | hostCools | hostClears | hostPurges => exact .act rfl

/-- Ticks behind ticks put their history in front of the one that was there. -/
theorem Ticks.trans (h : Ticks s history s') (h' : Ticks s' later s'') : Ticks s (later ++ history) s'' := by
  induction h' with
  | refl => exact h
  | tail _ htick ih =>
    rw [List.append_assoc]
    exact ih.tail htick

/-- Ticks are steps. -/
theorem Ticks.steps (h : Ticks s history s') : Steps s s' := by
  induction h with
  | refl => exact .refl
  | tail _ htick ih => exact ih.tail htick.step

/-- Any number of ticks has some history. -/
theorem Passes.ticks (h : Passes s s') : ∃ events, Ticks s events s' := by
  induction h with
  | refl => exact ⟨[], .refl s⟩
  | tail _ htick ih =>
    obtain ⟨history, hticks⟩ := ih
    obtain ⟨events, htick⟩ := htick
    exact ⟨events ++ history, hticks.tail htick⟩

/-- And they are steps. -/
theorem Passes.steps (h : Passes s s') : Steps s s' :=
  let ⟨_, hticks⟩ := h.ticks
  hticks.steps

/-- A chronicle goes on with every tick. -/
theorem Chronicle.ticks (h : Chronicle s history) (hticks : Ticks s later s') : Chronicle s' (later ++ history) := by
  induction hticks with
  | refl => exact h
  | tail _ htick ih =>
    rw [List.append_assoc]
    exact ih.tick htick

/-- What has a chronicle can be reached by steps. -/
theorem Chronicle.reachable (h : Chronicle s history) : Reachable s := by
  induction h with
  | new => exact .new ..
  | tick _ htick ih => exact ih.step htick.step

/-- The tables of an engine say what its history says. -/
theorem Tick.agrees (htick : Tick s events s') (h : s.engine.Agrees history) : s'.engine.Agrees (events ++ history) := by
  cases htick with
  | quiet _ hquiet => exact h.later hquiet.cooldowns hquiet.clock
  | cool length _ _ hstart => exact h.start (c := ⟨_, _, _, length, some _⟩) hstart
  | hostCools trigger actor length hstart => exact h.start (c := ⟨trigger, actor, _, length, none⟩) hstart
  | hostClears trigger actor => exact h.clear trigger actor
  | hostPurges trigger hstart => exact h.purge trigger hstart

/-- The engine of a chronicle agrees with its history, tick by tick. -/
theorem Chronicle.agrees (h : Chronicle s history) : s.engine.Agrees history := by
  induction h with
  | new settings main attended host globals files clock =>
    exact Engine.agrees_new settings main attended host globals files clock
  | tick _ htick ih => exact htick.agrees ih

end

end System

end EventScript
