import Std.Data.ExtTreeMap.Lemmas
import Mathlib.Logic.Basic
import EventScript.Trigger.Engine

/-!
# What is in a table of cooldowns

A table is known by what has been done to it. The history of an engine is the list of the cooldowns that were started and of
those that were cleared, the last one first, and a cooldown is in force from its start until it runs out, unless it is cleared or
replaced (`Cooldown.InForce`). An engine that agrees with a history finds an actor cooling down where a cooldown is in force, now
and at any later instant (`Engine.Agrees`); each thing that is done to a table keeps it so, whether or not what has run out is
dropped meanwhile.
-/

namespace EventScript

/-- A cooldown that was put on an actor for a trigger. -/
structure Cooldown where
  trigger : Nat
  actor : String
  /-- The instant at which it starts. -/
  start : Nat
  length : Duration
  /-- The activation whose script started it. If there is none, the host did. -/
  starter : Option Nat
deriving DecidableEq, Repr

/-- The instant at which it has run out. -/
def Cooldown.expiry (c : Cooldown) : Nat := c.start + min c.length.nanoseconds Cooldowns.longest.nanoseconds

/-- What is done to the cooldowns of an engine. -/
inductive CooldownEvent where
  | started (c : Cooldown)
  | cleared (trigger : Nat) (actor : String)
deriving DecidableEq, Repr

/-- The event is about the cooldown of this actor for this trigger. -/
def CooldownEvent.Concerns (trigger : Nat) (actor : String) : CooldownEvent → Prop
  | .started c => c.trigger = trigger ∧ c.actor = actor
  | .cleared t a => t = trigger ∧ a = actor

/-- The cooldown has been started, and neither cleared nor replaced since, and it has not run out. -/
def Cooldown.InForce (c : Cooldown) (history : List CooldownEvent) (now : Nat) : Prop :=
  ∃ later earlier, history = later ++ .started c :: earlier ∧ (∀ x ∈ later, ¬x.Concerns c.trigger c.actor) ∧ now < c.expiry

/-- Some cooldown of the actor for the trigger is in force. -/
def CoolsDown (history : List CooldownEvent) (trigger : Nat) (actor : String) (now : Nat) : Prop :=
  ∃ c : Cooldown, c.trigger = trigger ∧ c.actor = actor ∧ c.InForce history now

/-- The member `y` of a list whose members in front of it do not have the property. -/
def Latest {α : Type} (P : α → Prop) (y : α) (history : List α) : Prop :=
  ∃ later earlier, history = later ++ y :: earlier ∧ ∀ x ∈ later, ¬P x

/-- In an empty history nothing is the latest. -/
theorem not_latest_nil {α : Type} {P : α → Prop} {y : α} : ¬Latest P y [] := by
  rintro ⟨later, earlier, hsplit, -⟩
  exact List.append_ne_nil_of_right_ne_nil later (List.cons_ne_nil y earlier) hsplit.symm

/-- The latest is in front, or it is the latest of the others and the front one is of another kind. -/
theorem latest_cons {α : Type} {P : α → Prop} {x y : α} {history : List α} :
    Latest P y (x :: history) ↔ x = y ∨ ¬P x ∧ Latest P y history := by
  constructor
  · rintro ⟨later, earlier, hsplit, hlater⟩
    cases later with
    | nil => exact .inl (List.cons.inj hsplit).1
    | cons z later =>
      obtain ⟨rfl, rfl⟩ := List.cons.inj hsplit
      obtain ⟨hx, hrest⟩ := List.forall_mem_cons.mp hlater
      exact .inr ⟨hx, later, earlier, rfl, hrest⟩
  · rintro (rfl | ⟨hx, later, earlier, rfl, hlater⟩)
    · exact ⟨[], history, rfl, List.forall_mem_nil _⟩
    · exact ⟨x :: later, earlier, rfl, List.forall_mem_cons.mpr ⟨hx, hlater⟩⟩

section

variable {c : Cooldown} {x : CooldownEvent} {history : List CooldownEvent} {trigger now : Nat} {actor : String}

/-- A cooldown is in force if it is the latest that concerns its actor and has not run out. -/
theorem Cooldown.inForce_iff_latest :
    c.InForce history now ↔ Latest (CooldownEvent.Concerns c.trigger c.actor) (.started c) history ∧ now < c.expiry := by
  simp only [Cooldown.InForce, Latest, ← and_assoc, exists_and_right]

/-- It is in force if it has just been started, or was before and nothing has concerned it since. -/
theorem Cooldown.inForce_cons :
    c.InForce (x :: history) now ↔
      x = .started c ∧ now < c.expiry ∨ ¬x.Concerns c.trigger c.actor ∧ c.InForce history now := by
  rw [inForce_iff_latest, inForce_iff_latest, latest_cons, or_and_right, and_assoc]

/-- At the beginning nobody cools down. -/
theorem not_coolsDown_nil : ¬CoolsDown [] trigger actor now := by
  rintro ⟨c, -, -, hc⟩
  exact not_latest_nil (Cooldown.inForce_iff_latest.mp hc).1

/-- What was done last to the cooldown of an actor decides. -/
theorem coolsDown_started :
    CoolsDown (.started c :: history) trigger actor now ↔
      if c.trigger = trigger ∧ c.actor = actor then now < c.expiry else CoolsDown history trigger actor now := by
  split
  next hc =>
    constructor
    · rintro ⟨d, htrigger, hactor, hd⟩
      obtain ⟨⟨⟩, hnow⟩ | ⟨hother, -⟩ := Cooldown.inForce_cons.mp hd
      · exact hnow
      · exact absurd ⟨hc.1.trans htrigger.symm, hc.2.trans hactor.symm⟩ hother
    · exact fun hnow => ⟨c, hc.1, hc.2, Cooldown.inForce_cons.mpr (.inl ⟨rfl, hnow⟩)⟩
  next hc =>
    refine exists_congr fun d => and_congr_right fun htrigger => and_congr_right fun hactor => ?_
    subst htrigger hactor
    rw [Cooldown.inForce_cons]
    constructor
    · rintro (⟨⟨⟩, -⟩ | ⟨-, hd⟩)
      · exact absurd ⟨rfl, rfl⟩ hc
      · exact hd
    · exact fun hd => .inr ⟨hc, hd⟩

/-- To clear a cooldown ends that one and no other. -/
theorem coolsDown_cleared {t : Nat} {a : String} :
    CoolsDown (.cleared t a :: history) trigger actor now ↔ ¬(t = trigger ∧ a = actor) ∧ CoolsDown history trigger actor now := by
  constructor
  · rintro ⟨c, rfl, rfl, hc⟩
    obtain ⟨⟨⟩, -⟩ | ⟨hother, hc⟩ := Cooldown.inForce_cons.mp hc
    exact ⟨hother, c, rfl, rfl, hc⟩
  · rintro ⟨hother, c, rfl, rfl, hc⟩
    exact ⟨c, rfl, rfl, Cooldown.inForce_cons.mpr (.inr ⟨hother, hc⟩)⟩

end

/-! ## Tables -/

namespace Cooldowns

variable (t : Cooldowns) {start now : Nat} {actor other : String}

/-- An actor cools down in a table exactly if there is an instant for it that has not come. -/
theorem isCooling_iff : t.isCooling now actor = true ↔ ∃ expiry, t.expiries[actor]? = some expiry ∧ now < expiry := by
  unfold isCooling remaining
  cases t.expiries[actor]? with
  | none => simp
  | some expiry => simp [Nat.sub_eq_zero_iff_le]

/-- That is so if some time remains. -/
theorem isCooling_iff_remaining : t.isCooling now actor = true ↔ 0 < (t.remaining now actor).nanoseconds := by
  unfold isCooling
  rw [bne_iff_ne, Nat.pos_iff_ne_zero]

/-- To drop what has run out changes nothing for those who ask later. -/
theorem remaining_current (h : start ≤ now) : (t.current start).remaining now actor = t.remaining now actor := by
  unfold current remaining
  simp only [Std.ExtTreeMap.getElem?_filter']
  cases t.expiries[actor]? with
  | none => rfl
  | some expiry =>
    by_cases hexpiry : start < expiry
    · simp only [Option.filter_some, hexpiry, decide_true, if_true]
    · have hnone : expiry - now = 0 := by omega
      simp only [Option.filter_some, hexpiry, decide_false, Bool.false_eq_true, if_false, hnone]

/-- A cooldown is put on an actor, and nothing is dropped. -/
def put (t : Cooldowns) (now : Nat) (actor : String) (d : Duration) : Cooldowns :=
  let length := min d.nanoseconds longest.nanoseconds
  ⟨if length = 0 then t.expiries.erase actor else t.expiries.insert actor (now + length)⟩

/-- To start a cooldown is to drop those that have run out and to put it in. -/
theorem start_eq_put (start : Nat) (d : Duration) : t.start start actor d = (t.current start).put start actor d := rfl

/-- What remains behind a cooldown that is put in: its own length up to the longest one, and for others what did before. -/
theorem remaining_put (d : Duration) (h : start ≤ now) :
    (t.put start actor d).remaining now other =
      if actor = other then ⟨start + min d.nanoseconds longest.nanoseconds - now⟩ else t.remaining now other := by
  unfold put remaining
  by_cases hlength : min d.nanoseconds longest.nanoseconds = 0
  · by_cases hactor : actor = other
    · subst hactor
      have hnone : start + 0 - now = 0 := by omega
      simp only [hlength, Std.ExtTreeMap.getElem?_erase_self, hnone, if_true]
    · simp only [if_pos hlength, if_neg hactor, Std.ExtTreeMap.getElem?_erase, Std.LawfulEqCmp.compare_eq_iff_eq]
  · by_cases hactor : actor = other
    · subst hactor
      simp only [if_neg hlength, Std.ExtTreeMap.getElem?_insert_self, if_true]
    · simp only [if_neg hlength, if_neg hactor, Std.ExtTreeMap.getElem?_insert, Std.LawfulEqCmp.compare_eq_iff_eq]

/-- The same if it is started, as what has run out has nothing left in any case. -/
theorem remaining_start (d : Duration) (h : start ≤ now) :
    (t.start start actor d).remaining now other =
      if actor = other then ⟨start + min d.nanoseconds longest.nanoseconds - now⟩ else t.remaining now other := by
  rw [start_eq_put, remaining_put _ d h, t.remaining_current h]

/-- What is cleared has nothing left. -/
theorem remaining_clear :
    (t.clear actor).remaining now other = if actor = other then ⟨0⟩ else t.remaining now other := by
  unfold clear remaining
  by_cases hactor : actor = other
  · subst hactor
    simp only [Std.ExtTreeMap.getElem?_erase_self, if_true]
  · simp only [Std.ExtTreeMap.getElem?_erase, Std.LawfulEqCmp.compare_eq_iff_eq, hactor, if_false]

/-- Nobody has more or less left behind a purge. -/
theorem remaining_purge (h : start ≤ now) : (t.purge start).2.remaining now actor = t.remaining now actor :=
  t.remaining_current h

/-- Who cools down behind a start: the actor up to its new instant, and others as before. -/
theorem isCooling_start (d : Duration) (h : start ≤ now) :
    (t.start start actor d).isCooling now other = true ↔
      if actor = other then now < start + min d.nanoseconds longest.nanoseconds else t.isCooling now other = true := by
  rw [isCooling_iff_remaining, isCooling_iff_remaining, t.remaining_start d h]
  split
  · exact Nat.sub_pos_iff_lt
  · exact Iff.rfl

/-- Who cools down behind a clearance: all others as before. -/
theorem isCooling_clear :
    (t.clear actor).isCooling now other = true ↔ actor ≠ other ∧ t.isCooling now other = true := by
  rw [isCooling_iff_remaining, isCooling_iff_remaining, remaining_clear]
  split
  next hactor => simp only [hactor, ne_eq, not_true_eq_false, false_and, Nat.lt_irrefl]
  next hactor => exact (and_iff_right hactor).symm

/-- A purge cannot be told by who cools down. -/
theorem isCooling_purge (h : start ≤ now) : (t.purge start).2.isCooling now actor = t.isCooling now actor := by
  rw [Bool.eq_iff_iff, isCooling_iff_remaining, isCooling_iff_remaining, t.remaining_purge h]

end Cooldowns

/-! ## Engines -/

namespace Engine

variable {H : Type} {e e' : Engine H} {history : List CooldownEvent}

/-- Each trigger has a table of its own. -/
theorem cooldownsOf_setCooldowns (e : Engine H) (trigger other : Nat) (t : Cooldowns) :
    (e.setCooldowns trigger t).cooldownsOf other = if trigger = other then t else e.cooldownsOf other := by
  unfold cooldownsOf setCooldowns
  rw [Std.ExtTreeMap.getElem?_insert]
  by_cases hother : trigger = other
  · rw [if_pos (Std.LawfulEqCmp.compare_eq_iff_eq.mpr hother), if_pos hother]
    rfl
  · rw [if_neg (mt Std.LawfulEqCmp.compare_eq_iff_eq.mp hother), if_neg hother]

/-- Those cool down by the tables of an engine on whom a cooldown is in force. -/
def Agrees (e : Engine H) (history : List CooldownEvent) : Prop :=
  ∀ trigger actor now, e.clock.now ≤ now →
    ((e.cooldownsOf trigger).isCooling now actor = true ↔ CoolsDown history trigger actor now)

/-- A new engine agrees with a history of nothing. -/
theorem agrees_new (settings : Settings) (main : MainThread) (attended : Bool) (host : H) (globals : Globals) (files : Files)
    (clock : Clock) : (new settings main attended host globals files clock).Agrees [] := by
  intro trigger actor now _
  refine iff_of_false (fun hcooling => ?_) not_coolsDown_nil
  obtain ⟨expiry, hexpiry, -⟩ := (Cooldowns.isCooling_iff _).mp hcooling
  have hempty : (new settings main attended host globals files clock).cooldownsOf trigger = .empty := by
    unfold cooldownsOf
    exact congrArg (Option.getD · Cooldowns.empty) Std.ExtTreeMap.getElem?_empty
  rw [hempty] at hexpiry
  cases Std.ExtTreeMap.getElem?_empty.symm.trans hexpiry

/-- Time goes by. -/
theorem Agrees.later (h : e.Agrees history) (hcooldowns : e'.cooldowns = e.cooldowns) (hclock : e.clock.now ≤ e'.clock.now) :
    e'.Agrees history := by
  intro trigger actor now hnow
  unfold cooldownsOf
  rw [hcooldowns]
  exact h trigger actor now (Nat.le_trans hclock hnow)

/-- It agrees with a history that goes on by a start, as the engine does. -/
theorem Agrees.start (h : e.Agrees history) {c : Cooldown} (hstart : c.start ≤ e.clock.now) :
    (e.setCooldowns c.trigger ((e.cooldownsOf c.trigger).start c.start c.actor c.length)).Agrees (.started c :: history) := by
  intro trigger actor now hnow
  have hbefore := h trigger actor now hnow
  rw [coolsDown_started, cooldownsOf_setCooldowns]
  by_cases htrigger : c.trigger = trigger
  · subst htrigger
    rw [if_pos rfl, Cooldowns.isCooling_start _ _ (Nat.le_trans hstart hnow), hbefore]
    simp only [true_and, Cooldown.expiry]
  · rw [if_neg htrigger, if_neg fun hboth => htrigger hboth.1]
    exact hbefore

/-- And by a clearance. -/
theorem Agrees.clear (h : e.Agrees history) (trigger : Nat) (actor : String) :
    (e.setCooldowns trigger ((e.cooldownsOf trigger).clear actor)).Agrees (.cleared trigger actor :: history) := by
  intro trigger' actor' now hnow
  have hbefore := h trigger' actor' now hnow
  rw [coolsDown_cleared, cooldownsOf_setCooldowns]
  by_cases htrigger : trigger = trigger'
  · subst htrigger
    rw [if_pos rfl, Cooldowns.isCooling_clear, hbefore]
    simp only [true_and, ne_eq]
  · rw [if_neg htrigger, hbefore]
    exact (and_iff_right fun hboth => htrigger hboth.1).symm

/-- A purge is nothing for a history. -/
theorem Agrees.purge (h : e.Agrees history) (trigger : Nat) {start : Nat} (hstart : start ≤ e.clock.now) :
    (e.setCooldowns trigger ((e.cooldownsOf trigger).purge start).2).Agrees history := by
  intro trigger' actor now hnow
  have hbefore := h trigger' actor now hnow
  rw [cooldownsOf_setCooldowns]
  by_cases htrigger : trigger = trigger'
  · subst htrigger
    rw [if_pos rfl, Cooldowns.isCooling_purge _ (Nat.le_trans hstart hnow)]
    exact hbefore
  · rw [if_neg htrigger]
    exact hbefore

end Engine

end EventScript
