import EventScript.Proofs.Trigger.Cooldowns

/-!
# What a table has left for an actor

A table of cooldowns stands for the last start of each actor. Its history is the list of what was done to it, the last event
first. A start of an actor counts as long as no later event starts or clears the same actor (`Cooldowns.LastStart`), and what is
left for the actor is what is left of that start. One event does to what is left for an actor what `TableEvent.leaves` says, in
a table that drops what has run out and in one that drops nothing; the rest follows by induction along the history.
-/

namespace EventScript

/-- What can be done to a table. -/
inductive TableAct where
  | start (actor : String) (d : Duration)
  | clear (actor : String)
  | purge
deriving DecidableEq, Repr

/-- The cooldown of the actor is started or cleared. -/
def TableAct.Concerns (actor : String) : TableAct → Prop
  | .start other _ => other = actor
  | .clear other => other = actor
  | .purge => False

instance (actor : String) (a : TableAct) : Decidable (a.Concerns actor) :=
  match a with
  | .start other _ => inferInstanceAs (Decidable (other = actor))
  | .clear other => inferInstanceAs (Decidable (other = actor))
  | .purge => inferInstanceAs (Decidable False)

/-- It was done at an instant. -/
structure TableEvent where
  instant : Nat
  act : TableAct
deriving DecidableEq, Repr

namespace Cooldowns

/-- The table behind an event. -/
def perform (t : Cooldowns) (x : TableEvent) : Cooldowns :=
  match x.act with
  | .start actor d => t.start x.instant actor d
  | .clear actor => t.clear actor
  | .purge => (t.purge x.instant).2

/-- The table behind a history that began with an empty one. -/
def after : List TableEvent → Cooldowns
  | [] => .empty
  | x :: earlier => (after earlier).perform x

/-- The table behind an event if nothing is ever dropped because it has run out. -/
def keep (t : Cooldowns) (x : TableEvent) : Cooldowns :=
  match x.act with
  | .start actor d => t.put x.instant actor d
  | .clear actor => t.clear actor
  | .purge => t

/-- The table behind a history if nothing is ever dropped because it has run out. -/
def undropped : List TableEvent → Cooldowns
  | [] => .empty
  | x :: earlier => (undropped earlier).keep x

/-- The start of an actor, at `s` and of length `d`, behind which the actor was neither started again nor cleared. -/
def LastStart (history : List TableEvent) (actor : String) (s : Nat) (d : Duration) : Prop :=
  Latest (·.act.Concerns actor) ⟨s, .start actor d⟩ history

end Cooldowns

/-! ## One event -/

/-- What is left for an actor at `now` behind an event, where `before` would be left without it. -/
def TableEvent.leaves (x : TableEvent) (now : Nat) (actor : String) (before : Duration) : Duration :=
  match x.act with
  | .start other d =>
    if other = actor then ⟨x.instant + min d.nanoseconds Cooldowns.longest.nanoseconds - now⟩ else before
  | .clear other => if other = actor then ⟨0⟩ else before
  | .purge => before

theorem TableEvent.leaves_of_not_concerns {x : TableEvent} {now : Nat} {actor : String} {before : Duration}
    (h : ¬x.act.Concerns actor) : x.leaves now actor before = before := by
  unfold leaves
  cases hact : x.act with
  | start other d => exact if_neg (by rwa [hact] at h)
  | clear other => exact if_neg (by rwa [hact] at h)
  | purge => rfl

/-- An event that concerns the actor starts the actor, or leaves nothing. -/
theorem TableEvent.leaves_of_concerns {x : TableEvent} {now : Nat} {actor : String} {before : Duration}
    (h : x.act.Concerns actor) (hstart : ∀ d, x.act ≠ .start actor d) : x.leaves now actor before = ⟨0⟩ := by
  unfold leaves
  cases hact : x.act with
  | start other d =>
    rw [hact] at h
    cases (show other = actor from h)
    exact absurd hact (hstart d)
  | clear other => exact if_pos (by rwa [hact] at h)
  | purge =>
    rw [hact] at h
    exact h.elim

namespace Cooldowns

variable (t : Cooldowns) {x : TableEvent} {now s : Nat} {actor : String} {d : Duration} {history : List TableEvent}

theorem remaining_perform (h : x.instant ≤ now) :
    (t.perform x).remaining now actor = x.leaves now actor (t.remaining now actor) := by
  unfold perform TableEvent.leaves
  cases x.act with
  | start other d => exact t.remaining_start d h
  | clear other => exact t.remaining_clear
  | purge => exact t.remaining_purge h

theorem remaining_keep (h : x.instant ≤ now) :
    (t.keep x).remaining now actor = x.leaves now actor (t.remaining now actor) := by
  unfold keep TableEvent.leaves
  cases x.act with
  | start other d => exact t.remaining_put d h
  | clear other => exact t.remaining_clear
  | purge => rfl

theorem remaining_empty : empty.remaining now actor = ⟨0⟩ := by
  unfold remaining empty
  rw [Std.ExtTreeMap.getElem?_empty]

/-! ## All of a history -/

/-- The last start of an actor decides what is left for the actor. -/
theorem remaining_of_lastStart (hpast : ∀ x ∈ history, x.instant ≤ now) (hlast : LastStart history actor s d) :
    (after history).remaining now actor = ⟨s + min d.nanoseconds longest.nanoseconds - now⟩ := by
  induction history with
  | nil => exact absurd hlast not_latest_nil
  | cons x earlier ih =>
    obtain ⟨hx, hearlier⟩ := List.forall_mem_cons.mp hpast
    rw [after, remaining_perform _ hx]
    obtain rfl | ⟨hother, hlast⟩ := latest_cons.mp hlast
    · exact if_pos rfl
    · rw [TableEvent.leaves_of_not_concerns hother, ih hearlier hlast]

/-- Nothing is left for an actor without a start that counts. -/
theorem remaining_of_no_start (hpast : ∀ x ∈ history, x.instant ≤ now) (hnone : ∀ s d, ¬LastStart history actor s d) :
    (after history).remaining now actor = ⟨0⟩ := by
  induction history with
  | nil => exact remaining_empty
  | cons x earlier ih =>
    obtain ⟨hx, hearlier⟩ := List.forall_mem_cons.mp hpast
    rw [after, remaining_perform _ hx]
    by_cases hconcerns : x.act.Concerns actor
    · refine TableEvent.leaves_of_concerns hconcerns fun d hact => hnone x.instant d (latest_cons.mpr (.inl ?_))
      rw [← hact]
    · rw [TableEvent.leaves_of_not_concerns hconcerns]
      exact ih hearlier fun s d hlast => hnone s d (latest_cons.mpr (.inr ⟨hconcerns, hlast⟩))

/-- To drop what has run out, on a start as on a purge, is never seen in what is left. -/
theorem remaining_undropped (actor : String) (hpast : ∀ x ∈ history, x.instant ≤ now) :
    (undropped history).remaining now actor = (after history).remaining now actor := by
  induction history with
  | nil => rfl
  | cons x earlier ih =>
    obtain ⟨hx, hearlier⟩ := List.forall_mem_cons.mp hpast
    rw [undropped, after, remaining_keep _ hx, remaining_perform _ hx, ih hearlier]

/-- The last start wins. Whatever was done to a table up to `now`, what is left for an actor is what is left of the last start
that counts, cut to the longest cooldown, and nothing if there is none; the actor is cooling down just as long as something is
left. A table that drops nothing would give the same answers, and one more event ends the cooldown of an actor if it is a start
without length, and changes nothing for an actor whom it does not concern. -/
theorem last_start_wins (hpast : ∀ x ∈ history, x.instant ≤ now) (actor : String) :
    (∀ s d, LastStart history actor s d →
      (((after history).remaining now actor).nanoseconds : Int) =
        max 0 ((s : Int) + min d.nanoseconds longest.nanoseconds - now)) ∧
    ((∀ s d, ¬LastStart history actor s d) → ((after history).remaining now actor).nanoseconds = 0) ∧
    ((after history).isCooling now actor = true ↔ 0 < ((after history).remaining now actor).nanoseconds) ∧
    (undropped history).remaining now actor = (after history).remaining now actor ∧
    (undropped history).isCooling now actor = (after history).isCooling now actor ∧
    ∀ x : TableEvent, x.instant ≤ now →
      (x.act = .start actor ⟨0⟩ → ((after history).perform x).remaining now actor = ⟨0⟩) ∧
      (¬x.act.Concerns actor → ((after history).perform x).remaining now actor = (after history).remaining now actor) := by
  have hsame := remaining_undropped actor hpast
  refine ⟨fun s d hlast => ?_, fun hnone => ?_, isCooling_iff_remaining _, hsame, ?_, fun x hx => ⟨fun hact => ?_, fun hother => ?_⟩⟩
  · rw [remaining_of_lastStart hpast hlast]
    dsimp only
    omega
  · rw [remaining_of_no_start hpast hnone]
  · unfold isCooling
    rw [hsame]
  · have hnone : x.instant + 0 - now = 0 := by omega
    rw [remaining_perform _ hx, TableEvent.leaves, hact]
    simp only [if_true, Nat.zero_min, hnone]
  · rw [remaining_perform _ hx, TableEvent.leaves_of_not_concerns hother]

/-- Steve is started twice and Alex once, and the table is purged when Alex has run out. -/
def steveAndAlex : List TableEvent :=
  [⟨30, .purge⟩, ⟨20, .start "alex" ⟨5⟩⟩, ⟨10, .start "steve" ⟨100⟩⟩, ⟨0, .start "steve" ⟨500⟩⟩]

theorem last_start_wins_steve :
    (∀ x ∈ steveAndAlex, x.instant ≤ 40) ∧ LastStart steveAndAlex "steve" 10 ⟨100⟩ ∧
      (((after steveAndAlex).remaining 40 "steve").nanoseconds : Int) = 70 ∧
      (after steveAndAlex).isCooling 40 "steve" = true := by
  have hpast : ∀ x ∈ steveAndAlex, x.instant ≤ 40 := by decide
  have hlast : LastStart steveAndAlex "steve" 10 ⟨100⟩ :=
    ⟨[⟨30, .purge⟩, ⟨20, .start "alex" ⟨5⟩⟩], [⟨0, .start "steve" ⟨500⟩⟩], rfl, by decide⟩
  obtain ⟨hleft, -, hcooling, -⟩ := last_start_wins hpast "steve"
  have hseventy : (((after steveAndAlex).remaining 40 "steve").nanoseconds : Int) = 70 := hleft 10 ⟨100⟩ hlast
  exact ⟨hpast, hlast, hseventy, hcooling.mpr (by omega)⟩

end Cooldowns

end EventScript
