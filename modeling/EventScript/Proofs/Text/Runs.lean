/-!
# Runs of characters

A run of characters of one kind ends in front of a text that does not go on with that kind, and so it is the same there as at the
end of a text.
-/

namespace EventScript.Text

variable {p : Char → Bool} {follow : List Char}

/-- What follows holds none of the characters of a run at its start. -/
def Stops (p : Char → Bool) (follow : List Char) : Prop := ∀ c ∈ follow.head?, p c = false

/-- Nothing goes on at the end of a text. -/
theorem Stops.nil (p : Char → Bool) : Stops p [] := nofun

/-- A run stops in front of a character that is not of its kind. -/
theorem Stops.cons {c : Char} (h : p c = false) (rest : List Char) : Stops p (c :: rest) := by
  rintro d ⟨⟩
  exact h

/-- What stops a run stops those of fewer characters. -/
theorem Stops.mono {q : Char → Bool} (h : Stops q follow) (hpq : ∀ c, q c = false → p c = false) : Stops p follow :=
  fun c hc => hpq c (h c hc)

/-- A run stops in front of a word that stops it, whatever follows. -/
theorem Stops.append (h : Stops p follow) {word : List Char} (hword : Stops p word) : Stops p (word ++ follow) := by
  cases word with
  | nil => exact h
  | cons c word => exact .cons (hword c rfl) _

/-- A word that does not stop a run starts with a character of its kind. -/
theorem not_stops {word : List Char} (h : ¬Stops p word) : ∃ c rest, word = c :: rest ∧ p c = true := by
  cases word with
  | nil => exact absurd (Stops.nil p) h
  | cons c rest => exact ⟨c, rest, rfl, Bool.of_not_eq_false fun hc => h (.cons hc rest)⟩

/-- A run ends where it would if nothing followed the word. -/
theorem Stops.takeWhile (h : Stops p follow) (word : List Char) : (word ++ follow).takeWhile p = word.takeWhile p := by
  induction word with
  | nil =>
    cases follow with
    | nil => rfl
    | cons c follow => exact List.takeWhile_cons_of_neg (by simp [h c rfl])
  | cons c word ih => rw [List.cons_append, List.takeWhile_cons, List.takeWhile_cons, ih]

/-- What is left behind a run is what would be left of the word, and what follows. -/
theorem Stops.dropWhile (h : Stops p follow) (word : List Char) :
    (word ++ follow).dropWhile p = word.dropWhile p ++ follow := by
  induction word with
  | nil =>
    cases follow with
    | nil => rfl
    | cons c follow => exact List.dropWhile_cons_of_neg (by simp [h c rfl])
  | cons c word ih =>
    rw [List.cons_append, List.dropWhile_cons, List.dropWhile_cons, ih]
    split <;> rfl

end EventScript.Text
