import EventScript.Proofs.Parse.Ending

/-!
# Reading given tokens

For a text that breaks off nowhere, what a reader does depends on the tokens alone and not on their places. `Reads m v Q` says
that from the view `v` the reader comes to a result and a view for which `Q` holds, unless it is stopped by the nesting limit
or runs out of fuel; `ReadsUnless` says the same for other ways to stop. The rules take one token off the view at a time.
-/

namespace EventScript.Parse

variable {α β : Type}

/-- What a reader sees of a text, apart from places: the tokens ahead, the depth and the loops around it. -/
structure View where
  tokens : List Token
  depth : Nat
  loops : Nat

/-- The cursor has this view of a text that breaks off nowhere. -/
structure Shows (c : Cursor) (v : View) : Prop where
  tokens : c.tokens.map (·.token) = v.tokens
  complete : ∃ p, c.ending = .complete p
  depth : c.depth = v.depth
  loops : c.loops = v.loops

namespace Shows

variable {c : Cursor} {v : View}

/-- Where tokens are shown the text is not broken off. -/
theorem unbroken (h : Shows c v) (E : ParseStop → Prop) :
    ∀ f, c.tokens = [] → c.ending = .broken f → E (.fault f) := by
  intro f _ hbroken
  obtain ⟨p, hp⟩ := h.complete
  rw [hbroken] at hp
  cases hp

/-- The token that is shown first is the next one. -/
theorem of_cons {t : Token} {ts : List Token} {depth loops : Nat} (h : Shows c ⟨t :: ts, depth, loops⟩) :
    ∃ located rest, c.tokens = located :: rest ∧ located.token = t ∧
      Shows { c with tokens := rest } ⟨ts, depth, loops⟩ := by
  obtain ⟨located, rest, hc, ht, hts⟩ := List.map_eq_cons_iff.mp h.tokens
  exact ⟨located, rest, hc, ht, hts, h.complete, h.depth, h.loops⟩

/-- Where none is shown there is none. -/
theorem of_nil {depth loops : Nat} (h : Shows c ⟨[], depth, loops⟩) : c.tokens = [] := List.map_eq_nil_iff.mp h.tokens

/-- The depth may be another one on both sides. -/
theorem atDepth (h : Shows c v) (d : Nat) : Shows { c with depth := d } { v with depth := d } :=
  ⟨h.tokens, h.complete, rfl, h.loops⟩

/-- So may the loops around. -/
theorem atLoops (h : Shows c v) (l : Nat) : Shows { c with loops := l } { v with loops := l } :=
  ⟨h.tokens, h.complete, h.depth, rfl⟩

end Shows

/-- The stop is for the nesting limit, or for want of fuel. -/
def TooDeep (s : ParseStop) : Prop := s = .outOfFuel ∨ ∃ p, s = .fault ⟨.nestedTooDeep, p⟩

/-- From every cursor with the view `v` the reader comes to a result and a view for which `Q` holds, or it is stopped in a way
for which `E` holds. -/
def ReadsUnless (E : ParseStop → Prop) (m : Parse α) (v : View) (Q : α → View → Prop) : Prop :=
  ∀ c : Cursor, Shows c v → Ends m c E fun a c' => ∃ w, Q a w ∧ Shows c' w

/-- From every cursor with the view `v` the reader comes to a result and a view for which `Q` holds, or it is stopped as too
deep. -/
abbrev Reads (m : Parse α) (v : View) (Q : α → View → Prop) : Prop := ReadsUnless TooDeep m v Q

namespace ReadsUnless

variable {E : ParseStop → Prop}

/-- What is known of the result may be weakened. -/
theorem mono {m : Parse α} {v : View} {Q Q' : α → View → Prop} (h : ReadsUnless E m v Q) (hQ : ∀ a w, Q a w → Q' a w) :
    ReadsUnless E m v Q' := by
  intro c hc
  refine (h c hc).mono (fun _ hs => hs) ?_
  rintro a c' ⟨w, hw, hshows⟩
  exact ⟨w, hQ a w hw, hshows⟩

/-- Two readers read one after the other. -/
theorem bind {m : Parse α} {f : α → Parse β} {v : View} {Q : β → View → Prop}
    (h : ReadsUnless E m v fun a w => ReadsUnless E (f a) w Q) : ReadsUnless E (m >>= f) v Q := by
  intro c hc
  refine .bind ((h c hc).mono (fun _ hs => hs) ?_)
  rintro a c' ⟨w, hw, hshows⟩
  exact hw c' hshows

/-- A result reads nothing. -/
theorem pure {a : α} {v : View} {Q : α → View → Prop} (h : Q a v) : ReadsUnless E (Pure.pure a : Parse α) v Q :=
  fun _ hc => .pure ⟨v, h, hc⟩

/-- Without fuel nothing is promised, if that is a way to stop. -/
theorem runDry {v : View} {Q : α → View → Prop} (hE : E .outOfFuel) : ReadsUnless E (throw .outOfFuel : Parse α) v Q :=
  fun _ _ => .throw hE

/-- Without fuel nothing is promised. -/
theorem outOfFuel {v : View} {Q : α → View → Prop} : Reads (throw .outOfFuel : Parse α) v Q := runDry (.inl rfl)

section steps

variable {t : Token} {ts : List Token} {depth loops : Nat} {Q : β → View → Prop}

/-- Looking at the next token. -/
theorem peek {f : Option Token × Position → Parse β} (h : ∀ p, ReadsUnless E (f (some t, p)) ⟨t :: ts, depth, loops⟩ Q) :
    ReadsUnless E (Parse.peek >>= f) ⟨t :: ts, depth, loops⟩ Q := by
  intro c hc
  obtain ⟨located, rest, htokens, ht, -⟩ := hc.of_cons
  refine .bind (.peek (fun u us hu => ?_) (fun p hnil _ => ?_) (hc.unbroken _))
  · rw [htokens] at hu
    cases hu
    rw [ht]
    exact h _ c hc
  · rw [htokens] at hnil
    cases hnil

/-- Looking at the end of the text. -/
theorem peekEnd {f : Option Token × Position → Parse β} (h : ∀ p, ReadsUnless E (f (none, p)) ⟨[], depth, loops⟩ Q) :
    ReadsUnless E (Parse.peek >>= f) ⟨[], depth, loops⟩ Q := by
  intro c hc
  refine .bind (.peek (fun u us hu => ?_) (fun p _ _ => h p c hc) (hc.unbroken _))
  rw [hc.of_nil] at hu
  cases hu

/-- Looking ahead, whether a token is left or not. -/
theorem peekHead {f : Option Token × Position → Parse β} (h : ∀ p, ReadsUnless E (f (ts.head?, p)) ⟨ts, depth, loops⟩ Q) :
    ReadsUnless E (Parse.peek >>= f) ⟨ts, depth, loops⟩ Q := by
  cases ts with
  | nil => exact peekEnd h
  | cons t ts => exact peek h

/-- To pass over a token takes it off the view. -/
theorem advance {f : Unit → Parse β} (h : ReadsUnless E (f ()) ⟨ts, depth, loops⟩ Q) :
    ReadsUnless E (Parse.advance >>= f) ⟨t :: ts, depth, loops⟩ Q := by
  intro c hc
  obtain ⟨located, rest, htokens, -, hrest⟩ := hc.of_cons
  refine .bind (.advance ?_)
  rw [htokens]
  exact h _ hrest

/-- The symbol asked for is next. -/
theorem atSymbol {f : Bool → Parse β} {s : Symbol} (h : ReadsUnless E (f true) ⟨.symbol s :: ts, depth, loops⟩ Q) :
    ReadsUnless E (Parse.atSymbol s >>= f) ⟨.symbol s :: ts, depth, loops⟩ Q := by
  refine bind (m := Parse.atSymbol s) (peek fun p => pure ?_)
  rw [decide_eq_true rfl]
  exact h

/-- The symbol asked for is not next. -/
theorem notAtSymbol {f : Bool → Parse β} {s : Symbol} (hs : ts.head? ≠ some (.symbol s))
    (h : ReadsUnless E (f false) ⟨ts, depth, loops⟩ Q) : ReadsUnless E (Parse.atSymbol s >>= f) ⟨ts, depth, loops⟩ Q := by
  refine bind (m := Parse.atSymbol s) (peekHead fun p => pure ?_)
  rw [decide_eq_false hs]
  exact h

/-- The symbol that is expected is the first one. -/
theorem expect {f : Unit → Parse β} {s : Symbol} (h : ReadsUnless E (f ()) ⟨ts, depth, loops⟩ Q) :
    ReadsUnless E (Parse.expect s >>= f) ⟨.symbol s :: ts, depth, loops⟩ Q := by
  refine bind (m := Parse.expect s) (peek fun p => ?_)
  dsimp only
  rw [if_pos rfl]
  exact fun c hc => (advance (f := fun _ => Pure.pure ()) (pure h)) c hc

/-- So is the name. -/
theorem name {f : String → Parse β} {cause : ParseCause} {n : String} (h : ReadsUnless E (f n) ⟨ts, depth, loops⟩ Q) :
    ReadsUnless E (Parse.name cause >>= f) ⟨.ident n :: ts, depth, loops⟩ Q :=
  bind (m := Parse.name cause) (peek fun _ => advance (pure h))

/-- Going a level deeper. -/
theorem descend {f : Unit → Parse β} (h : Reads (f ()) ⟨ts, depth + 1, loops⟩ Q) :
    Reads (Parse.descend >>= f) ⟨ts, depth, loops⟩ Q := by
  intro c hc
  refine .bind (.descend (fun _ => ?_) (fun p => .inr ⟨p, rfl⟩) (hc.unbroken _))
  rw [show c.depth + 1 = depth + 1 from congrArg (· + 1) hc.depth]
  exact h _ (hc.atDepth _)

/-- Going a level deeper where the limit is not reached. -/
theorem descendBelow {f : Unit → Parse β} (hdepth : depth < nestingLimit) (h : ReadsUnless E (f ()) ⟨ts, depth + 1, loops⟩ Q) :
    ReadsUnless E (Parse.descend >>= f) ⟨ts, depth, loops⟩ Q := by
  intro c hc
  have hshown : c.depth = depth := hc.depth
  refine .bind (.descendBelow (hshown ▸ hdepth) ?_)
  rw [hshown]
  exact h _ (hc.atDepth _)

/-- To come back from a level takes one from the view. -/
theorem ascend {f : Unit → Parse β} (h : ReadsUnless E (f ()) ⟨ts, depth, loops⟩ Q) :
    ReadsUnless E (Parse.ascend >>= f) ⟨ts, depth + 1, loops⟩ Q := by
  intro c hc
  refine .bind (.ascend ?_)
  rw [show c.depth - 1 = depth from congrArg (· - 1) hc.depth]
  exact h _ (hc.atDepth _)

/-- To come back to a depth sets it. -/
theorem restoreDepth {f : Unit → Parse β} {d : Nat} (h : ReadsUnless E (f ()) ⟨ts, d, loops⟩ Q) :
    ReadsUnless E (Parse.restoreDepth d >>= f) ⟨ts, depth, loops⟩ Q :=
  fun _ hc => .bind (.restoreDepth (h _ (hc.atDepth d)))

/-- A loop is one more around. -/
theorem enterLoop {f : Unit → Parse β} (h : ReadsUnless E (f ()) ⟨ts, depth, loops + 1⟩ Q) :
    ReadsUnless E (Parse.enterLoop >>= f) ⟨ts, depth, loops⟩ Q := by
  intro c hc
  refine .bind (.enterLoop ?_)
  rw [show c.loops + 1 = loops + 1 from congrArg (· + 1) hc.loops]
  exact h _ (hc.atLoops _)

/-- Behind it there is one less. -/
theorem leaveLoop {f : Unit → Parse β} (h : ReadsUnless E (f ()) ⟨ts, depth, loops⟩ Q) :
    ReadsUnless E (Parse.leaveLoop >>= f) ⟨ts, depth, loops + 1⟩ Q := by
  intro c hc
  refine .bind (.leaveLoop ?_)
  rw [show c.loops - 1 = loops from congrArg (· - 1) hc.loops]
  exact h _ (hc.atLoops _)

/-- Asking for the state shows the depth and the loops of the view. -/
theorem get {f : Cursor → Parse β}
    (h : ∀ c : Cursor, c.depth = depth → c.loops = loops → ReadsUnless E (f c) ⟨ts, depth, loops⟩ Q) :
    ReadsUnless E (MonadState.get >>= f) ⟨ts, depth, loops⟩ Q :=
  fun c hc => .bind (.get (h c hc.depth hc.loops c hc))

end steps

end ReadsUnless

end EventScript.Parse
