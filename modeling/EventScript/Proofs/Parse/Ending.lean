import EventScript.Script.Parser

/-!
# How a parse ends

A parse from a cursor ends in a result, with a cursor behind it, or it stops. `Parse.Ends` says of both at once what holds
there, and its rules follow a parse step by step: one for `bind`, and one for each of the steps that the parser is made of.
`Parse.Yields` is about results only; its rules are about a step and the rest of the parse behind it.
-/

namespace EventScript.Parse

variable {α β : Type}

/-- From `c` the parse ends in a result and a cursor for which `Q` holds, or stops in a way for which `E` holds. -/
def Ends (m : Parse α) (c : Cursor) (E : ParseStop → Prop) (Q : α → Cursor → Prop) : Prop :=
  match m.run c with
  | .ok (a, c') => Q a c'
  | .error s => E s

section rules

variable {c : Cursor} {E E' : ParseStop → Prop}

/-- A result is given where the cursor is. -/
theorem Ends.pure {a : α} {Q : α → Cursor → Prop} (h : Q a c) : Ends (Pure.pure a : Parse α) c E Q := h

/-- A parse in two parts ends as the second one does behind the first, and stops where either does. -/
theorem Ends.bind {m : Parse α} {f : α → Parse β} {Q : β → Cursor → Prop}
    (h : Ends m c E fun a c' => Ends (f a) c' E Q) : Ends (m >>= f) c E Q := by
  unfold Ends at h ⊢
  rw [StateT.run_bind]
  cases hm : m.run c with
  | error s =>
    rw [hm] at h
    exact h
  | ok r =>
    rw [hm] at h
    exact h

/-- What holds at the end may be weakened, for results and for stops. -/
theorem Ends.mono {m : Parse α} {Q Q' : α → Cursor → Prop} (h : Ends m c E Q) (hE : ∀ s, E s → E' s)
    (hQ : ∀ a c', Q a c' → Q' a c') : Ends m c E' Q' := by
  unfold Ends at h ⊢
  cases hm : m.run c with
  | error s =>
    rw [hm] at h
    exact hE s h
  | ok r =>
    rw [hm] at h
    exact hQ _ _ h

/-- A parse that stops at once. -/
theorem Ends.throw {s : ParseStop} {Q : α → Cursor → Prop} (h : E s) : Ends (throw s : Parse α) c E Q := h

/-- Looking at the next token moves nothing. At the end of the text there is none, and a break in the text shows its
fault. -/
theorem Ends.peek {Q : Option Token × Position → Cursor → Prop}
    (htoken : ∀ t ts, c.tokens = t :: ts → Q (some t.token, t.position) c)
    (hend : ∀ p, c.tokens = [] → c.ending = .complete p → Q (none, p) c)
    (hbreak : ∀ f, c.tokens = [] → c.ending = .broken f → E (.fault f)) : Ends Parse.peek c E Q := by
  obtain ⟨tokens, ending, depth, loops⟩ := c
  cases tokens with
  | cons t ts => exact htoken t ts rfl
  | nil =>
    cases ending with
    | complete p => exact hend p rfl rfl
    | broken f => exact hbreak f rfl rfl

/-- To pass over a token takes it off. -/
theorem Ends.advance {Q : Unit → Cursor → Prop} (h : Q () { c with tokens := c.tokens.tail }) :
    Ends Parse.advance c E Q := h

/-- A fault is reported at the next token, unless the text breaks there. -/
theorem Ends.fail {cause : ParseCause} {Q : α → Cursor → Prop} (hfault : ∀ p, E (.fault ⟨cause, p⟩))
    (hbreak : ∀ f, c.tokens = [] → c.ending = .broken f → E (.fault f)) : Ends (Parse.fail cause) c E Q :=
  .bind (.peek (fun _ _ _ => .throw (hfault _)) (fun _ _ _ => .throw (hfault _)) hbreak)

/-- To look at the cursor changes nothing. -/
theorem Ends.get {Q : Cursor → Cursor → Prop} (h : Q c c) : Ends (MonadState.get : Parse Cursor) c E Q := h

/-- To come back from a level takes one from the depth. -/
theorem Ends.ascend {Q : Unit → Cursor → Prop} (h : Q () { c with depth := c.depth - 1 }) :
    Ends Parse.ascend c E Q := h

/-- To come back to a depth sets it. -/
theorem Ends.restoreDepth {d : Nat} {Q : Unit → Cursor → Prop} (h : Q () { c with depth := d }) :
    Ends (Parse.restoreDepth d) c E Q := h

/-- A loop is one more around. -/
theorem Ends.enterLoop {Q : Unit → Cursor → Prop} (h : Q () { c with loops := c.loops + 1 }) :
    Ends Parse.enterLoop c E Q := h

/-- Behind it there is one less. -/
theorem Ends.leaveLoop {Q : Unit → Cursor → Prop} (h : Q () { c with loops := c.loops - 1 }) :
    Ends Parse.leaveLoop c E Q := h

/-- Going a level deeper changes nothing but the depth. -/
theorem Ends.descendBelow {Q : Unit → Cursor → Prop} (hdepth : c.depth < nestingLimit)
    (h : Q () { c with depth := c.depth + 1 }) : Ends Parse.descend c E Q := by
  refine .bind (m := modify _) ?_
  show Ends (do if nestingLimit < (← MonadState.get).depth then Parse.fail .nestedTooDeep)
    { c with depth := c.depth + 1 } E Q
  refine .bind (.get ?_)
  rw [if_neg (Nat.not_lt.mpr hdepth)]
  exact .pure h

/-- It succeeds up to the limit. -/
theorem Ends.descend {Q : Unit → Cursor → Prop}
    (h : c.depth < nestingLimit → Q () { c with depth := c.depth + 1 })
    (hdeep : ∀ p, E (.fault ⟨.nestedTooDeep, p⟩))
    (hbreak : ∀ f, c.tokens = [] → c.ending = .broken f → E (.fault f)) : Ends Parse.descend c E Q := by
  by_cases hdepth : c.depth < nestingLimit
  · exact .descendBelow hdepth (h hdepth)
  · refine .bind (m := modify _) ?_
    show Ends (do if nestingLimit < (← MonadState.get).depth then Parse.fail .nestedTooDeep)
      { c with depth := c.depth + 1 } E Q
    refine .bind (.get ?_)
    rw [if_pos (Nat.lt_succ_of_le (Nat.not_lt.mp hdepth))]
    exact .fail hdeep hbreak

/-- Passing over a symbol that has to be next. -/
theorem Ends.expect {s : Symbol} {Q : Unit → Cursor → Prop}
    (h : ∀ t ts, c.tokens = t :: ts → t.token = .symbol s → Q () { c with tokens := ts })
    (hfault : ∀ p got, E (.fault ⟨.expected s got, p⟩))
    (hbreak : ∀ f, c.tokens = [] → c.ending = .broken f → E (.fault f)) : Ends (Parse.expect s) c E Q := by
  refine .bind (.peek (fun t ts ht => ?_) (fun p hnil _ => ?_) hbreak)
  · dsimp only
    by_cases hs : t.token = .symbol s
    · rw [if_pos (congrArg some hs)]
      refine .advance ?_
      rw [ht]
      exact h t ts ht hs
    · rw [if_neg (by simpa using hs)]
      exact .fail (fun p => hfault p _) hbreak
  · exact .fail (fun p => hfault p _) hbreak

/-- Asking whether a symbol is next. -/
theorem Ends.atSymbol {s : Symbol} {Q : Bool → Cursor → Prop}
    (h : ∀ b, (b = true → ∃ t ts, c.tokens = t :: ts ∧ t.token = .symbol s) →
      (b = false → ∀ t ts, c.tokens = t :: ts → t.token ≠ .symbol s) → Q b c)
    (hbreak : ∀ f, c.tokens = [] → c.ending = .broken f → E (.fault f)) : Ends (Parse.atSymbol s) c E Q := by
  refine .bind (.peek (fun t ts ht => ?_) (fun p hnil _ => ?_) hbreak)
  · refine .pure (h _ (fun hb => ⟨t, ts, ht, by simpa using hb⟩) fun hb t' ts' ht' => ?_)
    rw [ht] at ht'
    cases ht'
    simpa using hb
  · refine .pure (h _ (fun hb => by simp at hb) fun _ t ts ht => ?_)
    rw [hnil] at ht
    cases ht

/-- Reading a name that has to be next. -/
theorem Ends.name {cause : ParseCause} {Q : String → Cursor → Prop}
    (h : ∀ n t ts, c.tokens = t :: ts → t.token = .ident n → Q n { c with tokens := ts })
    (hfault : ∀ p, E (.fault ⟨cause, p⟩))
    (hbreak : ∀ f, c.tokens = [] → c.ending = .broken f → E (.fault f)) : Ends (Parse.name cause) c E Q := by
  refine .bind (.peek (fun t ts ht => ?_) (fun p hnil _ => ?_) hbreak)
  · cases hn : t.token with
    | ident n =>
      refine .bind (.advance (.pure ?_))
      rw [ht]
      exact h n t ts ht hn
    | _ => exact .fail hfault hbreak
  · exact .fail hfault hbreak

end rules

/-- If from `c` the parse comes to a result, `Q` holds of it and of the cursor behind it. -/
def Yields (m : Parse α) (c : Cursor) (Q : α → Cursor → Prop) : Prop := Ends m c (fun _ => True) Q

section results

variable {c : Cursor}

/-- A result is given where the cursor is. -/
theorem Yields.pure {a : α} {Q : α → Cursor → Prop} (h : Q a c) : Yields (Pure.pure a : Parse α) c Q := Ends.pure h

/-- A parse in two parts yields what the second one does behind the first. -/
theorem Yields.bind {m : Parse α} {f : α → Parse β} {Q : β → Cursor → Prop}
    (h : Yields m c fun a c' => Yields (f a) c' Q) : Yields (m >>= f) c Q := Ends.bind h

/-- What a result yields may be weakened. -/
theorem Yields.mono {m : Parse α} {Q Q' : α → Cursor → Prop} (h : Yields m c Q) (hQ : ∀ a c', Q a c' → Q' a c') :
    Yields m c Q' := Ends.mono h (fun _ h => h) hQ

/-- Of any result something holds. -/
theorem Yields.any {m : Parse α} : Yields m c fun _ _ => True := by
  unfold Yields Ends
  split <;> trivial

/-- What is known of the end of a parse is known of its results. -/
theorem Yields.of_ends {m : Parse α} {E : ParseStop → Prop} {Q : α → Cursor → Prop} (h : Ends m c E Q) : Yields m c Q :=
  h.mono (fun _ _ => trivial) fun _ _ h => h

/-- Of a result both things hold that are known of it. -/
theorem Yields.and {m : Parse α} {Q Q' : α → Cursor → Prop} (h : Yields m c Q) (h' : Yields m c Q') :
    Yields m c fun a c' => Q a c' ∧ Q' a c' := by
  unfold Yields Ends at h h' ⊢
  cases hm : m.run c with
  | error s => trivial
  | ok r =>
    rw [hm] at h h'
    exact ⟨h, h'⟩

/-- What holds of a parse's result. -/
theorem Yields.result {m : Parse α} {Q : α → Cursor → Prop} {a : α} {c' : Cursor} (h : Yields m c Q)
    (hrun : m.run c = .ok (a, c')) : Q a c' := by
  unfold Yields Ends at h
  rw [hrun] at h
  exact h

/-- A parse that stops has no result. -/
theorem Yields.throw {s : ParseStop} {Q : α → Cursor → Prop} : Yields (throw s : Parse α) c Q := Ends.throw trivial

/-- Neither has one that fails. -/
theorem Yields.fail {cause : ParseCause} {Q : α → Cursor → Prop} : Yields (Parse.fail cause : Parse α) c Q :=
  Ends.fail (fun _ => trivial) fun _ _ _ => trivial

variable {Q : β → Cursor → Prop}

/-- A token is next, or the text has come to its end. -/
theorem Yields.peek {f : Option Token × Position → Parse β}
    (htoken : ∀ t ts, c.tokens = t :: ts → Yields (f (some t.token, t.position)) c Q)
    (hend : ∀ p, c.tokens = [] → c.ending = .complete p → Yields (f (none, p)) c Q) :
    Yields (Parse.peek >>= f) c Q :=
  .bind (Ends.peek htoken hend fun _ _ _ => trivial)

/-- Looking at the next token, where what follows does not depend on it. -/
theorem Yields.peekAny {f : Option Token × Position → Parse β} (h : ∀ next, Yields (f next) c Q) :
    Yields (Parse.peek >>= f) c Q :=
  .peek (fun _ _ _ => h _) fun _ _ _ => h _

/-- The rest goes on behind the token that is passed over. -/
theorem Yields.advance {f : Unit → Parse β} (h : Yields (f ()) { c with tokens := c.tokens.tail } Q) :
    Yields (Parse.advance >>= f) c Q := .bind (Ends.advance h)

/-- Behind an expected symbol the rest goes on with that symbol in hand. -/
theorem Yields.expect {f : Unit → Parse β} {s : Symbol}
    (h : ∀ t ts, c.tokens = t :: ts → t.token = .symbol s → Yields (f ()) { c with tokens := ts } Q) :
    Yields (Parse.expect s >>= f) c Q :=
  .bind (Ends.expect h (fun _ _ => trivial) fun _ _ _ => trivial)

/-- The symbol is next, or nothing is known. -/
theorem Yields.atSymbol {f : Bool → Parse β} {s : Symbol}
    (hthere : ∀ t ts, c.tokens = t :: ts → t.token = .symbol s → Yields (f true) c Q) (hnot : Yields (f false) c Q) :
    Yields (Parse.atSymbol s >>= f) c Q := by
  refine .bind (Ends.atSymbol (fun b hb _ => ?_) fun _ _ _ => trivial)
  cases b with
  | true =>
    obtain ⟨t, ts, ht, hs⟩ := hb rfl
    exact hthere t ts ht hs
  | false => exact hnot

/-- Behind an expected name the rest goes on with that name. -/
theorem Yields.name {f : String → Parse β} {cause : ParseCause}
    (h : ∀ n t ts, c.tokens = t :: ts → t.token = .ident n → Yields (f n) { c with tokens := ts } Q) :
    Yields (Parse.name cause >>= f) c Q :=
  .bind (Ends.name h (fun _ => trivial) fun _ _ _ => trivial)

/-- The rest may look at the cursor. -/
theorem Yields.get {f : Cursor → Parse β} (h : Yields (f c) c Q) : Yields (MonadState.get >>= f) c Q := .bind (Ends.get h)

/-- One level down there was room for it. -/
theorem Yields.descend {f : Unit → Parse β}
    (h : c.depth < nestingLimit → Yields (f ()) { c with depth := c.depth + 1 } Q) : Yields (Parse.descend >>= f) c Q :=
  .bind (Ends.descend h (fun _ => trivial) fun _ _ _ => trivial)

/-- One level up the rest goes on with one level less. -/
theorem Yields.ascend {f : Unit → Parse β} (h : Yields (f ()) { c with depth := c.depth - 1 } Q) :
    Yields (Parse.ascend >>= f) c Q := .bind (Ends.ascend h)

/-- The rest goes on at the depth that is restored. -/
theorem Yields.restoreDepth {f : Unit → Parse β} {d : Nat} (h : Yields (f ()) { c with depth := d } Q) :
    Yields (Parse.restoreDepth d >>= f) c Q := .bind (Ends.restoreDepth h)

/-- The rest goes on inside the loop. -/
theorem Yields.enterLoop {f : Unit → Parse β} (h : Yields (f ()) { c with loops := c.loops + 1 } Q) :
    Yields (Parse.enterLoop >>= f) c Q := .bind (Ends.enterLoop h)

/-- The rest goes on behind it. -/
theorem Yields.leaveLoop {f : Unit → Parse β} (h : Yields (f ()) { c with loops := c.loops - 1 } Q) :
    Yields (Parse.leaveLoop >>= f) c Q := .bind (Ends.leaveLoop h)

end results

/-! ## Whole texts -/

/-- Statements that stand in no block are read up to the end of a text that breaks off nowhere. -/
theorem statements_yields_end (fuel : Nat) (c : Cursor) :
    Yields (statements fuel false) c fun _ c' => c'.tokens = [] ∧ ∃ p, c'.ending = .complete p := by
  induction fuel generalizing c with
  | zero => exact .throw
  | succ fuel ih =>
    unfold statements
    have hmore : Yields (do let s ← statement fuel; let rest ← statements fuel false; pure (s :: rest)) c
        fun _ c' => c'.tokens = [] ∧ ∃ p, c'.ending = .complete p :=
      .bind (Yields.any.mono fun s c₁ _ => .bind ((ih c₁).mono fun rest c₂ h => .pure h))
    refine .peek (fun t rest ht => ?_) fun p hnil hcomplete => .pure ⟨hnil, p, hcomplete⟩
    split
    next hnone => cases hnone
    next => exact .advance (ih _)
    next => exact hmore
    next => exact hmore

end EventScript.Parse

namespace EventScript

/-- A text whose script passes a test is accepted. -/
theorem Script.exists_of_any {text : String} {test : Script → Bool} (h : (Script.parse text).toOption.any test) :
    ∃ s, Script.parse text = .ok s ∧ test s := by
  cases hparse : Script.parse text with
  | ok s =>
    rw [hparse] at h
    exact ⟨s, rfl, h⟩
  | error f =>
    rw [hparse] at h
    cases h

/-- A script is the result of reading all the tokens of its text as statements. -/
theorem Script.run_of_parse {text : String} {s : Script} (h : Script.parse text = .ok s) :
    ∃ c, (Parse.statements (Parse.fuelFor (scan text).tokens.length) false).run
      ⟨(scan text).tokens, (scan text).ending, 0, 0⟩ = .ok (s.statements, c) := by
  simp only [Script.parse] at h
  split at h
  next statements c hrun =>
    cases h
    exact ⟨c, hrun⟩
  next => cases h
  next => cases h

/-- What holds of every result of reading the tokens of a text holds of its script. -/
theorem Script.yields_of_parse {text : String} {s : Script} {Q : List Statement → Cursor → Prop}
    (h : Script.parse text = .ok s)
    (hread : ∀ fuel, Parse.Yields (Parse.statements fuel false) ⟨(scan text).tokens, (scan text).ending, 0, 0⟩ Q) :
    ∃ c, Q s.statements c := by
  obtain ⟨c, hrun⟩ := Script.run_of_parse h
  exact ⟨c, (hread _).result hrun⟩

end EventScript
