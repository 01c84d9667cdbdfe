import EventScript.Proofs.Parse.Located

/-!
# What is read is derived

Each reader of the parser passes over tokens that its result is derived from in the accepted dialect: `Derived`. It is what is left of
`Locates` without the places. `parse_derived` says it of whole texts, and that the two rules that are not in the documented grammar
show in the tokens.
-/

namespace EventScript.Parse

variable {α : Type}

/-- Between the cursors these tokens are passed over; the loops around them are the same. -/
structure Passes (c : Cursor) (ts : List Token) (c' : Cursor) : Prop where
  tokens : c.tokens.map (·.token) = ts ++ c'.tokens.map (·.token)
  loops : c'.loops = c.loops

/-- The tokens between the cursors are such a phrase of the accepted dialect. -/
inductive Spans (c : Cursor) (x : Phrase) (c' : Cursor) : Prop where
  | intro (ts : List Token) (passes : Passes c ts c') (derives : Derives .accepted x ts)

/-- What the reader passes over is a phrase of the accepted dialect, and its result the tree of it. The phrase may depend on
whether there is a loop around. -/
def Derived (m : Parse α) (x : Bool → α → Phrase) : Prop :=
  ∀ c, Yields m c fun a c' => Spans c (x (0 < c.loops) a) c'

theorem Between.passes {c c' : Cursor} {ts : List LocatedToken} (h : Between c ts c') : Passes c (ts.map (·.token)) c' :=
  ⟨by rw [h.tokens, List.map_append], h.loops⟩

/-- What is located is derived. -/
theorem Locates.derived {m : Parse α} {x : Bool → α → Phrase} (h : Locates m x) : Derived m x := by
  intro c
  refine (h c).mono ?_
  rintro a c' ⟨ts, hbetween, hlocated⟩
  exact ⟨_, hbetween.passes, hlocated.derives⟩

/-- What the readers of statements do with this much fuel. -/
structure StatementsDerived (fuel : Nat) : Prop where
  statements : ∀ inBlock, Derived (statements fuel inBlock) fun inLoop body => .statements inLoop body
  statement : Derived (statement fuel) fun inLoop s => .statement inLoop s

theorem statementsDerived (fuel : Nat) : StatementsDerived fuel where
  statements inBlock := ((statementsLocated fuel).statements inBlock).derived
  statement := (statementsLocated fuel).statement.derived

end EventScript.Parse

namespace EventScript

/-- A text that is accepted has no break in it and consists of tokens that its script is derived from in the accepted dialect,
`BREAK` and `CONTINUE` in the bodies of loops only. The script is derived from them in the documented grammar just if no comma
stands in front of a closing parenthesis and no closing parenthesis in front of an equals sign. -/
theorem parse_derived {text : String} {s : Script} (h : Script.parse text = .ok s) :
    ∃ ts, ConsistsOf (scan text) ts ∧ Derives .accepted (.statements false s.statements) ts ∧
      (Derives .documented (.statements false s.statements) ts ↔ Plain ts) := by
  have hread := fun fuel => ((Parse.statementsDerived fuel).statements false _).and
    (Parse.statements_yields_end fuel ⟨(scan text).tokens, (scan text).ending, 0, 0⟩)
  obtain ⟨c, ⟨ts, hpass, hderives⟩, hnil, -⟩ := Script.yields_of_parse h hread
  have htokens : (scan text).tokens.map (·.token) = ts := by
    rw [hpass.tokens, hnil, List.map_nil, List.append_nil]
  exact ⟨ts, ⟨htokens, Script.complete_of_parse h⟩, hderives, hderives.documented_iff_plain⟩

/-- A loop that is left from a conditional inside it is derived in the documented grammar. -/
theorem parse_derived_loop :
    let text := "WHILE x > 1 \x7b IF %a:-2% \x7b BREAK \x7d ELSE \x7b #B(x, 1) \x7d \x7d"
    ∃ s ts, Script.parse text = .ok s ∧ ConsistsOf (scan text) ts ∧
      Derives .documented (.statements false s.statements) ts := by
  intro text
  have haccepted : (Script.parse text).toOption.any fun _ => true := by decide +kernel
  obtain ⟨s, hs, -⟩ := Script.exists_of_any haccepted
  obtain ⟨ts, hts, -, hdocumented⟩ := parse_derived hs
  refine ⟨s, ts, hs, hts, hdocumented.mpr ?_⟩
  rw [← hts.1]
  decide +kernel

/-- A comma behind the last argument of a command and parentheses around the target of an assignment are accepted, and there is no
tree that such a text is derived from in the documented grammar. -/
theorem parse_documented_false :
    (∀ text ∈ ["#A(1,)", "(x) = 1"], ∃ s, Script.parse text = .ok s) ∧
      ∀ text ∈ ["#A(1,)", "(x) = 1"], ∀ ts body, ConsistsOf (scan text) ts →
        ¬Derives .documented (.statements false body) ts := by
  have haccepted : ∀ text ∈ ["#A(1,)", "(x) = 1"], (Script.parse text).toOption.any fun _ => true := by decide +kernel
  refine ⟨fun text htext => ?_, fun text htext ts body hts hderives => ?_⟩
  · obtain ⟨s, hs, -⟩ := Script.exists_of_any (haccepted text htext)
    exact ⟨s, hs⟩
  · have hplain := hderives.smooth.plain
    rw [← hts.1] at hplain
    have hbroken : ∀ text ∈ ["#A(1,)", "(x) = 1"], ¬Plain ((scan text).tokens.map (·.token)) := by decide +kernel
    exact hbroken text htext hplain

end EventScript
