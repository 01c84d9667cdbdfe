import EventScript.Proofs.Parse.Statements
import EventScript.Proofs.Token.Spelling

/-!
# Parsing undoes writing

A script that is written down, with no more parentheses than the table of precedences asks for, is read back as the same script
up to places, or it is refused for its nesting: `parse_written`. No other fault and no other tree comes out. This holds of every
text that consists of the tokens of the script, and `Script.write` is one such text.
-/

namespace EventScript

/-- The script as a text. -/
def Script.write (decimal : Float → String) (chained : Bool) (s : Script) : String :=
  String.ofList (spell decimal (s.tokens chained))

/-- The text is the script written down: it consists of the script's tokens. -/
def Script.WrittenAs (chained : Bool) (s : Script) (text : String) : Prop := ConsistsOf (scan text) (s.tokens chained)

/-- The parse of the text itself, where `Script.parse` would hide that it ran out of fuel. -/
def Parse.wholeText (text : String) : Except ParseStop (List Statement × Cursor) :=
  (Parse.statements (Parse.fuelFor (scan text).tokens.length) false).run ⟨(scan text).tokens, (scan text).ending, 0, 0⟩

/-- What a parse of a written script ends in. -/
theorem Parse.wholeText_written {chained : Bool} {s : Script} {text : String}
    (hloops : Statement.allKeepToLoops false s.statements = true) (hwritten : s.WrittenAs chained text) :
    (∃ ss c, wholeText text = .ok (ss, c) ∧ Statement.relocateAll nowhere ss = Statement.relocateAll nowhere s.statements) ∨
      ∃ p, wholeText text = .error (.fault ⟨.nestedTooDeep, p⟩) := by
  obtain ⟨htokens, hcomplete⟩ := hwritten
  have hshows : Shows ⟨(scan text).tokens, (scan text).ending, 0, 0⟩ ⟨s.tokens chained ++ [], 0, 0⟩ :=
    ⟨by rw [List.append_nil]; exact htokens, hcomplete, rfl, rfl⟩
  have hend : EndsStatements false [] := .inl rfl
  have hread := reads_statements chained 0 hend s.statements (allReadable chained s.statements 0 hloops)
    (fuelFor (scan text).tokens.length) 0 _ hshows
  have hfuel := statements_ne_outOfFuel (scan text) false 0 0
  unfold Ends at hread
  unfold wholeText
  cases hrun : (statements (fuelFor (scan text).tokens.length) false).run
      ⟨(scan text).tokens, (scan text).ending, 0, 0⟩ with
  | ok r =>
    rw [hrun] at hread
    obtain ⟨w, ⟨hsame, -⟩, -⟩ := hread
    exact .inl ⟨r.1, r.2, rfl, hsame⟩
  | error stop =>
    rw [hrun] at hread hfuel
    rcases hread with rfl | ⟨p, rfl⟩
    · exact absurd rfl hfuel
    · exact .inr ⟨p, rfl⟩

theorem Script.write_writtenAs {decimal : Float → String} {chained : Bool} {s : Script}
    (hwritable : ∀ t ∈ s.tokens chained, t.Writable decimal) : s.WrittenAs chained (s.write decimal chained) := by
  unfold Script.WrittenAs scan Script.write
  rw [String.toList_ofList]
  exact scanFrom_spell hwritable ⟨1, 1⟩

/-- A script that can be written down, its `BREAK` and `CONTINUE` in loops, can be written as `Script.write` writes it, and
each text that it is written as is read back as the same script, apart from places, or is refused for being nested too deep,
by the parser itself and not for want of fuel. -/
theorem parse_written (decimal : Float → String) (chained : Bool) (s : Script)
    (hwritable : ∀ t ∈ s.tokens chained, t.Writable decimal)
    (hloops : Statement.allKeepToLoops false s.statements = true) :
    s.WrittenAs chained (s.write decimal chained) ∧
      ∀ text, s.WrittenAs chained text →
        (∃ s', Script.parse text = .ok s' ∧ s'.unplaced = s.unplaced) ∨
          ∃ p, Script.parse text = .error ⟨.nestedTooDeep, p⟩ ∧
            Parse.wholeText text = .error (.fault ⟨.nestedTooDeep, p⟩) := by
  refine ⟨Script.write_writtenAs hwritable, fun text hwritten => ?_⟩
  rcases Parse.wholeText_written hloops hwritten with ⟨ss, c, hrun, hsame⟩ | ⟨p, hrun⟩
  · refine .inl ⟨⟨ss⟩, ?_, congrArg Script.mk hsame⟩
    unfold Parse.wholeText at hrun
    simp only [Script.parse, hrun]
  · refine .inr ⟨p, ?_, hrun⟩
    unfold Parse.wholeText at hrun
    simp only [Script.parse, hrun]

/-- A loop over two operators that group against precedence, a placeholder and a half, written and read back. -/
theorem parse_written_loop :
    let p : Position := ⟨1, 1⟩
    let decimal : Float → String := fun _ => "0.5"
    let i : Expression := .name p "i"
    let difference : Expression := .binary p i .sub (.literal p (.float (Float.ofScientific 5 true 1)))
    let s : Script := ⟨[.forLoop p "i" (.literal p (.int 0)) (.literal p (.int 3))
      [.ifElse p (.binary p difference .mul (.placeholder p "i" [.unary p .neg i])) [.breakLoop p]
        (some [.ifElse p i [] none])]]⟩
    (∀ t ∈ s.tokens true, t.Writable decimal) ∧ Statement.allKeepToLoops false s.statements = true ∧
      s.WrittenAs true (s.write decimal true) ∧
        ∀ text, s.WrittenAs true text →
          (∃ s', Script.parse text = .ok s' ∧ s'.unplaced = s.unplaced) ∨
            ∃ p, Script.parse text = .error ⟨.nestedTooDeep, p⟩ ∧
              Parse.wholeText text = .error (.fault ⟨.nestedTooDeep, p⟩) := by
  intro p decimal i difference s
  have hname : Token.ReadsAsName "i" := Token.readsAsName_letter (c := 'i') (by simp) rfl
  have hhalf : Token.SpellsFloat "0.5" (Float.ofScientific 5 true 1) :=
    ⟨['0'], ['5'], by simp, by simp, by simp, List.all_eq_true.mp rfl, rfl⟩
  have hwritable : ∀ t ∈ s.tokens true, t.Writable decimal := by
    have htokens : s.tokens true = [.keyword .forWord, .ident "i", .symbol .assign, .int 0, .symbol .colon, .int 3,
        .symbol .lbrace, .keyword .ifWord, .symbol .lparen, .ident "i", .symbol .minus,
        .float (Float.ofScientific 5 true 1), .symbol .rparen, .symbol .star, .symbol .percent, .ident "i",
        .symbol .colon, .symbol .minus, .ident "i", .symbol .percent, .symbol .lbrace, .keyword .breakWord,
        .symbol .rbrace, .keyword .elseWord, .keyword .ifWord, .ident "i", .symbol .lbrace, .symbol .rbrace,
        .symbol .rbrace] := rfl
    rw [htokens]
    simp only [List.forall_mem_cons, Token.Writable]
    simp [hname, decimal, hhalf]
  exact ⟨hwritable, rfl, parse_written decimal true s hwritable rfl⟩

end EventScript
