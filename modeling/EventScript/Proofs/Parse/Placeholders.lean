import EventScript.Proofs.Parse.RoundTrip
import EventScript.Proofs.Script.Ways

/-!
# Placeholders inside placeholders

The arguments of a placeholder stand no deeper than the placeholder itself, so the nesting limit does not count them. A placeholder
with a placeholder in it, and so on for any number of times, is an accepted script, and a way through it passes all of them:
`parse_nestedPlaceholders`.
-/

namespace EventScript

/-- A name in as many placeholders. -/
def Expression.inPlaceholders : Nat → Expression
  | 0 => .name ⟨1, 1⟩ "a"
  | n + 1 => .placeholder ⟨1, 1⟩ "a" [inPlaceholders n]

/-- A way through the expression passes as many placeholders, and no level of nesting. -/
def Expression.Deep (n : Nat) (e : Expression) : Prop := ∃ w ∈ e.ways, w.levels = 0 ∧ w.placeholders = n ∧ n ≤ w.nodes

/-- One more placeholder around an expression is one more on a way through it. -/
theorem Expression.Deep.placeholder {n : Nat} {e : Expression} (h : e.Deep n) (p : Position) (name : String) :
    (Expression.placeholder p name [e]).Deep (n + 1) := by
  obtain ⟨w, hw, hlevels, hplaceholders, hnodes⟩ := h
  refine ⟨.placeholder + w, ?_, ?_, ?_, ?_⟩
  · simp only [ways, waysOfAll, List.append_nil]
    exact List.mem_cons_of_mem _ (List.mem_map_of_mem hw)
  all_goals
    simp only [Way.add_levels, Way.add_placeholders, Way.add_nodes, Way.placeholder]
    omega

namespace Expression

/-- One more placeholder is written around the tokens of the others. -/
theorem tokens_inPlaceholders_succ (n : Nat) :
    (inPlaceholders (n + 1)).tokens =
      .symbol .percent :: .ident "a" :: .symbol .colon :: ((inPlaceholders n).tokens ++ [.symbol .percent]) := by
  have hrank : operandRank ≤ (inPlaceholders n).rank := by cases n <;> exact Nat.le_succ _
  show .symbol .percent :: .ident "a" :: (placeholderTokens [inPlaceholders n] ++ [.symbol .percent]) = _
  rw [placeholderTokens_cons, operandTokens_of_le hrank]
  simp only [placeholderTokens, List.append_nil, List.cons_append]

/-- Nothing is written but percent signs, the name and colons. -/
theorem mem_tokens_inPlaceholders {n : Nat} {t : Token} (h : t ∈ (inPlaceholders n).tokens) :
    t ∈ [Token.symbol .percent, .ident "a", .symbol .colon] := by
  induction n with
  | zero =>
    obtain rfl := List.mem_singleton.mp h
    exact .tail _ (.head _)
  | succ n ih =>
    rw [tokens_inPlaceholders_succ] at h
    rcases h with _ | ⟨_, _ | ⟨_, _ | ⟨_, h⟩⟩⟩
    · exact .head _
    · exact .tail _ (.head _)
    · exact .tail _ (.tail _ (.head _))
    · rcases List.mem_append.mp h with hinner | hlast
      · exact ih hinner
      · obtain rfl := List.mem_singleton.mp hlast
        exact .head _

end Expression

namespace Parse

open Expression

/-- What is read as an operand, wherever it stands, is read as an expression below the nesting limit, if nothing behind it belongs to
it. The levels of precedence in between find no operator. -/
theorem reads_expression_of_unary {E : ParseStop → Prop} (hE : E .outOfFuel) {ts rest : List Token} {P : Expression → Prop}
    {depth loops : Nat} (hdepth : depth < nestingLimit) (hrest : EndsExpression rest)
    (h : ∀ fuel, ReadsUnless E (unary fuel) ⟨ts ++ rest, depth + 1, loops⟩ fun e w => P e ∧ w = ⟨rest, depth + 1, loops⟩)
    (fuel : Nat) : ReadsUnless E (expression fuel) ⟨ts ++ rest, depth, loops⟩ fun e w => P e ∧ w = ⟨rest, depth, loops⟩ := by
  have hlevels : ∀ levels : List Level, (∀ level ∈ levels, level.operator? rest.head? = none) → ∀ fuel,
      ReadsUnless E (binary fuel levels) ⟨ts ++ rest, depth + 1, loops⟩ fun e w => P e ∧ w = ⟨rest, depth + 1, loops⟩ := by
    intro levels hnone fuel
    induction levels generalizing fuel with
    | nil =>
      cases fuel with
      | zero => exact .runDry hE
      | succ fuel => exact h fuel
    | cons level tighter ih =>
      obtain ⟨hlevel, htighter⟩ := List.forall_mem_cons.mp hnone
      cases fuel with
      | zero => exact .runDry hE
      | succ fuel =>
        unfold Parse.binary
        refine .bind ((ih htighter fuel).mono ?_)
        rintro left w ⟨hleft, rfl⟩
        refine .get fun c hc _ => .bind ?_
        cases fuel with
        | zero => exact .runDry hE
        | succ fuel =>
          unfold chain
          refine .peekHead fun p => ?_
          dsimp only
          rw [hlevel, hc]
          exact .pure (.restoreDepth (.pure ⟨hleft, rfl⟩))
  obtain ⟨hoperator, hquestion⟩ := hrest
  cases fuel with
  | zero => exact .runDry hE
  | succ fuel =>
    unfold expression
    refine .descendBelow hdepth (.bind ?_)
    cases fuel with
    | zero => exact .runDry hE
    | succ fuel =>
      unfold ternary
      refine .bind ((hlevels binaryLevels hoperator fuel).mono ?_)
      rintro e w ⟨he, rfl⟩
      exact .notAtSymbol hquestion (.pure (.ascend (.pure ⟨he, rfl⟩)))

/-- The only way to stop is want of fuel. -/
def RunsDry (s : ParseStop) : Prop := s = .outOfFuel

/-- A name is read as an operand. -/
theorem reads_unary_name (n : String) (fuel : Nat) (rest : List Token) (depth loops : Nat) :
    ReadsUnless RunsDry (unary fuel) ⟨.ident n :: rest, depth, loops⟩ fun e w =>
      (∃ p, e = .name p n) ∧ w = ⟨rest, depth, loops⟩ := by
  rcases fuel with _ | _ | fuel
  · exact .runDry rfl
  · unfold unary
    exact .peek fun _ => .runDry rfl
  · unfold unary
    refine .peek fun _ => ?_
    unfold primary
    exact .peek fun p => .advance (.pure ⟨⟨p, rfl⟩, rfl⟩)

/-- Reading the arguments of a placeholder goes down no level. -/
theorem reads_unary_inPlaceholders (n fuel : Nat) (rest : List Token) (depth loops : Nat) :
    ReadsUnless RunsDry (unary fuel) ⟨(inPlaceholders n).tokens ++ rest, depth, loops⟩ fun e w =>
      e.Deep n ∧ w = ⟨rest, depth, loops⟩ := by
  induction n generalizing fuel rest with
  | zero =>
    refine (reads_unary_name "a" fuel rest depth loops).mono ?_
    rintro e w ⟨⟨p, rfl⟩, rfl⟩
    exact ⟨⟨.node, .head _, rfl, rfl, Nat.zero_le _⟩, rfl⟩
  | succ n ih =>
    simp only [tokens_inPlaceholders_succ, List.cons_append, List.append_assoc, List.nil_append]
    rcases fuel with _ | _ | _ | fuel
    · exact .runDry rfl
    · unfold unary
      exact .peek fun _ => .runDry rfl
    · unfold unary
      refine .peek fun _ => ?_
      unfold primary
      exact .peek fun _ => .advance (.name (.bind (.runDry rfl)))
    · unfold unary
      refine .peek fun _ => ?_
      unfold primary
      refine .peek fun p => .advance (.name (.bind ?_))
      unfold placeholderArgs
      refine .atSymbol (.advance (.bind ((ih fuel _).mono ?_)))
      rintro e w ⟨he, rfl⟩
      refine .bind ?_
      cases fuel with
      | zero => exact .runDry rfl
      | succ fuel =>
        unfold placeholderArgs
        exact .notAtSymbol (by simp) (.pure (.pure (.atSymbol (.advance (.pure ⟨he.placeholder p "a", rfl⟩)))))

/-- The assignment of an expression that is read so. -/
theorem reads_statements_inPlaceholders (n fuel : Nat) :
    ReadsUnless RunsDry (statements fuel false) ⟨.ident "x" :: .symbol .assign :: (inPlaceholders n).tokens, 0, 0⟩ fun ss _ =>
      ∃ p target value, ss = [.assign p target value] ∧ value.Deep n := by
  have hlimit : 0 < nestingLimit := by decide
  rcases fuel with _ | _ | fuel
  · exact .runDry rfl
  · exact reads_statements_of_start (by simp) (by simp) (.bind (.runDry rfl))
  · refine reads_statements_of_start (by simp) (by simp) (.bind ?_)
    refine reads_statement_of_expression (e := .name ⟨1, 1⟩ "x") fun q => ?_
    unfold assignmentOrExpression
    have hx (fuel : Nat) (rest : List Token) (hrest : EndsExpression rest) :
        ReadsUnless RunsDry (expression fuel) ⟨[.ident "x"] ++ rest, 0, 0⟩ fun e w => (∃ p, e = .name p "x") ∧ w = ⟨rest, 0, 0⟩ :=
      reads_expression_of_unary (E := RunsDry) rfl hlimit hrest (fun fuel => reads_unary_name "x" fuel rest 1 0) fuel
    refine .bind ((hx fuel _ (.symbol (s := .assign) (by decide) _)).mono ?_)
    rintro target w ⟨⟨p, rfl⟩, rfl⟩
    refine .atSymbol ?_
    simp only [if_true, target?]
    refine .advance (.bind ?_)
    rw [← List.append_nil (inPlaceholders n).tokens]
    refine (reads_expression_of_unary (E := RunsDry) rfl hlimit .nil (fun fuel => reads_unary_inPlaceholders n fuel [] 1 0) fuel).mono ?_
    rintro value w ⟨hvalue, rfl⟩
    refine .pure (.bind ?_)
    unfold statements
    exact .peekEnd fun _ => .pure (.pure ⟨_, _, _, rfl, hvalue⟩)

end Parse

/-- For any number there is an accepted script through which a way passes as many placeholders, one inside the other. -/
theorem parse_nestedPlaceholders (n : Nat) :
    ∃ text s, Script.parse text = .ok s ∧ ∃ w ∈ s.ways, w.levels = 0 ∧ w.placeholders = n ∧ n ≤ w.nodes := by
  let script : Script := ⟨[.assign ⟨1, 1⟩ (.name "x") (.inPlaceholders n)]⟩
  have htokens : script.tokens false = .ident "x" :: .symbol .assign :: (Expression.inPlaceholders n).tokens := by
    simp [script, Script.tokens, Statement.tokensOfAll, Statement.tokens, Target.expression, Expression.tokens]
  have hx : Token.ReadsAsName "x" := Token.readsAsName_letter (c := 'x') (by simp) rfl
  have ha : Token.ReadsAsName "a" := Token.readsAsName_letter (c := 'a') (by simp) rfl
  have hwritable : ∀ t ∈ script.tokens false, t.Writable fun _ => "" := by
    rw [htokens]
    refine List.forall_mem_cons.mpr ⟨hx, List.forall_mem_cons.mpr ⟨trivial, fun t ht => ?_⟩⟩
    rcases Expression.mem_tokens_inPlaceholders ht with _ | ⟨_, _ | ⟨_, _ | ⟨_, h⟩⟩⟩
    · trivial
    · exact ha
    · trivial
    · cases h
  obtain ⟨hscanned, hcomplete⟩ := Script.write_writtenAs hwritable
  let text := script.write (fun _ => "") false
  have hread := Parse.reads_statements_inPlaceholders n (Parse.fuelFor (scan text).tokens.length)
    ⟨(scan text).tokens, (scan text).ending, 0, 0⟩ ⟨hscanned.trans htokens, hcomplete, rfl, rfl⟩
  have hfuel := Parse.statements_ne_outOfFuel (scan text) false 0 0
  unfold Parse.Ends at hread
  cases hrun : (Parse.statements (Parse.fuelFor (scan text).tokens.length) false).run
      ⟨(scan text).tokens, (scan text).ending, 0, 0⟩ with
  | error stop =>
    rw [hrun] at hread hfuel
    exact absurd (congrArg Except.error hread) hfuel
  | ok r =>
    rw [hrun] at hread
    obtain ⟨-, ⟨p, target, value, hss, w, hw, hlevels, hplaceholders, hnodes⟩, -⟩ := hread
    refine ⟨text, ⟨r.1⟩, ?_, .node + w, ?_, ?_, ?_, ?_⟩
    · simp only [Script.parse, hrun]
    · rw [Script.ways, hss]
      simp only [Statement.waysOfAll, Statement.ways, List.append_nil]
      exact List.mem_cons_of_mem _ (List.mem_map_of_mem (List.mem_append_right _ hw))
    all_goals
      simp only [Way.add_levels, Way.add_placeholders, Way.add_nodes, Way.node]
      omega

end EventScript
