import EventScript.Proofs.Parse.Reading
import EventScript.Proofs.Script.Written

/-!
# Reading written expressions

The tokens of an expression are read back as that expression, apart from places. Two facts are shown of each expression, from
those of its parts (`Readable`): wherever an operand may stand, its tokens are read as one, and in front of the rest of a chain
of operators it is read as the left end of the chain. The second is what parentheses are left out for: the operands of
`a + b + c` are read as one chain, though the tree holds them as two operators.
-/

namespace EventScript.Parse

open Expression

/-- The result is this expression, and the tokens behind it are left, at the same depth. -/
def Gives (e : Expression) (v : View) (a : Expression) (w : View) : Prop := a.unplaced = e.unplaced ∧ w = v

/-- The reader takes these tokens for the expression, whatever follows them that `Follows` allows. -/
def Takes (m : Nat → Parse Expression) (written : List Token) (e : Expression) (Follows : List Token → Prop) : Prop :=
  ∀ fuel rest depth loops, Follows rest →
    Reads (m fuel) ⟨written ++ rest, depth, loops⟩ (Gives e ⟨rest, depth, loops⟩)

/-- What may follow can be narrowed. -/
theorem Takes.mono {m : Nat → Parse Expression} {written : List Token} {e : Expression} {F F' : List Token → Prop}
    (h : Takes m written e F) (hF : ∀ rest, F' rest → F rest) : Takes m written e F' :=
  fun fuel rest depth loops hrest => h fuel rest depth loops (hF rest hrest)

/-- The levels of operators above a rank. -/
def levelsAbove (rank : Nat) : List Level := binaryLevels.drop rank

/-- The next token is no operator of a rank above this one. -/
def NoOperator (rank : Nat) (rest : List Token) : Prop := ∀ level ∈ levelsAbove rank, level.operator? rest.head? = none

/-- The next token ends an expression that stands on its own. -/
def EndsExpression (rest : List Token) : Prop := NoOperator 0 rest ∧ rest.head? ≠ some (.symbol .question)

/-! ## The table of operators -/

/-- Below the tenth rank there is a level of operators. -/
theorem levelsAbove_eq_cons {r : Nat} (h : r < 10) : ∃ level, levelsAbove r = level :: levelsAbove (r + 1) := by
  have hlt : r < binaryLevels.length := h
  exact ⟨binaryLevels[r], List.drop_eq_getElem_cons hlt⟩

/-- The level of an operator holds it. -/
theorem operator_level (op : BinaryOp) :
    ∃ level, levelsAbove (op.rank - 1) = level :: levelsAbove op.rank ∧
      level.operator? (some (.symbol op.token)) = some op := by
  cases op <;> exact ⟨_, rfl, rfl⟩

/-- The levels above that of an operator do not hold it. -/
theorem noOperator_of_operator (op : BinaryOp) (rest : List Token) :
    NoOperator op.rank (.symbol op.token :: rest) := by
  have h : ∀ level ∈ levelsAbove op.rank, level.operator? (some (.symbol op.token)) = none := by
    cases op <;> decide
  exact h

/-- The symbol of a prefix operator is read as that operator. -/
theorem unaryOperator?_token (op : UnaryOp) : unaryOperator? (some (.symbol op.token)) = some op := by
  cases op <;> rfl

/-- What is no operator above a rank is none above a higher one. -/
theorem NoOperator.mono {r r' : Nat} {rest : List Token} (h : NoOperator r rest) (hr : r ≤ r') : NoOperator r' rest := by
  intro level hlevel
  refine h level (List.drop_subset_drop_left _ hr hlevel)

/-- Above the tenth rank there is none. -/
theorem noOperator_ten (rest : List Token) : NoOperator 10 rest := by
  intro level hlevel
  cases hlevel

/-- A token that is no operator's ends every expression. -/
theorem EndsExpression.of_cons {t : Token} (ht : ∀ level ∈ binaryLevels, level.operator? (some t) = none)
    (hquestion : t ≠ .symbol .question) (rest : List Token) : EndsExpression (t :: rest) :=
  ⟨ht, by simpa using hquestion⟩

/-- An expression ends at the end of the text. -/
theorem EndsExpression.nil : EndsExpression [] := ⟨fun _ _ => rfl, by simp⟩

/-- It ends in front of the symbols that belong to what is around it. -/
theorem EndsExpression.symbol {s : Symbol}
    (hs : s ∈ [Symbol.rparen, .rbracket, .lbrace, .rbrace, .comma, .colon, .semicolon, .assign]) (rest : List Token) :
    EndsExpression (.symbol s :: rest) := by
  refine .of_cons ?_ ?_ rest <;> revert s <;> decide

/-! ## From tight readers to loose ones -/

section loosening

variable {written : List Token} {e : Expression} {F : List Token → Prop}

/-- What is read above a level is read from the level on, if no operator of the level follows it. -/
theorem Takes.loosen {r : Nat} (h : Takes (binary · (levelsAbove (r + 1))) written e (NoOperator (r + 1))) (hr : r < 10) :
    Takes (binary · (levelsAbove r)) written e (NoOperator r) := by
  intro fuel rest depth loops hrest
  obtain ⟨level, hlevel⟩ := levelsAbove_eq_cons hr
  dsimp only
  rw [hlevel]
  have hnone : level.operator? rest.head? = none := hrest level (by rw [hlevel]; exact List.mem_cons_self)
  cases fuel with
  | zero => exact .outOfFuel
  | succ fuel =>
    unfold Parse.binary
    refine .bind ((h fuel rest depth loops (hrest.mono (Nat.le_succ r))).mono ?_)
    rintro left w ⟨hleft, rfl⟩
    refine .get fun c hc _ => ?_
    refine .bind ?_
    cases fuel with
    | zero => exact .outOfFuel
    | succ fuel =>
      unfold chain
      refine .peekHead fun p => ?_
      dsimp only
      rw [hnone]
      rw [hc]
      exact .pure (.restoreDepth (.pure ⟨hleft, rfl⟩))

/-- What is read at a tight level is read at a looser one, if no operator in between follows. -/
theorem Takes.loosenTo {r k : Nat} (h : Takes (binary · (levelsAbove k)) written e (NoOperator k)) (hrk : r ≤ k)
    (hk : k ≤ 10) : Takes (binary · (levelsAbove r)) written e (NoOperator r) := by
  induction k with
  | zero =>
    obtain rfl : r = 0 := by omega
    exact h
  | succ k ih =>
    rcases Nat.lt_or_ge k r with hlt | hge
    · obtain rfl : r = k + 1 := by omega
      exact h
    · exact ih (h.loosen hk) hge (by omega)

/-- An operand of a unary operator is read above all levels. -/
theorem Takes.binary_of_unary (h : Takes unary written e fun _ => True) :
    Takes (binary · (levelsAbove 10)) written e (NoOperator 10) := by
  intro fuel rest depth loops _
  cases fuel with
  | zero => exact .outOfFuel
  | succ fuel => exact h fuel rest depth loops trivial

/-- What is read above all levels is an operand. -/
theorem Takes.unary_of_binary (h : Takes (binary · (levelsAbove 10)) written e (NoOperator 10)) :
    Takes unary written e fun _ => True :=
  fun fuel rest depth loops _ => h (fuel + 1) rest depth loops (noOperator_ten rest)

/-- What starts with no operator is an operand of unary operators. -/
theorem Takes.unary_of_primary (t : Token) (ts : List Token) (h : Takes primary (t :: ts) e fun _ => True)
    (ht : unaryOperator? (some t) = none) : Takes unary (t :: ts) e fun _ => True := by
  intro fuel rest depth loops _
  cases fuel with
  | zero => exact .outOfFuel
  | succ fuel =>
    unfold unary
    refine .peek fun p => ?_
    dsimp only
    rw [ht]
    exact h fuel rest depth loops trivial

/-- What is read from the loosest level on stands on its own. -/
theorem Takes.expression_of_binary (h : Takes (binary · (levelsAbove 0)) written e (NoOperator 0)) :
    Takes expression written e EndsExpression := by
  rintro fuel rest depth loops ⟨hoperator, hquestion⟩
  cases fuel with
  | zero => exact .outOfFuel
  | succ fuel =>
    unfold expression
    refine .descend (.bind ?_)
    cases fuel with
    | zero => exact .outOfFuel
    | succ fuel =>
      unfold ternary
      refine .bind ((h fuel rest (depth + 1) loops hoperator).mono ?_)
      rintro a w ⟨ha, rfl⟩
      exact .notAtSymbol hquestion (.pure (.ascend (.pure ⟨ha, rfl⟩)))

/-- In parentheses an expression can stand everywhere. -/
theorem Takes.parenthesized (h : Takes expression written e EndsExpression) :
    Takes unary (grouped true written) e fun _ => True := by
  refine unary_of_primary (.symbol .lparen) (written ++ [.symbol .rparen]) ?_ rfl
  intro fuel rest depth loops _
  rw [List.cons_append, List.append_assoc]
  cases fuel with
  | zero => exact .outOfFuel
  | succ fuel =>
    unfold primary
    refine .peek fun p => .advance (.bind ?_)
    refine (h fuel _ depth loops (.symbol (by decide) rest)).mono ?_
    rintro a w ⟨ha, rfl⟩
    exact .expect (.pure ⟨ha, rfl⟩)

end loosening

/-! ## Chains of operators -/

/-- After any number of operators of this level, what is left of the chain is read with this outcome. -/
def ChainReads (level : Level) (tighter : List Level) (e : Expression) (rest : List Token) (loops : Nat)
    (Q : Expression → View → Prop) : Prop :=
  ∀ fuel a depth, a.unplaced = e.unplaced → Reads (chain fuel level tighter a) ⟨rest, depth, loops⟩ Q

/-- The expression is read as the left end of a chain of operators of rank `r + 1`: behind the operand that the chain starts
with, the chain comes to all that it comes to behind the whole expression. -/
def LeadsChain (r : Nat) (e : Expression) : Prop :=
  ∀ level, levelsAbove r = level :: levelsAbove (r + 1) → ∀ rest depth loops Q, NoOperator (r + 1) rest →
    ChainReads level (levelsAbove (r + 1)) e rest loops Q →
    ∀ fuel, Reads (binary fuel (levelsAbove (r + 1))) ⟨operandTokens (r + 1) e ++ rest, depth, loops⟩ fun a w =>
      ∃ rest', w = ⟨rest', depth, loops⟩ ∧ ChainReads level (levelsAbove (r + 1)) a rest' loops Q

/-- What is shown of every expression. -/
structure Readable (e : Expression) : Prop where
  whole : Takes expression e.tokens e EndsExpression
  operand : ∀ r ≤ 10, Takes (binary · (levelsAbove r)) (operandTokens (r + 1) e) e (NoOperator r)
  leads : ∀ r < 10, LeadsChain r e

/-- An expression is read as an operand, in parentheses if it needs them. -/
theorem Readable.unary {e : Expression} (h : Readable e) : Takes unary (operandTokens operandRank e) e fun _ => True :=
  Takes.unary_of_binary (h.operand 10 (Nat.le_refl 10))

/-- An operator and its right operand, in front of the rest of a chain. -/
theorem ChainReads.cons {r : Nat} {op : BinaryOp} {level : Level} {left right : Expression} {rest : List Token}
    {loops : Nat} {Q : Expression → View → Prop} {p : Position} (hright : Readable right) (hop : op.rank = r + 1)
    (hread : level.operator? (some (.symbol op.token)) = some op) (hrest : NoOperator (r + 1) rest)
    (h : ChainReads level (levelsAbove (r + 1)) (.binary p left op right) rest loops Q) :
    ChainReads level (levelsAbove (r + 1)) left (.symbol op.token :: (operandTokens (r + 2) right ++ rest)) loops Q := by
  intro fuel a depth ha
  have hr : r + 1 ≤ 10 := hop ▸ op.rank_le
  cases fuel with
  | zero => exact .outOfFuel
  | succ fuel =>
    unfold chain
    refine .peek fun q => ?_
    dsimp only
    rw [hread]
    refine .advance (.descend (.bind ?_))
    refine (hright.operand (r + 1) hr fuel rest (depth + 1) loops hrest).mono ?_
    rintro b w ⟨hb, rfl⟩
    refine h fuel _ _ ?_
    simp only [Expression.unplaced, Expression.relocate] at ha hb ⊢
    rw [ha, hb]
    rfl

/-- An expression that is not an operator of the rank is where a chain of the rank starts. -/
theorem leadsChain_of_operand {r : Nat} {e : Expression} (hne : e.rank ≠ r + 1)
    (h : Takes (binary · (levelsAbove (r + 1))) (operandTokens (r + 2) e) e (NoOperator (r + 1))) : LeadsChain r e := by
  intro level _ rest depth loops Q hrest hchain fuel
  have hsame : operandTokens (r + 1) e = operandTokens (r + 2) e := by
    unfold operandTokens
    congr 2
    rw [eq_iff_iff]
    omega
  rw [hsame]
  refine (h fuel rest depth loops hrest).mono ?_
  rintro a w ⟨ha, rfl⟩
  exact ⟨rest, rfl, fun fuel' b depth' hb => hchain fuel' b depth' (hb.trans ha)⟩

/-- An operator lengthens the chain that its left operand leads. -/
theorem leadsChain_binary {r : Nat} {op : BinaryOp} {left right : Expression} {p : Position} (hop : op.rank = r + 1)
    (hleft : LeadsChain r left) (hright : Readable right) : LeadsChain r (.binary p left op right) := by
  intro level hlevel rest depth loops Q hrest hchain fuel
  have hread : level.operator? (some (.symbol op.token)) = some op := by
    obtain ⟨level', hlevel', hread⟩ := operator_level op
    rw [hop, Nat.add_sub_cancel, hlevel] at hlevel'
    cases hlevel'
    exact hread
  have hbare : operandTokens (r + 1) (.binary p left op right) ++ rest =
      operandTokens (r + 1) left ++ .symbol op.token :: (operandTokens (r + 2) right ++ rest) := by
    rw [operandTokens_of_le (by simp only [rank]; omega), tokens_binary, hop, List.append_assoc, List.cons_append]
  rw [hbare]
  have hstops : NoOperator (r + 1) (.symbol op.token :: (operandTokens (r + 2) right ++ rest)) :=
    hop ▸ noOperator_of_operator op _
  exact hleft level hlevel _ depth loops Q hstops (ChainReads.cons hright hop hread hrest hchain) fuel

/-- A chain is read from its own level. -/
theorem takes_binary {r : Nat} {op : BinaryOp} {left right : Expression} {p : Position} (hop : op.rank = r + 1)
    (hleft : LeadsChain r left) (hright : Readable right) :
    Takes (binary · (levelsAbove r)) (tokens (.binary p left op right)) (.binary p left op right) (NoOperator r) := by
  intro fuel rest depth loops hrest
  obtain ⟨level, hlevel, -⟩ := operator_level op
  rw [hop, Nat.add_sub_cancel] at hlevel
  dsimp only
  rw [hlevel]
  have hbare : tokens (.binary p left op right) = operandTokens (r + 1) (.binary p left op right) :=
    (operandTokens_of_le (by simp only [rank]; omega)).symm
  rw [hbare]
  cases fuel with
  | zero => exact .outOfFuel
  | succ fuel =>
    unfold Parse.binary
    have hend : ChainReads level (levelsAbove (r + 1)) (.binary p left op right) rest loops fun a w =>
        ∃ depth', Gives (.binary p left op right) ⟨rest, depth', loops⟩ a w := by
      intro fuel' a depth' ha
      cases fuel' with
      | zero => exact .outOfFuel
      | succ fuel' =>
        unfold chain
        refine .peekHead fun q => ?_
        dsimp only
        rw [hrest level (by rw [hlevel]; exact List.mem_cons_self)]
        exact .pure ⟨depth', ha, rfl⟩
    refine .bind ((leadsChain_binary hop hleft hright level hlevel rest depth loops _
      (hrest.mono (Nat.le_succ r)) hend fuel).mono ?_)
    rintro a w ⟨rest', rfl, hchain⟩
    refine .get fun c hc _ => .bind ((hchain fuel a depth rfl).mono ?_)
    rintro b w ⟨depth', hb, rfl⟩
    rw [hc]
    exact .restoreDepth (.pure ⟨hb, rfl⟩)

/-! ## All expressions -/

/-- It suffices to read an expression bare: from the levels below its rank, on its own, and as the left end of chains of its
rank. -/
theorem Readable.of_bare {e : Expression} (hwhole : Takes expression e.tokens e EndsExpression)
    (hbare : ∀ r ≤ 10, r < e.rank → Takes (binary · (levelsAbove r)) e.tokens e (NoOperator r))
    (hleads : ∀ r < 10, e.rank = r + 1 → LeadsChain r e) : Readable e := by
  have hoperand : ∀ r ≤ 10, Takes (binary · (levelsAbove r)) (operandTokens (r + 1) e) e (NoOperator r) := by
    intro r hr
    rcases Nat.lt_or_ge r e.rank with hlt | hge
    · rw [operandTokens_of_le hlt]
      exact hbare r hr hlt
    · rw [operandTokens_of_lt (by omega)]
      exact hwhole.parenthesized.binary_of_unary.loosenTo hr (Nat.le_refl 10)
  refine ⟨hwhole, hoperand, fun r hr => ?_⟩
  by_cases hrank : e.rank = r + 1
  · exact hleads r hr hrank
  · exact leadsChain_of_operand hrank (hoperand (r + 1) hr)

/-- What is read as an operand of a unary operator without parentheses. -/
theorem Readable.of_unary {e : Expression} (hrank : operandRank ≤ e.rank)
    (h : Takes Parse.unary e.tokens e fun _ => True) : Readable e := by
  have hbare : ∀ r ≤ 10, Takes (binary · (levelsAbove r)) e.tokens e (NoOperator r) :=
    fun r hr => h.binary_of_unary.loosenTo hr (Nat.le_refl 10)
  refine .of_bare (hbare 0 (by omega)).expression_of_binary (fun r hr _ => hbare r hr) fun r hr heq => ?_
  have : (11 : Nat) ≤ r + 1 := heq ▸ hrank
  omega

/-- A literal is read back. -/
theorem readable_literal (p : Position) (value : Literal) : Readable (.literal p value) := by
  have hvalue : literal? value.token = some value := by
    cases value with
    | bool b => cases b <;> rfl
    | _ => rfl
  have hhead : unaryOperator? (some value.token) = none := by
    cases value with
    | bool b => cases b <;> rfl
    | _ => rfl
  refine .of_unary (Nat.le_succ operandRank) (.unary_of_primary (value.token) [] ?_ hhead)
  intro fuel rest depth loops _
  cases fuel with
  | zero => exact .outOfFuel
  | succ fuel =>
    unfold primary
    refine .peek fun q => ?_
    dsimp only
    have hread : Reads (do advance; pure (Expression.literal q value)) ⟨value.token :: rest, depth, loops⟩
        (Gives (.literal p value) ⟨rest, depth, loops⟩) := .advance (.pure ⟨rfl, rfl⟩)
    cases value with
    | bool b => cases b <;> exact hread
    | _ => exact hread

/-- So is a name. -/
theorem readable_name (p : Position) (n : String) : Readable (.name p n) := by
  refine .of_unary (Nat.le_succ operandRank) (.unary_of_primary (.ident n) [] ?_ rfl)
  intro fuel rest depth loops _
  cases fuel with
  | zero => exact .outOfFuel
  | succ fuel =>
    unfold primary
    exact .peek fun q => .advance (.pure ⟨rfl, rfl⟩)

/-- So is a global variable by its name. -/
theorem readable_globalName (p : Position) (n : String) : Readable (.globalName p n) := by
  refine .of_unary (Nat.le_succ operandRank) (.unary_of_primary (.keyword .globalWord) [.symbol .dot, .ident n] ?_ rfl)
  intro fuel rest depth loops _
  cases fuel with
  | zero => exact .outOfFuel
  | succ fuel =>
    unfold primary
    exact .peek fun q => .advance (.atSymbol (.advance (.name (.pure ⟨rfl, rfl⟩))))

/-- So is one by a computed key, in brackets. -/
theorem readable_globalAt (p : Position) {key : Expression} (hkey : Readable key) : Readable (.globalAt p key) := by
  refine .of_unary (Nat.le_succ operandRank) ?_
  refine .unary_of_primary (.keyword .globalWord) (.symbol .lbracket :: key.tokens ++ [.symbol .rbracket]) ?_ rfl
  intro fuel rest depth loops _
  simp only [List.cons_append, List.append_assoc, List.nil_append]
  cases fuel with
  | zero => exact .outOfFuel
  | succ fuel =>
    unfold primary
    refine .peek fun q => .advance (.notAtSymbol (by simp) (.atSymbol (.advance (.bind ?_))))
    refine (hkey.whole fuel _ depth loops (.symbol (by decide) rest)).mono ?_
    rintro a w ⟨ha, rfl⟩
    exact .expect (.pure ⟨congrArg (Expression.globalAt _) ha, rfl⟩)

/-- So is a prefix operator in front of its operand. -/
theorem readable_unary (p : Position) (op : UnaryOp) {operand : Expression} (hoperand : Readable operand) :
    Readable (.unary p op operand) := by
  refine .of_unary (Nat.le_refl _) ?_
  intro fuel rest depth loops _
  rw [tokens_unary]
  cases fuel with
  | zero => exact .outOfFuel
  | succ fuel =>
    unfold Parse.unary
    refine .peek fun q => ?_
    dsimp only
    rw [unaryOperator?_token]
    refine .advance (.descend (.bind ?_))
    refine (hoperand.unary fuel rest (depth + 1) loops trivial).mono ?_
    rintro a w ⟨ha, rfl⟩
    exact .ascend (.pure ⟨congrArg (Expression.unary _ op) ha, rfl⟩)

/-- So is an operation on two operands, each in parentheses if it binds less tightly. -/
theorem readable_binary (p : Position) {left : Expression} (op : BinaryOp) {right : Expression} (hleft : Readable left)
    (hright : Readable right) : Readable (.binary p left op right) := by
  obtain ⟨k, hk⟩ : ∃ k, op.rank = k + 1 := Nat.exists_eq_add_one.mpr op.rank_pos
  have hle : k < 10 := by
    have := op.rank_le
    omega
  have hown := takes_binary (p := p) hk (hleft.leads k hle) hright
  refine .of_bare (hown.loosenTo (Nat.zero_le k) (by omega)).expression_of_binary (fun r _ hr => ?_) fun r _ hr => ?_
  · have hrk : r < op.rank := hr
    exact hown.loosenTo (by omega) (by omega)
  · obtain rfl : k = r := Nat.add_right_cancel (hk.symm.trans hr)
    exact leadsChain_binary hk (hleft.leads k hle) hright

/-- So is a conditional expression with its branches. -/
theorem readable_ternary (p : Position) {condition thenValue elseValue : Expression} (hcondition : Readable condition)
    (hthen : Readable thenValue) (helse : Readable elseValue) :
    Readable (.ternary p condition thenValue elseValue) := by
  refine .of_bare ?_ (fun r _ hr => absurd hr (Nat.not_lt_zero r)) fun r _ hr => absurd hr.symm (Nat.succ_ne_zero r)
  intro fuel rest depth loops hrest
  rw [tokens_ternary]
  simp only [List.cons_append, List.append_assoc]
  cases fuel with
  | zero => exact .outOfFuel
  | succ fuel =>
    unfold expression
    refine .descend (.bind ?_)
    cases fuel with
    | zero => exact .outOfFuel
    | succ fuel =>
      unfold ternary
      have hquestion : NoOperator 0 (.symbol .question ::
          (thenValue.tokens ++ .symbol .colon :: (elseValue.tokens ++ rest))) := by
        have : ∀ level ∈ levelsAbove 0, level.operator? (some (.symbol .question)) = none := by decide
        exact this
      refine .bind ((hcondition.operand 0 (by omega) fuel _ (depth + 1) loops hquestion).mono ?_)
      rintro a w ⟨ha, rfl⟩
      refine .atSymbol (.advance (.bind ?_))
      refine (hthen.whole fuel _ (depth + 1) loops (.symbol (by decide) _)).mono ?_
      rintro b w ⟨hb, rfl⟩
      refine .expect (.bind ((helse.whole fuel rest (depth + 1) loops hrest).mono ?_))
      rintro c w ⟨hc, rfl⟩
      refine .pure (.ascend (.pure ⟨?_, rfl⟩))
      simp only [Expression.unplaced, Expression.relocate] at ha hb hc ⊢
      rw [ha, hb, hc]
      rfl

/-- The arguments of a placeholder, in front of the percent sign behind them. -/
theorem reads_placeholderArgs {args : List Expression} (hargs : ∀ e ∈ args, Readable e) :
    ∀ fuel rest depth loops, Reads (placeholderArgs fuel) ⟨placeholderTokens args ++ .symbol .percent :: rest, depth, loops⟩
      fun as w => relocateAll nowhere as = relocateAll nowhere args ∧ w = ⟨.symbol .percent :: rest, depth, loops⟩ := by
  induction args with
  | nil =>
    intro fuel rest depth loops
    cases fuel with
    | zero => exact .outOfFuel
    | succ fuel =>
      unfold placeholderArgs
      rw [placeholderTokens, List.nil_append]
      exact .notAtSymbol (by simp) (.pure ⟨rfl, rfl⟩)
  | cons arg args ih =>
    intro fuel rest depth loops
    cases fuel with
    | zero => exact .outOfFuel
    | succ fuel =>
      unfold placeholderArgs
      simp only [placeholderTokens_cons, List.cons_append, List.append_assoc]
      refine .atSymbol (.advance (.bind ?_))
      refine ((hargs arg List.mem_cons_self).unary fuel _ depth loops trivial).mono ?_
      rintro a w ⟨ha, rfl⟩
      refine .bind ((ih (fun e he => hargs e (List.mem_cons_of_mem _ he)) fuel rest depth loops).mono ?_)
      rintro as w ⟨has, rfl⟩
      refine .pure ⟨?_, rfl⟩
      rw [relocateAll_cons, has, relocateAll_cons _ arg]
      exact congrArg (· :: _) ha

/-- So is a placeholder with its arguments. -/
theorem readable_placeholder (p : Position) (n : String) {args : List Expression} (hargs : ∀ e ∈ args, Readable e) :
    Readable (.placeholder p n args) := by
  refine .of_unary (Nat.le_succ operandRank) ?_
  refine .unary_of_primary (.symbol .percent) (.ident n :: placeholderTokens args ++ [.symbol .percent]) ?_ rfl
  intro fuel rest depth loops _
  simp only [List.cons_append, List.append_assoc, List.nil_append]
  cases fuel with
  | zero => exact .outOfFuel
  | succ fuel =>
    unfold primary
    refine .peek fun q => .advance (.name (.bind ?_))
    refine (reads_placeholderArgs hargs fuel rest depth loops).mono ?_
    rintro as w ⟨has, rfl⟩
    exact .atSymbol (.advance (.pure ⟨congrArg (Expression.placeholder _ n) has, rfl⟩))

mutual

/-- Every expression is read back, by recursion on the expression. -/
theorem readable : ∀ e : Expression, Readable e
  | .literal p value => readable_literal p value
  | .name p n => readable_name p n
  | .globalName p n => readable_globalName p n
  | .globalAt p key => readable_globalAt p (readable key)
  | .binary p left op right => readable_binary p op (readable left) (readable right)
  | .unary p op operand => readable_unary p op (readable operand)
  | .ternary p condition thenValue elseValue =>
    readable_ternary p (readable condition) (readable thenValue) (readable elseValue)
  | .placeholder p n args => readable_placeholder p n (readableAll args)

/-- So is every one in a list. -/
theorem readableAll : ∀ args : List Expression, ∀ e ∈ args, Readable e
  | [] => fun _ he => nomatch he
  | arg :: args => List.forall_mem_cons.mpr ⟨readable arg, readableAll args⟩

end

end EventScript.Parse
