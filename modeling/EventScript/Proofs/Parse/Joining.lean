import EventScript.Proofs.Parse.Lockstep
import EventScript.Proofs.Parse.Progress

/-!
# Parsing joined texts

A reader does the same with more fuel, at other places, and with a semicolon and more behind its tokens (`expressionsAlike`,
`statementsAlike`). So behind a script that is accepted, with a semicolon on a line of its own in between, another text is parsed as
it is parsed alone, that many lines further down: `parse_append`.
-/

namespace EventScript.Parse

variable {f : Position → Position} {more : List LocatedToken}

/-- A semicolon is no operator of the level. -/
def Silent (level : Level) : Prop := level.operator? (some (.symbol .semicolon)) = none

/-- A semicolon is no binary operator at all. -/
theorem silent_binaryLevels : ∀ level ∈ binaryLevels, Silent level := by
  unfold Silent
  decide

/-- What holds of every fuel from a successor on is shown of successors. -/
theorem forall_ge_succ {p : Nat → Prop} {fuel : Nat} (h : ∀ k, fuel ≤ k → p (k + 1)) : ∀ fuel' ≥ fuel + 1, p fuel'
  | 0, hle => absurd hle (by omega)
  | k + 1, hle => h k (Nat.le_of_succ_le_succ hle)

/-! ## Expressions -/

/-- The readers of expressions with this much fuel are mirrored by the same ones with more. -/
structure ExpressionsAlike (f : Position → Position) (more : List LocatedToken) (fuel : Nat) : Prop where
  expression : ∀ fuel' ≥ fuel, Alike f more (expression fuel) (expression fuel') (Expression.relocate f)
  ternary : ∀ fuel' ≥ fuel, Alike f more (ternary fuel) (ternary fuel') (Expression.relocate f)
  binary : ∀ fuel' ≥ fuel, ∀ levels, (∀ level ∈ levels, Silent level) →
    Alike f more (binary fuel levels) (binary fuel' levels) (Expression.relocate f)
  chain : ∀ fuel' ≥ fuel, ∀ level tighter left, Silent level → (∀ level ∈ tighter, Silent level) →
    Alike f more (chain fuel level tighter left) (chain fuel' level tighter (left.relocate f)) (Expression.relocate f)
  unary : ∀ fuel' ≥ fuel, Alike f more (unary fuel) (unary fuel') (Expression.relocate f)
  primary : ∀ fuel' ≥ fuel, Alike f more (primary fuel) (primary fuel') (Expression.relocate f)
  placeholderArgs : ∀ fuel' ≥ fuel,
    Alike f more (placeholderArgs fuel) (placeholderArgs fuel') (Expression.relocateAll f)

/-- Without fuel there is nothing to mirror. -/
theorem expressionsAlike_zero : ExpressionsAlike f more 0 := by
  constructor
  case binary => exact fun _ _ _ _ _ _ _ => .outOfFuel
  case chain => exact fun _ _ _ _ _ _ _ _ _ _ => .outOfFuel
  all_goals exact fun _ _ _ _ _ => .outOfFuel

section expressions

variable {fuel k : Nat}

/-- An expression: its level of nesting is taken and given back on both sides. -/
theorem expression_alike (ih : ExpressionsAlike f more fuel) (hk : fuel ≤ k) :
    Alike f more (expression (fuel + 1)) (expression (k + 1)) (Expression.relocate f) := by
  intro c d h
  unfold expression
  refine .descend h fun c₁ d₁ h₁ _ => .bind (ih.ternary k hk c₁ d₁ h₁) fun e c₂ d₂ h₂ => ?_
  exact .ascend h₂ fun c₃ d₃ h₃ => .pure h₃ rfl

/-- A condition, and the two branches where a question mark follows. -/
theorem ternary_alike (ih : ExpressionsAlike f more fuel) (hk : fuel ≤ k) :
    Alike f more (ternary (fuel + 1)) (ternary (k + 1)) (Expression.relocate f) := by
  intro c d h
  unfold ternary
  refine .bind (ih.binary k hk _ silent_binaryLevels c d h) fun condition c₁ d₁ h₁ => ?_
  refine .atSymbol (by decide) h₁ (fun t ts ht => .advance h₁ ht fun c₂ d₂ h₂ => ?_) (.pure h₁ rfl)
  refine .bind (ih.expression k hk c₂ d₂ h₂) fun thenValue c₃ d₃ h₃ => .expect (by decide) h₃ fun c₄ d₄ h₄ => ?_
  refine .bind (ih.expression k hk c₄ d₄ h₄) fun elseValue c₅ d₅ h₅ => .pure h₅ ?_
  simp only [Expression.relocate, Expression.position_relocate]

/-- Operators of one level, with those that bind tighter as operands; what is no level any more is an operand. -/
theorem binary_alike (ih : ExpressionsAlike f more fuel) (hk : fuel ≤ k) : ∀ levels, (∀ level ∈ levels, Silent level) →
    Alike f more (binary (fuel + 1) levels) (binary (k + 1) levels) (Expression.relocate f)
  | [], _ => ih.unary k hk
  | level :: tighter, hsilent => by
    intro c d h
    obtain ⟨hlevel, htighter⟩ := List.forall_mem_cons.mp hsilent
    unfold binary
    refine .bind (ih.binary k hk tighter htighter c d h) fun left c₁ d₁ h₁ => .get ?_
    refine .bind (ih.chain k hk level tighter left hlevel htighter c₁ d₁ h₁) fun e c₂ d₂ h₂ => ?_
    exact .restoreDepth h₂ h₁.depth fun c₃ d₃ h₃ => .pure h₃ rfl

/-- The operators that follow a left operand. Where the first text ends, the other may go on with a semicolon, which is none of them. -/
theorem chain_alike (ih : ExpressionsAlike f more fuel) (hk : fuel ≤ k) (level : Level) (tighter : List Level)
    (left : Expression) (hlevel : Silent level) (htighter : ∀ level ∈ tighter, Silent level) :
    Alike f more (chain (fuel + 1) level tighter left) (chain (k + 1) level tighter (left.relocate f))
      (Expression.relocate f) := by
  intro c d h
  unfold chain
  refine .peek h (fun t ts ht => ?_) fun p next p' _ hnext => ?_
  · dsimp only
    cases level.operator? (some t.token) with
    | none => exact .pure h rfl
    | some op =>
      refine .advance h ht fun c₁ d₁ h₁ => .descend h₁ fun c₂ d₂ h₂ _ => ?_
      refine .bind (ih.binary k hk tighter htighter c₂ d₂ h₂) fun right c₃ d₃ h₃ => ?_
      have hwhole := ih.chain k hk level tighter (.binary left.position left op right) hlevel htighter c₃ d₃ h₃
      simp only [Expression.relocate] at hwhole
      rw [Expression.position_relocate]
      exact hwhole.weaken
  · have hend : level.operator? next = none := by
      rcases hnext with ⟨-, rfl, -⟩ | ⟨-, rfl⟩
      · rfl
      · exact hlevel
    dsimp only
    rw [hend]
    exact .pure h rfl

/-- An operand behind any number of prefix operators. -/
theorem unary_alike (ih : ExpressionsAlike f more fuel) (hk : fuel ≤ k) :
    Alike f more (unary (fuel + 1)) (unary (k + 1)) (Expression.relocate f) := by
  intro c d h
  unfold unary
  refine .peek h (fun t ts ht => ?_) fun p next p' _ hnext => ?_
  · dsimp only
    cases unaryOperator? (some t.token) with
    | none => exact ih.primary k hk c d h
    | some op =>
      refine .advance h ht fun c₁ d₁ h₁ => .descend h₁ fun c₂ d₂ h₂ _ => ?_
      refine .bind (ih.unary k hk c₂ d₂ h₂) fun operand c₃ d₃ h₃ => .ascend h₃ fun c₄ d₄ h₄ => .pure h₄ ?_
      simp only [Expression.relocate]
  · rcases hnext with ⟨-, rfl, -⟩ | ⟨-, rfl⟩ <;> exact ih.primary k hk c d h

/-- A literal, a name, a global variable, something in parentheses, or a placeholder. -/
theorem primary_alike (ih : ExpressionsAlike f more fuel) (hk : fuel ≤ k) :
    Alike f more (primary (fuel + 1)) (primary (k + 1)) (Expression.relocate f) := by
  intro c d h
  unfold primary
  refine .peek h (fun t ts ht => ?_) fun p next p' _ hnext => ?_
  · dsimp only
    split
    next n _ => exact .advance h ht fun c₁ d₁ h₁ => .pure h₁ (by simp only [Expression.relocate])
    next =>
      refine .advance h ht fun c₁ d₁ h₁ => .atSymbol (by decide) h₁ (fun u us hu => ?_) ?_
      · refine .advance h₁ hu fun c₂ d₂ h₂ => .name h₂ fun n c₃ d₃ h₃ => .pure h₃ ?_
        simp only [Expression.relocate]
      · refine .atSymbol (by decide) h₁ (fun u us hu => .advance h₁ hu fun c₂ d₂ h₂ => ?_) (.fail h₁ fun _ => rfl)
        refine .bind (ih.expression k hk c₂ d₂ h₂) fun key c₃ d₃ h₃ => .expect (by decide) h₃ fun c₄ d₄ h₄ => ?_
        exact .pure h₄ (by simp only [Expression.relocate])
    next =>
      refine .advance h ht fun c₁ d₁ h₁ => .name h₁ fun n c₂ d₂ h₂ => ?_
      refine .bind (ih.placeholderArgs k hk c₂ d₂ h₂) fun args c₃ d₃ h₃ => ?_
      refine .atSymbol (by decide) h₃ (fun u us hu => .advance h₃ hu fun c₄ d₄ h₄ => .pure h₄ ?_) (.fail h₃ fun _ => rfl)
      simp only [Expression.relocate]
    next =>
      refine .advance h ht fun c₁ d₁ h₁ => .bind (ih.expression k hk c₁ d₁ h₁) fun e c₂ d₂ h₂ => ?_
      exact .expect (by decide) h₂ fun c₃ d₃ h₃ => .pure h₃ rfl
    next =>
      split
      · exact .advance h ht fun c₁ d₁ h₁ => .pure h₁ (by simp only [Expression.relocate])
      · exact .fail h fun _ => rfl
    next hnone => cases hnone
  · rcases hnext with ⟨-, rfl, -⟩ | ⟨hmore, rfl⟩
    · exact .fail h fun _ => rfl
    · exact .fail h fun hnil => absurd hnil hmore

/-- The arguments of a placeholder, as long as a colon follows. -/
theorem placeholderArgs_alike (ih : ExpressionsAlike f more fuel) (hk : fuel ≤ k) :
    Alike f more (placeholderArgs (fuel + 1)) (placeholderArgs (k + 1)) (Expression.relocateAll f) := by
  intro c d h
  unfold placeholderArgs
  refine .atSymbol (by decide) h (fun t ts ht => .advance h ht fun c₁ d₁ h₁ => ?_) (.pure h rfl)
  refine .bind (ih.unary k hk c₁ d₁ h₁) fun arg c₂ d₂ h₂ => ?_
  exact .bind (ih.placeholderArgs k hk c₂ d₂ h₂) fun rest c₃ d₃ h₃ => .pure h₃ (by rw [Expression.relocateAll])

end expressions

/-- All readers of expressions at once, by induction on the fuel. -/
theorem expressionsAlike (f : Position → Position) (more : List LocatedToken) (fuel : Nat) :
    ExpressionsAlike f more fuel := by
  induction fuel with
  | zero => exact expressionsAlike_zero
  | succ fuel ih =>
    exact ⟨forall_ge_succ fun _ => expression_alike ih, forall_ge_succ fun _ => ternary_alike ih,
      forall_ge_succ fun _ => binary_alike ih, forall_ge_succ fun _ => chain_alike ih,
      forall_ge_succ fun _ => unary_alike ih, forall_ge_succ fun _ => primary_alike ih,
      forall_ge_succ fun _ => placeholderArgs_alike ih⟩

section statements

variable {fuel fuel' k : Nat}

/-- An expression is read alike with more fuel. -/
theorem expression_mirrors (hfuel : fuel ≤ fuel') :
    Alike f more (expression fuel) (expression fuel') (Expression.relocate f) :=
  (expressionsAlike f more fuel).expression fuel' hfuel

/-! ## Statements -/

/-- The arguments of a command, with commas in between. -/
theorem commandArgs_alike : ∀ {fuel fuel' : Nat}, fuel ≤ fuel' →
    Alike f more (commandArgs fuel) (commandArgs fuel') (Expression.relocateAll f) := by
  intro fuel
  induction fuel with
  | zero => exact fun _ _ _ _ => .outOfFuel
  | succ fuel ih =>
    intro fuel' hfuel
    refine forall_ge_succ (p := fun fuel' => Alike f more (commandArgs (fuel + 1)) (commandArgs fuel') _) ?_ fuel' hfuel
    intro k hk c d h
    unfold commandArgs
    refine .atSymbol (by decide) h (fun _ _ _ => .pure h rfl) ?_
    refine .bind (expression_mirrors hk c d h) fun arg c₁ d₁ h₁ => ?_
    refine .atSymbol (by decide) h₁ (fun t ts ht => .advance h₁ ht fun c₂ d₂ h₂ => ?_)
      (.pure h₁ (by simp only [Expression.relocateAll]))
    exact .bind (ih hk c₂ d₂ h₂) fun rest c₃ d₃ h₃ => .pure h₃ (by rw [Expression.relocateAll])

/-- They are read where a parenthesis opens, which no semicolon does. -/
theorem optionalArgs_alike (hfuel : fuel ≤ fuel') :
    Alike f more (optionalArgs fuel) (optionalArgs fuel') (Expression.relocateAll f) := by
  intro c d h
  unfold optionalArgs
  refine .atSymbol (by decide) h (fun t ts ht => .advance h ht fun c₁ d₁ h₁ => ?_) (.pure h rfl)
  refine .bind (commandArgs_alike hfuel c₁ d₁ h₁) fun args c₂ d₂ h₂ => ?_
  exact .expect (by decide) h₂ fun c₃ d₃ h₃ => .pure h₃ rfl

/-- What can be assigned to does not depend on where it stands. -/
theorem target?_relocate (e : Expression) : target? (e.relocate f) = (target? e).map (Target.relocate f) := by
  cases e <;> rfl

/-- An assignment, or an expression that nothing is assigned to. -/
theorem assignmentOrExpression_alike (hfuel : fuel ≤ fuel') (p : Position) :
    Alike f more (assignmentOrExpression fuel p) (assignmentOrExpression fuel' (f p)) (Statement.relocate f) := by
  intro c d h
  unfold assignmentOrExpression
  refine .bind (expression_mirrors hfuel c d h) fun e c₁ d₁ h₁ => ?_
  refine .atSymbol (by decide) h₁ (fun t ts ht => ?_) (.pure h₁ (by simp only [Statement.relocate]))
  rw [if_pos rfl, if_pos rfl, target?_relocate]
  cases target? e with
  | none => exact .fail h₁ fun _ => rfl
  | some target =>
    refine .advance h₁ ht fun c₂ d₂ h₂ => .bind (expression_mirrors hfuel c₂ d₂ h₂) fun value c₃ d₃ h₃ => .pure h₃ ?_
    simp only [Statement.relocate]

/-- The text may go on where statements end: a semicolon does not end them. -/
def EndsBlock (more : List LocatedToken) (c : Cursor) : Prop := more = [] ∨ c.tokens ≠ []

/-- The readers of statements with this much fuel are mirrored by the same ones with more. -/
structure StatementsAlike (f : Position → Position) (more : List LocatedToken) (fuel : Nat) : Prop where
  statements : ∀ fuel' ≥ fuel, ∀ inBlock c d, Beside f more c d → Mirrors f more (EndsBlock more)
    (statements fuel inBlock) (statements fuel' inBlock) (Statement.relocateAll f) c d
  block : ∀ fuel' ≥ fuel, Alike f more (block fuel) (block fuel') (Statement.relocateAll f)
  loopBody : ∀ fuel' ≥ fuel, Alike f more (loopBody fuel) (loopBody fuel') (Statement.relocateAll f)
  statement : ∀ fuel' ≥ fuel, Alike f more (statement fuel) (statement fuel') (Statement.relocate f)
  ifElse : ∀ fuel' ≥ fuel, ∀ c d, Beside f more c d → ∀ t ts, c.tokens = t :: ts →
    Mirrors f more Always (ifElse fuel) (ifElse fuel') (Statement.relocate f) c d

/-- Without fuel there is nothing to mirror. -/
theorem statementsAlike_zero : StatementsAlike f more 0 := by
  constructor
  case statements => exact fun _ _ _ _ _ _ => .outOfFuel
  case ifElse => exact fun _ _ _ _ _ _ _ _ => .outOfFuel
  all_goals exact fun _ _ _ _ _ => .outOfFuel

/-- Statements up to the end of a block, or of the text if nothing follows there. -/
theorem statements_alike (ih : StatementsAlike f more fuel) (hk : fuel ≤ k) (inBlock : Bool) (c d : Cursor)
    (h : Beside f more c d) : Mirrors f more (EndsBlock more) (statements (fuel + 1) inBlock)
      (statements (k + 1) inBlock) (Statement.relocateAll f) c d := by
  unfold statements
  have hmore : Mirrors f more (EndsBlock more)
      (do let s ← statement fuel; let rest ← statements fuel inBlock; pure (s :: rest))
      (do let s ← statement k; let rest ← statements k inBlock; pure (s :: rest)) (Statement.relocateAll f) c d := by
    refine .bind (ih.statement k hk c d h) fun s c₁ d₁ h₁ => ?_
    exact .map (ih.statements k hk inBlock c₁ d₁ h₁) fun rest => by rw [Statement.relocateAll]
  refine .peek h (fun t ts ht => ?_) fun p next p' hnil hnext => ?_
  · obtain ⟨token, position⟩ := t
    cases token with
    | symbol s =>
      cases s with
      | semicolon => exact .advance h ht fun c₁ d₁ h₁ => ih.statements k hk inBlock c₁ d₁ h₁
      | rbrace =>
        cases inBlock with
        | true => exact .pure h rfl
        | false => exact hmore
      | _ => exact hmore
    | _ => exact hmore
  · rcases hnext with ⟨-, rfl, -⟩ | ⟨hne, -⟩
    · exact .pure h rfl
    · refine ⟨fun a c₁ hrun hends => ?_, fun x hmore _ => absurd hmore hne⟩
      cases hrun
      rcases hends with hends | hends
      · exact absurd hends hne
      · exact absurd hnil hends

/-- A block in braces: there the statements cannot reach the end of the text. -/
theorem block_alike (ih : StatementsAlike f more fuel) (hk : fuel ≤ k) :
    Alike f more (block (fuel + 1)) (block (k + 1)) (Statement.relocateAll f) := by
  intro c d h
  unfold block
  refine .descend h fun c₁ d₁ h₁ _ => .expect (by decide) h₁ fun c₂ d₂ h₂ => ?_
  refine .bindWhere (ih.statements k hk true c₂ d₂ h₂) (fun hnil _ => .inl hnil) (fun body c₃ => ?_) fun body c₃ d₃ h₃ => ?_
  · refine .expect fun t ts ht _ => Yields.any.mono fun _ _ _ => .inr ?_
    rw [ht]
    exact List.cons_ne_nil _ _
  · exact .expect (by decide) h₃ fun c₄ d₄ h₄ => .ascend h₄ fun c₅ d₅ h₅ => .pure h₅ rfl

/-- The body of a loop, with one loop more around it on both sides. -/
theorem loopBody_alike (ih : StatementsAlike f more fuel) (hk : fuel ≤ k) :
    Alike f more (loopBody (fuel + 1)) (loopBody (k + 1)) (Statement.relocateAll f) := by
  intro c d h
  unfold loopBody
  refine .enterLoop h fun c₁ d₁ h₁ => .bind (ih.block k hk c₁ d₁ h₁) fun body c₂ d₂ h₂ => ?_
  exact .leaveLoop h₂ fun c₃ d₃ h₃ => .pure h₃ rfl

/-- A statement, by the token that it begins with. -/
theorem statement_alike (ih : StatementsAlike f more fuel) (hk : fuel ≤ k) :
    Alike f more (statement (fuel + 1)) (statement (k + 1)) (Statement.relocate f) := by
  intro c d h
  have hother := fun p => assignmentOrExpression_alike hk p c d h
  have hloopWord : ∀ cause s t ts, c.tokens = t :: ts →
      Mirrors f more Always (loopWord cause s) (loopWord cause (s.relocate f)) (Statement.relocate f) c d := by
    intro cause s t ts ht
    unfold loopWord
    refine .get ?_
    rw [h.loops]
    split
    · exact .fail h fun _ => rfl
    · exact .advance h ht fun c₁ d₁ h₁ => .pure h₁ rfl
  -- at the end of its text the first parse has no result, whatever the second one does behind it
  have hnone : c.tokens = [] → ∀ p, Yields (assignmentOrExpression fuel p) c fun _ _ => False := by
    intro hnil p
    refine (Yields.of_ends (assignmentOrExpression_advances fuel p c)).mono fun s c₁ hadvance => ?_
    rw [hnil] at hadvance
    exact absurd hadvance.2 (Nat.not_lt_zero _)
  unfold statement
  refine .peek h (fun t ts ht => ?_) fun p next p' hnil hnext => ?_
  · dsimp only
    split
    next => exact .map (ih.block k hk c d h) fun body => by simp only [Statement.relocate]
    next => exact ih.ifElse k hk c d h t ts ht
    next =>
      refine .advance h ht fun c₁ d₁ h₁ => .bind (expression_mirrors hk c₁ d₁ h₁) fun condition c₂ d₂ h₂ => ?_
      exact .map (ih.loopBody k hk c₂ d₂ h₂) fun body => by simp only [Statement.relocate]
    next =>
      refine .advance h ht fun c₁ d₁ h₁ => .name h₁ fun counter c₂ d₂ h₂ => .expect (by decide) h₂ fun c₃ d₃ h₃ => ?_
      refine .bind (expression_mirrors hk c₃ d₃ h₃) fun start c₄ d₄ h₄ => .expect (by decide) h₄ fun c₅ d₅ h₅ => ?_
      refine .bind (expression_mirrors hk c₅ d₅ h₅) fun stop c₆ d₆ h₆ => ?_
      exact .map (ih.loopBody k hk c₆ d₆ h₆) fun body => by simp only [Statement.relocate]
    next => exact hloopWord _ _ t ts ht
    next => exact hloopWord _ _ t ts ht
    next => exact .advance h ht fun c₁ d₁ h₁ => .pure h₁ rfl
    next n _ =>
      refine .advance h ht fun c₁ d₁ h₁ => ?_
      exact .map (optionalArgs_alike hk c₁ d₁ h₁) fun args => by simp only [Statement.relocate]
    next => exact hother _
  · rcases hnext with ⟨-, rfl, rfl⟩ | ⟨hne, rfl⟩
    · exact hother p
    · exact .stuck hne (hnone hnil p)

/-- A condition with its branches. Where the first text ends behind them, a semicolon is no `ELSE`. -/
theorem ifElse_alike (ih : StatementsAlike f more fuel) (hk : fuel ≤ k) (c d : Cursor) (h : Beside f more c d)
    (t : LocatedToken) (ts : List LocatedToken) (ht : c.tokens = t :: ts) :
    Mirrors f more Always (ifElse (fuel + 1)) (ifElse (k + 1)) (Statement.relocate f) c d := by
  unfold ifElse
  refine .peek h (fun u us _ => .advance h ht fun c₁ d₁ h₁ => ?_) fun p next p' hnil _ => ?_
  · refine .bind (expression_mirrors hk c₁ d₁ h₁) fun condition c₂ d₂ h₂ => ?_
    refine .bind (ih.block k hk c₂ d₂ h₂) fun thenBody c₃ d₃ h₃ => ?_
    have hdone : Mirrors f more Always (pure (.ifElse u.position condition thenBody none) : Parse Statement)
        (pure (.ifElse (f u.position) (condition.relocate f) (Statement.relocateAll f thenBody) none))
        (Statement.relocate f) c₃ d₃ := .pure h₃ (by simp only [Statement.relocate, Statement.relocateElse])
    have hbraces : ∀ c₄ d₄, Beside f more c₄ d₄ → Mirrors f more Always
        (do let body ← block fuel; pure (Statement.ifElse u.position condition thenBody (some body)))
        (do
          let body ← block k
          pure (Statement.ifElse (f u.position) (condition.relocate f) (Statement.relocateAll f thenBody) (some body)))
        (Statement.relocate f) c₄ d₄ :=
      fun c₄ d₄ h₄ => .map (ih.block k hk c₄ d₄ h₄) fun body => by
        simp only [Statement.relocate, Statement.relocateElse]
    have helse : ∀ c₄ d₄, Beside f more c₄ d₄ → ∀ v vs, c₄.tokens = v :: vs → Mirrors f more Always
        (do
          descend
          let nested ← ifElse fuel
          ascend
          pure (Statement.ifElse u.position condition thenBody (some [nested])))
        (do
          descend
          let nested ← ifElse k
          ascend
          pure (Statement.ifElse (f u.position) (condition.relocate f) (Statement.relocateAll f thenBody) (some [nested])))
        (Statement.relocate f) c₄ d₄ := by
      intro c₄ d₄ h₄ v vs hv
      refine .descend h₄ fun c₅ d₅ h₅ hsame => .bind (ih.ifElse k hk c₅ d₅ h₅ v vs (hsame.trans hv)) ?_
      refine fun nested c₆ d₆ h₆ => .ascend h₆ fun c₇ d₇ h₇ => .pure h₇ ?_
      simp only [Statement.relocate, Statement.relocateElse, Statement.relocateAll]
    refine .peek h₃ (fun v vs hv => ?_) fun p next p' _ hnext => ?_
    · obtain ⟨token, position⟩ := v
      cases token with
      | keyword word =>
        cases word with
        | elseWord =>
          refine .advance h₃ hv fun c₄ d₄ h₄ => .peek h₄ (fun w ws hw => ?_) fun p next p' _ hnext => ?_
          · obtain ⟨token, position⟩ := w
            cases token with
            | keyword word =>
              cases word with
              | ifWord => exact helse c₄ d₄ h₄ _ ws hw
              | _ => exact hbraces c₄ d₄ h₄
            | _ => exact hbraces c₄ d₄ h₄
          · rcases hnext with ⟨-, rfl, -⟩ | ⟨-, rfl⟩ <;> exact hbraces c₄ d₄ h₄
        | _ => exact hdone
      | _ => exact hdone
    · rcases hnext with ⟨-, rfl, -⟩ | ⟨-, rfl⟩ <;> exact hdone
  · rw [ht] at hnil
    cases hnil

end statements

/-- All readers of statements at once, by induction on the fuel. -/
theorem statementsAlike (f : Position → Position) (more : List LocatedToken) (fuel : Nat) :
    StatementsAlike f more fuel := by
  induction fuel with
  | zero => exact statementsAlike_zero
  | succ fuel ih =>
    exact ⟨forall_ge_succ fun _ => statements_alike ih, forall_ge_succ fun _ => block_alike ih,
      forall_ge_succ fun _ => loopBody_alike ih, forall_ge_succ fun _ => statement_alike ih,
      forall_ge_succ fun _ => ifElse_alike ih⟩

/-! ## One text behind another -/

section runs

variable {fuel : Nat} {c : Cursor} {t : LocatedToken} {ts : List LocatedToken} {p : Position}

/-- At the end of a text there are no more statements. -/
theorem statements_of_end (hc : c.tokens = []) (hending : c.ending = .complete p) :
    (statements (fuel + 1) false).run c = .ok ([], c) := by
  unfold statements
  rw [run_bind_of_ok (peek_of_complete hc hending)]
  rfl

/-- A text that is broken off stops the parse with that fault. -/
theorem statements_of_broken {x : ParseFault} (hc : c.tokens = []) (hending : c.ending = .broken x) :
    (statements (fuel + 1) false).run c = .error (.fault x) := by
  unfold statements
  exact run_bind_of_error (peek_of_broken hc hending)

/-- A semicolon in front is passed over. -/
theorem statements_of_semicolon (hc : c.tokens = t :: ts) (ht : t.token = .symbol .semicolon) :
    (statements (fuel + 1) false).run c = (statements fuel false).run { c with tokens := ts } := by
  rw [statements, run_bind_of_ok (peek_of_cons hc), ht]
  have hadvance : advance.run c = .ok ((), { c with tokens := ts }) := by
    obtain ⟨tokens, ending, depth, loops⟩ := c
    cases hc
    rfl
  exact run_bind_of_ok hadvance

/-- Anything else is a statement, with the others behind it. -/
theorem statements_of_statement (hc : c.tokens = t :: ts) (ht : t.token ≠ .symbol .semicolon) :
    (statements (fuel + 1) false).run c =
      (do let s ← statement fuel; let rest ← statements fuel false; pure (s :: rest)).run c := by
  rw [statements, run_bind_of_ok (peek_of_cons hc)]
  obtain ⟨token, position⟩ := t
  cases token with
  | symbol s =>
    cases s with
    | semicolon => exact absurd rfl ht
    | _ => rfl
  | _ => rfl

end runs

/-- Behind statements that are read to the end of their text, a semicolon and other tokens are read as they are read alone, with as
much fuel as is left. -/
theorem statements_append {p : Position} {rest : List LocatedToken} (fuel : Nat) : ∀ fuel' > fuel, ∀ c d body c₁,
    Beside id (⟨.symbol .semicolon, p⟩ :: rest) c d → (statements fuel false).run c = .ok (body, c₁) →
      ∃ k, fuel' ≤ k + fuel ∧ (statements fuel' false).run d =
        ((statements k false).run { d with tokens := rest }).map fun r => (body ++ r.1, r.2) := by
  induction fuel with
  | zero =>
    intro _ _ _ _ _ _ _ hrun
    cases hrun
  | succ fuel ih =>
    intro fuel' hfuel c d body c₁ h hrun
    obtain ⟨k', rfl⟩ : ∃ k', fuel' = k' + 1 := ⟨fuel' - 1, by omega⟩
    cases hc : c.tokens with
    | nil =>
      have hd : d.tokens = ⟨.symbol .semicolon, p⟩ :: rest := by
        rw [h.tokens, hc]
        rfl
      cases hending : c.ending with
      | broken x =>
        rw [statements_of_broken hc hending] at hrun
        cases hrun
      | complete q =>
        rw [statements_of_end hc hending] at hrun
        cases hrun
        refine ⟨k', by omega, ?_⟩
        rw [statements_of_semicolon hd rfl]
        cases (statements k' false).run { d with tokens := rest } <;> rfl
    | cons t ts =>
      by_cases ht : t.token = .symbol .semicolon
      · rw [statements_of_semicolon hc ht] at hrun
        rw [statements_of_semicolon (h.of_cons hc) ht]
        have h₁ : Beside id (⟨.symbol .semicolon, p⟩ :: rest) { c with tokens := ts }
            { d with tokens := ts.map (·.relocate id) ++ ⟨.symbol .semicolon, p⟩ :: rest } :=
          ⟨rfl, h.depth, h.loops, .inr ⟨p, rest, rfl⟩⟩
        obtain ⟨k, hk, hrest⟩ := ih k' (by omega) _ _ body c₁ h₁ hrun
        exact ⟨k, by omega, hrest⟩
      rw [statements_of_statement hc ht] at hrun
      rw [statements_of_statement (h.of_cons hc) ht]
      cases hs : (statement fuel).run c with
      | error stop =>
        rw [run_bind_of_error hs] at hrun
        cases hrun
      | ok r =>
        obtain ⟨s, c₂⟩ := r
        rw [run_bind_of_ok hs] at hrun
        cases hbody : (statements fuel false).run c₂ with
        | error stop =>
          rw [run_bind_of_error hbody] at hrun
          cases hrun
        | ok r =>
          obtain ⟨others, c₃⟩ := r
          rw [run_bind_of_ok hbody] at hrun
          cases hrun
          obtain ⟨d₂, hs', h₂⟩ :=
            ((statementsAlike id _ fuel).statement k' (by omega) c d h).result s c₂ hs trivial
          have honward := ((Yields.of_ends ((statementsAdvance k').statement d)).result hs').1
          obtain ⟨k, hk, hrest⟩ := ih k' (by omega) c₂ d₂ others _ h₂ hbody
          rw [honward.ending, honward.depth, honward.loops] at hrest
          refine ⟨k, by omega, ?_⟩
          rw [run_bind_of_ok hs', StateT.run_bind, hrest, Statement.relocate_id]
          cases (statements k false).run { d with tokens := rest } <;> rfl

end EventScript.Parse

namespace EventScript

/-- Behind a text that is accepted and leaves no block comment open, with a semicolon on a line of its own in between, any other text
is parsed as it is parsed alone: its statements come behind those of the first text, or its fault is reported, with every line raised
by the number of lines in front of it. -/
theorem parse_append {s₁ : String} {t₁ : Script} (h₁ : Script.parse s₁ = .ok t₁)
    (hclosed : endsInComment 0 s₁.toList = false) (s₂ : String) :
    let down := Position.down (newlines (s₁ ++ "\n;\n"))
    (∀ t₂, Script.parse s₂ = .ok t₂ →
      Script.parse (s₁ ++ "\n;\n" ++ s₂) = .ok ⟨t₁.statements ++ (t₂.relocate down).statements⟩) ∧
      ∀ x, Script.parse s₂ = .error x → Script.parse (s₁ ++ "\n;\n" ++ s₂) = .error (x.relocate down) := by
  intro down
  obtain ⟨q, hcomplete⟩ := Script.complete_of_parse h₁
  obtain ⟨c₁, hrun₁⟩ := Script.run_of_parse h₁
  obtain ⟨p, hscan⟩ := scan_append s₂ hcomplete hclosed
  generalize s₁ ++ "\n;\n" ++ s₂ = text at hscan
  have htokens : (scan text).tokens =
      (scan s₁).tokens ++ ⟨.symbol .semicolon, p⟩ :: (scan s₂).tokens.map (·.relocate down) := by
    simp [hscan, TokenList.prepend, TokenList.relocate, down]
  have hending : (scan text).ending = (scan s₂).ending.relocate down := by rw [hscan]; rfl
  have hlength : (scan text).tokens.length = (scan s₁).tokens.length + ((scan s₂).tokens.length + 1) := by
    rw [htokens, List.length_append, List.length_cons, List.length_map]
  have hfront : Parse.Beside id (⟨.symbol .semicolon, p⟩ :: (scan s₂).tokens.map (·.relocate down))
      ⟨(scan s₁).tokens, (scan s₁).ending, 0, 0⟩ ⟨(scan text).tokens, (scan text).ending, 0, 0⟩ := by
    refine ⟨?_, rfl, rfl, .inr ⟨_, _, rfl⟩⟩
    rw [htokens]
    exact congrArg (· ++ _) (List.map_id _).symm
  obtain ⟨k, hk, hrun⟩ := Parse.statements_append _ (Parse.fuelFor (scan text).tokens.length)
    (by simp only [Parse.fuelFor]; omega) _ _ _ _ hfront hrun₁
  have hback : Parse.Beside down [] ⟨(scan s₂).tokens, (scan s₂).ending, 0, 0⟩
      ⟨(scan s₂).tokens.map (·.relocate down), (scan text).ending, 0, 0⟩ :=
    ⟨(List.append_nil _).symm, rfl, rfl, .inl ⟨rfl, hending⟩⟩
  have hmirrors := (Parse.statementsAlike down [] (Parse.fuelFor (scan s₂).tokens.length)).statements k
    (by simp only [Parse.fuelFor] at hk ⊢; omega) false _ _ hback
  refine ⟨fun t₂ h₂ => ?_, fun x hx => ?_⟩
  · obtain ⟨c₂, hrun₂⟩ := Script.run_of_parse h₂
    obtain ⟨d₂, hrun₂', -⟩ := hmirrors.result _ _ hrun₂ (.inl rfl)
    rw [hrun₂'] at hrun
    simp only [Script.parse, hrun, Except.map]
    rfl
  · rw [hmirrors.fault x rfl (Script.run_of_parse_error hx)] at hrun
    simp only [Script.parse, hrun, Except.map]

/-- A loop behind a script that ends in a line comment, and a fault there. -/
theorem parse_append_loop :
    let s₁ := "x = 1 // one"
    let s₂ := "WHILE x\n\x7b BREAK \x7d"
    endsInComment 0 s₁.toList = false ∧
      (∃ t₁ t₂, Script.parse s₁ = .ok t₁ ∧ Script.parse s₂ = .ok t₂ ∧
        Script.parse (s₁ ++ "\n;\n" ++ s₂) = .ok ⟨t₁.statements ++ (t₂.relocate (.down 2)).statements⟩) ∧
      Script.parse (s₁ ++ "\n;\n" ++ "1 +") = .error ⟨.unexpectedToken none, ⟨3, 4⟩⟩ := by
  intro s₁ s₂
  have hclosed : endsInComment 0 s₁.toList = false := by decide +kernel
  have hlines : newlines (s₁ ++ "\n;\n") = 2 := by decide +kernel
  have haccepted : ∀ text ∈ [s₁, s₂], (Script.parse text).toOption.any fun _ => true := by decide +kernel
  have hcut : Script.parse "1 +" = .error ⟨.unexpectedToken none, ⟨1, 4⟩⟩ := by rfl
  obtain ⟨t₁, h₁, -⟩ := Script.exists_of_any (haccepted s₁ (by simp))
  obtain ⟨t₂, h₂, -⟩ := Script.exists_of_any (haccepted s₂ (by simp))
  have hjoined := (parse_append h₁ hclosed s₂).1 t₂ h₂
  have hfault := (parse_append h₁ hclosed "1 +").2 _ hcut
  rw [hlines] at hjoined hfault
  exact ⟨hclosed, ⟨t₁, t₂, h₁, h₂, hjoined⟩, hfault⟩

end EventScript
