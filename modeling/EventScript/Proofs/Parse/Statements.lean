import EventScript.Proofs.Parse.Expressions
import EventScript.Proofs.Parse.Progress

/-!
# Reading written statements

The tokens of a list of statements are read back as those statements, apart from places, wherever no statement stands outside
the loops it needs. What a statement is begun with tells it apart from the others, and what follows it, a semicolon, a closing
brace or the end of the text, belongs to no statement.
-/

namespace EventScript.Parse

open Expression Statement

/-- An expression can start with this token, and no other statement starts with it. -/
def startsExpression : Token → Bool
  | .int _ | .float _ | .string _ | .ident _ => true
  | .keyword k => k ∈ [Keyword.globalWord, .trueWord, .falseWord, .nullWord]
  | .symbol s => s ∈ [Symbol.lparen, .percent, .not, .minus, .bitNot]
  | .command _ => false

/-- These tokens start an expression. -/
def StartsExpression (written : List Token) : Prop := ∃ t ts, written = t :: ts ∧ startsExpression t = true

/-- What starts an expression does so whatever follows. -/
theorem StartsExpression.append {written : List Token} (h : StartsExpression written) (rest : List Token) :
    StartsExpression (written ++ rest) := by
  obtain ⟨t, ts, rfl, ht⟩ := h
  exact ⟨t, ts ++ rest, rfl, ht⟩

/-- So does an operand in parentheses. -/
theorem StartsExpression.operand {rank : Nat} {e : Expression} (h : StartsExpression e.tokens) :
    StartsExpression (operandTokens rank e) := by
  rcases Nat.lt_or_ge e.rank rank with hlt | hge
  · rw [operandTokens_of_lt hlt]
    exact ⟨_, _, rfl, rfl⟩
  · rw [operandTokens_of_le hge]
    exact h

/-- An expression that is written starts one. -/
theorem startsExpression_tokens (e : Expression) : StartsExpression e.tokens := by
  cases e with
  | literal p value =>
    refine ⟨value.token, [], rfl, ?_⟩
    cases value with
    | bool b => cases b <;> rfl
    | _ => rfl
  | binary p left op right =>
    rw [tokens_binary]
    exact (startsExpression_tokens left).operand.append _
  | unary p op operand =>
    rw [tokens_unary]
    exact ⟨_, _, rfl, by cases op <;> rfl⟩
  | ternary p condition thenValue elseValue =>
    rw [tokens_ternary, List.append_assoc]
    exact (startsExpression_tokens condition).operand.append _
  | _ => exact ⟨_, _, rfl, rfl⟩

/-- What stands behind a statement: the end of the text, a semicolon or a closing brace. -/
def EndsStatement (rest : List Token) : Prop :=
  rest = [] ∨ ∃ ts, rest = .symbol .semicolon :: ts ∨ rest = .symbol .rbrace :: ts

/-- Where a statement ends, an expression does. -/
theorem EndsStatement.endsExpression {rest : List Token} (h : EndsStatement rest) : EndsExpression rest := by
  rcases h with rfl | ⟨ts, rfl | rfl⟩
  · exact .nil
  · exact .symbol (by decide) ts
  · exact .symbol (by decide) ts

/-- Nothing but a semicolon and a closing brace stands behind a statement. -/
theorem EndsStatement.head?_ne {rest : List Token} {t : Token} (h : EndsStatement rest)
    (hsemicolon : t ≠ .symbol .semicolon) (hbrace : t ≠ .symbol .rbrace) : rest.head? ≠ some t := by
  rcases h with rfl | ⟨ts, rfl | rfl⟩
  · simp
  · simpa using hsemicolon.symm
  · simpa using hbrace.symm

/-- The expression's tokens do not start with this token, when no expression does. -/
theorem head?_tokens_ne {e : Expression} {t : Token} (ht : startsExpression t = false) (rest : List Token) :
    (e.tokens ++ rest).head? ≠ some t := by
  obtain ⟨u, us, hu, hstarts⟩ := startsExpression_tokens e
  rw [hu, List.cons_append, List.head?_cons]
  rintro ⟨⟩
  rw [ht] at hstarts
  cases hstarts

/-! ## Arguments and assignments -/

/-- The arguments of a command are read up to the closing parenthesis. -/
theorem reads_commandArgs : ∀ (args : List Expression) (fuel : Nat) (rest : List Token) (depth loops : Nat),
    Reads (commandArgs fuel) ⟨commandTokens args ++ .symbol .rparen :: rest, depth, loops⟩ fun as w =>
      Expression.relocateAll nowhere as = Expression.relocateAll nowhere args ∧ w = ⟨.symbol .rparen :: rest, depth, loops⟩
  | _, 0, _, _, _ => .outOfFuel
  | [], fuel + 1, rest, depth, loops => by
    unfold commandArgs
    exact .atSymbol (.pure ⟨rfl, rfl⟩)
  | [arg], fuel + 1, rest, depth, loops => by
    unfold commandArgs
    simp only [commandTokens]
    refine .notAtSymbol (head?_tokens_ne rfl _) (.bind ?_)
    refine ((readable arg).whole fuel _ depth loops (.symbol (by decide) rest)).mono ?_
    rintro a w ⟨ha, rfl⟩
    exact .notAtSymbol (by simp) (.pure ⟨congrArg (fun e => [e]) ha, rfl⟩)
  | arg :: next :: args, fuel + 1, rest, depth, loops => by
    unfold commandArgs
    simp only [commandTokens, List.append_assoc, List.cons_append]
    refine .notAtSymbol (head?_tokens_ne rfl _) (.bind ?_)
    refine ((readable arg).whole fuel _ depth loops (.symbol (by decide) _)).mono ?_
    rintro a w ⟨ha, rfl⟩
    refine .atSymbol (.advance (.bind ((reads_commandArgs (next :: args) fuel rest depth loops).mono ?_)))
    rintro as w ⟨has, rfl⟩
    refine .pure ⟨?_, rfl⟩
    rw [Expression.relocateAll_cons, has, Expression.relocateAll_cons _ arg]
    exact congrArg (· :: _) ha

/-- If there are none, no parenthesis is read. -/
theorem reads_optionalArgs (args : List Expression) (fuel : Nat) {rest : List Token} (depth loops : Nat)
    (hrest : EndsStatement rest) :
    Reads (optionalArgs fuel) ⟨optionalTokens args ++ rest, depth, loops⟩ fun as w =>
      Expression.relocateAll nowhere as = Expression.relocateAll nowhere args ∧ w = ⟨rest, depth, loops⟩ := by
  unfold optionalArgs optionalTokens
  cases args with
  | nil => exact .notAtSymbol (hrest.head?_ne (by decide) (by decide)) (.pure ⟨rfl, rfl⟩)
  | cons arg args =>
    simp only [List.isEmpty_cons, Bool.false_eq_true, if_false, List.cons_append, List.append_assoc, List.nil_append]
    refine .atSymbol (.advance (.bind ((reads_commandArgs (arg :: args) fuel rest depth loops).mono ?_)))
    rintro as w ⟨has, rfl⟩
    exact .expect (.pure ⟨has, rfl⟩)

/-- Places apart, the expression of a target is a target. -/
theorem target?_of_unplaced {target : Target} {e : Expression} (h : e.unplaced = target.expression.unplaced) :
    ∃ target', target? e = some target' ∧ target'.unplaced = target.unplaced := by
  cases target with
  | name n =>
    cases e <;> simp only [Expression.unplaced, Target.expression, Expression.relocate, reduceCtorEq, Expression.name.injEq] at h
    exact ⟨_, rfl, congrArg Target.name h.2⟩
  | globalName n =>
    cases e <;> simp only [Expression.unplaced, Target.expression, Expression.relocate, reduceCtorEq, Expression.globalName.injEq] at h
    exact ⟨_, rfl, congrArg Target.globalName h.2⟩
  | globalAt key =>
    cases e <;> simp only [Expression.unplaced, Target.expression, Expression.relocate, reduceCtorEq, Expression.globalAt.injEq] at h
    exact ⟨_, rfl, congrArg Target.globalAt h.2⟩

/-- A statement that an expression starts is an assignment or an expression on its own. -/
theorem reads_statement_of_expression {E : ParseStop → Prop} {e : Expression} {rest : List Token} {depth loops fuel : Nat}
    {Q : Statement → View → Prop}
    (h : ∀ p, ReadsUnless E (assignmentOrExpression fuel p) ⟨e.tokens ++ rest, depth, loops⟩ Q) :
    ReadsUnless E (statement (fuel + 1)) ⟨e.tokens ++ rest, depth, loops⟩ Q := by
  obtain ⟨t, ts, ht, hstarts⟩ := startsExpression_tokens e
  rw [ht, List.cons_append] at h ⊢
  unfold statement
  refine .peek fun p => ?_
  dsimp only
  split
  -- the words and symbols of the other statements start no expression
  case h_9 => exact h p
  all_goals
    rename_i heq
    cases heq
    simp [startsExpression] at hstarts

/-! ## Statements -/

/-- What is shown of every statement that keeps to its loops. -/
structure StatementReadable (chained : Bool) (loops : Nat) (s : Statement) : Prop where
  reads : ∀ fuel rest depth, EndsStatement rest →
    Reads (statement fuel) ⟨s.tokens chained ++ rest, depth, loops⟩ fun s' w =>
      s'.unplaced = s.unplaced ∧ w = ⟨rest, depth, loops⟩
  /-- Behind an `ELSE` a conditional is read from its own word on. -/
  conditional : loneConditional [s] = true → ∀ fuel rest depth, EndsStatement rest →
    Reads (ifElse fuel) ⟨s.tokens chained ++ rest, depth, loops⟩ fun s' w =>
      s'.unplaced = s.unplaced ∧ w = ⟨rest, depth, loops⟩

section constructors

variable {chained : Bool} {loops : Nat}

/-- An expression on its own is read back: no assignment follows it. -/
theorem statementReadable_expression (p : Position) (e : Expression) :
    StatementReadable chained loops (.expression p e) := by
  refine ⟨fun fuel rest depth hrest => ?_, fun h => nomatch h⟩
  simp only [Statement.tokens]
  cases fuel with
  | zero => exact .outOfFuel
  | succ fuel =>
    refine reads_statement_of_expression fun q => ?_
    unfold assignmentOrExpression
    refine .bind (((readable e).whole fuel rest depth loops hrest.endsExpression).mono ?_)
    rintro a w ⟨ha, rfl⟩
    exact .notAtSymbol (hrest.head?_ne (by decide) (by decide)) (.pure ⟨congrArg (Statement.expression _) ha, rfl⟩)

/-- So is an assignment, by its target. -/
theorem statementReadable_assign (p : Position) (target : Target) (value : Expression) :
    StatementReadable chained loops (.assign p target value) := by
  refine ⟨fun fuel rest depth hrest => ?_, fun h => nomatch h⟩
  simp only [Statement.tokens, List.append_assoc, List.cons_append]
  cases fuel with
  | zero => exact .outOfFuel
  | succ fuel =>
    refine reads_statement_of_expression fun q => ?_
    unfold assignmentOrExpression
    refine .bind (((readable target.expression).whole fuel _ depth loops (.symbol (by decide) _)).mono ?_)
    rintro a w ⟨ha, rfl⟩
    obtain ⟨target', htarget, hsame⟩ := target?_of_unplaced ha
    refine .atSymbol ?_
    simp only [if_true]
    rw [htarget]
    refine .advance (.bind (((readable value).whole fuel rest depth loops hrest.endsExpression).mono ?_))
    rintro b w ⟨hb, rfl⟩
    refine .pure ⟨?_, rfl⟩
    simp only [Statement.unplaced, Statement.relocate, Target.unplaced, Expression.unplaced] at hsame hb ⊢
    rw [hsame, hb]
    rfl

/-- So is a command, by its name. -/
theorem statementReadable_command (p : Position) (n : String) (args : List Expression) :
    StatementReadable chained loops (.command p n args) := by
  refine ⟨fun fuel rest depth hrest => ?_, fun h => nomatch h⟩
  simp only [Statement.tokens, List.cons_append]
  cases fuel with
  | zero => exact .outOfFuel
  | succ fuel =>
    unfold statement
    refine .peek fun q => .advance (.bind ((reads_optionalArgs args fuel depth loops hrest).mono ?_))
    rintro as w ⟨has, rfl⟩
    exact .pure ⟨congrArg (Statement.command _ n) has, rfl⟩

/-- So is a `RETURN`. -/
theorem statementReadable_return (p : Position) : StatementReadable chained loops (.returnScript p) := by
  refine ⟨fun fuel rest depth _ => ?_, fun h => nomatch h⟩
  cases fuel with
  | zero => exact .outOfFuel
  | succ fuel =>
    unfold statement
    exact .peek fun q => .advance (.pure ⟨rfl, rfl⟩)

/-- In a loop its words are read. -/
theorem reads_loopWord {t : Token} {ts : List Token} {depth : Nat} {cause : ParseCause} {s : Statement}
    (hloops : 0 < loops) : Reads (loopWord cause s) ⟨t :: ts, depth, loops⟩ fun s' w => s' = s ∧ w = ⟨ts, depth, loops⟩ := by
  unfold loopWord
  refine .get fun c _ hc => ?_
  rw [if_neg (by omega)]
  exact .advance (.pure ⟨rfl, rfl⟩)

/-- In a loop a `BREAK` is read back. -/
theorem statementReadable_break (p : Position) (hloops : 0 < loops) : StatementReadable chained loops (.breakLoop p) := by
  refine ⟨fun fuel rest depth _ => ?_, fun h => nomatch h⟩
  cases fuel with
  | zero => exact .outOfFuel
  | succ fuel =>
    unfold statement
    refine .peek fun q => (reads_loopWord hloops).mono ?_
    rintro s' w ⟨rfl, rfl⟩
    exact ⟨rfl, rfl⟩

/-- So is a `CONTINUE`. -/
theorem statementReadable_continue (p : Position) (hloops : 0 < loops) :
    StatementReadable chained loops (.continueLoop p) := by
  refine ⟨fun fuel rest depth _ => ?_, fun h => nomatch h⟩
  cases fuel with
  | zero => exact .outOfFuel
  | succ fuel =>
    unfold statement
    refine .peek fun q => (reads_loopWord hloops).mono ?_
    rintro s' w ⟨rfl, rfl⟩
    exact ⟨rfl, rfl⟩

end constructors

/-! ## Lists of statements -/

/-- A statement starts with no semicolon and no closing brace. -/
theorem statement_tokens_start (chained : Bool) (s : Statement) :
    ∃ t ts, s.tokens chained = t :: ts ∧ t ≠ .symbol .semicolon ∧ t ≠ .symbol .rbrace := by
  have hexpression : ∀ (e : Expression) (rest : List Token),
      ∃ t ts, e.tokens ++ rest = t :: ts ∧ t ≠ .symbol .semicolon ∧ t ≠ .symbol .rbrace := by
    intro e rest
    obtain ⟨t, ts, ht, hstarts⟩ := startsExpression_tokens e
    refine ⟨t, ts ++ rest, by rw [ht, List.cons_append], ?_, ?_⟩ <;> rintro rfl <;> simp [startsExpression] at hstarts
  cases s with
  | assign p target value => simpa only [Statement.tokens] using hexpression target.expression _
  | expression p value => simpa only [Statement.tokens, List.append_nil] using hexpression value []
  | _ =>
    simp only [Statement.tokens, braced, List.cons_append]
    exact ⟨_, _, rfl, by simp, by simp⟩

/-- At the start of a statement a list of statements goes on with it. -/
theorem reads_statements_of_start {E : ParseStop → Prop} {t : Token} {ts : List Token} {depth loops fuel : Nat} {inBlock : Bool}
    {Q : List Statement → View → Prop} (hsemicolon : t ≠ .symbol .semicolon) (hbrace : t ≠ .symbol .rbrace)
    (h : ReadsUnless E (do let s ← statement fuel; let rest ← statements fuel inBlock; pure (s :: rest)) ⟨t :: ts, depth, loops⟩
      Q) : ReadsUnless E (statements (fuel + 1) inBlock) ⟨t :: ts, depth, loops⟩ Q := by
  unfold statements
  refine .peek fun p => ?_
  split
  case h_4 => exact h
  all_goals
    rename_i heq
    simp_all

/-- What a list of statements is read up to: the end of the text, or in a block its closing brace. -/
def EndsStatements (inBlock : Bool) (rest : List Token) : Prop :=
  rest = [] ∨ inBlock = true ∧ ∃ ts, rest = .symbol .rbrace :: ts

/-- Where statements end, the last one does. -/
theorem EndsStatements.endsStatement {inBlock : Bool} {rest : List Token} (h : EndsStatements inBlock rest) :
    EndsStatement rest := by
  rcases h with rfl | ⟨-, ts, rfl⟩
  · exact .inl rfl
  · exact .inr ⟨ts, .inr rfl⟩

/-- Where a list of statements ends nothing more is read. -/
theorem reads_statements_nil {inBlock : Bool} {rest : List Token} (hrest : EndsStatements inBlock rest)
    (fuel depth loops : Nat) :
    Reads (statements fuel inBlock) ⟨rest, depth, loops⟩ fun ss w => ss = [] ∧ w = ⟨rest, depth, loops⟩ := by
  cases fuel with
  | zero => exact .outOfFuel
  | succ fuel =>
    unfold statements
    rcases hrest with rfl | ⟨rfl, ts, rfl⟩
    · exact .peekEnd fun p => .pure ⟨rfl, rfl⟩
    · exact .peek fun p => .pure ⟨rfl, rfl⟩

/-- Statements that are read back one by one are read back in a row. -/
theorem reads_statements (chained : Bool) (loops : Nat) {inBlock : Bool} {rest : List Token}
    (hrest : EndsStatements inBlock rest) :
    ∀ ss : List Statement, (∀ s ∈ ss, StatementReadable chained loops s) → ∀ fuel depth,
      Reads (statements fuel inBlock) ⟨tokensOfAll chained ss ++ rest, depth, loops⟩ fun ss' w =>
        Statement.relocateAll nowhere ss' = Statement.relocateAll nowhere ss ∧ w = ⟨rest, depth, loops⟩
  | _, _, 0, _ => .outOfFuel
  | [], _, fuel + 1, depth => by
    refine (reads_statements_nil hrest (fuel + 1) depth loops).mono ?_
    rintro ss w ⟨rfl, rfl⟩
    exact ⟨rfl, rfl⟩
  | [s], hs, fuel + 1, depth => by
    simp only [tokensOfAll]
    obtain ⟨t, ts, ht, hsemicolon, hbrace⟩ := statement_tokens_start chained s
    have hread := (hs s List.mem_cons_self).reads fuel rest depth hrest.endsStatement
    rw [ht] at hread ⊢
    refine reads_statements_of_start hsemicolon hbrace (.bind (hread.mono ?_))
    rintro s' w ⟨hs', rfl⟩
    refine .bind ((reads_statements_nil hrest fuel depth loops).mono ?_)
    rintro ss w ⟨rfl, rfl⟩
    exact .pure ⟨congrArg (fun s => [s]) hs', rfl⟩
  | s :: next :: more, hs, fuel + 1, depth => by
    simp only [tokensOfAll, List.append_assoc, List.cons_append]
    obtain ⟨t, ts, ht, hsemicolon, hbrace⟩ := statement_tokens_start chained s
    have hread := (hs s List.mem_cons_self).reads fuel
      (.symbol .semicolon :: (tokensOfAll chained (next :: more) ++ rest)) depth (.inr ⟨_, .inl rfl⟩)
    rw [ht] at hread ⊢
    refine reads_statements_of_start hsemicolon hbrace (.bind (hread.mono ?_))
    rintro s' w ⟨hs', rfl⟩
    cases fuel with
    | zero => exact .bind .outOfFuel
    | succ fuel =>
      unfold statements
      refine .bind (.peek fun p => .advance ?_)
      refine (reads_statements chained loops hrest (next :: more) (fun s hmem => hs s (List.mem_cons_of_mem _ hmem))
        fuel depth).mono ?_
      rintro ss w ⟨hss, rfl⟩
      refine .pure ⟨?_, rfl⟩
      rw [Statement.relocateAll_cons, hss, Statement.relocateAll_cons _ s]
      exact congrArg (· :: _) hs'

/-! ## Blocks, loops and conditionals -/

section bodies

variable {chained : Bool} {loops : Nat} {body : List Statement}

/-- They are read back in braces. -/
theorem reads_block (hbody : ∀ s ∈ body, StatementReadable chained loops s) (fuel : Nat) (rest : List Token)
    (depth : Nat) :
    Reads (block fuel) ⟨braced (tokensOfAll chained body) ++ rest, depth, loops⟩ fun ss w =>
      Statement.relocateAll nowhere ss = Statement.relocateAll nowhere body ∧ w = ⟨rest, depth, loops⟩ := by
  cases fuel with
  | zero => exact .outOfFuel
  | succ fuel =>
    unfold block
    simp only [braced, List.cons_append, List.append_assoc, List.nil_append]
    refine .descend (.expect (.bind ?_))
    have hend : EndsStatements true (.symbol .rbrace :: rest) := .inr ⟨rfl, rest, rfl⟩
    refine (reads_statements chained loops hend body hbody fuel (depth + 1)).mono ?_
    rintro ss w ⟨hss, rfl⟩
    exact .expect (.ascend (.pure ⟨hss, rfl⟩))

/-- They are read back as the body of a loop, which is one loop more around them. -/
theorem reads_loopBody (hbody : ∀ s ∈ body, StatementReadable chained (loops + 1) s) (fuel : Nat) (rest : List Token)
    (depth : Nat) :
    Reads (loopBody fuel) ⟨braced (tokensOfAll chained body) ++ rest, depth, loops⟩ fun ss w =>
      Statement.relocateAll nowhere ss = Statement.relocateAll nowhere body ∧ w = ⟨rest, depth, loops⟩ := by
  cases fuel with
  | zero => exact .outOfFuel
  | succ fuel =>
    unfold loopBody
    refine .enterLoop (.bind ((reads_block hbody fuel rest depth).mono ?_))
    rintro ss w ⟨hss, rfl⟩
    exact .leaveLoop (.pure ⟨hss, rfl⟩)

/-- An expression ends in front of a block. -/
theorem endsExpression_braced (written rest : List Token) : EndsExpression (braced written ++ rest) :=
  .symbol (by decide) _

/-- A block is read back by its brace. -/
theorem statementReadable_block (p : Position) (hbody : ∀ s ∈ body, StatementReadable chained loops s) :
    StatementReadable chained loops (.block p body) := by
  refine ⟨fun fuel rest depth _ => ?_, fun h => nomatch h⟩
  simp only [Statement.tokens]
  cases fuel with
  | zero => exact .outOfFuel
  | succ fuel =>
    unfold statement
    refine .peek fun q => .bind ((reads_block hbody fuel rest depth).mono ?_)
    rintro ss w ⟨hss, rfl⟩
    exact .pure ⟨congrArg (Statement.block _) hss, rfl⟩

/-- A `WHILE` is read back with its condition and body. -/
theorem statementReadable_while (p : Position) (condition : Expression)
    (hbody : ∀ s ∈ body, StatementReadable chained (loops + 1) s) :
    StatementReadable chained loops (.whileLoop p condition body) := by
  refine ⟨fun fuel rest depth _ => ?_, fun h => nomatch h⟩
  simp only [Statement.tokens, List.cons_append, List.append_assoc]
  cases fuel with
  | zero => exact .outOfFuel
  | succ fuel =>
    unfold statement
    refine .peek fun q => .advance (.bind ?_)
    refine ((readable condition).whole fuel _ depth loops (endsExpression_braced _ _)).mono ?_
    rintro a w ⟨ha, rfl⟩
    refine .bind ((reads_loopBody hbody fuel rest depth).mono ?_)
    rintro ss w ⟨hss, rfl⟩
    refine .pure ⟨?_, rfl⟩
    simp only [Statement.unplaced, Statement.relocate, Expression.unplaced] at ha ⊢
    rw [ha, hss]
    rfl

/-- A `FOR` is read back with its counter, its bounds and its body. -/
theorem statementReadable_for (p : Position) (counter : String) (start stop : Expression)
    (hbody : ∀ s ∈ body, StatementReadable chained (loops + 1) s) :
    StatementReadable chained loops (.forLoop p counter start stop body) := by
  refine ⟨fun fuel rest depth _ => ?_, fun h => nomatch h⟩
  simp only [Statement.tokens, List.cons_append, List.append_assoc]
  cases fuel with
  | zero => exact .outOfFuel
  | succ fuel =>
    unfold statement
    refine .peek fun q => .advance (.name (.expect (.bind ?_)))
    refine ((readable start).whole fuel _ depth loops (.symbol (by decide) _)).mono ?_
    rintro a w ⟨ha, rfl⟩
    refine .expect (.bind (((readable stop).whole fuel _ depth loops (endsExpression_braced _ _)).mono ?_))
    rintro b w ⟨hb, rfl⟩
    refine .bind ((reads_loopBody hbody fuel rest depth).mono ?_)
    rintro ss w ⟨hss, rfl⟩
    refine .pure ⟨?_, rfl⟩
    simp only [Statement.unplaced, Statement.relocate, Expression.unplaced] at ha hb ⊢
    rw [ha, hb, hss]
    rfl

/-- A conditional is read back, with `ELSE IF` written in either way. -/
theorem statementReadable_ifElse (p : Position) (condition : Expression) {elseBody : Option (List Statement)}
    (hthen : ∀ s ∈ body, StatementReadable chained loops s)
    (helse : ∀ ss ∈ elseBody, ∀ s ∈ ss, StatementReadable chained loops s) :
    StatementReadable chained loops (.ifElse p condition body elseBody) := by
  have hconditional : ∀ fuel rest depth, EndsStatement rest →
      Reads (ifElse fuel) ⟨Statement.tokens chained (.ifElse p condition body elseBody) ++ rest, depth, loops⟩ fun s' w =>
        s'.unplaced = (Statement.ifElse p condition body elseBody).unplaced ∧ w = ⟨rest, depth, loops⟩ := by
    intro fuel rest depth hrest
    simp only [Statement.tokens, List.cons_append, List.append_assoc]
    cases fuel with
    | zero => exact .outOfFuel
    | succ fuel =>
      unfold ifElse
      refine .peek fun q => .advance (.bind ?_)
      refine ((readable condition).whole fuel _ depth loops (endsExpression_braced _ _)).mono ?_
      rintro a w ⟨ha, rfl⟩
      refine .bind ((reads_block hthen fuel _ depth).mono ?_)
      rintro thenBody w ⟨hthenBody, rfl⟩
      have hsame : ∀ elseBody', relocateElse nowhere elseBody' = relocateElse nowhere elseBody →
          (Statement.ifElse q a thenBody elseBody').unplaced = (Statement.ifElse p condition body elseBody).unplaced := by
        intro elseBody' helseBody
        simp only [Statement.unplaced, Statement.relocate, Expression.unplaced] at ha ⊢
        rw [ha, hthenBody, helseBody]
        rfl
      cases elseBody with
      | none =>
        rw [elseTokens, List.nil_append]
        refine .peekHead fun q' => ?_
        have hword : rest.head? ≠ some (.keyword .elseWord) := hrest.head?_ne (by simp) (by simp)
        split
        case h_1 heq => exact absurd (congrArg Prod.fst heq) hword
        case h_2 => exact .pure ⟨hsame none rfl, rfl⟩
      | some ss =>
        have hss := helse ss rfl
        rw [elseTokens]
        split
        case isTrue hchain =>
          obtain ⟨-, hlone⟩ := Bool.and_eq_true_iff.mp hchain
          obtain ⟨q', condition', thenBody', elseBody', rfl⟩ :
              ∃ q' condition' thenBody' elseBody', ss = [.ifElse q' condition' thenBody' elseBody'] := by
            unfold loneConditional at hlone
            split at hlone
            · exact ⟨_, _, _, _, rfl⟩
            · cases hlone
          have hread := (hss _ List.mem_cons_self).conditional rfl fuel rest (depth + 1) hrest
          rw [List.cons_append]
          refine .peek fun q₁ => .advance ?_
          simp only [tokensOfAll, Statement.tokens, List.cons_append] at hread ⊢
          refine .peek fun q₂ => .descend (.bind (hread.mono ?_))
          rintro s' w ⟨hs', rfl⟩
          exact .ascend (.pure ⟨hsame _ (congrArg (fun s => some [s]) hs'), rfl⟩)
        case isFalse =>
          rw [List.cons_append]
          refine .peek fun q₁ => .advance ?_
          refine .peek fun q₂ => .bind ((reads_block hss fuel rest depth).mono ?_)
          rintro body' w ⟨hbody', rfl⟩
          exact .pure ⟨hsame _ (congrArg some hbody'), rfl⟩
  refine ⟨fun fuel rest depth hrest => ?_, fun _ => hconditional⟩
  cases fuel with
  | zero => exact .outOfFuel
  | succ fuel =>
    have hread := hconditional fuel rest depth hrest
    simp only [Statement.tokens, List.cons_append] at hread ⊢
    unfold statement
    exact .peek fun q => hread

end bodies

mutual

/-- Every statement that keeps to its loops is read back, by recursion on the statement. -/
theorem statementReadable (chained : Bool) :
    ∀ (s : Statement) (loops : Nat), s.keepsToLoops (decide (0 < loops)) = true → StatementReadable chained loops s
  | .assign p target value, _, _ => statementReadable_assign p target value
  | .ifElse p condition thenBody elseBody, loops, h => by
    rw [keepsToLoops, Bool.and_eq_true] at h
    exact statementReadable_ifElse p condition (allReadable chained thenBody loops h.1)
      (elseReadable chained elseBody loops h.2)
  | .whileLoop p condition body, loops, h =>
    statementReadable_while p condition (allReadable chained body (loops + 1) (by simpa [keepsToLoops] using h))
  | .forLoop p counter start stop body, loops, h =>
    statementReadable_for p counter start stop (allReadable chained body (loops + 1) (by simpa [keepsToLoops] using h))
  | .block p body, loops, h => statementReadable_block p (allReadable chained body loops (by simpa [keepsToLoops] using h))
  | .command p n args, _, _ => statementReadable_command p n args
  | .breakLoop p, _, h => statementReadable_break p (by simpa [keepsToLoops] using h)
  | .continueLoop p, _, h => statementReadable_continue p (by simpa [keepsToLoops] using h)
  | .returnScript p, _, _ => statementReadable_return p
  | .expression p value, _, _ => statementReadable_expression p value

/-- So is every one in a list. -/
theorem allReadable (chained : Bool) :
    ∀ (ss : List Statement) (loops : Nat), allKeepToLoops (decide (0 < loops)) ss = true →
      ∀ s ∈ ss, StatementReadable chained loops s
  | [], _, _ => fun _ h => nomatch h
  | s :: rest, loops, h => by
    rw [allKeepToLoops, Bool.and_eq_true] at h
    exact List.forall_mem_cons.mpr ⟨statementReadable chained s loops h.1, allReadable chained rest loops h.2⟩

/-- So is every one in the other branch, if there is one. -/
theorem elseReadable (chained : Bool) :
    ∀ (elseBody : Option (List Statement)) (loops : Nat), elseKeepsToLoops (decide (0 < loops)) elseBody = true →
      ∀ ss ∈ elseBody, ∀ s ∈ ss, StatementReadable chained loops s
  | none, _, _ => fun _ h => nomatch h
  | some body, loops, h => by
    rintro ss ⟨⟩
    exact allReadable chained body loops (by simpa [elseKeepsToLoops] using h)

end

end EventScript.Parse
