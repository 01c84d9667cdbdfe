import EventScript.Proofs.Parse.Ending

/-!
# Every parse comes forward

Each reader of the parser takes tokens off the front of the text, at least one of them where it reads anything that cannot be
empty, and gives the depth of nesting and the number of loops back as it found them. Twenty units of fuel for each token and
a margin are enough for it, so `Script.parse` never runs out: `statements_ne_outOfFuel`.
-/

namespace EventScript.Parse

variable {α : Type}

/-- `c'` is reached from `c` by passing over tokens: the nesting and the loops around it are the same. -/
structure Onward (c c' : Cursor) : Prop where
  tokens : c'.tokens <:+ c.tokens
  ending : c'.ending = c.ending
  depth : c'.depth = c.depth
  loops : c'.loops = c.loops

namespace Onward

variable {c c₁ c₂ : Cursor}

/-- To stay is to go onward. -/
theorem refl (c : Cursor) : Onward c c := ⟨List.suffix_refl _, rfl, rfl, rfl⟩

/-- One goes onward from where one has come to. -/
theorem trans (h : Onward c c₁) (h' : Onward c₁ c₂) : Onward c c₂ :=
  ⟨h'.tokens.trans h.tokens, h'.ending.trans h.ending, h'.depth.trans h.depth, h'.loops.trans h.loops⟩

/-- There are never more tokens than before. -/
theorem length_le (h : Onward c c₁) : c₁.tokens.length ≤ c.tokens.length := h.tokens.length_le

/-- Passing over the next token. -/
theorem tail (c : Cursor) : Onward c { c with tokens := c.tokens.tail } := ⟨List.tail_suffix _, rfl, rfl, rfl⟩

/-- To pass over one token is to go onward. -/
theorem of_cons {t : LocatedToken} {ts : List LocatedToken} (h : c.tokens = t :: ts) :
    Onward c { c with tokens := ts } := ⟨h ▸ List.suffix_cons t ts, rfl, rfl, rfl⟩

/-- A stretch read at another depth, and the old depth restored behind it. -/
theorem atDepth {d : Nat} (h : Onward { c with depth := d } c₁) : Onward c { c₁ with depth := c.depth } :=
  ⟨h.tokens, h.ending, rfl, h.loops⟩

end Onward

/-- The stop is not for want of fuel, provided that `P` holds. -/
def Fuelled (P : Prop) (s : ParseStop) : Prop := P → s ≠ .outOfFuel

/-- A stop that is not for want of fuel is none with more of it. -/
theorem Fuelled.mono {P P' : Prop} (h : P' → P) (s : ParseStop) (hs : Fuelled P s) : Fuelled P' s :=
  fun hp => hs (h hp)

/-- A fault is not want of fuel. -/
theorem Fuelled.fault (P : Prop) (f : ParseFault) : Fuelled P (.fault f) := fun _ h => nomatch h

/-- From every cursor the reader goes onward, and twenty units of fuel for each token and `margin` suffice it. -/
def Moves (m : Parse α) (fuel margin : Nat) : Prop :=
  ∀ c, Ends m c (Fuelled (20 * c.tokens.length + margin ≤ fuel)) fun _ c' => Onward c c'

/-- The reader goes onward and takes at least one token. -/
def Advances (m : Parse α) (fuel margin : Nat) : Prop :=
  ∀ c, Ends m c (Fuelled (20 * c.tokens.length + margin ≤ fuel)) fun _ c' =>
    Onward c c' ∧ c'.tokens.length < c.tokens.length

section steps

variable {β : Type} {P : Prop} {c : Cursor} {Q : β → Cursor → Prop}

/-- A reader that takes a token, in front of the rest of a parse. -/
theorem Advances.bind {m : Parse α} {f : α → Parse β} {fuel margin : Nat} (h : Advances m fuel margin)
    (hroom : P → 20 * c.tokens.length + margin ≤ fuel)
    (hrest : ∀ a c', Onward c c' → c'.tokens.length < c.tokens.length → Ends (f a) c' (Fuelled P) Q) :
    Ends (m >>= f) c (Fuelled P) Q :=
  .bind ((h c).mono (Fuelled.mono hroom) fun a c' hc => hrest a c' hc.1 hc.2)

/-- A reader that may take none, in front of the rest of a parse. -/
theorem Moves.bind {m : Parse α} {f : α → Parse β} {fuel margin : Nat} (h : Moves m fuel margin)
    (hroom : P → 20 * c.tokens.length + margin ≤ fuel)
    (hrest : ∀ a c', Onward c c' → Ends (f a) c' (Fuelled P) Q) : Ends (m >>= f) c (Fuelled P) Q :=
  .bind ((h c).mono (Fuelled.mono hroom) fun a c' hc => hrest a c' hc)

/-- Looking at the next token, in front of the rest of a parse. -/
theorem Fuelled.peek {f : Option Token × Position → Parse β}
    (htoken : ∀ t ts, c.tokens = t :: ts → Ends (f (some t.token, t.position)) c (Fuelled P) Q)
    (hend : ∀ p, c.tokens = [] → Ends (f (none, p)) c (Fuelled P) Q) : Ends (Parse.peek >>= f) c (Fuelled P) Q :=
  .bind (.peek htoken (fun p hnil _ => hend p hnil) fun _ _ _ => .fault _ _)

/-- Looking at the next token, where what follows does not depend on whether there is one. -/
theorem Fuelled.peekAny {f : Option Token × Position → Parse β} (hrest : ∀ next, Ends (f next) c (Fuelled P) Q) :
    Ends (Parse.peek >>= f) c (Fuelled P) Q :=
  Fuelled.peek (fun _ _ _ => hrest _) fun _ _ => hrest _

/-- Neither is a failure at the place where the parser is. -/
theorem Fuelled.fail {cause : ParseCause} : Ends (Parse.fail cause : Parse β) c (Fuelled P) Q :=
  .fail (fun _ => .fault _ _) fun _ _ _ => .fault _ _

/-- Passing over the next token, which is there. -/
theorem Fuelled.advance {f : Unit → Parse β} {t : LocatedToken} {ts : List LocatedToken} (ht : c.tokens = t :: ts)
    (hrest : ∀ c', Onward c c' → c'.tokens.length < c.tokens.length → Ends (f ()) c' (Fuelled P) Q) :
    Ends (Parse.advance >>= f) c (Fuelled P) Q := by
  refine .bind (.advance ?_)
  refine hrest _ (Onward.tail c) ?_
  simp [ht]

/-- Where a symbol is expected, the rest goes on behind it or there is a fault. -/
theorem Fuelled.expect {f : Unit → Parse β} {s : Symbol}
    (hrest : ∀ c', Onward c c' → c'.tokens.length < c.tokens.length → Ends (f ()) c' (Fuelled P) Q) :
    Ends (Parse.expect s >>= f) c (Fuelled P) Q := by
  refine .bind (.expect (fun t ts ht _ => hrest _ (.of_cons ht) ?_) (fun _ _ => .fault _ _) fun _ _ _ => .fault _ _)
  simp [ht]

/-- Where a symbol may stand, the rest goes on in either case. -/
theorem Fuelled.atSymbol {f : Bool → Parse β} {s : Symbol}
    (hthere : ∀ t ts, c.tokens = t :: ts → Ends (f true) c (Fuelled P) Q) (hnot : Ends (f false) c (Fuelled P) Q) :
    Ends (Parse.atSymbol s >>= f) c (Fuelled P) Q := by
  refine .bind (.atSymbol (fun b hb _ => ?_) fun _ _ _ => .fault _ _)
  cases b with
  | true =>
    obtain ⟨t, ts, ht, -⟩ := hb rfl
    exact hthere t ts ht
  | false => exact hnot

/-- Where a name is expected, the rest goes on behind it. -/
theorem Fuelled.name {f : String → Parse β} {cause : ParseCause}
    (hrest : ∀ n c', Onward c c' → c'.tokens.length < c.tokens.length → Ends (f n) c' (Fuelled P) Q) :
    Ends (Parse.name cause >>= f) c (Fuelled P) Q := by
  refine .bind (.name (fun n t ts ht _ => hrest n _ (.of_cons ht) ?_) (fun _ => .fault _ _) fun _ _ _ => .fault _ _)
  simp [ht]

/-- A stretch between a descent and the ascent behind it. -/
theorem Fuelled.nested {m : Parse α} {f : α → Parse β} {fuel margin : Nat} (h : Advances m fuel margin)
    (hroom : P → 20 * c.tokens.length + margin ≤ fuel)
    (hrest : ∀ a c', Onward c c' → c'.tokens.length < c.tokens.length → Ends (f a) c' (Fuelled P) Q) :
    Ends (do Parse.descend; let a ← m; Parse.ascend; f a) c (Fuelled P) Q := by
  refine .bind (.descend (fun _ => ?_) (fun _ => .fault _ _) fun _ _ _ => .fault _ _)
  refine h.bind hroom fun a c₁ h₁ hlt => .bind (.ascend ?_)
  have hd : c₁.depth - 1 = c.depth := by rw [h₁.depth]; rfl
  rw [hd]
  exact hrest a _ h₁.atDepth hlt

end steps

/-! ## Expressions -/

/-- What the readers of expressions do with this much fuel. -/
structure ExpressionsAdvance (fuel : Nat) : Prop where
  expression : Advances (expression fuel) fuel 15
  ternary : Advances (ternary fuel) fuel 14
  binary : ∀ levels, Advances (binary fuel levels) fuel (levels.length + 3)
  chain : ∀ level tighter left c,
    Ends (chain fuel level tighter left) c (Fuelled (20 * c.tokens.length + (tighter.length + 4) ≤ fuel)) fun _ c' =>
      Onward c { c' with depth := c.depth }
  unary : Advances (unary fuel) fuel 2
  primary : Advances (primary fuel) fuel 1
  placeholderArgs : Moves (placeholderArgs fuel) fuel 1

/-- Without fuel there is nothing to show. -/
theorem expressionsAdvance_zero : ExpressionsAdvance 0 := by
  constructor
  case binary => exact fun levels c => .throw fun h => absurd h (by omega)
  case chain => exact fun level tighter left c => .throw fun h => absurd h (by omega)
  all_goals exact fun c => .throw fun h => absurd h (by omega)

section expressions

variable {fuel : Nat}

/-- An expression takes what its conditional takes. -/
theorem expression_advances (ih : Advances (ternary fuel) fuel 14) : Advances (expression (fuel + 1)) (fuel + 1) 15 := by
  intro c
  unfold expression
  exact Fuelled.nested ih (by omega) fun e c' h hlt => .pure ⟨h, hlt⟩

/-- A condition is enough to come forward. Each branch needs a token more, and so does the fuel. -/
theorem ternary_advances (ih : ExpressionsAdvance fuel) : Advances (ternary (fuel + 1)) (fuel + 1) 14 := by
  intro c
  unfold ternary
  have hlevels : binaryLevels.length = 10 := rfl
  refine (ih.binary binaryLevels).bind (by omega) fun condition c₁ h₁ hlt₁ => ?_
  refine Fuelled.atSymbol (fun t ts ht => ?_) (.pure ⟨h₁, hlt₁⟩)
  refine Fuelled.advance ht fun c₂ h₂ hlt₂ => ?_
  refine ih.expression.bind (by omega) fun a c₃ h₃ hlt₃ => ?_
  refine Fuelled.expect fun c₄ h₄ hlt₄ => ?_
  refine ih.expression.bind (by omega) fun b c₅ h₅ hlt₅ => .pure ⟨?_, by omega⟩
  exact (((h₁.trans h₂).trans h₃).trans h₄).trans h₅

/-- Each level of precedence costs a unit of fuel before an operand is read. -/
theorem binary_advances (ih : ExpressionsAdvance fuel) :
    ∀ levels, Advances (binary (fuel + 1) levels) (fuel + 1) (levels.length + 3)
  | [], c => (ih.unary c).mono (Fuelled.mono (by simp only [List.length_nil]; omega)) fun _ _ h => h
  | level :: tighter, c => by
    unfold binary
    simp only [List.length_cons]
    refine (ih.binary tighter).bind (by omega) fun left c₁ h₁ hlt₁ => ?_
    refine .bind (.get ?_)
    refine .bind ((ih.chain level tighter left c₁).mono (Fuelled.mono (by omega)) fun e c₂ h₂ => ?_)
    refine .bind (.restoreDepth (.pure ⟨h₁.trans h₂, ?_⟩))
    have := h₂.length_le
    exact Nat.lt_of_le_of_lt this hlt₁

/-- Operators that follow a left operand come forward by a token each, whatever the depth in between. -/
theorem chain_moves (ih : ExpressionsAdvance fuel) (level : Level) (tighter : List Level) (left : Expression) (c : Cursor) :
    Ends (chain (fuel + 1) level tighter left) c
      (Fuelled (20 * c.tokens.length + (tighter.length + 4) ≤ fuel + 1)) fun _ c' =>
        Onward c { c' with depth := c.depth } := by
  unfold chain
  refine Fuelled.peek (fun t ts ht => ?_) fun p _ => .pure (Onward.refl c).atDepth
  dsimp only
  cases level.operator? (some t.token) with
  | none => exact .pure (Onward.refl c).atDepth
  | some op =>
    refine Fuelled.advance ht fun c₁ h₁ hlt₁ => ?_
    refine .bind (.descend (fun _ => ?_) (fun _ => .fault _ _) fun _ _ _ => .fault _ _)
    refine (ih.binary tighter).bind (by dsimp only; omega) fun right c₂ h₂ hlt₂ => ?_
    refine (ih.chain level tighter _ c₂).mono (Fuelled.mono ?_) fun e c₃ h₃ => ?_
    · have : c₂.tokens.length < c₁.tokens.length := hlt₂
      omega
    · have hread : Onward c₁ { c₃ with depth := c₁.depth } := (h₂.trans h₃).atDepth
      rw [h₁.depth] at hread
      exact h₁.trans hread

/-- A prefix operator is a token of its own. -/
theorem unary_advances (ih : ExpressionsAdvance fuel) : Advances (unary (fuel + 1)) (fuel + 1) 2 := by
  intro c
  unfold unary
  have hprimary : Ends (primary fuel) c (Fuelled (20 * c.tokens.length + 2 ≤ fuel + 1)) fun _ c' =>
      Onward c c' ∧ c'.tokens.length < c.tokens.length :=
    (ih.primary c).mono (Fuelled.mono (by omega)) fun _ _ h => h
  refine Fuelled.peek (fun t ts ht => ?_) fun p _ => hprimary
  dsimp only
  cases unaryOperator? (some t.token) with
  | none => exact hprimary
  | some op =>
    refine Fuelled.advance ht fun c₁ h₁ hlt₁ => ?_
    exact Fuelled.nested ih.unary (by omega) fun e c₂ h₂ hlt₂ => .pure ⟨h₁.trans h₂, by omega⟩

/-- A token that is read on its own. -/
theorem advance_then_pure {a : α} {c : Cursor} {P : Prop} {t : LocatedToken} {ts : List LocatedToken}
    (ht : c.tokens = t :: ts) : Ends (do advance; pure a) c (Fuelled P) fun _ c' =>
      Onward c c' ∧ c'.tokens.length < c.tokens.length :=
  Fuelled.advance ht fun _ h hlt => .pure ⟨h, hlt⟩

/-- An operand takes the token that it begins with. -/
theorem primary_advances (ih : ExpressionsAdvance fuel) : Advances (primary (fuel + 1)) (fuel + 1) 1 := by
  intro c
  unfold primary
  refine Fuelled.peek (fun t ts ht => ?_) fun p _ => Fuelled.fail
  dsimp only
  split
  · exact advance_then_pure ht
  · -- a global variable, by name or by a computed key
    refine Fuelled.advance ht fun c₁ h₁ hlt₁ => ?_
    refine Fuelled.atSymbol (fun t₁ ts₁ ht₁ => ?_) ?_
    · refine Fuelled.advance ht₁ fun c₂ h₂ hlt₂ => ?_
      exact Fuelled.name fun n c₃ h₃ hlt₃ => .pure ⟨(h₁.trans h₂).trans h₃, by omega⟩
    · refine Fuelled.atSymbol (fun t₁ ts₁ ht₁ => ?_) Fuelled.fail
      refine Fuelled.advance ht₁ fun c₂ h₂ hlt₂ => ?_
      refine ih.expression.bind (by omega) fun key c₃ h₃ hlt₃ => ?_
      exact Fuelled.expect fun c₄ h₄ hlt₄ => .pure ⟨((h₁.trans h₂).trans h₃).trans h₄, by omega⟩
  · -- a placeholder
    refine Fuelled.advance ht fun c₁ h₁ hlt₁ => ?_
    refine Fuelled.name fun n c₂ h₂ hlt₂ => ?_
    refine ih.placeholderArgs.bind (by omega) fun args c₃ h₃ => ?_
    have hle := h₃.length_le
    refine Fuelled.atSymbol (fun t₁ ts₁ ht₁ => ?_) Fuelled.fail
    exact Fuelled.advance ht₁ fun c₄ h₄ hlt₄ => .pure ⟨((h₁.trans h₂).trans h₃).trans h₄, by omega⟩
  · -- a group
    refine Fuelled.advance ht fun c₁ h₁ hlt₁ => ?_
    refine ih.expression.bind (by omega) fun e c₂ h₂ hlt₂ => ?_
    exact Fuelled.expect fun c₃ h₃ hlt₃ => .pure ⟨(h₁.trans h₂).trans h₃, by omega⟩
  · rename_i token _ _ _ _ htoken
    cases literal? token with
    | some l => exact advance_then_pure ht
    | none => exact Fuelled.fail
  · exact Fuelled.fail

/-- The arguments of a placeholder may be none. -/
theorem placeholderArgs_moves (ih : ExpressionsAdvance fuel) : Moves (placeholderArgs (fuel + 1)) (fuel + 1) 1 := by
  intro c
  unfold placeholderArgs
  refine Fuelled.atSymbol (fun t ts ht => ?_) (.pure (.refl c))
  refine Fuelled.advance ht fun c₁ h₁ hlt₁ => ?_
  refine ih.unary.bind (by omega) fun arg c₂ h₂ hlt₂ => ?_
  exact ih.placeholderArgs.bind (by omega) fun rest c₃ h₃ => .pure ((h₁.trans h₂).trans h₃)

end expressions

/-- All readers of expressions at once, by induction on the fuel. -/
theorem expressionsAdvance (fuel : Nat) : ExpressionsAdvance fuel := by
  induction fuel with
  | zero => exact expressionsAdvance_zero
  | succ fuel ih =>
    exact ⟨expression_advances ih.ternary, ternary_advances ih, binary_advances ih, chain_moves ih, unary_advances ih,
      primary_advances ih, placeholderArgs_moves ih⟩

/-! ## Statements -/

/-- The arguments of a command may be none, too. -/
theorem commandArgs_moves (fuel : Nat) : Moves (commandArgs fuel) fuel 16 := by
  induction fuel with
  | zero => exact fun c => .throw fun h => absurd h (by omega)
  | succ fuel ih =>
    intro c
    unfold commandArgs
    refine Fuelled.atSymbol (fun t ts ht => .pure (.refl c)) ?_
    refine (expressionsAdvance fuel).expression.bind (by omega) fun arg c₁ h₁ hlt₁ => ?_
    refine Fuelled.atSymbol (fun t ts ht => ?_) (.pure h₁)
    refine Fuelled.advance ht fun c₂ h₂ hlt₂ => ?_
    exact ih.bind (by omega) fun rest c₃ h₃ => .pure ((h₁.trans h₂).trans h₃)

/-- So may their parentheses. -/
theorem optionalArgs_moves (fuel : Nat) : Moves (optionalArgs fuel) fuel 0 := by
  intro c
  unfold optionalArgs
  refine Fuelled.atSymbol (fun t ts ht => ?_) (.pure (.refl c))
  refine Fuelled.advance ht fun c₁ h₁ hlt₁ => ?_
  refine (commandArgs_moves fuel).bind (by omega) fun args c₂ h₂ => ?_
  exact Fuelled.expect fun c₃ h₃ hlt₃ => .pure ((h₁.trans h₂).trans h₃)

/-- An assignment comes forward by its target. -/
theorem assignmentOrExpression_advances (fuel : Nat) (p : Position) :
    Advances (assignmentOrExpression fuel p) fuel 15 := by
  intro c
  unfold assignmentOrExpression
  have hexpression := (expressionsAdvance fuel).expression
  refine hexpression.bind id fun e c₁ h₁ hlt₁ => ?_
  refine Fuelled.atSymbol (fun t ts ht => ?_) (.pure ⟨h₁, hlt₁⟩)
  rw [if_pos rfl]
  cases target? e with
  | none => exact Fuelled.fail
  | some target =>
    refine Fuelled.advance ht fun c₂ h₂ hlt₂ => ?_
    exact hexpression.bind (by omega) fun v c₃ h₃ hlt₃ => .pure ⟨(h₁.trans h₂).trans h₃, by omega⟩

/-- A keyword that stands in loops only. -/
theorem loopWord_advances {c : Cursor} {P : Prop} {cause : ParseCause} {s : Statement} {t : LocatedToken}
    {ts : List LocatedToken} (ht : c.tokens = t :: ts) : Ends (loopWord cause s) c (Fuelled P) fun _ c' =>
      Onward c c' ∧ c'.tokens.length < c.tokens.length := by
  unfold loopWord
  refine .bind (.get ?_)
  split
  · exact Fuelled.fail
  · exact advance_then_pure ht

/-- What the readers of statements do with this much fuel. -/
structure StatementsAdvance (fuel : Nat) : Prop where
  statements : ∀ inBlock, Moves (statements fuel inBlock) fuel 18
  block : Advances (block fuel) fuel 1
  loopBody : Advances (loopBody fuel) fuel 2
  statement : Advances (statement fuel) fuel 17
  ifElse : Advances (ifElse fuel) fuel 16

/-- Without fuel there is nothing to show. -/
theorem statementsAdvance_zero : StatementsAdvance 0 := by
  constructor
  case statements => exact fun inBlock c => .throw fun h => absurd h (by omega)
  all_goals exact fun c => .throw fun h => absurd h (by omega)

section statements

variable {fuel : Nat}

/-- Statements in a row may be none; each of them comes forward. -/
theorem statements_moves (ih : StatementsAdvance fuel) (inBlock : Bool) :
    Moves (statements (fuel + 1) inBlock) (fuel + 1) 18 := by
  intro c
  unfold statements
  have hmore : Ends (do let s ← statement fuel; let rest ← statements fuel inBlock; pure (s :: rest)) c
      (Fuelled (20 * c.tokens.length + 18 ≤ fuel + 1)) fun _ c' => Onward c c' := by
    refine ih.statement.bind (by omega) fun s c₁ h₁ hlt₁ => ?_
    exact (ih.statements inBlock).bind (by omega) fun rest c₂ h₂ => .pure (h₁.trans h₂)
  refine Fuelled.peek (fun t ts ht => ?_) fun p _ => .pure (.refl c)
  split
  · exact .pure (.refl c)
  · refine Fuelled.advance ht fun c₁ h₁ hlt₁ => ?_
    exact (ih.statements inBlock c₁).mono (Fuelled.mono (by omega)) fun _ _ h => h₁.trans h
  · cases inBlock with
    | true => exact .pure (.refl c)
    | false => exact hmore
  · exact hmore

/-- A block has its braces. -/
theorem block_advances (ih : StatementsAdvance fuel) : Advances (block (fuel + 1)) (fuel + 1) 1 := by
  intro c
  unfold block
  refine .bind (.descend (fun _ => ?_) (fun _ => .fault _ _) fun _ _ _ => .fault _ _)
  refine Fuelled.expect fun c₁ h₁ hlt₁ => ?_
  refine (ih.statements true).bind (by dsimp only at hlt₁; omega) fun body c₂ h₂ => ?_
  refine Fuelled.expect fun c₃ h₃ hlt₃ => .bind (.ascend (.pure ?_))
  have hread := (h₁.trans h₂).trans h₃
  have hd : c₃.depth - 1 = c.depth := by rw [hread.depth]; rfl
  rw [hd]
  exact ⟨hread.atDepth, Nat.lt_of_lt_of_le hlt₃ (Nat.le_trans h₂.length_le (Nat.le_of_lt hlt₁))⟩

/-- The body of a loop is a block, and the loops around it are as before. -/
theorem loopBody_advances (ih : StatementsAdvance fuel) : Advances (loopBody (fuel + 1)) (fuel + 1) 2 := by
  intro c
  unfold loopBody
  refine .bind (.enterLoop ?_)
  refine ih.block.bind (by dsimp only; omega) fun body c₁ h₁ hlt₁ => .bind (.leaveLoop (.pure ⟨?_, hlt₁⟩))
  have hl : c₁.loops - 1 = c.loops := by rw [h₁.loops]; rfl
  exact ⟨h₁.tokens, h₁.ending, h₁.depth, hl⟩

/-- A statement, by the token that it begins with. -/
theorem statement_advances (ih : StatementsAdvance fuel) : Advances (statement (fuel + 1)) (fuel + 1) 17 := by
  intro c
  unfold statement
  have hexpression := (expressionsAdvance fuel).expression
  have hother : ∀ p, Ends (assignmentOrExpression fuel p) c (Fuelled (20 * c.tokens.length + 17 ≤ fuel + 1)) fun _ c' =>
      Onward c c' ∧ c'.tokens.length < c.tokens.length :=
    fun p => (assignmentOrExpression_advances fuel p c).mono (Fuelled.mono (by omega)) fun _ _ h => h
  refine Fuelled.peek (fun t ts ht => ?_) fun p _ => hother p
  dsimp only
  split
  · exact ih.block.bind (by omega) fun body c₁ h₁ hlt₁ => .pure ⟨h₁, hlt₁⟩
  · exact (ih.ifElse c).mono (Fuelled.mono (by omega)) fun _ _ h => h
  · refine Fuelled.advance ht fun c₁ h₁ hlt₁ => ?_
    refine hexpression.bind (by omega) fun condition c₂ h₂ hlt₂ => ?_
    exact ih.loopBody.bind (by omega) fun body c₃ h₃ hlt₃ => .pure ⟨(h₁.trans h₂).trans h₃, by omega⟩
  · refine Fuelled.advance ht fun c₁ h₁ hlt₁ => ?_
    refine Fuelled.name fun counter c₂ h₂ hlt₂ => ?_
    refine Fuelled.expect fun c₃ h₃ hlt₃ => ?_
    refine hexpression.bind (by omega) fun start c₄ h₄ hlt₄ => ?_
    refine Fuelled.expect fun c₅ h₅ hlt₅ => ?_
    refine hexpression.bind (by omega) fun stop c₆ h₆ hlt₆ => ?_
    refine ih.loopBody.bind (by omega) fun body c₇ h₇ hlt₇ => .pure ⟨?_, by omega⟩
    exact (((((h₁.trans h₂).trans h₃).trans h₄).trans h₅).trans h₆).trans h₇
  · exact loopWord_advances ht
  · exact loopWord_advances ht
  · exact advance_then_pure ht
  · refine Fuelled.advance ht fun c₁ h₁ hlt₁ => ?_
    refine (optionalArgs_moves fuel).bind (by omega) fun args c₂ h₂ => .pure ⟨h₁.trans h₂, ?_⟩
    exact Nat.lt_of_le_of_lt h₂.length_le hlt₁
  · exact hother _

/-- A conditional has its keyword, and a chain of them one for each `ELSE IF`. -/
theorem ifElse_advances (ih : StatementsAdvance fuel) : Advances (ifElse (fuel + 1)) (fuel + 1) 16 := by
  intro c
  unfold ifElse
  -- without a token in front of it the condition is what fails, so the word itself need not be there
  refine Fuelled.peekAny fun next => ?_
  dsimp only
  refine .bind (.advance ?_)
  have h₁ := Onward.tail c
  have hle₁ := h₁.length_le
  refine (expressionsAdvance fuel).expression.bind (by omega) fun condition c₂ h₂ hlt₂ => ?_
  refine ih.block.bind (by omega) fun thenBody c₃ h₃ hlt₃ => ?_
  have hread := (h₁.trans h₂).trans h₃
  have hlt : c₃.tokens.length < c.tokens.length := by omega
  refine Fuelled.peek (fun t ts ht => ?_) fun q _ => .pure ⟨hread, hlt⟩
  split
  · refine Fuelled.advance ht fun c₄ h₄ hlt₄ => ?_
    refine Fuelled.peekAny fun next' => ?_
    split
    · exact Fuelled.nested ih.ifElse (by omega) fun s c₅ h₅ hlt₅ => .pure ⟨(hread.trans h₄).trans h₅, by omega⟩
    · exact ih.block.bind (by omega) fun body c₅ h₅ hlt₅ => .pure ⟨(hread.trans h₄).trans h₅, by omega⟩
  · exact .pure ⟨hread, hlt⟩

end statements

/-- All readers of statements at once, by induction on the fuel. -/
theorem statementsAdvance (fuel : Nat) : StatementsAdvance fuel := by
  induction fuel with
  | zero => exact statementsAdvance_zero
  | succ fuel ih =>
    exact ⟨statements_moves ih, block_advances ih, loopBody_advances ih, statement_advances ih, ifElse_advances ih⟩

/-- The fuel that a text is parsed with is enough for it. -/
theorem statements_ne_outOfFuel (list : TokenList) (inBlock : Bool) (depth loops : Nat) :
    (statements (fuelFor list.tokens.length) inBlock).run ⟨list.tokens, list.ending, depth, loops⟩ ≠
      .error .outOfFuel := by
  intro hdry
  have h := (statementsAdvance (fuelFor list.tokens.length)).statements inBlock ⟨list.tokens, list.ending, depth, loops⟩
  unfold Ends at h
  rw [hdry] at h
  exact h (by simp only [fuelFor]; omega) rfl

end EventScript.Parse

namespace EventScript

/-- The fault of a text stops the reading of its tokens. -/
theorem Script.run_of_parse_error {text : String} {x : ParseFault} (h : Script.parse text = .error x) :
    (Parse.statements (Parse.fuelFor (scan text).tokens.length) false).run
      ⟨(scan text).tokens, (scan text).ending, 0, 0⟩ = .error (.fault x) := by
  have hfuel := Parse.statements_ne_outOfFuel (scan text) false 0 0
  simp only [Script.parse] at h
  split at h
  next => cases h
  next hrun =>
    cases h
    exact hrun
  next hrun => exact absurd hrun hfuel

/-- A text that is accepted can be read to its end. -/
theorem Script.complete_of_parse {text : String} {s : Script} (h : Script.parse text = .ok s) :
    ∃ p, (scan text).ending = .complete p := by
  have hread := fun fuel => (Parse.statements_yields_end fuel ⟨(scan text).tokens, (scan text).ending, 0, 0⟩).and
    (.of_ends ((Parse.statementsAdvance fuel).statements false _))
  obtain ⟨c, ⟨-, p, hcomplete⟩, honward⟩ := Script.yields_of_parse h hread
  exact ⟨p, honward.ending.symm.trans hcomplete⟩

end EventScript
