import EventScript.Proofs.Parse.Expressions
import EventScript.Proofs.Parse.Progress
import EventScript.Proofs.Script.Stretches
import EventScript.Proofs.Token.Spelling

/-!
# What is read is located

Each reader of the parser passes over tokens that are a located phrase with its result as the tree: `Locates`. So every node of the
result has the place it should have, whichever reader took it: before it looked at the token, from its first operand, or with the
statement it starts. A reader of statements makes its choice about `BREAK` and `CONTINUE` by the number of loops around it, which
every reader gives back as it found it. `nodes_in_place` says it of whole texts.
-/

namespace EventScript.Parse

open Expression (operandRank)

variable {α β : Type}

/-- Between the cursors stand these tokens; the loops around them are the same. -/
structure Between (c : Cursor) (ts : List LocatedToken) (c' : Cursor) : Prop where
  tokens : c.tokens = ts ++ c'.tokens
  loops : c'.loops = c.loops

namespace Between

variable {c c₁ c₂ : Cursor} {ts us : List LocatedToken} {t : LocatedToken} {k : Token}

/-- Between a cursor and itself there is nothing. -/
theorem refl (c : Cursor) : Between c [] c := ⟨rfl, rfl⟩

/-- What stands between two cursors and between the next two stands there in a row. -/
theorem trans (h : Between c ts c₁) (h' : Between c₁ us c₂) : Between c (ts ++ us) c₂ :=
  ⟨by rw [h.tokens, h'.tokens, List.append_assoc], h'.loops.trans h.loops⟩

/-- A known token, at its place. -/
theorem token {rest : List LocatedToken} (h : c.tokens = t :: rest) (ht : t.token = k) :
    Between c [⟨k, t.position⟩] { c with tokens := rest } := by
  subst ht
  exact ⟨h, rfl⟩

/-- To pass over a token leaves it behind, with its place. -/
theorem tail {rest : List LocatedToken} (h : c.tokens = t :: rest) (ht : t.token = k) :
    Between c [⟨k, t.position⟩] { c with tokens := c.tokens.tail } := by
  have hrest : c.tokens.tail = rest := by rw [h, List.tail_cons]
  rw [hrest]
  exact .token h ht

/-- The depth of nesting makes no difference. -/
theorem atDepth (h : Between c ts c₁) (d : Nat) : Between c ts { c₁ with depth := d } := ⟨h.tokens, h.loops⟩

/-- Whether there is a loop around is the same on both sides. -/
theorem inLoop (h : Between c ts c₁) : decide (0 < c₁.loops) = decide (0 < c.loops) := by rw [h.loops]

end Between

/-- Between the cursors stands a located phrase. -/
inductive Holds (c : Cursor) (x : Phrase) (c' : Cursor) : Prop where
  | intro (ts : List LocatedToken) (between : Between c ts c') (located : Located x ts)

/-- What the reader passes over is a located phrase with its result as the tree. The phrase may depend on whether there is a loop
around. -/
def Locates (m : Parse α) (x : Bool → α → Phrase) : Prop :=
  ∀ c, Yields m c fun a c' => Holds c (x (0 < c.loops) a) c'

/-- What a first reader passes over is a phrase that the rest may build on. -/
theorem Locates.bind {m : Parse α} {f : α → Parse β} {x : Bool → α → Phrase} {c : Cursor} {Q : β → Cursor → Prop}
    (h : Locates m x)
    (hrest : ∀ a ts c', Between c ts c' → Located (x (0 < c.loops) a) ts → Yields (f a) c' Q) : Yields (m >>= f) c Q := by
  refine .bind ((h c).mono ?_)
  rintro a c' ⟨ts, hbetween, hlocated⟩
  exact hrest a ts c' hbetween hlocated

/-- A reader without fuel passes over nothing. -/
theorem Locates.outOfFuel {x : Bool → α → Phrase} : Locates (throw .outOfFuel : Parse α) x := fun _ => .throw

/-! ## The tables of operators and literals -/

/-- Each operator of a level has the rank of the level and stands there under its own symbol. -/
theorem mem_levelsAbove_head : ∀ r < 10, ∀ entry ∈ (levelsAbove r).headD [],
    entry.1 = entry.2.token ∧ entry.2.rank = r + 1 := by
  decide

/-- What is an operator of a level is that symbol, and its rank is one above the level. -/
theorem operator?_eq_some {r : Nat} {level : Level} {tighter : List Level} (hlevel : levelsAbove r = level :: tighter)
    {next : Token} {op : BinaryOp} (hop : level.operator? (some next) = some op) :
    next = .symbol op.token ∧ op.rank = r + 1 := by
  have hr : r < 10 := by
    rw [← Nat.not_le]
    intro hle
    have hnil : levelsAbove r = [] := List.drop_eq_nil_of_le hle
    rw [hnil] at hlevel
    cases hlevel
  cases next with
  | symbol s =>
    obtain ⟨before, after, rfl, -⟩ := List.lookup_eq_some_iff.mp hop
    have hmem := mem_levelsAbove_head r hr (s, op) (by rw [hlevel]; simp)
    exact ⟨congrArg Token.symbol hmem.1, hmem.2⟩
  | _ => cases hop

/-- What is a prefix operator is that symbol. -/
theorem unaryOperator?_eq_some {next : Token} {op : UnaryOp} (hop : unaryOperator? (some next) = some op) :
    next = .symbol op.token := by
  unfold unaryOperator? at hop
  split at hop <;> rename_i h <;> cases hop <;> cases h <;> rfl

/-- What is a literal is its token. -/
theorem literal?_eq_some {t : Token} {l : Literal} (h : literal? t = some l) : l.token = t := by
  cases t with
  | int | float | string =>
    cases h
    rfl
  | keyword k => cases k <;> cases h <;> rfl
  | _ => cases h

/-! ## Expressions -/

/-- What the readers of expressions do with this much fuel. -/
structure ExpressionsLocated (fuel : Nat) : Prop where
  expression : Locates (expression fuel) fun _ e => .expression 0 e
  ternary : Locates (ternary fuel) fun _ e => .expression 0 e
  binary : ∀ r ≤ 10, Locates (binary fuel (levelsAbove r)) fun _ e => .expression (r + 1) e
  chain : ∀ r level left us c, levelsAbove r = level :: levelsAbove (r + 1) → Located (.expression (r + 1) left) us →
    Yields (chain fuel level (levelsAbove (r + 1)) left) c fun e c' =>
      ∃ ts, Between c ts c' ∧ Located (.expression (r + 1) e) (us ++ ts)
  unary : Locates (unary fuel) fun _ e => .expression operandRank e
  primary : Locates (primary fuel) fun _ e => .expression (operandRank + 1) e
  placeholderArgs : Locates (placeholderArgs fuel) fun _ args => .placeholderArgs args

/-- Without fuel there is nothing to show. -/
theorem expressionsLocated_zero : ExpressionsLocated 0 := by
  constructor
  case binary => exact fun _ _ => .outOfFuel
  case chain => exact fun _ _ _ _ _ _ _ => .throw
  all_goals exact .outOfFuel

section expressions

variable {fuel : Nat}

/-- An expression stands where its conditional does. -/
theorem expression_located (ih : ExpressionsLocated fuel) :
    Locates (expression (fuel + 1)) fun _ e => .expression 0 e := by
  intro c
  unfold expression
  exact .descend fun _ => ih.ternary.bind fun e ts c₁ h₁ he => .ascend (.pure ⟨ts, ⟨h₁.tokens, h₁.loops⟩, he⟩)

/-- A condition and two branches, with the marks in between, make up a conditional. -/
theorem ternary_located (ih : ExpressionsLocated fuel) : Locates (ternary (fuel + 1)) fun _ e => .expression 0 e := by
  intro c
  unfold ternary
  refine (ih.binary 0 (by decide)).bind fun condition ts c₁ h₁ hcondition => ?_
  refine .atSymbol (fun t rest ht hquestion => .advance ?_) (.pure ⟨ts, h₁, .loosen hcondition⟩)
  have h₂ := h₁.trans (.tail ht hquestion)
  refine ih.expression.bind fun thenValue us c₃ h₃ hthen => ?_
  refine .expect fun u rest' hu hcolon => ?_
  have h₄ := (h₂.trans h₃).trans (.token hu hcolon)
  refine ih.expression.bind fun elseValue vs c₅ h₅ helse => .pure ⟨_, h₄.trans h₅, ?_⟩
  simpa using Located.ternary t.position u.position hcondition hthen helse

/-- What is read at a level of precedence is an expression of the next rank, or an operation on two of them. -/
theorem binary_located (ih : ExpressionsLocated fuel) :
    ∀ r ≤ 10, Locates (binary (fuel + 1) (levelsAbove r)) fun _ e => .expression (r + 1) e := by
  intro r hr c
  rcases Nat.lt_or_eq_of_le hr with hlt | rfl
  · obtain ⟨level, hlevel⟩ := levelsAbove_eq_cons hlt
    rw [hlevel]
    unfold binary
    refine (ih.binary (r + 1) hlt).bind fun left us c₁ h₁ hleft => .get ?_
    refine .bind ((ih.chain r level left us c₁ hlevel (.loosen hleft)).mono ?_)
    rintro e c₂ ⟨ts, h₂, he⟩
    exact .restoreDepth (.pure ⟨us ++ ts, (h₁.trans h₂).atDepth _, he⟩)
  · exact ih.unary c

/-- Each operator of a chain takes what is read in front of it as its left operand, and the place of that. -/
theorem chain_located (ih : ExpressionsLocated fuel) {r : Nat} {level : Level} {left : Expression} {us : List LocatedToken}
    {c : Cursor} (hlevel : levelsAbove r = level :: levelsAbove (r + 1)) (hleft : Located (.expression (r + 1) left) us) :
    Yields (chain (fuel + 1) level (levelsAbove (r + 1)) left) c fun e c' =>
      ∃ ts, Between c ts c' ∧ Located (.expression (r + 1) e) (us ++ ts) := by
  unfold chain
  have hdone : Yields (pure left : Parse Expression) c fun e c' =>
      ∃ ts, Between c ts c' ∧ Located (.expression (r + 1) e) (us ++ ts) :=
    .pure ⟨[], .refl c, by rwa [List.append_nil]⟩
  refine .peek (fun t rest ht => ?_) fun p _ _ => hdone
  dsimp only
  cases hop : level.operator? (some t.token) with
  | none => exact hdone
  | some op =>
    obtain ⟨htoken, hrank⟩ := operator?_eq_some hlevel hop
    have hr : r + 1 ≤ 10 := hrank ▸ op.rank_le
    refine .advance (.descend fun _ => (ih.binary (r + 1) hr).bind fun right vs c₁ h₁ hright => ?_)
    have hwhole : Located (.expression (r + 1) (.binary left.position left op right))
        (us ++ ⟨.symbol op.token, t.position⟩ :: vs) := by
      rw [← hrank] at hleft hright ⊢
      exact .binary t.position op hleft hright
    refine (ih.chain r level _ _ c₁ hlevel hwhole).mono ?_
    rintro e c₂ ⟨ts, h₂, he⟩
    have hright : Between c (⟨.symbol op.token, t.position⟩ :: vs) c₁ := (Between.tail ht htoken).trans ⟨h₁.tokens, h₁.loops⟩
    refine ⟨_, hright.trans h₂, ?_⟩
    rwa [← List.append_assoc]

/-- A prefix operator stands in front of its operand. -/
theorem unary_located (ih : ExpressionsLocated fuel) :
    Locates (unary (fuel + 1)) fun _ e => .expression operandRank e := by
  intro c
  unfold unary
  have hbare : Yields (primary fuel) c fun e c' => Holds c (.expression operandRank e) c' := by
    refine (ih.primary c).mono ?_
    rintro e c' ⟨ts, h, he⟩
    exact ⟨ts, h, .loosen he⟩
  refine .peek (fun t rest ht => ?_) fun p _ _ => hbare
  dsimp only
  cases hop : unaryOperator? (some t.token) with
  | none => exact hbare
  | some op =>
    refine .advance (.descend fun _ => ih.unary.bind fun operand ts c₁ h₁ hoperand => .ascend (.pure ?_))
    exact ⟨_, (Between.tail ht (unaryOperator?_eq_some hop)).trans ⟨h₁.tokens, h₁.loops⟩, .unary _ op hoperand⟩

/-- An operand is a literal, a name, a global variable, a placeholder or an expression in parentheses. -/
theorem primary_located (ih : ExpressionsLocated fuel) :
    Locates (primary (fuel + 1)) fun _ e => .expression (operandRank + 1) e := by
  intro c
  unfold primary
  refine .peek (fun t rest ht => ?_) fun p _ _ => .fail
  dsimp only
  split
  next n hn => exact .advance (.pure ⟨_, .tail ht (Option.some.inj hn), .name _ n⟩)
  next hglobal =>
    have h₁ := Between.tail ht (Option.some.inj hglobal)
    refine .advance (.atSymbol (fun u rest' hu hdot => .advance (.name fun n v rest'' hv hn => .pure ?_)) ?_)
    · exact ⟨_, (h₁.trans (.tail hu hdot)).trans (.token hv hn), .globalName _ _ _ n⟩
    · refine .atSymbol (fun u rest' hu hbracket => .advance ?_) .fail
      refine ih.expression.bind fun key ts c₂ h₂ hkey => .expect fun v rest'' hv hclose => .pure ?_
      exact ⟨_, ((h₁.trans (.tail hu hbracket)).trans h₂).trans (.token hv hclose), .globalAt _ _ _ hkey⟩
  next hpercent =>
    have h₁ := Between.tail ht (Option.some.inj hpercent)
    refine .advance (.name fun n u rest' hu hn => ?_)
    refine ih.placeholderArgs.bind fun args ts c₂ h₂ hargs => ?_
    refine .atSymbol (fun v rest'' hv hclose => .advance (.pure ?_)) .fail
    exact ⟨_, ((h₁.trans (.token hu hn)).trans h₂).trans (.tail hv hclose), .placeholder _ _ _ n hargs⟩
  next hparen =>
    have h₁ := Between.tail ht (Option.some.inj hparen)
    refine .advance (ih.expression.bind fun e ts c₂ h₂ he => .expect fun v rest' hv hclose => .pure ?_)
    exact ⟨_, (h₁.trans h₂).trans (.token hv hclose), .group _ _ he⟩
  next u _ _ _ _ hu =>
    cases hu
    cases hl : literal? t.token with
    | none => exact .fail
    | some l => exact .advance (.pure ⟨_, .tail ht (literal?_eq_some hl).symm, .literal _ l⟩)
  next hnone => cases hnone

/-- The arguments of a placeholder stand behind colons. -/
theorem placeholderArgs_located (ih : ExpressionsLocated fuel) :
    Locates (placeholderArgs (fuel + 1)) fun _ args => .placeholderArgs args := by
  intro c
  unfold placeholderArgs
  refine .atSymbol (fun t rest ht hcolon => .advance ?_) (.pure ⟨[], .refl c, .noPlaceholderArgs⟩)
  refine ih.unary.bind fun arg ts c₁ h₁ harg => ?_
  refine ih.placeholderArgs.bind fun rest us c₂ h₂ hrest => .pure ?_
  exact ⟨_, ((Between.tail ht hcolon).trans h₁).trans h₂, .placeholderArg _ harg hrest⟩

end expressions

/-- All readers of expressions at once, by induction on the fuel. -/
theorem expressionsLocated (fuel : Nat) : ExpressionsLocated fuel := by
  induction fuel with
  | zero => exact expressionsLocated_zero
  | succ fuel ih =>
    exact ⟨expression_located ih, ternary_located ih, binary_located ih, fun _ _ _ _ _ => chain_located ih,
      unary_located ih, primary_located ih, placeholderArgs_located ih⟩

/-- What is read as an expression is a located one. -/
theorem expression_locates (fuel : Nat) : Locates (expression fuel) fun _ e => .expression 0 e :=
  (expressionsLocated fuel).expression

/-! ## Statements -/

/-- What is read as arguments of a command is located, with commas in between. -/
theorem commandArgs_locates (fuel : Nat) : Locates (commandArgs fuel) fun _ args => .commandArgs args := by
  induction fuel with
  | zero => exact .outOfFuel
  | succ fuel ih =>
    intro c
    unfold commandArgs
    refine .atSymbol (fun t rest _ _ => .pure ⟨[], .refl c, .noCommandArgs⟩) ?_
    refine (expression_locates fuel).bind fun arg ts c₁ h₁ harg => ?_
    refine .atSymbol (fun t rest ht hcomma => .advance ?_) (.pure ⟨ts, h₁, .lastCommandArg harg⟩)
    refine ih.bind fun args us c₂ h₂ hargs => .pure ⟨_, (h₁.trans (.tail ht hcomma)).trans h₂, ?_⟩
    rw [List.append_assoc]
    exact .commandArg _ harg hargs

/-- An assignment, or an expression on its own, at its first token. -/
theorem assignmentOrExpression_located (fuel : Nat) {p : Position} {c : Cursor}
    (hp : ∀ t rest, c.tokens = t :: rest → p = t.position) :
    Yields (assignmentOrExpression fuel p) c fun s c' => Holds c (.statement (0 < c.loops) s) c' := by
  unfold assignmentOrExpression
  refine (expression_locates fuel).bind fun e ts c₁ h₁ he => ?_
  obtain ⟨first, ts, rfl⟩ := List.exists_cons_of_ne_nil he.ne_nil
  obtain rfl := hp _ _ h₁.tokens
  refine .atSymbol (fun t rest ht hassign => ?_) (.pure ⟨_, h₁, .expression _ he⟩)
  rw [if_pos rfl]
  cases htarget : target? e with
  | none => exact .fail
  | some target =>
    refine .advance ((expression_locates fuel).bind fun value us c₂ h₂ hvalue => .pure ?_)
    refine ⟨_, (h₁.trans (.tail ht hassign)).trans h₂, ?_⟩
    rw [List.append_assoc]
    exact .assign _ _ (he.target htarget) hvalue

/-- A word that stands in loops only is read in loops only. -/
theorem loopWord_located {cause : ParseCause} {s : Statement} {c : Cursor} {t : LocatedToken} {rest : List LocatedToken} {k : Token}
    (ht : c.tokens = t :: rest) (hk : t.token = k) (hs : Located (.statement true s) [⟨k, t.position⟩]) :
    Yields (loopWord cause s) c fun s c' => Holds c (.statement (0 < c.loops) s) c' := by
  unfold loopWord
  refine .get ?_
  split
  next hloops => exact .fail
  next hloops =>
    refine .advance (.pure ⟨_, .tail ht hk, ?_⟩)
    rwa [decide_eq_true (Nat.pos_of_ne_zero hloops)]

/-- What the readers of statements do with this much fuel. -/
structure StatementsLocated (fuel : Nat) : Prop where
  statements : ∀ inBlock, Locates (statements fuel inBlock) fun inLoop body => .statements inLoop body
  block : ∀ c, Yields (block fuel) c fun body c' => ∃ t rest ts r, c.tokens = t :: rest ∧
    Between c (LocatedToken.braced t.position ts r) c' ∧ Located (.statements (0 < c.loops) body) ts
  loopBody : ∀ c, Yields (loopBody fuel) c fun body c' => ∃ q ts r,
    Between c (LocatedToken.braced q ts r) c' ∧ Located (.statements true body) ts
  statement : Locates (statement fuel) fun inLoop s => .statement inLoop s
  ifElse : ∀ c t rest, c.tokens = t :: rest → t.token = .keyword .ifWord → Yields (ifElse fuel) c fun s c' =>
    (∃ p condition thenBody elseBody, s = .ifElse p condition thenBody elseBody) ∧ Holds c (.statement (0 < c.loops) s) c'

/-- Without fuel there is nothing to show. -/
theorem statementsLocated_zero : StatementsLocated 0 := by
  constructor
  case statements => exact fun _ => .outOfFuel
  case statement => exact .outOfFuel
  case ifElse => exact fun _ _ _ _ _ => .throw
  all_goals exact fun _ => .throw

section statements

variable {fuel : Nat}

/-- Statements stand in a row, with semicolons in between or without. -/
theorem statements_located (ih : StatementsLocated fuel) (inBlock : Bool) :
    Locates (statements (fuel + 1) inBlock) fun inLoop body => .statements inLoop body := by
  intro c
  unfold statements
  have hdone : Yields (pure [] : Parse (List Statement)) c fun body c' => Holds c (.statements (0 < c.loops) body) c' :=
    .pure ⟨[], .refl c, .noStatements _⟩
  have hmore : Yields (do let s ← statement fuel; let rest ← statements fuel inBlock; pure (s :: rest)) c
      fun body c' => Holds c (.statements (0 < c.loops) body) c' := by
    refine ih.statement.bind fun s ts c₁ h₁ hs => ?_
    refine (ih.statements inBlock).bind fun body us c₂ h₂ hbody => .pure ⟨ts ++ us, h₁.trans h₂, ?_⟩
    rw [h₁.inLoop] at hbody
    exact .statement hs hbody
  refine .peek (fun t rest ht => ?_) fun p _ _ => hdone
  split
  next hnone => cases hnone
  next hsemicolon =>
    obtain ⟨hsemicolon, -⟩ := Prod.mk.inj hsemicolon
    refine .advance ((ih.statements inBlock _).mono ?_)
    rintro body c₁ ⟨ts, h₁, hbody⟩
    exact ⟨_, (Between.tail ht (Option.some.inj hsemicolon)).trans h₁, .semicolon _ hbody⟩
  next =>
    cases inBlock with
    | true => exact hdone
    | false => exact hmore
  next => exact hmore

/-- A block is statements in braces, at the place of the first brace. -/
theorem block_located (ih : StatementsLocated fuel) (c : Cursor) : Yields (block (fuel + 1)) c fun body c' =>
    ∃ t rest ts r, c.tokens = t :: rest ∧ Between c (LocatedToken.braced t.position ts r) c' ∧
      Located (.statements (0 < c.loops) body) ts := by
  unfold block
  refine .descend fun _ => .expect fun t rest ht hopen => ?_
  refine (ih.statements true).bind fun body ts c₂ h₂ hbody => .expect fun u rest' hu hclose => .ascend (.pure ?_)
  have hbraces := ((Between.token ht hopen).trans h₂).trans (.token hu hclose)
  exact ⟨t, rest, ts, u.position, ht, ⟨hbraces.tokens, hbraces.loops⟩, hbody⟩

/-- The body of a loop is a block, and its statements have a loop around them. -/
theorem loopBody_located (ih : StatementsLocated fuel) (c : Cursor) : Yields (loopBody (fuel + 1)) c fun body c' =>
    ∃ q ts r, Between c (LocatedToken.braced q ts r) c' ∧ Located (.statements true body) ts := by
  unfold loopBody
  refine .enterLoop (.bind ((ih.block _).mono ?_))
  rintro body c₁ ⟨t, rest, ts, r, -, h₁, hbody⟩
  refine .leaveLoop (.pure ⟨t.position, ts, r, ⟨h₁.tokens, ?_⟩, ?_⟩)
  · exact congrArg (· - 1) h₁.loops
  · rwa [decide_eq_true (Nat.succ_pos _)] at hbody

/-- A statement, by the token that it begins with. -/
theorem statement_located (ih : StatementsLocated fuel) :
    Locates (statement (fuel + 1)) fun inLoop s => .statement inLoop s := by
  intro c
  unfold statement
  refine .peek (fun t rest ht => ?_) fun p hnil _ => ?_
  · dsimp only
    split
    next hbrace =>
      refine .bind ((ih.block c).mono ?_)
      rintro body c₂ ⟨u, rest', ts, r, hu, h₂, hbody⟩
      cases ht.symm.trans hu
      exact .pure ⟨_, h₂, .block _ _ hbody⟩
    next hif => exact (ih.ifElse c t rest ht (Option.some.inj hif)).mono fun s c₂ h => h.2
    next hwhile =>
      have h₁ := Between.tail ht (Option.some.inj hwhile)
      refine .advance ((expression_locates fuel).bind fun condition ts c₂ h₂ hcondition => ?_)
      refine .bind ((ih.loopBody c₂).mono ?_)
      rintro body c₃ ⟨q, us, r, h₃, hbody⟩
      exact .pure ⟨_, (h₁.trans h₂).trans h₃, .whileLoop _ _ _ _ hcondition hbody⟩
    next hfor =>
      have h₁ := Between.tail ht (Option.some.inj hfor)
      refine .advance (.name fun counter u rest₂ hu hcounter => .expect fun v rest₃ hv hassign => ?_)
      have h₃ := (h₁.trans (.token hu hcounter)).trans (.token hv hassign)
      refine (expression_locates fuel).bind fun start ts c₄ h₄ hstart => .expect fun w rest₅ hw hcolon => ?_
      have h₅ := (h₃.trans h₄).trans (.token hw hcolon)
      refine (expression_locates fuel).bind fun stop us c₆ h₆ hstop => ?_
      refine .bind ((ih.loopBody c₆).mono ?_)
      rintro body c₇ ⟨q, vs, r, h₇, hbody⟩
      refine .pure ⟨_, (h₅.trans h₆).trans h₇, ?_⟩
      simpa using Located.forLoop (0 < c.loops) t.position u.position v.position w.position q r counter hstart hstop hbody
    next hbreak => exact loopWord_located ht (Option.some.inj hbreak) (.breakLoop _)
    next hcontinue => exact loopWord_located ht (Option.some.inj hcontinue) (.continueLoop _)
    next hreturn => exact .advance (.pure ⟨_, .tail ht (Option.some.inj hreturn), .returnScript _ _⟩)
    next n hcommand =>
      have h₁ := Between.tail ht (Option.some.inj hcommand)
      unfold optionalArgs
      refine .advance (.bind (.atSymbol (fun u rest₂ hu hopen => .advance ?_) (.pure ?_)))
      · refine (commandArgs_locates fuel).bind fun args ts c₃ h₃ hargs => ?_
        refine .expect fun v rest₄ hv hclose => .pure (.pure ?_)
        exact ⟨_, ((h₁.trans (.tail hu hopen)).trans h₃).trans (.token hv hclose), .command _ _ _ _ n hargs⟩
      · exact .pure ⟨_, h₁, .bareCommand _ _ n⟩
    next =>
      refine assignmentOrExpression_located fuel fun u rest' hu => ?_
      cases ht.symm.trans hu
      rfl
  · exact assignmentOrExpression_located fuel fun t rest ht => absurd (ht.symm.trans hnil) (List.cons_ne_nil _ _)

/-- A conditional stands at its keyword, or as the other branch of one at that place. -/
theorem ifElse_located (ih : StatementsLocated fuel) {c : Cursor} {t : LocatedToken} {rest : List LocatedToken}
    (ht : c.tokens = t :: rest) (hif : t.token = .keyword .ifWord) : Yields (ifElse (fuel + 1)) c fun s c' =>
      (∃ p condition thenBody elseBody, s = .ifElse p condition thenBody elseBody) ∧
        Holds c (.statement (0 < c.loops) s) c' := by
  unfold ifElse
  have h₁ := Between.tail ht hif
  refine .peek (fun u rest' hu => .advance ?_) fun p hnil _ => absurd (ht.symm.trans hnil) (List.cons_ne_nil _ _)
  cases ht.symm.trans hu
  refine (expression_locates fuel).bind fun condition ts c₂ h₂ hcondition => ?_
  refine .bind ((ih.block c₂).mono ?_)
  rintro thenBody c₃ ⟨v, rest₃, us, r, -, h₃, hthen⟩
  have hfront := (h₁.trans h₂).trans h₃
  rw [(h₁.trans h₂).inLoop] at hthen
  have hdone : Yields (pure (.ifElse t.position condition thenBody none) : Parse Statement) c₃ fun s c' =>
      (∃ p condition thenBody elseBody, s = .ifElse p condition thenBody elseBody) ∧
        Holds c (.statement (0 < c.loops) s) c' :=
    .pure ⟨⟨_, _, _, _, rfl⟩, _, hfront, .ifThen _ _ _ hcondition hthen⟩
  refine .peek (fun w rest₄ hw => ?_) fun p _ _ => hdone
  split
  next helse =>
    have h₄ := hfront.trans (.tail hw (Option.some.inj (Prod.mk.inj helse).1))
    have hbraces : Yields (do let body ← block fuel; pure (.ifElse t.position condition thenBody (some body)))
        { c₃ with tokens := c₃.tokens.tail } fun s c' =>
          (∃ p condition thenBody elseBody, s = .ifElse p condition thenBody elseBody) ∧
            Holds c (.statement (0 < c.loops) s) c' := by
      refine .bind ((ih.block _).mono ?_)
      rintro elseBody c₅ ⟨q, _, vs, r', -, h₅, helse⟩
      refine .pure ⟨⟨_, _, _, _, rfl⟩, _, h₄.trans h₅, ?_⟩
      rw [h₄.inLoop] at helse
      simpa using Located.ifElse t.position v.position r w.position q.position r' hcondition hthen helse
    refine .advance (.peek (fun x rest₅ hx => ?_) fun p _ _ => hbraces)
    split
    next hchained =>
      refine .descend fun _ => .bind ?_
      refine (ih.ifElse { c₃ with tokens := c₃.tokens.tail, depth := c₃.depth + 1 } x rest₅ hx
        (Option.some.inj (Prod.mk.inj hchained).1)).mono ?_
      rintro s c₅ ⟨⟨p', innerCondition, innerThen, innerElse, rfl⟩, vs, h₅, hs⟩
      refine .ascend (.pure ⟨⟨_, _, _, _, rfl⟩, _, h₄.trans ⟨h₅.tokens, h₅.loops⟩, ?_⟩)
      dsimp only at hs
      rw [hfront.loops] at hs
      simpa using Located.elseIf t.position v.position r w.position p' hcondition hthen hs
    next => exact hbraces
  next => exact hdone

end statements

/-- All readers of statements at once, by induction on the fuel. -/
theorem statementsLocated (fuel : Nat) : StatementsLocated fuel := by
  induction fuel with
  | zero => exact statementsLocated_zero
  | succ fuel ih =>
    exact ⟨statements_located ih, block_located ih, loopBody_located ih, statement_located ih,
      fun _ _ _ => ifElse_located ih⟩

end EventScript.Parse

namespace EventScript

/-- The tokens of a text stand in order. -/
theorem scan_in_order (text : String) : InOrder (scan text).tokens := by
  obtain ⟨pieces, last, -, hpieces, htokens, -⟩ := scan_dissected text
  unfold InOrder
  rw [htokens]
  exact (List.pairwise_append.mp (@Piece.located_in_order [] pieces last hpieces)).1

/-- The tokens of an accepted text are a located phrase with its script as the tree. -/
theorem Script.located_of_parse {text : String} {s : Script} (h : Script.parse text = .ok s) :
    Located (.statements false s.statements) (scan text).tokens := by
  have hread := fun fuel => ((Parse.statementsLocated fuel).statements false _).and
    (Parse.statements_yields_end fuel ⟨(scan text).tokens, (scan text).ending, 0, 0⟩)
  obtain ⟨c, ⟨ts, hbetween, hlocated⟩, hnil, -⟩ := Script.yields_of_parse h hread
  have htokens : (scan text).tokens = ts := by
    refine hbetween.tokens.trans ?_
    rw [hnil, List.append_nil]
  rw [htokens]
  exact hlocated

/-- The nodes of an accepted text are in place in its tokens. -/
theorem Script.inPlace_of_parse {text : String} {s : Script} (h : Script.parse text = .ok s) :
    Node.InPlace (s.statements.map .statement) (scan text).tokens := (Script.located_of_parse h).inPlace

/-- No node occurs twice in the tree of an accepted text. -/
theorem Script.nodes_nodup {text : String} {script : Script} (h : Script.parse text = .ok script) : script.nodes.Nodup := by
  have hnodes : script.nodes = Node.nodesOfAll (script.statements.map .statement) := (Node.nodesOfAll_statements _).symm
  rw [hnodes]
  exact (Script.inPlace_of_parse h).nodup (scan_in_order text)

/-- Every node of an accepted text has the place it should have in the tokens of the text. Each one is read from a stretch of them, a
statement at the first token of it and an expression at the first one that is no opening parenthesis, and in the order of the tree no
node stands in front of one before it. -/
theorem nodes_in_place {text : String} {s : Script} (h : Script.parse text = .ok s) :
    Located (.statements false s.statements) (scan text).tokens ∧
      (∀ n ∈ s.nodes, ∃ stretch, n.ReadFrom stretch ∧ stretch <:+: (scan text).tokens) ∧
      (s.nodes.map Node.position).Pairwise Position.NotBehind := by
  have hplace := Script.inPlace_of_parse h
  have hnodes : s.nodes = Node.nodesOfAll (s.statements.map .statement) := (Node.nodesOfAll_statements _).symm
  rw [hnodes]
  exact ⟨Script.located_of_parse h, hplace.readFrom, hplace.in_order (scan_in_order text)⟩

/-- An operator behind a group, a unary operator in it and a placeholder with arguments, in a chain of conditionals. -/
theorem nodes_in_place_chained :
    let text := "IF (a + -b) * %c:1% \x7b y \x7d ELSE IF z \x7b (global[k]) = 1 \x7d"
    ∃ s, Script.parse text = .ok s ∧ (s.nodes.map fun n => n.position.column) = [1, 5, 5, 5, 9, 10, 15, 18, 23, 23, 32, 35, 39, 47, 53] ∧
      (s.nodes.map Node.position).Pairwise Position.NotBehind := by
  intro text
  have haccepted : (Script.parse text).toOption.any fun s =>
      (s.nodes.map fun n => n.position.column) = [1, 5, 5, 5, 9, 10, 15, 18, 23, 23, 32, 35, 39, 47, 53] := by
    decide +kernel
  obtain ⟨s, hs, hcolumns⟩ := Script.exists_of_any haccepted
  exact ⟨s, hs, of_decide_eq_true hcolumns, (nodes_in_place hs).2.2⟩

end EventScript
