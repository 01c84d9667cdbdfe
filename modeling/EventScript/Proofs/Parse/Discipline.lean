import EventScript.Proofs.Parse.Expressions
import EventScript.Proofs.Parse.Places
import EventScript.Proofs.Parse.Progress

/-!
# The counters of the parser

The parser counts the levels of nesting and the loops around the place it is at. `Reader` lists its readers, those of a part of
another one too: the arguments of a command, a placeholder and each level of binary operators. A reader that comes to a result gives
the counters back as it found them and has taken a token (`Reader.advances`), so each step back is taken from where a step forward went:
what it would do below zero makes no difference (`Reader.readWith_eq`). With fuel for its tokens a reader ends by itself, and more fuel
changes nothing (`Reader.ends`). `parse_disciplined` says it of all readers and of whole texts.
-/

namespace EventScript.Parse

variable {α β : Type}

/-! ## The readers -/

/-- The arguments of a command, in parentheses. -/
def arguments (fuel : Nat) : Parse (List Expression) := do
  expect .lparen
  let args ← commandArgs fuel
  expect .rparen
  pure args

/-- A placeholder, from its percent sign on. -/
def placeholder (fuel : Nat) : Parse Expression := do
  let (_, p) ← peek
  expect .percent
  let n ← name .placeholderName
  let args ← placeholderArgs fuel
  if ← atSymbol .percent then
    advance
    pure (.placeholder p n args)
  else fail (.unterminatedPlaceholder n)

/-- The readers of the parser that take at least one token. -/
inductive Reader where
  | block
  | loopBody
  | statement
  | ifElse
  | arguments
  | expression
  | ternary
  /-- The operators of one of the ten levels, the loosest one being the first. -/
  | binary (level : Fin 10)
  | unary
  | primary
  | placeholder
deriving DecidableEq, Repr

namespace Reader

/-- What a reader reads. -/
abbrev Result : Reader → Type
  | block | loopBody => List Statement
  | statement | ifElse => Statement
  | arguments => List Expression
  | expression | ternary | binary _ | unary | primary | placeholder => Expression

/-- A reader with this much fuel. -/
def read : (r : Reader) → Nat → Parse r.Result
  | block => Parse.block
  | loopBody => Parse.loopBody
  | statement => Parse.statement
  | ifElse => Parse.ifElse
  | arguments => Parse.arguments
  | expression => Parse.expression
  | ternary => Parse.ternary
  | binary level => (Parse.binary · (levelsAbove level))
  | unary => Parse.unary
  | primary => Parse.primary
  | placeholder => Parse.placeholder

/-- A reader with one unit of fuel more, and other steps back out of a level of nesting and out of a loop. Out of a loop it is taken when
the body is stopped as well, from where the body was begun. -/
def readWith (back leave : Parse Unit) (fuel : Nat) : (r : Reader) → Parse r.Result
  | block => do
    descend
    expect .lbrace
    let body ← statements fuel true
    expect .rbrace
    back
    pure body
  | loopBody => do
    enterLoop
    let body ← tryCatch (Parse.block fuel) fun stop => do
      leave
      throw stop
    leave
    pure body
  | ifElse => do
    let (_, p) ← peek
    advance
    let condition ← Parse.expression fuel
    let thenBody ← Parse.block fuel
    match ← peek with
    | (some (.keyword .elseWord), _) =>
      advance
      match ← peek with
      | (some (.keyword .ifWord), _) =>
        descend
        let nested ← Parse.ifElse fuel
        back
        pure (.ifElse p condition thenBody (some [nested]))
      | _ => pure (.ifElse p condition thenBody (some (← Parse.block fuel)))
    | _ => pure (.ifElse p condition thenBody none)
  | expression => do
    descend
    let e ← Parse.ternary fuel
    back
    pure e
  | unary => do
    let (next, p) ← peek
    match unaryOperator? next with
    | none => Parse.primary fuel
    | some op =>
      advance
      descend
      let operand ← Parse.unary fuel
      back
      pure (.unary p op operand)
  | r => r.read (fuel + 1)

end Reader

/-- In front of a parenthesis the arguments of a command are read. -/
theorem optionalArgs_eq_arguments {fuel : Nat} {c : Cursor} {t : LocatedToken} {ts : List LocatedToken} (ht : c.tokens = t :: ts)
    (hopen : t.token = .symbol .lparen) : (optionalArgs fuel).run c = (arguments fuel).run c := by
  have hpeek := peek_of_cons ht
  rw [hopen] at hpeek
  have hat : (atSymbol .lparen).run c = .ok (true, c) := run_bind_of_ok hpeek
  have hexpect : (expect .lparen).run c = .ok ((), { c with tokens := c.tokens.tail }) := run_bind_of_ok hpeek
  unfold optionalArgs arguments
  rw [run_bind_of_ok hat, run_bind_of_ok hexpect]
  rfl

/-- In front of a percent sign a placeholder is read. -/
theorem primary_eq_placeholder {fuel : Nat} {c : Cursor} {t : LocatedToken} {ts : List LocatedToken} (ht : c.tokens = t :: ts)
    (hpercent : t.token = .symbol .percent) : (primary (fuel + 1)).run c = (placeholder fuel).run c := by
  have hpeek := peek_of_cons ht
  rw [hpercent] at hpeek
  have hexpect : (expect .percent).run c = .ok ((), { c with tokens := c.tokens.tail }) := run_bind_of_ok hpeek
  unfold primary placeholder
  rw [run_bind_of_ok hpeek, run_bind_of_ok hpeek]
  dsimp only
  rw [run_bind_of_ok hexpect]
  rfl

/-- A symbol that is expected is there, or there is a fault. -/
theorem expect_cases (s : Symbol) (c : Cursor) :
    (∃ t ts, c.tokens = t :: ts ∧ t.token = .symbol s) ∨ ∃ x, (expect s).run c = .error (.fault x) := by
  have hends : Ends (expect s) c (fun stop => ∃ x, stop = .fault x) fun _ _ => ∃ t ts, c.tokens = t :: ts ∧ t.token = .symbol s :=
    .expect (fun t ts ht hs => ⟨t, ts, ht, hs⟩) (fun _ _ => ⟨_, rfl⟩) fun _ _ _ => ⟨_, rfl⟩
  unfold Ends at hends
  cases hrun : (expect s).run c with
  | ok p =>
    rw [hrun] at hends
    exact .inl hends
  | error stop =>
    rw [hrun] at hends
    obtain ⟨x, rfl⟩ := hends
    exact .inr ⟨x, rfl⟩

/-- The arguments of a command are what a command is read with, or there is no parenthesis, whatever the fuel. -/
theorem arguments_cases (c : Cursor) :
    (∀ fuel, (optionalArgs fuel).run c = (arguments fuel).run c) ∨ ∃ x, ∀ fuel, (arguments fuel).run c = .error (.fault x) := by
  rcases expect_cases .lparen c with ⟨t, ts, ht, hopen⟩ | ⟨x, hfault⟩
  · exact .inl fun fuel => optionalArgs_eq_arguments ht hopen
  · exact .inr ⟨x, fun fuel => run_bind_of_error hfault⟩

/-- A placeholder is what is read as an operand, or there is no percent sign, whatever the fuel. -/
theorem placeholder_cases (c : Cursor) :
    (∀ fuel, (primary (fuel + 1)).run c = (placeholder fuel).run c) ∨ ∃ x, ∀ fuel, (placeholder fuel).run c = .error (.fault x) := by
  rcases expect_cases .percent c with ⟨t, ts, ht, hpercent⟩ | ⟨x, hfault⟩
  · exact .inl fun fuel => primary_eq_placeholder ht hpercent
  cases hpeek : peek.run c with
  | error stop =>
    obtain rfl : stop = .fault x := Except.error.inj ((run_bind_of_error hpeek).symm.trans hfault)
    exact .inr ⟨x, fun fuel => run_bind_of_error hpeek⟩
  | ok found =>
    obtain ⟨next, c'⟩ := found
    have hkept : Yields peek c fun _ c' => c' = c := Ends.peek (fun _ _ _ => rfl) (fun _ _ _ => rfl) fun _ _ _ => trivial
    obtain rfl := hkept.result hpeek
    exact .inr ⟨x, fun fuel => (run_bind_of_ok hpeek).trans (run_bind_of_error hfault)⟩

/-! ## Forward -/

/-- A reader with a larger margin asks for more fuel, and is none the worse for it. -/
theorem Advances.mono {m : Parse α} {fuel margin margin' : Nat} (h : Advances m fuel margin) (hmargin : margin ≤ margin') :
    Advances m fuel margin' := fun c => (h c).mono (Fuelled.mono (by omega)) fun _ _ h => h

/-- The parentheses around arguments are tokens that are taken. -/
theorem arguments_advances (fuel : Nat) : Advances (arguments fuel) fuel 0 := by
  intro c
  unfold arguments
  refine Fuelled.expect fun c₁ h₁ hlt₁ => ?_
  refine (commandArgs_moves fuel).bind (by omega) fun args c₂ h₂ => ?_
  have hle := h₂.length_le
  exact Fuelled.expect fun c₃ h₃ hlt₃ => .pure ⟨(h₁.trans h₂).trans h₃, by omega⟩

/-- A placeholder advances as an operand does. -/
theorem placeholder_advances (fuel : Nat) : Advances (placeholder fuel) fuel 1 := by
  intro c
  unfold Ends
  rcases placeholder_cases c with hprimary | ⟨x, hfault⟩
  · rw [← hprimary]
    exact ((expressionsAdvance (fuel + 1)).primary c).mono (Fuelled.mono (by omega)) fun _ _ h => h
  · rw [hfault]
    exact .fault _ x

/-- Every reader goes onward, takes a token, and does with twenty units of fuel for each token and twenty more. -/
theorem Reader.advances (r : Reader) (fuel : Nat) : Advances (r.read fuel) fuel 20 := by
  have hexpressions := expressionsAdvance fuel
  have hstatements := statementsAdvance fuel
  cases r with
  | block => exact hstatements.block.mono (by decide)
  | loopBody => exact hstatements.loopBody.mono (by decide)
  | statement => exact hstatements.statement.mono (by decide)
  | ifElse => exact hstatements.ifElse.mono (by decide)
  | arguments => exact (arguments_advances fuel).mono (by decide)
  | expression => exact hexpressions.expression.mono (by decide)
  | ternary => exact hexpressions.ternary.mono (by decide)
  | binary level =>
    refine (hexpressions.binary _).mono ?_
    have hlength : (levelsAbove level).length = 10 - level := List.length_drop
    omega
  | unary => exact hexpressions.unary.mono (by decide)
  | primary => exact hexpressions.primary.mono (by decide)
  | placeholder => exact (placeholder_advances fuel).mono (by decide)

/-- What advances comes to its results further onward. -/
theorem Advances.yields {m : Parse α} {fuel margin : Nat} (h : Advances m fuel margin) (c : Cursor) :
    Yields m c fun _ c' => Onward c c' ∧ c'.tokens.length < c.tokens.length := .of_ends (h c)

/-! ## Back -/

/-- A step back out of a level of nesting that does something else below zero. -/
def ascendOr (below : Parse Unit) : Parse Unit := do
  if (← get).depth = 0 then below else ascend

/-- A step back out of a loop that does something else below zero. -/
def leaveLoopOr (below : Parse Unit) : Parse Unit := do
  if (← get).loops = 0 then below else leaveLoop

/-- From above zero a step back is what it is, whatever is done below. -/
theorem run_ascendOr {below : Parse Unit} {c : Cursor} (h : 0 < c.depth) : (ascendOr below).run c = ascend.run c := by
  have hget : (MonadState.get : Parse Cursor).run c = .ok (c, c) := rfl
  unfold ascendOr
  rw [run_bind_of_ok hget, if_neg (Nat.ne_of_gt h)]

/-- So is the step out of a loop. -/
theorem run_leaveLoopOr {below : Parse Unit} {c : Cursor} (h : 0 < c.loops) : (leaveLoopOr below).run c = leaveLoop.run c := by
  have hget : (MonadState.get : Parse Cursor).run c = .ok (c, c) := rfl
  unfold leaveLoopOr
  rw [run_bind_of_ok hget, if_neg (Nat.ne_of_gt h)]

/-- Behind the same part of a parse two rests of it are the same that are so from every cursor behind it. -/
theorem run_bind_congr {m : Parse α} {f g : α → Parse β} {c : Cursor} {Q : α → Cursor → Prop} (h : Yields m c Q)
    (hrest : ∀ a c', Q a c' → (f a).run c' = (g a).run c') : (m >>= f).run c = (m >>= g).run c := by
  cases hm : m.run c with
  | error s => rw [run_bind_of_error hm, run_bind_of_error hm]
  | ok p =>
    obtain ⟨a, c'⟩ := p
    rw [run_bind_of_ok hm, run_bind_of_ok hm]
    exact hrest a c' (h.result hm)

/-- To go down a level counts one. -/
theorem descend_yields (c : Cursor) : Yields descend c fun _ c' => c'.depth = c.depth + 1 :=
  Ends.descend (fun _ => rfl) (fun _ => trivial) fun _ _ _ => trivial

/-- Behind a part that keeps the depth, the step back from the level of it is one from above zero. -/
theorem descend_ascendOr {m : Parse α} {f : α → Parse β} (below : Parse Unit)
    (hm : ∀ c, Yields m c fun _ c' => c'.depth = c.depth) :
    (do descend; let a ← m; ascendOr below; f a) = (do descend; let a ← m; ascend; f a) := by
  refine StateT.ext fun c => run_bind_congr (descend_yields c) fun _ c₁ h₁ => ?_
  refine run_bind_congr (hm c₁) fun a c₂ h₂ => ?_
  have hdeep : 0 < c₂.depth := by omega
  rw [StateT.run_bind, StateT.run_bind, run_ascendOr hdeep]

/-- What advances is back at the depth where it began. -/
theorem Advances.keepsDepth {m : Parse α} {fuel margin : Nat} (h : Advances m fuel margin) (c : Cursor) :
    Yields m c fun _ c' => c'.depth = c.depth := (h.yields c).mono fun _ _ h => h.1.depth

/-- What stands in the braces of a block, and the braces. -/
theorem braces_keepsDepth (fuel : Nat) (c : Cursor) :
    Yields (do expect .lbrace; let body ← statements fuel true; expect .rbrace; pure body) c fun _ c' => c'.depth = c.depth := by
  refine .expect fun t ts _ _ => .bind ?_
  refine Yields.mono (.of_ends ((statementsAdvance fuel).statements true _)) fun body c₂ h₂ => ?_
  exact .expect fun u us _ _ => .pure h₂.depth

/-- The loop around a body is left from above zero, whether the body comes to an end or is stopped. -/
theorem loopBody_leaving {m : Parse α} (below : Parse Unit) (hm : ∀ c, Yields m c fun _ c' => c'.loops = c.loops) :
    (do enterLoop; let a ← tryCatch m (fun stop => do leaveLoopOr below; throw stop); leaveLoopOr below; pure a) =
      (do enterLoop; let a ← m; leaveLoop; pure a) := by
  refine StateT.ext fun c => ?_
  have henter : enterLoop.run c = .ok ((), { c with loops := c.loops + 1 }) := rfl
  rw [run_bind_of_ok henter, run_bind_of_ok henter]
  have hinside := hm { c with loops := c.loops + 1 }
  cases hrun : m.run { c with loops := c.loops + 1 } with
  | error s =>
    have hleave : (leaveLoopOr below).run { c with loops := c.loops + 1 } = .ok ((), c) := run_leaveLoopOr (Nat.succ_pos _)
    have hcaught : (tryCatch m fun stop => do leaveLoopOr below; throw stop : Parse α).run { c with loops := c.loops + 1 } =
        .error s := by
      show tryCatch (m.run _) _ = _
      rw [hrun]
      show (do leaveLoopOr below; throw s : Parse α).run { c with loops := c.loops + 1 } = _
      rw [run_bind_of_ok hleave]
      rfl
    rw [run_bind_of_error hcaught, run_bind_of_error hrun]
  | ok p =>
    obtain ⟨a, c₁⟩ := p
    have hloops : 0 < c₁.loops := by
      have hkept : c₁.loops = c.loops + 1 := hinside.result hrun
      omega
    have hcaught : (tryCatch m fun stop => do leaveLoopOr below; throw stop : Parse α).run { c with loops := c.loops + 1 } =
        .ok (a, c₁) := by
      show tryCatch (m.run _) _ = _
      rw [hrun]
      rfl
    rw [run_bind_of_ok hcaught, run_bind_of_ok hrun, StateT.run_bind, StateT.run_bind, run_leaveLoopOr hloops]

/-- What a step back does below zero makes no difference to a reader: none is taken there. -/
theorem Reader.readWith_eq (r : Reader) (below below' : Parse Unit) (fuel : Nat) :
    r.readWith (ascendOr below) (leaveLoopOr below') fuel = r.read (fuel + 1) := by
  have hexpressions := expressionsAdvance fuel
  have hstatements := statementsAdvance fuel
  cases r with
  | expression =>
    simp only [readWith, read, Parse.expression]
    exact descend_ascendOr below hexpressions.ternary.keepsDepth
  | unary =>
    simp only [readWith, descend_ascendOr below hexpressions.unary.keepsDepth]
    rfl
  | ifElse =>
    simp only [readWith, descend_ascendOr below hstatements.ifElse.keepsDepth]
    rfl
  | block =>
    have hbraces := descend_ascendOr (f := pure) below (braces_keepsDepth fuel)
    simpa only [readWith, read, Parse.block, bind_assoc, pure_bind] using hbraces
  | loopBody =>
    simp only [readWith, read, Parse.loopBody]
    exact loopBody_leaving below' fun c => (hstatements.block.yields c).mono fun _ _ h => h.1.loops
  | _ => rfl

/-! ## To the end -/

/-- A cursor is beside itself, at the same places. -/
theorem Beside.refl (c : Cursor) : Beside id [] c c := beside_of_fixed c (fun _ _ => rfl) rfl

/-- Beside a cursor, at the same places and with nothing more, is the cursor itself. -/
theorem Beside.eq {c d : Cursor} (h : Beside id [] c d) : d = c := by
  obtain ⟨tokens, ending, depth, loops⟩ := c
  obtain ⟨tokens', ending', depth', loops'⟩ := d
  obtain ⟨htokens, rfl, rfl, hbehind⟩ := h
  have hsame : tokens' = tokens := by
    refine htokens.trans ?_
    rw [List.append_nil]
    exact List.map_id _
  have hending : ending' = ending := by
    rcases hbehind with ⟨-, hending⟩ | ⟨p, rest, hmore⟩
    · refine hending.trans ?_
      cases ending <;> rfl
    · cases hmore
  rw [hsame, hending]

/-- Where `m` is not out of fuel, `m'` does the same. -/
def Steady (m m' : Parse α) : Prop := ∀ c, m.run c ≠ .error .outOfFuel → m'.run c = m.run c

namespace Steady

variable {m m' : Parse α} {f f' : α → Parse β}

/-- Every reader is steady against itself. -/
theorem refl (m : Parse α) : Steady m m := fun _ _ => rfl

/-- A reader without fuel has nothing to keep to. -/
theorem outOfFuel : Steady (throw .outOfFuel) m' := fun _ h => absurd rfl h

/-- Two parts are steady if both are. -/
theorem bind (h : Steady m m') (hrest : ∀ a, Steady (f a) (f' a)) : Steady (m >>= f) (m' >>= f') := by
  intro c hfuel
  cases hm : m.run c with
  | error s =>
    have hstop : s ≠ .outOfFuel := by
      rintro rfl
      exact hfuel (run_bind_of_error hm)
    have hm' : m'.run c = .error s := (h c (by rwa [hm, ne_eq, Except.error.injEq])).trans hm
    rw [run_bind_of_error hm, run_bind_of_error hm']
  | ok p =>
    obtain ⟨a, c₁⟩ := p
    rw [run_bind_of_ok hm] at hfuel ⊢
    have hm' : m'.run c = .ok (a, c₁) := (h c (by rw [hm]; exact nofun)).trans hm
    rw [run_bind_of_ok hm']
    exact hrest a c₁ hfuel

/-- The same first part, and two rests. -/
theorem behind (hrest : ∀ a, Steady (f a) (f' a)) : Steady (m >>= f) (m >>= f') := .bind (.refl m) hrest

/-- What mirrors a reader without a change is steady against it. -/
theorem of_mirrors {P : Cursor → Prop} {r : α → α} (h : ∀ c, Mirrors id [] P m m' r c c) (hr : ∀ a, r a = a) (hP : ∀ c, P c) :
    Steady m m' := by
  intro c hfuel
  cases hm : m.run c with
  | error s =>
    cases s with
    | fault x => exact (h c).fault x rfl hm
    | outOfFuel => exact absurd hm hfuel
  | ok p =>
    obtain ⟨a, c₁⟩ := p
    obtain ⟨d₁, hm', hbeside⟩ := (h c).result a c₁ hm (hP c₁)
    rw [hm', hr, hbeside.eq]

/-- So is what is alike without a change. -/
theorem of_alike {r : α → α} (h : Alike id [] m m' r) (hr : ∀ a, r a = a) : Steady m m' :=
  .of_mirrors (fun c => h c c (.refl c)) hr fun _ => trivial

end Steady

section steady

variable {fuel fuel' : Nat}

/-- Arguments are read in the same way with more fuel. -/
theorem arguments_steady (hfuel : fuel ≤ fuel') : Steady (arguments fuel) (arguments fuel') := by
  intro c
  rcases arguments_cases c with hoptional | ⟨x, hfault⟩
  · rw [← hoptional, ← hoptional]
    exact Steady.of_alike (optionalArgs_alike hfuel) Expression.relocateAll_id c
  · rw [hfault, hfault]
    exact fun _ => rfl

/-- So is a placeholder. -/
theorem placeholder_steady (hfuel : fuel ≤ fuel') : Steady (placeholder fuel) (placeholder fuel') := by
  intro c
  rcases placeholder_cases c with hprimary | ⟨x, hfault⟩
  · rw [← hprimary, ← hprimary]
    exact Steady.of_alike ((expressionsAlike id [] (fuel + 1)).primary (fuel' + 1) (Nat.succ_le_succ hfuel)) Expression.relocate_id c
  · rw [hfault, hfault]
    exact fun _ => rfl

/-- So is a conditional, by induction along its chain. -/
theorem ifElse_steady (hfuel : fuel ≤ fuel') : Steady (ifElse fuel) (ifElse fuel') := by
  induction fuel generalizing fuel' with
  | zero => exact .outOfFuel
  | succ fuel ih =>
    obtain ⟨k, rfl⟩ := Nat.exists_eq_succ_of_ne_zero (Nat.ne_of_gt (Nat.lt_of_lt_of_le fuel.succ_pos hfuel))
    have hfuel : fuel ≤ k := Nat.le_of_succ_le_succ hfuel
    have hcondition := Steady.of_alike ((expressionsAlike id [] fuel).expression k hfuel) Expression.relocate_id
    have hbody := Steady.of_alike ((statementsAlike id [] fuel).block k hfuel) Statement.relocateAll_id
    unfold ifElse
    refine .behind ?_
    rintro ⟨-, p⟩
    refine .behind fun _ => .bind hcondition fun condition => .bind hbody fun thenBody => ?_
    refine .behind fun next => ?_
    split
    next =>
      refine .behind fun _ => .behind fun next' => ?_
      split
      next => exact .behind fun _ => .bind (ih hfuel) fun nested => .refl _
      next => exact .bind hbody fun body => .refl _
    next => exact .refl _

/-- More fuel changes nothing where there is enough. -/
theorem Reader.steady (r : Reader) (hfuel : fuel ≤ fuel') : Steady (r.read fuel) (r.read fuel') := by
  have hexpressions := expressionsAlike id [] fuel
  have hstatements := statementsAlike id [] fuel
  cases r with
  | block => exact .of_alike (hstatements.block fuel' hfuel) Statement.relocateAll_id
  | loopBody => exact .of_alike (hstatements.loopBody fuel' hfuel) Statement.relocateAll_id
  | statement => exact .of_alike (hstatements.statement fuel' hfuel) Statement.relocate_id
  | ifElse => exact ifElse_steady hfuel
  | arguments => exact arguments_steady hfuel
  | expression => exact .of_alike (hexpressions.expression fuel' hfuel) Expression.relocate_id
  | ternary => exact .of_alike (hexpressions.ternary fuel' hfuel) Expression.relocate_id
  | binary level =>
    have hsilent : ∀ l ∈ levelsAbove level, Silent l := fun l hl => silent_binaryLevels l (List.mem_of_mem_drop hl)
    exact .of_alike (hexpressions.binary fuel' hfuel _ hsilent) Expression.relocate_id
  | unary => exact .of_alike (hexpressions.unary fuel' hfuel) Expression.relocate_id
  | primary => exact .of_alike (hexpressions.primary fuel' hfuel) Expression.relocate_id
  | placeholder => exact placeholder_steady hfuel

/-- So are statements, in a block or in the text itself. -/
theorem statements_steady (inBlock : Bool) (hfuel : fuel ≤ fuel') : Steady (statements fuel inBlock) (statements fuel' inBlock) :=
  .of_mirrors (fun c => (statementsAlike id [] fuel).statements fuel' hfuel inBlock c c (.refl c)) Statement.relocateAll_id
    fun _ => .inl rfl

end steady

/-- The parse ends by itself: with enough fuel for the tokens it comes to one and the same result or fault. -/
def EndsFor (m : Nat → Parse α) (c : Cursor) : Prop :=
  ∃ outcome : Except ParseFault (α × Cursor), ∀ fuel ≥ fuelFor c.tokens.length, (m fuel).run c = outcome.mapError .fault

/-- What is steady and has fuel enough ends by itself. -/
theorem EndsFor.of_steady {m : Nat → Parse α} {c : Cursor} (hsteady : ∀ fuel fuel', fuel ≤ fuel' → Steady (m fuel) (m fuel'))
    (hfuel : (m (fuelFor c.tokens.length)).run c ≠ .error .outOfFuel) : EndsFor m c := by
  have hsame : ∀ fuel ≥ fuelFor c.tokens.length, (m fuel).run c = (m (fuelFor c.tokens.length)).run c :=
    fun fuel hle => hsteady _ _ hle c hfuel
  cases hrun : (m (fuelFor c.tokens.length)).run c with
  | ok p => exact ⟨.ok p, fun fuel hle => (hsame fuel hle).trans hrun⟩
  | error s =>
    cases s with
    | fault x => exact ⟨.error x, fun fuel hle => (hsame fuel hle).trans hrun⟩
    | outOfFuel => exact absurd hrun hfuel

/-- So every reader does. -/
theorem Reader.ends (r : Reader) (c : Cursor) : EndsFor r.read c := by
  refine .of_steady (fun _ _ => r.steady) fun hrun => ?_
  have h := r.advances (fuelFor c.tokens.length) c
  unfold Ends at h
  rw [hrun] at h
  exact h (by simp only [fuelFor]; omega) rfl

/-- And so does the reading of a whole text. -/
theorem statements_end (list : TokenList) : EndsFor (statements · false) ⟨list.tokens, list.ending, 0, 0⟩ :=
  .of_steady (fun _ _ => statements_steady false) (statements_ne_outOfFuel list false 0 0)

/-! ## All readers -/

/-- A reader that comes to a result gives the nesting, within the limit, and the loops back as it found them and has taken a token.
It takes no step back below zero: what that would do makes no difference. With fuel for its tokens it ends by itself, as the reading
of a whole text does. -/
theorem parse_disciplined (r : Reader) {c : Cursor} (hdepth : c.depth ≤ nestingLimit) :
    (∀ fuel a c', (r.read fuel).run c = .ok (a, c') →
      c'.depth = c.depth ∧ c'.loops = c.loops ∧ c'.depth ≤ nestingLimit ∧ ∃ t taken, c.tokens = t :: taken ++ c'.tokens) ∧
    (∀ c', descend.run c = .ok ((), c') → c'.depth = c.depth + 1 ∧ c'.depth ≤ nestingLimit) ∧
    (∀ fuel below below', (r.readWith (ascendOr below) (leaveLoopOr below') fuel).run c = (r.read (fuel + 1)).run c) ∧
    EndsFor r.read c ∧
    ∀ text, EndsFor (statements · false) ⟨(scan text).tokens, (scan text).ending, 0, 0⟩ := by
  refine ⟨fun fuel a c' hrun => ?_, fun c' hrun => ?_, fun fuel below below' => ?_, r.ends c, fun text => statements_end (scan text)⟩
  · obtain ⟨honward, hlt⟩ := ((r.advances fuel).yields c).result hrun
    refine ⟨honward.depth, honward.loops, honward.depth ▸ hdepth, ?_⟩
    obtain ⟨taken, htaken⟩ := honward.tokens
    cases taken with
    | nil =>
      rw [← htaken, List.nil_append] at hlt
      exact absurd hlt (Nat.lt_irrefl _)
    | cons t taken => exact ⟨t, taken, htaken.symm⟩
  · have hdeeper : Yields descend c fun _ c' => c'.depth = c.depth + 1 ∧ c'.depth ≤ nestingLimit :=
      Ends.descend (fun hlt => ⟨rfl, hlt⟩) (fun _ => trivial) fun _ _ _ => trivial
    exact hdeeper.result hrun
  · rw [r.readWith_eq]

/-- A loop in a loop, with a chain of conditionals and a placeholder inside, read at a depth of fifty with two loops around. -/
theorem parse_disciplined_nested :
    let list := scan "WHILE a \x7b FOR i = 0 : 3 \x7b IF (x) \x7b BREAK \x7d ELSE IF -y \x7b #C(1, %p:2%) \x7d \x7d \x7d ; RETURN"
    let c : Cursor := ⟨list.tokens, list.ending, 50, 2⟩
    50 ≤ nestingLimit ∧ ∃ s c', (Reader.statement.read (fuelFor list.tokens.length)).run c = .ok (s, c') ∧
      c'.tokens.length = 2 ∧ c'.depth = 50 ∧ c'.loops = 2 := by
  intro list c
  have hread : ((Reader.statement.read (fuelFor list.tokens.length)).run c).toOption.any fun r => r.2.tokens.length = 2 := by
    decide +kernel
  cases hrun : (Reader.statement.read (fuelFor list.tokens.length)).run c with
  | error s =>
    rw [hrun] at hread
    cases hread
  | ok p =>
    obtain ⟨s, c'⟩ := p
    rw [hrun] at hread
    obtain ⟨hdepth, hloops, -⟩ := (parse_disciplined .statement (c := c) (by decide)).1 _ _ _ hrun
    exact ⟨by decide, s, c', rfl, of_decide_eq_true hread, hdepth, hloops⟩

end EventScript.Parse
