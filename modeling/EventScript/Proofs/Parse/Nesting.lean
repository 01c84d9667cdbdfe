import EventScript.Proofs.Parse.Ending
import EventScript.Proofs.Parse.Expressions
import EventScript.Proofs.Script.Ways

/-!
# What the nesting limit limits

The parser counts levels of nesting as it goes down, and a chain of operators gives them back only where it ends. So with room for
a number of levels left, a way through what is read passes no more levels than that, apart from operators that it leaves for their
left operand: what stands there has been read before the operator was counted, and the count does not know how tall it is. Each of
the ten levels of precedence can add as many operators as there is room for on top of what has been read before, which bounds the
height of a tree all the same (`tallest`). Placeholders inside placeholders are not counted at all, and there may be any number of them
(`parse_nestedPlaceholders`).
-/

namespace EventScript

/-- How many levels can be on a way through what is read with room for so many levels of nesting: a level, ten chains of operators
and what fits into the room below. -/
def tallest : Nat → Nat
  | 0 => 0
  | room + 1 => 1 + 10 * room + tallest room

/-- With more room things may be taller. -/
theorem tallest_mono {room room' : Nat} (h : room ≤ room') : tallest room ≤ tallest room' := by
  induction h with
  | refl => exact Nat.le_refl _
  | step _ ih =>
    simp only [tallest]
    omega

/-- A level on top of what fits below still fits. -/
theorem tallest_succ_le (room : Nat) : tallest room + 1 ≤ tallest (room + 1) := by
  simp only [tallest]
  omega

/-- The way is through something that is read with this room. -/
structure Way.Fits (room height : Nat) (w : Way) : Prop where
  levels : w.levels ≤ room + w.lefts
  height : w.levels ≤ height
  keys : w.keys ≤ room

namespace Way.Fits

variable {room height : Nat} {w : Way}

/-- A way that fits into some room and height fits into more. -/
theorem mono {room' height' : Nat} (h : w.Fits room height) (hroom : room ≤ room') (hheight : height ≤ height') :
    w.Fits room' height' := by
  obtain ⟨hlevels, hheight', hkeys⟩ := h
  exact ⟨by omega, by omega, by omega⟩

/-- A node alone fits everywhere. -/
theorem nothing : Way.node.Fits room height := ⟨Nat.zero_le _, Nat.zero_le _, Nat.zero_le _⟩

/-- A node that is neither a level nor a key costs nothing. -/
theorem node (h : w.Fits room height) : (Way.node + w).Fits room height := by
  obtain ⟨hlevels, hheight, hkeys⟩ := h
  refine ⟨?_, ?_, ?_⟩ <;> simp only [add_levels, add_lefts, add_keys, Way.node] <;> omega

/-- A placeholder costs no room. It is counted apart. -/
theorem placeholder (h : w.Fits room height) : (Way.placeholder + w).Fits room height := by
  obtain ⟨hlevels, hheight, hkeys⟩ := h
  refine ⟨?_, ?_, ?_⟩ <;> simp only [add_levels, add_lefts, add_keys, Way.placeholder] <;> omega

/-- A computed key goes a level deeper, for which there has to be room. -/
theorem key (h : w.Fits room height) (hroom : w.keys < room) : (Way.key + w).Fits room height := by
  obtain ⟨hlevels, hheight, hkeys⟩ := h
  refine ⟨?_, ?_, ?_⟩ <;> simp only [add_levels, add_lefts, add_keys, Way.key] <;> omega

/-- What is left of a way behind a key fits as the whole does. -/
theorem of_key (h : (Way.key + w).Fits room height) : w.Fits room height := by
  obtain ⟨hlevels, hheight, hkeys⟩ := h
  simp only [add_levels, add_lefts, add_keys, Way.key] at hlevels hheight hkeys
  exact ⟨by omega, by omega, by omega⟩

/-- An operator that is left for its left operand adds to the height and takes no room. -/
theorem left (h : w.Fits room height) : (Way.left + w).Fits room (height + 1) := by
  obtain ⟨hlevels, hheight, hkeys⟩ := h
  refine ⟨?_, ?_, ?_⟩ <;> simp only [add_levels, add_lefts, add_keys, Way.left] <;> omega

/-- A level of nesting takes one from the room and adds one to the height. -/
theorem level (h : w.Fits room height) : (Way.level + w).Fits (room + 1) (height + 1) := by
  obtain ⟨hlevels, hheight, hkeys⟩ := h
  refine ⟨?_, ?_, ?_⟩ <;> simp only [add_levels, add_lefts, add_keys, Way.level] <;> omega

/-- A way that ends at a level of nesting. -/
theorem lastLevel (hroom : 0 < room) : Way.level.Fits room (tallest room) := by
  obtain ⟨room, rfl⟩ := Nat.exists_eq_succ_of_ne_zero (Nat.ne_of_gt hroom)
  exact ⟨Nat.le_add_left 1 room, Nat.le_trans (Nat.le_add_left 1 _) (tallest_succ_le room), Nat.zero_le _⟩

end Way.Fits

namespace Parse

variable {α β : Type}

/-- With room for so many levels of nesting at the cursor, the reader comes to results for which `P` holds, and gives the room
back. -/
def Within (m : Parse α) (P : Nat → α → Prop) : Prop :=
  ∀ c room, c.depth + room = nestingLimit → Yields m c fun a c' => c'.depth + room = nestingLimit ∧ P room a

section steps

variable {c : Cursor} {room : Nat} {Q : β → Cursor → Prop}

/-- What a first reader says of its result is there for the rest, with the same room. -/
theorem Within.bind {m : Parse α} {f : α → Parse β} {P : Nat → α → Prop} (h : Within m P)
    (hroom : c.depth + room = nestingLimit)
    (hrest : ∀ a c', c'.depth + room = nestingLimit → P room a → Yields (f a) c' Q) : Yields (m >>= f) c Q :=
  .bind ((h c room hroom).mono fun a c' ⟨hdepth, ha⟩ => hrest a c' hdepth ha)

/-- A descent uses up room for one level. -/
theorem Within.descend {f : Unit → Parse β} (hroom : c.depth + room = nestingLimit)
    (h : ∀ room', room = room' + 1 → c.depth + 1 + room' = nestingLimit → Yields (f ()) { c with depth := c.depth + 1 } Q) :
    Yields (Parse.descend >>= f) c Q := by
  refine .descend fun hlt => ?_
  obtain ⟨room', rfl⟩ : ∃ room', room = room' + 1 := ⟨room - 1, by omega⟩
  exact h room' rfl (by omega)

end steps

/-- A reader without fuel comes to no result. -/
theorem Within.outOfFuel {P : Nat → α → Prop} : Within (throw .outOfFuel : Parse α) P := fun _ _ _ => .throw

/-! ## Expressions -/

/-- An expression on its own that is read with this room, of which it takes a level. -/
def Roomy (room : Nat) (e : Expression) : Prop :=
  0 < room ∧ ∀ w ∈ e.ways, w.Fits room (tallest room) ∧ w.keys < room

/-- What the readers of expressions do with this much fuel. -/
structure ExpressionsWithin (fuel : Nat) : Prop where
  expression : Within (expression fuel) Roomy
  ternary : Within (ternary fuel) fun room e => Roomy (room + 1) e
  binary : ∀ r k, r + k = 10 →
    Within (binary fuel (levelsAbove r)) fun room e => ∀ w ∈ e.ways, w.Fits room (tallest room + k * room)
  /-- Of the room at the start of the chain `used` levels have been used up for operators. -/
  chain : ∀ r k level left c room used, r + 1 + k = 10 → levelsAbove r = level :: levelsAbove (r + 1) →
    c.depth + room = nestingLimit →
      (∀ w ∈ left.ways, w.Fits (room + used) (tallest (room + used) + k * (room + used) + used)) →
        Yields (chain fuel level (levelsAbove (r + 1)) left) c fun e _ =>
          ∀ w ∈ e.ways, w.Fits (room + used) (tallest (room + used) + (k + 1) * (room + used))
  unary : Within (unary fuel) fun room e => ∀ w ∈ e.ways, w.Fits room (tallest room)
  primary : Within (primary fuel) fun room e => ∀ w ∈ e.ways, w.Fits room (tallest room)
  placeholderArgs : Within (placeholderArgs fuel) fun room args =>
    ∀ w ∈ Expression.waysOfAll args, w.Fits room (tallest room)

/-- So nothing is read amiss without fuel. -/
theorem expressionsWithin_zero : ExpressionsWithin 0 := by
  constructor
  case binary => exact fun _ _ _ => .outOfFuel
  case chain => exact fun _ _ _ _ _ _ _ _ _ _ _ => .throw
  all_goals exact .outOfFuel

section expressions

variable {fuel : Nat}

/-- An expression takes one level of the room that it is read with. -/
theorem expression_within (ih : ExpressionsWithin fuel) : Within (expression (fuel + 1)) Roomy := by
  intro c room hroom
  unfold expression
  refine Within.descend hroom fun room' hroom' hdepth => ih.ternary.bind hdepth fun e c₁ hdepth₁ he => ?_
  subst hroom'
  exact .ascend (.pure ⟨by dsimp only; omega, he⟩)

/-- Its branches are read one level further down; the condition stands beside them. -/
theorem ternary_within (ih : ExpressionsWithin fuel) : Within (ternary (fuel + 1)) fun room e => Roomy (room + 1) e := by
  intro c room hroom
  unfold ternary
  refine (ih.binary 0 10 rfl).bind hroom fun condition c₁ h₁ hcondition => ?_
  have hheight : tallest room + 10 * room + 1 = tallest (room + 1) := by
    simp only [tallest]
    omega
  have hdone : Yields (pure condition : Parse Expression) c₁ fun e c' =>
      c'.depth + room = nestingLimit ∧ Roomy (room + 1) e := by
    refine .pure ⟨h₁, Nat.succ_pos room, fun w hw => ⟨(hcondition w hw).mono (by omega) (by omega), ?_⟩⟩
    exact Nat.lt_succ_of_le (hcondition w hw).keys
  refine .atSymbol (fun _ _ _ _ => .advance ?_) hdone
  refine ih.expression.bind h₁ fun thenValue c₂ h₂ hthen => .expect fun _ _ _ _ => ?_
  refine ih.expression.bind h₂ fun elseValue c₃ h₃ helse => .pure ⟨h₃, ?_⟩
  have hfits : ∀ w : Way, w.Fits room (tallest room + 10 * room) →
      (.level + w).Fits (room + 1) (tallest (room + 1)) ∧ (.level + w).keys < room + 1 := by
    intro w hw
    refine ⟨hheight ▸ hw.level, ?_⟩
    have hkeys := hw.keys
    simp only [Way.add_keys, Way.level]
    omega
  have hvalue : ∀ e, Roomy room e → ∀ w ∈ e.ways, w.Fits room (tallest room + 10 * room) :=
    fun e he w hw => (he.2 w hw).1.mono (Nat.le_refl _) (Nat.le_add_right _ _)
  unfold Roomy
  simp only [Expression.ways, List.forall_mem_cons, List.forall_mem_append, List.forall_mem_map]
  refine ⟨Nat.succ_pos room, ⟨.lastLevel (Nat.succ_pos room), Nat.succ_pos room⟩, ⟨fun w hw => hfits w (hcondition w hw), fun w hw => ?_⟩,
    fun w hw => ?_⟩
  · exact hfits w (hvalue _ hthen w hw)
  · exact hfits w (hvalue _ helse w hw)

/-- What is read at a level of precedence is taller by the room for each level that binds as tight or tighter. -/
theorem binary_within (ih : ExpressionsWithin fuel) : ∀ r k, r + k = 10 → Within (binary (fuel + 1) (levelsAbove r))
    fun room e => ∀ w ∈ e.ways, w.Fits room (tallest room + k * room) := by
  intro r k hrk c room hroom
  cases k with
  | zero =>
    obtain rfl : r = 10 := hrk
    simp only [Nat.zero_mul, Nat.add_zero]
    exact ih.unary c room hroom
  | succ k =>
    obtain ⟨level, hlevel⟩ := levelsAbove_eq_cons (r := r) (by omega)
    rw [hlevel]
    unfold binary
    refine (ih.binary (r + 1) k (by omega)).bind hroom fun left c₁ h₁ hleft => .get ?_
    refine .bind ((ih.chain r k level left c₁ room 0 (by omega) hlevel h₁ hleft).mono fun e c₂ he => ?_)
    exact .restoreDepth (.pure ⟨h₁, he⟩)

/-- Each operator of a chain takes a level and gives it back at the end of the chain, so what stands to its left is pushed down without
being counted again. -/
theorem chain_within (ih : ExpressionsWithin fuel) {r k : Nat} {level : Level} {left : Expression} {c : Cursor}
    {room used : Nat} (hrk : r + 1 + k = 10) (hlevel : levelsAbove r = level :: levelsAbove (r + 1))
    (hroom : c.depth + room = nestingLimit)
    (hleft : ∀ w ∈ left.ways, w.Fits (room + used) (tallest (room + used) + k * (room + used) + used)) :
    Yields (chain (fuel + 1) level (levelsAbove (r + 1)) left) c fun e _ =>
      ∀ w ∈ e.ways, w.Fits (room + used) (tallest (room + used) + (k + 1) * (room + used)) := by
  unfold chain
  have hdone : Yields (pure left : Parse Expression) c fun e _ =>
      ∀ w ∈ e.ways, w.Fits (room + used) (tallest (room + used) + (k + 1) * (room + used)) := by
    refine .pure fun w hw => (hleft w hw).mono (Nat.le_refl _) ?_
    rw [Nat.succ_mul]
    omega
  refine .peek (fun t ts _ => ?_) fun _ _ _ => hdone
  dsimp only
  cases level.operator? (some t.token) with
  | none => exact hdone
  | some op =>
    refine .advance (Within.descend hroom fun room' hroom' hdepth => ?_)
    refine (ih.binary (r + 1) k hrk).bind hdepth fun right c₁ h₁ hright => ?_
    have hsame : room + used = room' + (used + 1) := by omega
    rw [hsame] at hleft ⊢
    refine ih.chain r k level _ c₁ room' (used + 1) hrk hlevel h₁ ?_
    have hbelow : tallest room' + k * room' ≤ tallest (room' + (used + 1)) + k * (room' + (used + 1)) :=
      Nat.add_le_add (tallest_mono (Nat.le_add_right _ _)) (Nat.mul_le_mul_left k (Nat.le_add_right _ _))
    simp only [Expression.ways, List.forall_mem_cons, List.forall_mem_append, List.forall_mem_map]
    refine ⟨?_, fun w hw => ?_, fun w hw => ?_⟩
    · refine (Way.Fits.lastLevel (Nat.add_pos_right room' (Nat.succ_pos used))).mono (Nat.le_refl _) ?_
      rw [Nat.add_assoc]
      exact Nat.le_add_right _ _
    · exact (hleft w hw).left
    · exact (hright w hw).level.mono (by omega) (by omega)

/-- A prefix operator takes a level for its operand. -/
theorem unary_within (ih : ExpressionsWithin fuel) :
    Within (unary (fuel + 1)) fun room e => ∀ w ∈ e.ways, w.Fits room (tallest room) := by
  intro c room hroom
  unfold unary
  refine .peek (fun t ts _ => ?_) fun _ _ _ => ih.primary c room hroom
  dsimp only
  cases unaryOperator? (some t.token) with
  | none => exact ih.primary c room hroom
  | some op =>
    refine .advance (Within.descend hroom fun room' hroom' hdepth => ?_)
    refine ih.unary.bind hdepth fun operand c₁ h₁ hoperand => ?_
    subst hroom'
    refine .ascend (.pure ⟨by dsimp only; omega, ?_⟩)
    simp only [Expression.ways, List.forall_mem_cons, List.forall_mem_map]
    refine ⟨.lastLevel (Nat.succ_pos _), fun w hw => ?_⟩
    exact (hoperand w hw).level.mono (Nat.le_refl _) (tallest_succ_le _)

/-- An operand that is no operator has its nodes, and in parentheses an expression one level further down. -/
theorem primary_within (ih : ExpressionsWithin fuel) :
    Within (primary (fuel + 1)) fun room e => ∀ w ∈ e.ways, w.Fits room (tallest room) := by
  intro c room hroom
  unfold primary
  have hleaf : ∀ w ∈ [Way.node], w.Fits room (tallest room) := List.forall_mem_singleton.mpr .nothing
  refine .peek (fun t ts _ => ?_) fun _ _ _ => .fail
  dsimp only
  split
  next n _ =>
    exact .advance (.pure ⟨hroom, by rw [Expression.ways]; exact hleaf⟩)
  next =>
    refine .advance (.atSymbol (fun _ _ _ _ => .advance (.name fun n _ _ _ _ => .pure ⟨hroom, ?_⟩)) ?_)
    · rw [Expression.ways]
      exact hleaf
    · refine .atSymbol (fun _ _ _ _ => .advance ?_) .fail
      refine ih.expression.bind hroom fun key c₁ h₁ hkey => .expect fun _ _ _ _ => .pure ⟨h₁, ?_⟩
      simp only [Expression.ways, List.forall_mem_cons, List.forall_mem_map]
      exact ⟨⟨Nat.zero_le _, Nat.zero_le _, hkey.1⟩, fun w hw => (hkey.2 w hw).1.key (hkey.2 w hw).2⟩
  next =>
    refine .advance (.name fun n _ _ _ _ => ih.placeholderArgs.bind hroom fun args c₁ h₁ hargs => ?_)
    refine .atSymbol (fun _ _ _ _ => .advance (.pure ⟨h₁, ?_⟩)) .fail
    simp only [Expression.ways, List.forall_mem_cons, List.forall_mem_map]
    exact ⟨⟨Nat.zero_le _, Nat.zero_le _, Nat.zero_le _⟩, fun w hw => (hargs w hw).placeholder⟩
  next =>
    refine .advance (ih.expression.bind hroom fun e c₁ h₁ he => .expect fun _ _ _ _ => .pure ⟨h₁, ?_⟩)
    exact fun w hw => (he.2 w hw).1
  next =>
    split
    · exact .advance (.pure ⟨hroom, by rw [Expression.ways]; exact hleaf⟩)
    · exact .fail
  next => exact .fail

/-- The arguments of a placeholder are read at the level of the placeholder. -/
theorem placeholderArgs_within (ih : ExpressionsWithin fuel) : Within (placeholderArgs (fuel + 1)) fun room args =>
    ∀ w ∈ Expression.waysOfAll args, w.Fits room (tallest room) := by
  intro c room hroom
  unfold placeholderArgs
  refine .atSymbol (fun _ _ _ _ => .advance ?_) (.pure ⟨hroom, List.forall_mem_nil _⟩)
  refine ih.unary.bind hroom fun arg c₁ h₁ harg => ?_
  refine ih.placeholderArgs.bind h₁ fun rest c₂ h₂ hrest => .pure ⟨h₂, ?_⟩
  simp only [Expression.waysOfAll, List.forall_mem_append]
  exact ⟨harg, hrest⟩

end expressions

/-- All readers of expressions at once, by induction on the fuel. -/
theorem expressionsWithin (fuel : Nat) : ExpressionsWithin fuel := by
  induction fuel with
  | zero => exact expressionsWithin_zero
  | succ fuel ih =>
    exact ⟨expression_within ih, ternary_within ih, binary_within ih, fun _ _ _ _ _ _ _ => chain_within ih,
      unary_within ih, primary_within ih, placeholderArgs_within ih⟩

/-- An expression is no taller than anything that is read in its room. -/
theorem expression_fits (fuel : Nat) : Within (expression fuel) fun room e => ∀ w ∈ e.ways, w.Fits room (tallest room) :=
  fun c room hroom => ((expressionsWithin fuel).expression c room hroom).mono fun _ _ h => ⟨h.1, fun w hw => (h.2.2 w hw).1⟩

/-! ## Statements -/

/-- So is each argument of a command. -/
theorem commandArgs_within (fuel : Nat) : Within (commandArgs fuel) fun room args =>
    ∀ w ∈ Expression.waysOfAll args, w.Fits room (tallest room) := by
  induction fuel with
  | zero => exact .outOfFuel
  | succ fuel ih =>
    intro c room hroom
    unfold commandArgs
    refine .atSymbol (fun _ _ _ _ => .pure ⟨hroom, List.forall_mem_nil _⟩) ?_
    refine (expression_fits fuel).bind hroom fun arg c₁ h₁ harg => ?_
    refine .atSymbol (fun _ _ _ _ => .advance ?_) (.pure ⟨h₁, ?_⟩)
    · refine ih.bind h₁ fun rest c₂ h₂ hrest => .pure ⟨h₂, ?_⟩
      simp only [Expression.waysOfAll, List.forall_mem_append]
      exact ⟨harg, hrest⟩
    · simpa only [Expression.waysOfAll, List.append_nil] using harg

/-- The same where the parentheses may be left out. -/
theorem optionalArgs_within (fuel : Nat) : Within (optionalArgs fuel) fun room args =>
    ∀ w ∈ Expression.waysOfAll args, w.Fits room (tallest room) := by
  intro c room hroom
  unfold optionalArgs
  refine .atSymbol (fun _ _ _ _ => .advance ?_) (.pure ⟨hroom, List.forall_mem_nil _⟩)
  exact (commandArgs_within fuel).bind hroom fun args c₁ h₁ hargs => .expect fun _ _ _ _ => .pure ⟨h₁, hargs⟩

/-- A target is as tall as the expression it is written as. -/
theorem target?_fits {e : Expression} {t : Target} {room height : Nat} (he : ∀ w ∈ e.ways, w.Fits room height)
    (ht : target? e = some t) : ∀ w ∈ t.ways, w.Fits room height := by
  unfold target? at ht
  split at ht <;> cases ht
  · exact List.forall_mem_nil _
  · exact List.forall_mem_nil _
  · simp only [Expression.ways, List.forall_mem_cons, List.forall_mem_map] at he
    exact fun w hw => (he.2 w hw).of_key

/-- Both sides of an assignment are expressions in the same room. -/
theorem assignmentOrExpression_within (fuel : Nat) (p : Position) : Within (assignmentOrExpression fuel p) fun room s =>
    ∀ w ∈ s.ways, w.Fits room (tallest room) := by
  intro c room hroom
  unfold assignmentOrExpression
  refine (expression_fits fuel).bind hroom fun e c₁ h₁ he => ?_
  refine .atSymbol (fun _ _ _ _ => ?_) (.pure ⟨h₁, ?_⟩)
  · rw [if_pos rfl]
    cases htarget : target? e with
    | none => exact .fail
    | some target =>
      refine .advance ((expression_fits fuel).bind h₁ fun value c₂ h₂ hvalue => .pure ⟨h₂, ?_⟩)
      simp only [Statement.ways, List.forall_mem_cons, List.forall_mem_append, List.forall_mem_map]
      exact ⟨.nothing, fun w hw => (target?_fits he htarget w hw).node, fun w hw => (hvalue w hw).node⟩
  · simp only [Statement.ways, List.forall_mem_cons, List.forall_mem_map]
    exact ⟨.nothing, fun w hw => (he w hw).node⟩

/-- Statements one level of nesting below this room. -/
def RoomyBody (room : Nat) (body : List Statement) : Prop :=
  0 < room ∧ ∀ w ∈ Statement.waysOfAll body, (.level + w).Fits room (tallest room)

/-- What the readers of statements do with this much fuel. -/
structure StatementsWithin (fuel : Nat) : Prop where
  statements : ∀ inBlock, Within (statements fuel inBlock) fun room body =>
    ∀ w ∈ Statement.waysOfAll body, w.Fits room (tallest room)
  block : Within (block fuel) RoomyBody
  loopBody : Within (loopBody fuel) RoomyBody
  statement : Within (statement fuel) fun room s => ∀ w ∈ s.ways, w.Fits room (tallest room)
  ifElse : Within (ifElse fuel) fun room s => ∀ w ∈ s.ways, w.Fits room (tallest room)

/-- Without fuel no statement is read. -/
theorem statementsWithin_zero : StatementsWithin 0 :=
  ⟨fun _ => .outOfFuel, .outOfFuel, .outOfFuel, .outOfFuel, .outOfFuel⟩

section statements

variable {fuel : Nat}

/-- Statements in a row stand side by side, in the same room. -/
theorem statements_within (ih : StatementsWithin fuel) (inBlock : Bool) :
    Within (statements (fuel + 1) inBlock) fun room body =>
      ∀ w ∈ Statement.waysOfAll body, w.Fits room (tallest room) := by
  intro c room hroom
  unfold statements
  have hdone : Yields (pure [] : Parse (List Statement)) c fun body c' =>
      c'.depth + room = nestingLimit ∧ ∀ w ∈ Statement.waysOfAll body, w.Fits room (tallest room) :=
    .pure ⟨hroom, List.forall_mem_nil _⟩
  have hmore : Yields (do let s ← statement fuel; let rest ← statements fuel inBlock; pure (s :: rest)) c
      fun body c' => c'.depth + room = nestingLimit ∧ ∀ w ∈ Statement.waysOfAll body, w.Fits room (tallest room) := by
    refine ih.statement.bind hroom fun s c₁ h₁ hs => ?_
    refine (ih.statements inBlock).bind h₁ fun rest c₂ h₂ hrest => .pure ⟨h₂, ?_⟩
    simp only [Statement.waysOfAll, List.forall_mem_append]
    exact ⟨hs, hrest⟩
  refine .peek (fun t ts _ => ?_) fun _ _ _ => hdone
  split
  next => exact hdone
  next => exact .advance (ih.statements inBlock _ room hroom)
  next =>
    cases inBlock with
    | true => exact hdone
    | false => exact hmore
  next => exact hmore

/-- A block takes one level for its statements. -/
theorem block_within (ih : StatementsWithin fuel) : Within (block (fuel + 1)) RoomyBody := by
  intro c room hroom
  unfold block
  refine Within.descend hroom fun room' hroom' hdepth => .expect fun _ _ _ _ => ?_
  refine (ih.statements true).bind hdepth fun body c₁ h₁ hbody => .expect fun _ _ _ _ => .ascend (.pure ?_)
  subst hroom'
  refine ⟨by dsimp only; omega, Nat.succ_pos _, fun w hw => ?_⟩
  exact (hbody w hw).level.mono (Nat.le_refl _) (tallest_succ_le _)

/-- The body of a loop is a block. -/
theorem loopBody_within (ih : StatementsWithin fuel) : Within (loopBody (fuel + 1)) RoomyBody := by
  intro c room hroom
  unfold loopBody
  exact .enterLoop (ih.block.bind hroom fun body c₁ h₁ hbody => .leaveLoop (.pure ⟨h₁, hbody⟩))

/-- A statement, by the token that it begins with. -/
theorem statement_within (ih : StatementsWithin fuel) :
    Within (statement (fuel + 1)) fun room s => ∀ w ∈ s.ways, w.Fits room (tallest room) := by
  intro c room hroom
  unfold statement
  have hother := fun p => assignmentOrExpression_within fuel p c room hroom
  have hword : ∀ s : Statement, s.ways = [.node] → ∀ w ∈ s.ways, w.Fits room (tallest room) := by
    intro s hs
    rw [hs]
    exact List.forall_mem_singleton.mpr .nothing
  have hloopWord : ∀ cause s, s.ways = [.node] → Yields (loopWord cause s) c fun s c' =>
      c'.depth + room = nestingLimit ∧ ∀ w ∈ s.ways, w.Fits room (tallest room) := by
    intro cause s hs
    unfold loopWord
    refine .get ?_
    split
    · exact .fail
    · exact .advance (.pure ⟨hroom, hword s hs⟩)
  refine .peek (fun t ts _ => ?_) fun p _ _ => hother p
  dsimp only
  split
  next =>
    refine ih.block.bind hroom fun body c₁ h₁ hbody => .pure ⟨h₁, ?_⟩
    simp only [Statement.ways, List.forall_mem_cons, List.forall_mem_map]
    exact ⟨.lastLevel hbody.1, hbody.2⟩
  next => exact ih.ifElse c room hroom
  next =>
    refine .advance ((expression_fits fuel).bind hroom fun condition c₁ h₁ hcondition => ?_)
    refine ih.loopBody.bind h₁ fun body c₂ h₂ hbody => .pure ⟨h₂, ?_⟩
    simp only [Statement.ways, List.forall_mem_cons, List.forall_mem_append, List.forall_mem_map]
    exact ⟨.nothing, fun w hw => (hcondition w hw).node, hbody.2⟩
  next =>
    refine .advance (.name fun counter _ _ _ _ => .expect fun _ _ _ _ => ?_)
    refine (expression_fits fuel).bind hroom fun start c₁ h₁ hstart => .expect fun _ _ _ _ => ?_
    refine (expression_fits fuel).bind h₁ fun stop c₂ h₂ hstop => ?_
    refine ih.loopBody.bind h₂ fun body c₃ h₃ hbody => .pure ⟨h₃, ?_⟩
    simp only [Statement.ways, List.forall_mem_cons, List.forall_mem_append, List.forall_mem_map]
    exact ⟨.nothing, ⟨fun w hw => (hstart w hw).node, fun w hw => (hstop w hw).node⟩, hbody.2⟩
  next => exact hloopWord _ _ (by rw [Statement.ways])
  next => exact hloopWord _ _ (by rw [Statement.ways])
  next => exact .advance (.pure ⟨hroom, hword _ (by rw [Statement.ways])⟩)
  next n _ =>
    refine .advance ((optionalArgs_within fuel).bind hroom fun args c₁ h₁ hargs => .pure ⟨h₁, ?_⟩)
    simp only [Statement.ways, List.forall_mem_cons, List.forall_mem_map]
    exact ⟨.nothing, fun w hw => (hargs w hw).node⟩
  next => exact hother _

/-- A chain of conditionals takes a level for each `ELSE IF`, and its branches are blocks. -/
theorem ifElse_within (ih : StatementsWithin fuel) :
    Within (ifElse (fuel + 1)) fun room s => ∀ w ∈ s.ways, w.Fits room (tallest room) := by
  intro c room hroom
  unfold ifElse
  refine .peekAny fun next => .advance ?_
  refine (expression_fits fuel).bind hroom fun condition c₁ h₁ hcondition => ?_
  refine ih.block.bind h₁ fun thenBody c₂ h₂ hthen => ?_
  have hways : ∀ elseBody, (∀ w ∈ Statement.waysOfElse elseBody, (.level + w).Fits room (tallest room)) →
      ∀ w ∈ (Statement.ifElse next.2 condition thenBody elseBody).ways, w.Fits room (tallest room) := by
    intro elseBody helse
    simp only [Statement.ways, List.forall_mem_cons, List.forall_mem_append, List.forall_mem_map]
    exact ⟨.nothing, fun w hw => (hcondition w hw).node, hthen.2, helse⟩
  have hdone : Yields (pure (.ifElse next.2 condition thenBody none) : Parse Statement) c₂ fun s c' =>
      c'.depth + room = nestingLimit ∧ ∀ w ∈ s.ways, w.Fits room (tallest room) :=
    .pure ⟨h₂, hways none (List.forall_mem_nil _)⟩
  refine .peek (fun _ _ _ => ?_) fun _ _ _ => hdone
  split
  next =>
    have hbraces : Yields (do let body ← block fuel; pure (Statement.ifElse next.2 condition thenBody (some body)))
        { c₂ with tokens := c₂.tokens.tail } fun s c' =>
          c'.depth + room = nestingLimit ∧ ∀ w ∈ s.ways, w.Fits room (tallest room) :=
      ih.block.bind h₂ fun elseBody c₃ h₃ helse => .pure ⟨h₃, hways (some elseBody) helse.2⟩
    refine .advance (.peek (fun _ _ _ => ?_) fun _ _ _ => hbraces)
    split
    next =>
      refine Within.descend h₂ fun room' hroom' hdepth => ih.ifElse.bind hdepth fun nested c₃ h₃ hnested => ?_
      subst hroom'
      refine .ascend (.pure ⟨by dsimp only; omega, hways _ ?_⟩)
      simp only [Statement.waysOfElse, Statement.waysOfAll, List.append_nil]
      exact fun w hw => (hnested w hw).level.mono (Nat.le_refl _) (tallest_succ_le _)
    next => exact hbraces
  next => exact hdone

end statements

/-- All readers of statements at once, by induction on the fuel. -/
theorem statementsWithin (fuel : Nat) : StatementsWithin fuel := by
  induction fuel with
  | zero => exact statementsWithin_zero
  | succ fuel ih =>
    exact ⟨statements_within ih, block_within ih, loopBody_within ih, statement_within ih, ifElse_within ih⟩

end Parse

/-- No way through an accepted script passes more levels of nesting than the limit and, on top of it, the operators that it leaves
for their left operand. Those add up to less than 316 times the limit, so that the evaluation of any node is nested no deeper than
318 times the limit, apart from placeholders inside placeholders. -/
theorem parse_nesting {text : String} {s : Script} (h : Script.parse text = .ok s) : ∀ w ∈ s.ways,
    w.levels ≤ nestingLimit + w.lefts ∧ w.levels ≤ 316 * nestingLimit ∧
      w.nodes ≤ 318 * nestingLimit + w.placeholders := by
  intro w hw
  have hread := fun fuel => (Parse.statementsWithin fuel).statements false
    ⟨(scan text).tokens, (scan text).ending, 0, 0⟩ nestingLimit rfl
  obtain ⟨c, -, hfits⟩ := Script.yields_of_parse h hread
  obtain ⟨hlevels, hheight, hkeys⟩ := hfits w hw
  have hcounted : w.nodes ≤ w.levels + w.keys + w.placeholders + 2 := Statement.waysOfAll_counted s.statements w hw
  have htallest : tallest nestingLimit = 316 * nestingLimit := by decide
  have hlimit : nestingLimit = 64 := rfl
  exact ⟨hlevels, htallest ▸ hheight, by omega⟩

/-- The way to the first number of a sum, in the condition of a loop, leaves two operators to the left. -/
theorem parse_nesting_sum :
    let text := "WHILE 1 + 2 + 3 \x7b IF -x \x7b x = %a:(y)% \x7d \x7d"
    ∃ s, Script.parse text = .ok s ∧ (∃ w ∈ s.ways, w.levels = 2 ∧ w.lefts = 2) ∧
      ∀ w ∈ s.ways, w.levels ≤ nestingLimit + w.lefts ∧ w.levels ≤ 316 * nestingLimit ∧
        w.nodes ≤ 318 * nestingLimit + w.placeholders := by
  intro text
  have hsum : (Script.parse text).toOption.any fun s => s.ways.any fun w => w.levels = 2 ∧ w.lefts = 2 := by
    decide +kernel
  obtain ⟨s, hs, hway⟩ := Script.exists_of_any hsum
  exact ⟨s, hs, by simpa using hway, parse_nesting hs⟩

/-- A sum of 33 numbers, the first one with 33 minus signs in front of it, is accepted, and a way through it passes 65 levels. -/
theorem parse_nesting_false :
    let text := "x = " ++ String.ofList (List.replicate 33 '-') ++ "1" ++ String.join (List.replicate 32 " + 1")
    ∃ s, Script.parse text = .ok s ∧ ∃ w ∈ s.ways, w.levels = 65 ∧ nestingLimit < w.levels := by
  intro text
  have hdeep : (Script.parse text).toOption.any fun s => s.ways.any fun w => w.levels = 65 := by decide +kernel
  obtain ⟨s, hs, hway⟩ := Script.exists_of_any hdeep
  obtain ⟨w, hw, hlevels⟩ := List.any_eq_true.mp hway
  have hlevels : w.levels = 65 := of_decide_eq_true hlevels
  exact ⟨s, hs, w, hw, hlevels, by rw [hlevels]; decide⟩

end EventScript
