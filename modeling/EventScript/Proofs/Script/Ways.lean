import EventScript.Script.Tree

/-!
# The ways through a tree

A way leads from the root of a tree down to one of its nodes. `Way` counts what it passes: the levels of nesting, which are
operators, choices, blocks, bodies of loops and branches of conditionals, the operators among them that it leaves for their left
operand, computed keys of global variables, placeholders, and all nodes together. The evaluation of a node is nested in that of
the nodes on the way to it, so the last count is how deep the recursion of an evaluation is there.
-/

namespace EventScript

/-- What a way through a tree passes. -/
structure Way where
  levels : Nat := 0
  /-- Binary operators that the way leaves for their left operand. -/
  lefts : Nat := 0
  keys : Nat := 0
  placeholders : Nat := 0
  nodes : Nat := 0
deriving DecidableEq, Repr

namespace Way

instance : Add Way where
  add v w := ⟨v.levels + w.levels, v.lefts + w.lefts, v.keys + w.keys, v.placeholders + w.placeholders, v.nodes + w.nodes⟩

/-- Two ways that are joined pass the levels of both. -/
@[simp] theorem add_levels (v w : Way) : (v + w).levels = v.levels + w.levels := rfl

/-- Two ways that are joined pass the left operands of both. -/
@[simp] theorem add_lefts (v w : Way) : (v + w).lefts = v.lefts + w.lefts := rfl

/-- Two ways that are joined pass the computed keys of both. -/
@[simp] theorem add_keys (v w : Way) : (v + w).keys = v.keys + w.keys := rfl

/-- Two ways that are joined pass the placeholders of both. -/
@[simp] theorem add_placeholders (v w : Way) : (v + w).placeholders = v.placeholders + w.placeholders := rfl

/-- Two ways that are joined pass the nodes of both. -/
@[simp] theorem add_nodes (v w : Way) : (v + w).nodes = v.nodes + w.nodes := rfl

/-- A node that is no level of nesting. -/
def node : Way := { nodes := 1 }

/-- A node that is a level of nesting, or that is left for a part that is one. -/
def level : Way := { levels := 1, nodes := 1 }

/-- A binary operator that is left for its left operand. -/
def left : Way := { levels := 1, lefts := 1, nodes := 1 }

def key : Way := { keys := 1, nodes := 1 }

def placeholder : Way := { placeholders := 1, nodes := 1 }

end Way

mutual

/-- The ways to the nodes of an expression. -/
def Expression.ways : Expression → List Way
  | .literal _ _ => [.node]
  | .name _ _ => [.node]
  | .globalName _ _ => [.node]
  | .globalAt _ key => .key :: key.ways.map (.key + ·)
  | .binary _ left _ right => .level :: (left.ways.map (.left + ·) ++ right.ways.map (.level + ·))
  | .unary _ _ operand => .level :: operand.ways.map (.level + ·)
  | .ternary _ condition thenValue elseValue =>
    .level :: (condition.ways ++ thenValue.ways ++ elseValue.ways).map (.level + ·)
  | .placeholder _ _ args => .placeholder :: (Expression.waysOfAll args).map (.placeholder + ·)

def Expression.waysOfAll : List Expression → List Way
  | [] => []
  | e :: rest => e.ways ++ Expression.waysOfAll rest

end

/-- The ways inside a target: those of its key, if it is computed. -/
def Target.ways : Target → List Way
  | .globalAt key => key.ways
  | _ => []

mutual

/-- The ways to the nodes of a statement. -/
def Statement.ways : Statement → List Way
  | .assign _ target value => .node :: (target.ways ++ value.ways).map (.node + ·)
  | .ifElse _ condition thenBody elseBody =>
    .node :: (condition.ways.map (.node + ·) ++
      (Statement.waysOfAll thenBody ++ Statement.waysOfElse elseBody).map (.level + ·))
  | .whileLoop _ condition body =>
    .node :: (condition.ways.map (.node + ·) ++ (Statement.waysOfAll body).map (.level + ·))
  | .forLoop _ _ start stop body =>
    .node :: ((start.ways ++ stop.ways).map (.node + ·) ++ (Statement.waysOfAll body).map (.level + ·))
  | .block _ body => .level :: (Statement.waysOfAll body).map (.level + ·)
  | .command _ _ args => .node :: (Expression.waysOfAll args).map (.node + ·)
  | .breakLoop _ => [.node]
  | .continueLoop _ => [.node]
  | .returnScript _ => [.node]
  | .expression _ value => .node :: value.ways.map (.node + ·)

def Statement.waysOfAll : List Statement → List Way
  | [] => []
  | s :: rest => s.ways ++ Statement.waysOfAll rest

def Statement.waysOfElse : Option (List Statement) → List Way
  | none => []
  | some body => Statement.waysOfAll body

end

/-- The ways to the nodes of a script. -/
def Script.ways (s : Script) : List Way := Statement.waysOfAll s.statements

/-! ## Nodes on a way -/

/-- Apart from `extra` nodes all nodes of the way are levels, keys or placeholders. -/
def Way.Counted (extra : Nat) (w : Way) : Prop := w.nodes ≤ w.levels + w.keys + w.placeholders + extra

instance (extra : Nat) (w : Way) : Decidable (w.Counted extra) := inferInstanceAs (Decidable (_ ≤ _))

namespace Way.Counted

variable {extra : Nat} {w : Way}

/-- One more level pays for its own node. -/
theorem level (h : w.Counted extra) : (Way.level + w).Counted extra := by
  simp only [Counted, add_nodes, add_levels, add_keys, add_placeholders, Way.level] at h ⊢
  omega

/-- An operator that is left for its left operand pays for its own node. -/
theorem left (h : w.Counted extra) : (Way.left + w).Counted extra := by
  simp only [Counted, add_nodes, add_levels, add_keys, add_placeholders, Way.left] at h ⊢
  omega

/-- A computed key pays for its own node. -/
theorem key (h : w.Counted extra) : (Way.key + w).Counted extra := by
  simp only [Counted, add_nodes, add_levels, add_keys, add_placeholders, Way.key] at h ⊢
  omega

/-- A placeholder pays for its own node. -/
theorem placeholder (h : w.Counted extra) : (Way.placeholder + w).Counted extra := by
  simp only [Counted, add_nodes, add_levels, add_keys, add_placeholders, Way.placeholder] at h ⊢
  omega

/-- A node that is no level has to be paid for otherwise. -/
theorem node (h : w.Counted extra) : (Way.node + w).Counted (extra + 1) := by
  simp only [Counted, add_nodes, add_levels, add_keys, add_placeholders, Way.node] at h ⊢
  omega

end Way.Counted

mutual

/-- Only the node at the end of a way through an expression may be neither a level nor a key nor a placeholder. -/
theorem Expression.ways_counted (e : Expression) : ∀ w ∈ e.ways, w.Counted 1 := by
  cases e with
  | literal | name | globalName => simp [ways, Way.Counted, Way.node]
  | globalAt p key =>
    simp only [ways, List.forall_mem_cons, List.forall_mem_map]
    exact ⟨by decide, fun w hw => (key.ways_counted w hw).key⟩
  | binary p left op right =>
    simp only [ways, List.forall_mem_cons, List.forall_mem_append, List.forall_mem_map]
    exact ⟨by decide, fun w hw => (left.ways_counted w hw).left, fun w hw => (right.ways_counted w hw).level⟩
  | unary p op operand =>
    simp only [ways, List.forall_mem_cons, List.forall_mem_map]
    exact ⟨by decide, fun w hw => (operand.ways_counted w hw).level⟩
  | ternary p condition thenValue elseValue =>
    simp only [ways, List.forall_mem_cons, List.forall_mem_append, List.forall_mem_map]
    exact ⟨by decide, ⟨fun w hw => (condition.ways_counted w hw).level, fun w hw => (thenValue.ways_counted w hw).level⟩,
      fun w hw => (elseValue.ways_counted w hw).level⟩
  | placeholder p n args =>
    simp only [ways, List.forall_mem_cons, List.forall_mem_map]
    exact ⟨by decide, fun w hw => (waysOfAll_counted args w hw).placeholder⟩

/-- On a way into one of the arguments all nodes but one are levels, keys or placeholders. -/
theorem Expression.waysOfAll_counted (args : List Expression) : ∀ w ∈ waysOfAll args, w.Counted 1 := by
  cases args with
  | nil => simp [waysOfAll]
  | cons e rest =>
    simp only [waysOfAll, List.forall_mem_append]
    exact ⟨e.ways_counted, waysOfAll_counted rest⟩

end

/-- On a way into a target all nodes but one are levels, keys or placeholders. -/
theorem Target.ways_counted (t : Target) : ∀ w ∈ t.ways, w.Counted 1 := by
  cases t with
  | globalAt key => exact key.ways_counted
  | _ => exact List.forall_mem_nil _

mutual

/-- Besides, the last statement on a way may be none, before its expressions are reached. -/
theorem Statement.ways_counted (s : Statement) : ∀ w ∈ s.ways, w.Counted 2 := by
  cases s with
  | breakLoop | continueLoop | returnScript => simp [ways, Way.Counted, Way.node]
  | assign p target value =>
    simp only [ways, List.forall_mem_cons, List.forall_mem_append, List.forall_mem_map]
    exact ⟨by decide, fun w hw => (target.ways_counted w hw).node, fun w hw => (value.ways_counted w hw).node⟩
  | ifElse p condition thenBody elseBody =>
    simp only [ways, List.forall_mem_cons, List.forall_mem_append, List.forall_mem_map]
    exact ⟨by decide, fun w hw => (condition.ways_counted w hw).node, fun w hw => (waysOfAll_counted thenBody w hw).level,
      fun w hw => (waysOfElse_counted elseBody w hw).level⟩
  | whileLoop p condition body =>
    simp only [ways, List.forall_mem_cons, List.forall_mem_append, List.forall_mem_map]
    exact ⟨by decide, fun w hw => (condition.ways_counted w hw).node, fun w hw => (waysOfAll_counted body w hw).level⟩
  | forLoop p counter start stop body =>
    simp only [ways, List.forall_mem_cons, List.forall_mem_append, List.forall_mem_map]
    exact ⟨by decide, ⟨fun w hw => (start.ways_counted w hw).node, fun w hw => (stop.ways_counted w hw).node⟩,
      fun w hw => (waysOfAll_counted body w hw).level⟩
  | block p body =>
    simp only [ways, List.forall_mem_cons, List.forall_mem_map]
    exact ⟨by decide, fun w hw => (waysOfAll_counted body w hw).level⟩
  | command p n args =>
    simp only [ways, List.forall_mem_cons, List.forall_mem_map]
    exact ⟨by decide, fun w hw => (Expression.waysOfAll_counted args w hw).node⟩
  | expression p value =>
    simp only [ways, List.forall_mem_cons, List.forall_mem_map]
    exact ⟨by decide, fun w hw => (value.ways_counted w hw).node⟩

/-- On a way into a statement of a block all nodes but two are levels, keys or placeholders. -/
theorem Statement.waysOfAll_counted (body : List Statement) : ∀ w ∈ waysOfAll body, w.Counted 2 := by
  cases body with
  | nil => simp [waysOfAll]
  | cons s rest =>
    simp only [waysOfAll, List.forall_mem_append]
    exact ⟨s.ways_counted, waysOfAll_counted rest⟩

/-- On a way into the other branch all nodes but two are levels, keys or placeholders. -/
theorem Statement.waysOfElse_counted (body : Option (List Statement)) : ∀ w ∈ waysOfElse body, w.Counted 2 := by
  cases body with
  | none => simp [waysOfElse]
  | some body => exact waysOfAll_counted body

end

end EventScript
