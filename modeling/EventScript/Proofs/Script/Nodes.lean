import EventScript.Script.Tree

/-!
# The nodes of a tree

The statements and expressions that a tree is made of, each one in front of its parts and the parts from left to right.
-/

namespace EventScript

mutual

/-- The expression and the ones inside it. -/
def Expression.nodes : Expression → List Node
  | .literal p value => [.expression (.literal p value)]
  | .name p n => [.expression (.name p n)]
  | .globalName p n => [.expression (.globalName p n)]
  | .globalAt p key => .expression (.globalAt p key) :: key.nodes
  | .binary p left op right => .expression (.binary p left op right) :: (left.nodes ++ right.nodes)
  | .unary p op operand => .expression (.unary p op operand) :: operand.nodes
  | .ternary p condition thenValue elseValue =>
    .expression (.ternary p condition thenValue elseValue) ::
      (condition.nodes ++ thenValue.nodes ++ elseValue.nodes)
  | .placeholder p n args => .expression (.placeholder p n args) :: Expression.nodesOfAll args

def Expression.nodesOfAll : List Expression → List Node
  | [] => []
  | e :: rest => e.nodes ++ Expression.nodesOfAll rest

end

/-- The expressions in a target: its key, if it is computed. -/
def Target.nodes : Target → List Node
  | .globalAt key => key.nodes
  | _ => []

mutual

/-- The statement and all that is inside it. -/
def Statement.nodes : Statement → List Node
  | .assign p target value => .statement (.assign p target value) :: (target.nodes ++ value.nodes)
  | .ifElse p condition thenBody elseBody =>
    .statement (.ifElse p condition thenBody elseBody) ::
      (condition.nodes ++ Statement.nodesOfAll thenBody ++ Statement.nodesOfElse elseBody)
  | .whileLoop p condition body =>
    .statement (.whileLoop p condition body) :: (condition.nodes ++ Statement.nodesOfAll body)
  | .forLoop p counter start stop body =>
    .statement (.forLoop p counter start stop body) :: (start.nodes ++ stop.nodes ++ Statement.nodesOfAll body)
  | .block p body => .statement (.block p body) :: Statement.nodesOfAll body
  | .command p n args => .statement (.command p n args) :: Expression.nodesOfAll args
  | .breakLoop p => [.statement (.breakLoop p)]
  | .continueLoop p => [.statement (.continueLoop p)]
  | .returnScript p => [.statement (.returnScript p)]
  | .expression p value => .statement (.expression p value) :: value.nodes

def Statement.nodesOfAll : List Statement → List Node
  | [] => []
  | s :: rest => s.nodes ++ Statement.nodesOfAll rest

def Statement.nodesOfElse : Option (List Statement) → List Node
  | none => []
  | some body => Statement.nodesOfAll body

end

/-- The nodes of a whole script. -/
def Script.nodes (s : Script) : List Node := Statement.nodesOfAll s.statements

/-- An expression is one of its own nodes. -/
theorem Expression.node_mem (e : Expression) : .expression e ∈ e.nodes := by
  cases e <;> exact List.mem_cons_self

mutual

/-- Inside an expression there are expressions only. -/
theorem Expression.nodes_expression (e : Expression) : ∀ node ∈ e.nodes, ∃ part, node = .expression part := by
  cases e with
  | literal | name | globalName => simp [nodes]
  | globalAt p key => simpa [nodes] using key.nodes_expression
  | binary p left op right =>
    simp only [nodes, List.forall_mem_cons, List.forall_mem_append]
    exact ⟨⟨_, rfl⟩, left.nodes_expression, right.nodes_expression⟩
  | unary p op operand => simpa [nodes] using operand.nodes_expression
  | ternary p condition thenValue elseValue =>
    simp only [nodes, List.forall_mem_cons, List.forall_mem_append]
    exact ⟨⟨_, rfl⟩, ⟨condition.nodes_expression, thenValue.nodes_expression⟩, elseValue.nodes_expression⟩
  | placeholder p n args => simpa [nodes] using nodesOfAll_expression args

/-- The nodes of arguments are expressions. -/
theorem Expression.nodesOfAll_expression (args : List Expression) :
    ∀ node ∈ nodesOfAll args, ∃ part, node = .expression part := by
  cases args with
  | nil => simp [nodesOfAll]
  | cons e rest =>
    simp only [nodesOfAll, List.forall_mem_append]
    exact ⟨e.nodes_expression, nodesOfAll_expression rest⟩

end

/-- The nodes of a target are expressions. -/
theorem Target.nodes_expression (t : Target) : ∀ node ∈ t.nodes, ∃ part, node = .expression part := by
  cases t with
  | name | globalName => simp [nodes]
  | globalAt key => exact key.nodes_expression

/-! ## Nodes inside nodes -/

namespace Node

/-- The node and all that is inside it. -/
def nodes : Node → List Node
  | statement s => s.nodes
  | expression e => e.nodes

/-- A node is in front of what is inside it. -/
theorem nodes_eq (n : Node) : n.nodes = n :: n.nodes.tail := by
  cases n with
  | statement s => cases s <;> rfl
  | expression e => cases e <;> rfl

/-- With each node the list has all that is inside it, in a row. -/
def Closed (nodes : List Node) : Prop := ∀ n ∈ nodes, n.nodes <:+: nodes

namespace Closed

variable {parts rest : List Node} {n : Node}

/-- No nodes at all are closed. -/
theorem nil : Closed [] := fun _ hn => absurd hn List.not_mem_nil

/-- Closed nodes with closed nodes behind them are closed. -/
theorem append (h : Closed parts) (h' : Closed rest) : Closed (parts ++ rest) := by
  intro n hn
  rcases List.mem_append.mp hn with hn | hn
  · exact (h n hn).trans (List.infix_append' [] parts rest)
  · exact (h' n hn).trans (List.suffix_append parts rest).isInfix

/-- A node is closed with what is inside it as soon as what is inside it is closed. -/
theorem whole (h : Closed n.nodes.tail) : Closed n.nodes := by
  intro m hm
  rw [nodes_eq, List.mem_cons] at hm
  rcases hm with rfl | hm
  · exact List.infix_refl _
  · exact (h m hm).trans (List.tail_suffix _).isInfix

end Closed

end Node

mutual

/-- What is inside an expression is closed. -/
theorem Expression.parts_closed (e : Expression) : Node.Closed e.nodes.tail :=
  match e with
  | .literal _ _ => .nil
  | .name _ _ => .nil
  | .globalName _ _ => .nil
  | .globalAt _ key => Node.Closed.whole (n := .expression key) key.parts_closed
  | .binary _ left _ right =>
    .append (Node.Closed.whole (n := .expression left) left.parts_closed)
      (Node.Closed.whole (n := .expression right) right.parts_closed)
  | .unary _ _ operand => Node.Closed.whole (n := .expression operand) operand.parts_closed
  | .ternary _ condition thenValue elseValue =>
    .append (.append (Node.Closed.whole (n := .expression condition) condition.parts_closed)
        (Node.Closed.whole (n := .expression thenValue) thenValue.parts_closed))
      (Node.Closed.whole (n := .expression elseValue) elseValue.parts_closed)
  | .placeholder _ _ args => Expression.nodesOfAll_closed args

/-- The nodes of arguments are closed. -/
theorem Expression.nodesOfAll_closed (args : List Expression) : Node.Closed (Expression.nodesOfAll args) :=
  match args with
  | [] => .nil
  | e :: rest => .append (Node.Closed.whole (n := .expression e) e.parts_closed) (Expression.nodesOfAll_closed rest)

end

/-- The nodes of an expression are closed. -/
theorem Expression.nodes_closed (e : Expression) : Node.Closed e.nodes := Node.Closed.whole (n := .expression e) e.parts_closed

/-- The nodes of a target are closed. -/
theorem Target.nodes_closed (t : Target) : Node.Closed t.nodes := by
  cases t with
  | name | globalName => exact .nil
  | globalAt key => exact key.nodes_closed

mutual

/-- What is inside a statement is closed. -/
theorem Statement.parts_closed (s : Statement) : Node.Closed s.nodes.tail :=
  match s with
  | .assign _ target value => .append target.nodes_closed value.nodes_closed
  | .ifElse _ condition thenBody elseBody =>
    .append (.append condition.nodes_closed (Statement.nodesOfAll_closed thenBody)) (Statement.nodesOfElse_closed elseBody)
  | .whileLoop _ condition body => .append condition.nodes_closed (Statement.nodesOfAll_closed body)
  | .forLoop _ _ start stop body => .append (.append start.nodes_closed stop.nodes_closed) (Statement.nodesOfAll_closed body)
  | .block _ body => Statement.nodesOfAll_closed body
  | .command _ _ args => Expression.nodesOfAll_closed args
  | .breakLoop _ => .nil
  | .continueLoop _ => .nil
  | .returnScript _ => .nil
  | .expression _ value => value.nodes_closed

/-- The nodes of a block are closed. -/
theorem Statement.nodesOfAll_closed (body : List Statement) : Node.Closed (Statement.nodesOfAll body) :=
  match body with
  | [] => .nil
  | s :: rest => .append (Node.Closed.whole (n := .statement s) s.parts_closed) (Statement.nodesOfAll_closed rest)

/-- The nodes of the other branch are closed. -/
theorem Statement.nodesOfElse_closed (elseBody : Option (List Statement)) : Node.Closed (Statement.nodesOfElse elseBody) :=
  match elseBody with
  | none => .nil
  | some body => Statement.nodesOfAll_closed body

end

/-- A node is not inside itself. -/
theorem Node.not_mem_parts (n : Node) : n ∉ n.nodes.tail := by
  have hclosed : Node.Closed n.nodes.tail := by
    cases n with
    | statement s => exact s.parts_closed
    | expression e => exact e.parts_closed
  intro hmem
  have hlength := (hclosed n hmem).length_le
  rw [Node.nodes_eq n, List.tail_cons, List.length_cons] at hlength
  omega

/-! ## Names -/

/-- The node itself, apart from its parts, names a variable, of the activation or a global one. A computed key may come to be any
name. -/
def Node.Mentions : Node → String → Prop
  | .expression (.name _ n), m => m = n
  | .expression (.globalName _ n), m => m = n
  | .expression (.globalAt _ _), _ => True
  | .statement (.assign _ (.name n) _), m => m = n
  | .statement (.assign _ (.globalName n) _), m => m = n
  | .statement (.assign _ (.globalAt _) _), _ => True
  | .statement (.forLoop _ counter _ _ _), m => m = counter
  | _, _ => False

instance (node : Node) (name : String) : Decidable (node.Mentions name) := by
  unfold Node.Mentions
  split <;> infer_instance

/-- The node itself, apart from its parts, gives a variable of the activation a value. -/
def Node.Binds : Node → String → Prop
  | .statement (.assign _ (.name n) _), m => m = n
  | .statement (.forLoop _ counter _ _ _), m => m = counter
  | _, _ => False

instance (node : Node) (name : String) : Decidable (node.Binds name) := by
  unfold Node.Binds
  split <;> infer_instance

/-- A node mentions the names that it binds. -/
theorem Node.Binds.mentions {node : Node} {name : String} (h : node.Binds name) : node.Mentions name := by
  unfold Node.Binds at h
  split at h
  · exact h
  · exact h
  · exact h.elim

/-- Some node of the script names the variable. -/
def Script.Mentions (s : Script) (name : String) : Prop := ∃ node ∈ s.nodes, node.Mentions name

instance (s : Script) (name : String) : Decidable (s.Mentions name) := inferInstanceAs (Decidable (∃ _ ∈ _, _))

end EventScript
