import EventScript.Proofs.Script.Nodes
import Mathlib.Data.List.Basic

/-!
# The steps of a tree

What a run can come to in a tree, in the order of the tree: each node is offered to the hook in front of its parts, and the call of a
command or placeholder is behind its arguments. The nodes among the steps are those of the tree (`Script.offered_steps`), and in front
of each call stand all nodes inside its own one (`Statement.callsBehind_ofAll`).
-/

namespace EventScript

/-- A step along a tree. -/
inductive TreeStep where
  /-- The node is offered to the hook. -/
  | offer (n : Node)
  /-- The command or placeholder of the node is called. -/
  | call (n : Node)

namespace TreeStep

def offered? : TreeStep → Option Node
  | offer n => some n
  | call _ => none

/-- The nodes among the steps. -/
def offered (steps : List TreeStep) : List Node := steps.filterMap offered?

/-- The nodes of steps in a row are those of each. -/
theorem offered_append (steps more : List TreeStep) : offered (steps ++ more) = offered steps ++ offered more :=
  List.filterMap_append

end TreeStep

mutual

/-- The steps of an expression: the node, then its parts from left to right, then its call if it is a placeholder. -/
def Expression.steps : Expression → List TreeStep
  | .literal p value => [.offer (.expression (.literal p value))]
  | .name p n => [.offer (.expression (.name p n))]
  | .globalName p n => [.offer (.expression (.globalName p n))]
  | .globalAt p key => .offer (.expression (.globalAt p key)) :: key.steps
  | .binary p left op right => .offer (.expression (.binary p left op right)) :: (left.steps ++ right.steps)
  | .unary p op operand => .offer (.expression (.unary p op operand)) :: operand.steps
  | .ternary p condition thenValue elseValue =>
    .offer (.expression (.ternary p condition thenValue elseValue)) ::
      (condition.steps ++ (thenValue.steps ++ elseValue.steps))
  | .placeholder p n args =>
    .offer (.expression (.placeholder p n args)) ::
      (Expression.stepsOfAll args ++ [.call (.expression (.placeholder p n args))])

def Expression.stepsOfAll : List Expression → List TreeStep
  | [] => []
  | e :: rest => e.steps ++ Expression.stepsOfAll rest

end

/-- The steps of the key of a target. -/
def Target.steps : Target → List TreeStep
  | .globalAt key => key.steps
  | _ => []

mutual

/-- The steps of a statement: the node, then its parts from left to right, then its call if it is a command. -/
def Statement.steps : Statement → List TreeStep
  | .assign p target value => .offer (.statement (.assign p target value)) :: (target.steps ++ value.steps)
  | .ifElse p condition thenBody elseBody =>
    .offer (.statement (.ifElse p condition thenBody elseBody)) ::
      (condition.steps ++ (Statement.stepsOfAll thenBody ++ Statement.stepsOfElse elseBody))
  | .whileLoop p condition body =>
    .offer (.statement (.whileLoop p condition body)) :: (condition.steps ++ Statement.stepsOfAll body)
  | .forLoop p counter start stop body =>
    .offer (.statement (.forLoop p counter start stop body)) :: (start.steps ++ stop.steps ++ Statement.stepsOfAll body)
  | .block p body => .offer (.statement (.block p body)) :: Statement.stepsOfAll body
  | .command p n args =>
    .offer (.statement (.command p n args)) :: (Expression.stepsOfAll args ++ [.call (.statement (.command p n args))])
  | .breakLoop p => [.offer (.statement (.breakLoop p))]
  | .continueLoop p => [.offer (.statement (.continueLoop p))]
  | .returnScript p => [.offer (.statement (.returnScript p))]
  | .expression p value => .offer (.statement (.expression p value)) :: value.steps

def Statement.stepsOfAll : List Statement → List TreeStep
  | [] => []
  | s :: rest => s.steps ++ Statement.stepsOfAll rest

def Statement.stepsOfElse : Option (List Statement) → List TreeStep
  | none => []
  | some body => Statement.stepsOfAll body

end

/-- The steps of a whole script. -/
def Script.steps (s : Script) : List TreeStep := Statement.stepsOfAll s.statements

open TreeStep (offered offered_append)

/-- A node that is offered is among them. -/
theorem TreeStep.offered_offer (n : Node) (steps : List TreeStep) : offered (.offer n :: steps) = n :: offered steps := rfl

/-- A call is not. -/
theorem TreeStep.offered_call (n : Node) : offered [.call n] = [] := rfl

mutual

/-- The nodes among the steps of an expression are its nodes. -/
theorem Expression.offered_steps (e : Expression) : offered e.steps = e.nodes := by
  cases e with
  | literal | name | globalName => rfl
  | globalAt p key => exact congrArg _ key.offered_steps
  | unary p op operand => exact congrArg _ operand.offered_steps
  | binary p left op right =>
    rw [steps, nodes, TreeStep.offered_offer, offered_append, left.offered_steps, right.offered_steps]
  | ternary p condition thenValue elseValue =>
    rw [steps, nodes, TreeStep.offered_offer, offered_append, offered_append, condition.offered_steps, thenValue.offered_steps,
      elseValue.offered_steps, List.append_assoc]
  | placeholder p n args =>
    rw [steps, nodes, TreeStep.offered_offer, offered_append, offered_stepsOfAll args, TreeStep.offered_call, List.append_nil]

/-- The nodes along several expressions are theirs in order. -/
theorem Expression.offered_stepsOfAll (args : List Expression) : offered (stepsOfAll args) = nodesOfAll args := by
  cases args with
  | nil => rfl
  | cons e rest => rw [stepsOfAll, nodesOfAll, offered_append, e.offered_steps, offered_stepsOfAll rest]

end

/-- Along a target they are those of its key. -/
theorem Target.offered_steps (t : Target) : offered t.steps = t.nodes := by
  cases t with
  | name | globalName => rfl
  | globalAt key => exact key.offered_steps

mutual

/-- The nodes among the steps of a statement are its nodes. -/
theorem Statement.offered_steps (s : Statement) : offered s.steps = s.nodes := by
  cases s with
  | breakLoop | continueLoop | returnScript => rfl
  | assign p target value => rw [steps, nodes, TreeStep.offered_offer, offered_append, target.offered_steps, value.offered_steps]
  | ifElse p condition thenBody elseBody =>
    rw [steps, nodes, TreeStep.offered_offer, offered_append, offered_append, condition.offered_steps, offered_stepsOfAll thenBody,
      offered_stepsOfElse elseBody, List.append_assoc]
  | whileLoop p condition body =>
    rw [steps, nodes, TreeStep.offered_offer, offered_append, condition.offered_steps, offered_stepsOfAll body]
  | forLoop p counter start stop body =>
    rw [steps, nodes, TreeStep.offered_offer, offered_append, offered_append, start.offered_steps, stop.offered_steps,
      offered_stepsOfAll body]
  | block p body => exact congrArg _ (offered_stepsOfAll body)
  | command p n args =>
    rw [steps, nodes, TreeStep.offered_offer, offered_append, Expression.offered_stepsOfAll, TreeStep.offered_call,
      List.append_nil]
  | expression p value => exact congrArg _ value.offered_steps

/-- Along several statements they are theirs in order. -/
theorem Statement.offered_stepsOfAll (body : List Statement) : offered (stepsOfAll body) = nodesOfAll body := by
  cases body with
  | nil => rfl
  | cons s rest => rw [stepsOfAll, nodesOfAll, offered_append, s.offered_steps, offered_stepsOfAll rest]

/-- Along the other branch they are those of its statements, if there is one. -/
theorem Statement.offered_stepsOfElse (elseBody : Option (List Statement)) :
    offered (stepsOfElse elseBody) = nodesOfElse elseBody := by
  cases elseBody with
  | none => rfl
  | some body => exact offered_stepsOfAll body

end

/-- Along a script they are all its nodes, in their order. -/
theorem Script.offered_steps (s : Script) : offered s.steps = s.nodes := Statement.offered_stepsOfAll s.statements

/-! ## Calls among the steps -/

/-- In front of each call stand the nodes inside its own one, and the node in front of them. -/
def CallsBehind (steps : List TreeStep) : Prop := ∀ before n after, steps = before ++ .call n :: after → n.nodes <:+ offered before

namespace CallsBehind

variable {steps more : List TreeStep} {n : Node}

/-- Without a step there is no call. -/
theorem nil : CallsBehind [] := fun _ _ _ h => absurd h (List.append_ne_nil_of_right_ne_nil _ (List.cons_ne_nil _ _)).symm

/-- A node in front makes no difference to what stands right in front of a call. -/
theorem offer (n : Node) (h : CallsBehind steps) : CallsBehind (.offer n :: steps) := by
  intro before m after hsplit
  cases before with
  | nil => cases hsplit
  | cons step before =>
    obtain ⟨rfl, hsteps⟩ := List.cons.inj hsplit
    exact (h before m after hsteps).trans (List.suffix_cons n _)

/-- Neither do steps in front that end before the call begins. -/
theorem append (h : CallsBehind steps) (h' : CallsBehind more) : CallsBehind (steps ++ more) := by
  intro before m after hsplit
  rcases List.append_eq_append_iff.mp hsplit with ⟨rest, rfl, hmore⟩ | ⟨rest, hsteps, hrest⟩
  · rw [offered_append]
    exact (h' rest m after hmore).trans (List.suffix_append _ _)
  · cases rest with
    | nil =>
      have hnone := h' [] m after hrest.symm
      rw [List.append_nil] at hsteps
      exact hnone.trans (List.nil_suffix)
    | cons step rest =>
      obtain ⟨rfl, -⟩ := List.cons.inj hrest
      exact h before m rest hsteps

/-- The call of a node is behind the steps of its arguments. -/
theorem called (hn : n.nodes.tail = offered steps) (h : CallsBehind steps) :
    CallsBehind (.offer n :: (steps ++ [.call n])) := by
  intro before m after hsplit
  rcases List.eq_nil_or_concat' after with rfl | ⟨after, step, rfl⟩
  · have hlast : before ++ [.call m] = (.offer n :: steps) ++ [.call n] := hsplit.symm
    obtain ⟨rfl, hcall⟩ := List.append_inj' hlast rfl
    cases hcall
    rw [n.nodes_eq, hn]
    exact List.suffix_refl _
  · have hlast : (before ++ .call m :: after) ++ [step] = (.offer n :: steps) ++ [.call n] := by
      rw [List.append_assoc]
      exact hsplit.symm
    exact h.offer n before m after (List.append_inj' hlast rfl).1.symm

end CallsBehind

mutual

/-- In an expression each call is behind its arguments. -/
theorem Expression.callsBehind (e : Expression) : CallsBehind e.steps :=
  match e with
  | .literal _ _ => .offer _ .nil
  | .name _ _ => .offer _ .nil
  | .globalName _ _ => .offer _ .nil
  | .globalAt _ key => .offer _ key.callsBehind
  | .binary _ left _ right => .offer _ (left.callsBehind.append right.callsBehind)
  | .unary _ _ operand => .offer _ operand.callsBehind
  | .ternary _ condition thenValue elseValue =>
    .offer _ (condition.callsBehind.append (thenValue.callsBehind.append elseValue.callsBehind))
  | .placeholder p n args =>
    .called (n := .expression (.placeholder p n args)) (Expression.offered_stepsOfAll args).symm (Expression.callsBehind_ofAll args)

/-- So it is in several expressions. -/
theorem Expression.callsBehind_ofAll (args : List Expression) : CallsBehind (Expression.stepsOfAll args) :=
  match args with
  | [] => .nil
  | e :: rest => e.callsBehind.append (Expression.callsBehind_ofAll rest)

end

/-- So it is in the key of a target. -/
theorem Target.callsBehind (t : Target) : CallsBehind t.steps := by
  cases t with
  | name | globalName => exact .nil
  | globalAt key => exact key.callsBehind

mutual

/-- So it is in a statement. -/
theorem Statement.callsBehind (s : Statement) : CallsBehind s.steps :=
  match s with
  | .assign _ target value => .offer _ (target.callsBehind.append value.callsBehind)
  | .ifElse _ condition thenBody elseBody =>
    .offer _ (condition.callsBehind.append
      ((Statement.callsBehind_ofAll thenBody).append (Statement.callsBehind_ofElse elseBody)))
  | .whileLoop _ condition body => .offer _ (condition.callsBehind.append (Statement.callsBehind_ofAll body))
  | .forLoop _ _ start stop body =>
    .offer _ ((start.callsBehind.append stop.callsBehind).append (Statement.callsBehind_ofAll body))
  | .block _ body => .offer _ (Statement.callsBehind_ofAll body)
  | .command p n args =>
    .called (n := .statement (.command p n args)) (Expression.offered_stepsOfAll args).symm (Expression.callsBehind_ofAll args)
  | .breakLoop _ => .offer _ .nil
  | .continueLoop _ => .offer _ .nil
  | .returnScript _ => .offer _ .nil
  | .expression _ value => .offer _ value.callsBehind

/-- So it is in several statements. -/
theorem Statement.callsBehind_ofAll (body : List Statement) : CallsBehind (Statement.stepsOfAll body) :=
  match body with
  | [] => .nil
  | s :: rest => s.callsBehind.append (Statement.callsBehind_ofAll rest)

/-- So it is in the other branch. -/
theorem Statement.callsBehind_ofElse (elseBody : Option (List Statement)) : CallsBehind (Statement.stepsOfElse elseBody) :=
  match elseBody with
  | none => .nil
  | some body => Statement.callsBehind_ofAll body

end

end EventScript
