import EventScript.Script.Tree

/-!
# Trees apart from their places

Two trees that differ in places only say the same. `relocate f` moves every node of a tree by `f`, and `unplaced` puts all of
them at one place, so that trees are equal up to places when their `unplaced` are equal.
-/

namespace EventScript

mutual

/-- The expression with each of its nodes at the place that `f` gives. -/
def Expression.relocate (f : Position → Position) : Expression → Expression
  | .literal p value => .literal (f p) value
  | .name p n => .name (f p) n
  | .globalName p n => .globalName (f p) n
  | .globalAt p key => .globalAt (f p) (key.relocate f)
  | .binary p left op right => .binary (f p) (left.relocate f) op (right.relocate f)
  | .unary p op operand => .unary (f p) op (operand.relocate f)
  | .ternary p condition thenValue elseValue =>
    .ternary (f p) (condition.relocate f) (thenValue.relocate f) (elseValue.relocate f)
  | .placeholder p n args => .placeholder (f p) n (Expression.relocateAll f args)

def Expression.relocateAll (f : Position → Position) : List Expression → List Expression
  | [] => []
  | e :: rest => e.relocate f :: Expression.relocateAll f rest

end

theorem Expression.position_relocate (f : Position → Position) (e : Expression) :
    (e.relocate f).position = f e.position := by
  cases e <;> rfl

theorem Expression.relocateAll_cons (f : Position → Position) (e : Expression) (rest : List Expression) :
    relocateAll f (e :: rest) = e.relocate f :: relocateAll f rest := by
  rw [relocateAll]

def Target.relocate (f : Position → Position) : Target → Target
  | .name n => .name n
  | .globalName n => .globalName n
  | .globalAt key => .globalAt (key.relocate f)

mutual

/-- The statement with each of its nodes at the place that `f` gives. -/
def Statement.relocate (f : Position → Position) : Statement → Statement
  | .assign p target value => .assign (f p) (target.relocate f) (value.relocate f)
  | .ifElse p condition thenBody elseBody =>
    .ifElse (f p) (condition.relocate f) (Statement.relocateAll f thenBody) (Statement.relocateElse f elseBody)
  | .whileLoop p condition body => .whileLoop (f p) (condition.relocate f) (Statement.relocateAll f body)
  | .forLoop p counter start stop body =>
    .forLoop (f p) counter (start.relocate f) (stop.relocate f) (Statement.relocateAll f body)
  | .block p body => .block (f p) (Statement.relocateAll f body)
  | .command p n args => .command (f p) n (Expression.relocateAll f args)
  | .breakLoop p => .breakLoop (f p)
  | .continueLoop p => .continueLoop (f p)
  | .returnScript p => .returnScript (f p)
  | .expression p value => .expression (f p) (value.relocate f)

def Statement.relocateAll (f : Position → Position) : List Statement → List Statement
  | [] => []
  | s :: rest => s.relocate f :: Statement.relocateAll f rest

def Statement.relocateElse (f : Position → Position) : Option (List Statement) → Option (List Statement)
  | none => none
  | some body => some (Statement.relocateAll f body)

end

theorem Statement.relocateAll_cons (f : Position → Position) (s : Statement) (rest : List Statement) :
    relocateAll f (s :: rest) = s.relocate f :: relocateAll f rest := by
  rw [relocateAll]

def Script.relocate (f : Position → Position) (s : Script) : Script := ⟨Statement.relocateAll f s.statements⟩

/-! ## Leaving a tree where it is -/

mutual

theorem Expression.relocate_id (e : Expression) : e.relocate id = e := by
  cases e with
  | literal | name | globalName => rfl
  | globalAt p key => simp only [relocate, key.relocate_id, id]
  | binary p left op right => simp only [relocate, left.relocate_id, right.relocate_id, id]
  | unary p op operand => simp only [relocate, operand.relocate_id, id]
  | ternary p condition thenValue elseValue =>
    simp only [relocate, condition.relocate_id, thenValue.relocate_id, elseValue.relocate_id, id]
  | placeholder p n args => simp only [relocate, relocateAll_id args, id]

theorem Expression.relocateAll_id (args : List Expression) : relocateAll id args = args := by
  cases args with
  | nil => rfl
  | cons e rest => rw [relocateAll, e.relocate_id, relocateAll_id rest]

end

theorem Target.relocate_id (t : Target) : t.relocate id = t := by
  cases t with
  | globalAt key => rw [relocate, key.relocate_id]
  | _ => rfl

mutual

theorem Statement.relocate_id (s : Statement) : s.relocate id = s := by
  cases s with
  | breakLoop | continueLoop | returnScript => rfl
  | assign p target value => simp only [relocate, target.relocate_id, value.relocate_id, id]
  | ifElse p condition thenBody elseBody =>
    simp only [relocate, condition.relocate_id, relocateAll_id thenBody, relocateElse_id elseBody, id]
  | whileLoop p condition body => simp only [relocate, condition.relocate_id, relocateAll_id body, id]
  | forLoop p counter start stop body =>
    simp only [relocate, start.relocate_id, stop.relocate_id, relocateAll_id body, id]
  | block p body => simp only [relocate, relocateAll_id body, id]
  | command p n args => simp only [relocate, Expression.relocateAll_id args, id]
  | expression p value => simp only [relocate, value.relocate_id, id]

theorem Statement.relocateAll_id (body : List Statement) : relocateAll id body = body := by
  cases body with
  | nil => rfl
  | cons s rest => rw [relocateAll, s.relocate_id, relocateAll_id rest]

theorem Statement.relocateElse_id (body : Option (List Statement)) : relocateElse id body = body := by
  cases body with
  | none => rfl
  | some body => rw [relocateElse, relocateAll_id body]

end

/-- One place for all the nodes of a tree. -/
def nowhere (_ : Position) : Position := ⟨1, 1⟩

def Expression.unplaced (e : Expression) : Expression := e.relocate nowhere

def Target.unplaced (t : Target) : Target := t.relocate nowhere

def Statement.unplaced (s : Statement) : Statement := s.relocate nowhere

/-- The script without its places. -/
def Script.unplaced (s : Script) : Script := s.relocate nowhere

end EventScript
