import EventScript.Run.Execution

/-!
# Runs that are watched

A hook that is asked about every node can count the nodes, refuse one of them, or cancel the run while it is asked. `Host.watch`
puts such a hook in front of a host. The hook does not see the variables of the activation; `Host.moments` is a record kept by
the interpreter itself of the scope in front of each node that an uncut run enters.
-/

namespace EventScript

/-- What a hook does about a node. -/
inductive Answer where
  | pass
  | veto
  /-- Lets the node pass and cancels the run. -/
  | cancel
deriving DecidableEq, Repr

/-- The state of a host behind a hook: the nodes the hook was asked about, the token of the run, and the scopes on record. -/
structure Watched (W : Type) where
  world : W
  entered : Nat := 0
  cancelled : Bool := false
  record : List (Scope W) := []

/-- The scope as it is apart from the hook. -/
def Scope.bare {W : Type} (s : Scope (Watched W)) : Scope W := ⟨s.locals, s.world.world⟩

/-- The scope with a hook that has not been asked yet. -/
def Scope.watched {W : Type} (s : Scope W) : Scope (Watched W) := ⟨s.locals, { world := s.world }⟩

/-- Another scope behind the same hook. -/
def Scope.withBare {W : Type} (s : Scope (Watched W)) (b : Scope W) : Scope (Watched W) :=
  ⟨b.locals, { s.world with world := b.world }⟩

/-- A part of a run behind a hook that it does not ask. -/
def Run.behind {W α : Type} (m : Run W α) : Run (Watched W) α := fun s =>
  let r := m s.bare
  (r.1, s.withBare r.2)

/-- An act behind a hook that it does not ask. -/
def Act.behind {W α : Type} (a : Act W α) : Act (Watched W) α := fun w =>
  let r := a w.world
  (r.1, { w with world := r.2 })

/-- Does what the answer says. -/
def Answer.give {W : Type} : Answer → Act (Watched W) Bool
  | .pass => pure false
  | .veto => pure true
  | .cancel => do
    modify fun w => { w with cancelled := true }
    pure false

namespace Host

variable {W : Type} (host : Host W)

/-- The host behind a hook that answers by the number of the node. The run has no deadline, and its token is cancelled by the
hook alone. -/
def watch (hook : Nat → Answer) : Host (Watched W) where
  isCancelled w := w.cancelled
  overdue? := pure none
  veto _ := do
    modify fun w => { w with entered := w.entered + 1 }
    (hook (← get).entered).give
  offerCommand name args := (host.offerCommand name args).behind
  command? name w := (host.command? name w.world).map fun act args => (act args).behind
  offerPlaceholder name args := (host.offerPlaceholder name args).behind
  placeholder? name w := (host.placeholder? name w.world).map fun act args => (act args).behind
  readGlobal? key w := host.readGlobal? key w.world
  writeGlobal key v := (host.writeGlobal key v).behind

/-- Only counts the nodes. -/
def counting (_ : Nat) : Answer := .pass

/-- Refuses the `k`-th node. -/
def vetoing (k n : Nat) : Answer := if n = k then .veto else .pass

/-- Cancels the run while it is asked about the `k`-th node. -/
def cancelling (k n : Nat) : Answer := if n = k then .cancel else .pass

/-- Puts the scope on record and enters the node. -/
def enterRecorded (node : Node) : Run (Watched W) Unit := do
  modify fun s => { s with world.record := s.world.record ++ [s.bare] }
  (host.watch counting).enter node

/-- The scopes in front of the nodes that the uncut run enters, in order. -/
def moments (fuel : Nat) (script : Script) (s : Scope W) : List (Scope W) :=
  let recorded := (host.watch counting).executeAll host.enterRecorded fuel script.statements
  (recorded s.watched).2.world.record

/-- The uncut run enters a `k`-th node, counted from one, in the scope `m`. -/
def Reaches (script : Script) (s : Scope W) (k : Nat) (m : Scope W) : Prop :=
  0 < k ∧ ∃ fuel, ∀ more, (host.moments (fuel + more) script s)[k - 1]? = some m

end Host

end EventScript
