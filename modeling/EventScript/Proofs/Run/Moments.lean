import EventScript.Run.Execution
import Mathlib.Data.List.Chain

/-!
# The moments of a run

Whenever the interpreter enters a node it makes a check: of the token, of the deadline and with the hook. `Host.executeNoting` takes
down these checks and the beginnings of the passes of loops as they come, each with the state of the host then. In a list of such
moments one may be asked to come behind another one only if `Moment.Next` allows it: right behind the beginning of a pass there is a
check, and nothing is behind a check that cannot but stop the run.
-/

namespace EventScript

variable {W α β : Type}

/-! ## Moments -/

/-- What the interpreter does of its own. -/
inductive Motion where
  /-- It is about to enter a node and makes the checks for that. -/
  | check (node : Node)
  /-- A loop begins a pass. -/
  | pass (loop : Statement)

/-- A moment of a run: the state of the host then, and what the interpreter does, if anything. -/
structure Moment (W : Type) where
  motion : Option Motion
  world : W

/-- A counting loop that has nothing to do in its passes. -/
def Statement.Hollow : Statement → Prop
  | .forLoop _ _ _ _ [] => True
  | _ => False

namespace Moment

/-- Nothing happens. -/
def idle (w : W) : Moment W := ⟨none, w⟩

def IsCheck (m : Moment W) : Prop := ∃ node, m.motion = some (.check node)

def IsPass (m : Moment W) : Prop := ∃ loop, m.motion = some (.pass loop)

/-- A loop that is not hollow begins a pass. -/
def Begins (m : Moment W) : Prop := ∃ loop, m.motion = some (.pass loop) ∧ ¬loop.Hollow

/-- One moment may come right behind another one, where a check that is made under this condition stops the run. -/
structure Next (barred : W → Prop) (a b : Moment W) : Prop where
  check : a.Begins → b.IsCheck
  lasts : barred a.world → barred b.world
  stops : a.IsCheck → ¬barred a.world

variable {barred : W → Prop} {a b : Moment W} {w : W}

/-- A moment at which nothing happens is no check. -/
theorem not_isCheck_idle (w : W) : ¬(idle w).IsCheck := by
  rintro ⟨node, h⟩
  cases h

/-- Nor does a pass begin at it. -/
theorem not_begins_idle (w : W) : ¬(idle w).Begins := by
  rintro ⟨loop, h, -⟩
  cases h

/-- Any moment may follow one at which nothing happens, as long as a bar stays. -/
theorem next_idle (h : barred w → barred b.world) : Next barred (idle w) b :=
  ⟨fun hbegins => absurd hbegins (not_begins_idle w), h, fun hcheck => absurd hcheck (not_isCheck_idle w)⟩

/-- A moment at which nothing happens can be left out. -/
theorem Next.across (h : Next barred a (idle w)) (h' : Next barred (idle w) b) : Next barred a b :=
  ⟨fun hbegins => absurd (h.check hbegins) (not_isCheck_idle w), fun ha => h'.lasts (h.lasts ha), h.stops⟩

/-- Two chains of moments that meet at an idle one are one chain. -/
theorem isChain_across {front back : List (Moment W)} (hfront : (front ++ [idle w]).IsChain (Next barred))
    (hback : (idle w :: back).IsChain (Next barred)) : (front ++ back).IsChain (Next barred) := by
  obtain ⟨hchain, -, hlast⟩ := List.isChain_append.mp hfront
  obtain ⟨hhead, hchain'⟩ := List.isChain_cons.mp hback
  refine List.isChain_append.mpr ⟨hchain, hchain', ?_⟩
  intro a ha b hb
  exact (hlast a ha _ rfl).across (hhead b hb)

/-- A check is no pass of a loop. -/
theorem IsCheck.not_isPass (h : b.IsCheck) : ¬b.IsPass := by
  rintro ⟨loop, hloop⟩
  obtain ⟨node, hnode⟩ := h
  cases hnode.symm.trans hloop

/-- What begins a pass is a pass of a loop. -/
theorem Begins.isPass (h : b.Begins) : b.IsPass := by
  obtain ⟨loop, hloop, -⟩ := h
  exact ⟨loop, hloop⟩

/-- Nothing comes behind a check that is made under the condition. -/
theorem eq_nil_of_isCheck {ms : List (Moment W)} (h : (a :: ms).IsChain (Next barred)) (hcheck : a.IsCheck)
    (hbarred : barred a.world) : ms = [] := by
  cases ms with
  | nil => rfl
  | cons b rest => exact absurd hbarred ((List.isChain_cons_cons.mp h).1.stops hcheck)

/-- A pass comes behind the beginning of another one only with a check in between. -/
theorem exists_isCheck {between after : List (Moment W)} (h : (a :: between ++ b :: after).IsChain (Next barred))
    (ha : a.Begins) (hb : b.IsPass) : ∃ c ∈ between, c.IsCheck := by
  cases between with
  | nil => exact absurd hb ((List.isChain_cons_cons.mp h).1.check ha).not_isPass
  | cons c rest => exact ⟨c, List.mem_cons_self, (List.isChain_cons_cons.mp h).1.check ha⟩

/-- Once the condition has come, no two passes begin. -/
theorem pairwise_of_barred {ms : List (Moment W)} (h : (a :: ms).IsChain (Next barred)) (hbarred : barred a.world) :
    ms.Pairwise fun b c => ¬(b.Begins ∧ c.Begins) := by
  induction ms generalizing a with
  | nil => exact .nil
  | cons b rest ih =>
    obtain ⟨hab, hrest⟩ := List.isChain_cons_cons.mp h
    have hb := hab.lasts hbarred
    refine .cons ?_ (ih hrest hb)
    rintro c hc ⟨hbegins, hbegins'⟩
    -- Right behind `b` there is a check, and it is the last moment.
    cases rest with
    | nil => cases hc
    | cons d rest =>
      obtain ⟨hbd, hlast⟩ := List.isChain_cons_cons.mp hrest
      have hcheck := hbd.check hbegins
      rw [eq_nil_of_isCheck hlast hcheck (hbd.lasts hb), List.mem_singleton] at hc
      subst hc
      exact hcheck.not_isPass hbegins'.isPass

end Moment

/-! ## Runs that take down their moments -/

/-- The state of a host, with the moments of the run up to it. -/
structure Noted (W : Type) where
  world : W
  moments : List (Moment W) := []

/-- The scope with nothing taken down yet. -/
def Scope.noted (s : Scope W) : Scope (Noted W) := ⟨s.locals, { world := s.world }⟩

/-- The scope without what was taken down. -/
def Scope.plain (s : Scope (Noted W)) : Scope W := ⟨s.locals, s.world.world⟩

/-- Another scope behind the same moments and some more. -/
def Scope.withMoments (s : Scope (Noted W)) (b : Scope W) (ms : List (Moment W)) : Scope (Noted W) :=
  ⟨b.locals, ⟨b.world, s.world.moments ++ ms⟩⟩

/-- A scope with its own rest and no more moments is itself. -/
theorem Scope.withMoments_plain (s : Scope (Noted W)) : s.withMoments s.plain [] = s := by
  simp only [withMoments, plain, List.append_nil]

/-- Moments that are added one after the other are added together, with the later scope. -/
theorem Scope.withMoments_withMoments (s : Scope (Noted W)) (b c : Scope W) (ms more : List (Moment W)) :
    (s.withMoments b ms).withMoments c more = s.withMoments c (ms ++ more) := by
  simp only [withMoments, List.append_assoc]

/-- An act at which nothing is taken down. -/
def Act.beside (a : Act W α) : Act (Noted W) α := fun t =>
  let r := a t.world
  (r.1, { t with world := r.2 })

/-- A part of a run at which nothing is taken down. -/
def Run.beside (m : Run W α) : Run (Noted W) α := fun s =>
  let r := m s.plain
  (r.1, s.withMoments r.2 [])

/-- Takes down what the interpreter does now. -/
def Run.note (motion : Motion) : Run (Noted W) Unit :=
  modify fun s => { s with world.moments := s.world.moments ++ [⟨some motion, s.world.world⟩] }

namespace Host

variable (host : Host W)

/-- The host next to what is taken down. -/
def noted : Host (Noted W) where
  isCancelled t := host.isCancelled t.world
  overdue? := fun t =>
    let r := host.overdue? t.world
    (r.1, { t with world := r.2 })
  veto node := (host.veto node).beside
  offerCommand name args := (host.offerCommand name args).beside
  command? name t := (host.command? name t.world).map fun act args => (act args).beside
  offerPlaceholder name args := (host.offerPlaceholder name args).beside
  placeholder? name t := (host.placeholder? name t.world).map fun act args => (act args).beside
  readGlobal? key t := host.readGlobal? key t.world
  writeGlobal key v := (host.writeGlobal key v).beside

/-- Takes down that a node is entered, and enters it. -/
def enterNoted (node : Node) : Run (Noted W) Unit := do
  Run.note (.check node)
  host.noted.enter node

section

variable (enter : Node → Run W Unit) (pass : Statement → Run W Unit)

mutual

/-- Executes one statement. A loop does `pass` at the beginning of each pass: in front of its condition, or once its counter is
bound. -/
def executeNoting (fuel : Nat) : Statement → Run W Signal
  | .assign p target value => do
    enter (.statement (.assign p target value))
    host.assign enter target value
    pure .none
  | .ifElse p condition thenBody elseBody => do
    enter (.statement (.ifElse p condition thenBody elseBody))
    let c ← host.evaluate enter condition
    if c.isTruthy then executeAllNoting fuel thenBody
    else
      match elseBody with
      | some body => executeAllNoting fuel body
      | none => pure .none
  | .whileLoop p condition body => do
    enter (.statement (.whileLoop p condition body))
    let begun := do
      pass (.whileLoop p condition body)
      host.evaluate enter condition
    whilePasses begun (executeAllNoting fuel body) fuel
  | .forLoop p counter start stop body => do
    enter (.statement (.forLoop p counter start stop body))
    let i ← boundOf (← host.evaluate enter start)
    let j ← boundOf (← host.evaluate enter stop)
    let begun := do
      pass (.forLoop p counter start stop body)
      executeAllNoting fuel body
    forPasses counter begun (j.toInt - i.toInt).toNat i.toInt
  | .block p body => do
    enter (.statement (.block p body))
    executeAllNoting fuel body
  | .command p name args => do
    enter (.statement (.command p name args))
    let values ← host.evaluateAll enter args
    host.runCommand name values
    pure .none
  | .breakLoop p => do
    enter (.statement (.breakLoop p))
    pure .breakLoop
  | .continueLoop p => do
    enter (.statement (.continueLoop p))
    pure .continueLoop
  | .returnScript p => do
    enter (.statement (.returnScript p))
    pure .returnScript
  | .expression p value => do
    enter (.statement (.expression p value))
    let _ ← host.evaluate enter value
    pure .none

/-- Executes statements up to the first signal. -/
def executeAllNoting (fuel : Nat) : List Statement → Run W Signal
  | [] => pure .none
  | s :: rest => do
    match ← executeNoting fuel s with
    | .none => executeAllNoting fuel rest
    | signal => pure signal

end

end

/-- The token is cancelled, the deadline has passed, or the hook refuses whatever node comes next. -/
def Held (w : W) : Prop :=
  host.isCancelled w = true ∨ (host.overdue? w).1.isSome = true ∨ ∀ node, (host.veto node (host.overdue? w).2).1 = .ok true

/-- A condition under which runs are held up, and which lasts whatever the host does. -/
structure Lasting (barred : W → Prop) : Prop where
  held : ∀ w, barred w → host.Held w
  overdue : ∀ w, barred w → barred (host.overdue? w).2
  veto : ∀ node w, barred w → barred (host.veto node w).2
  offerCommand : ∀ name args s, barred s.world → barred (host.offerCommand name args s).2.world
  command : ∀ name w act, host.command? name w = some act → ∀ args w', barred w' → barred (act args w').2
  offerPlaceholder : ∀ name args w, barred w → barred (host.offerPlaceholder name args w).2
  placeholder : ∀ name w act, host.placeholder? name w = some act → ∀ args w', barred w' → barred (act args w').2
  writeGlobal : ∀ key v w, barred w → barred (host.writeGlobal key v w).2

end Host

end EventScript
