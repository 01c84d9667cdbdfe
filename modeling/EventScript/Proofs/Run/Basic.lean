import EventScript.Run.Execution

/-!
# Parts of a run as functions

A part of a run takes a scope to a result and a scope. These are the equations of the ways in which parts are put together.
-/

namespace EventScript.Run

/-! ## Parts that may stop -/

section

variable {ε σ α β : Type} {m : ExceptT ε (StateM σ) α} {f : α → ExceptT ε (StateM σ) β} {s s' : σ}

/-- One part after another: the second is run where the first comes to a value. -/
theorem bind_apply (m : ExceptT ε (StateM σ) α) (f : α → ExceptT ε (StateM σ) β) (s : σ) :
    (m >>= f) s =
      match m s with
      | (.ok a, s') => f a s'
      | (.error reason, s') => (.error reason, s') := by
  simp only [bind, ExceptT.bind, ExceptT.mk, ExceptT.bindCont, StateT.bind]
  rcases m s with ⟨_ | _, _⟩ <;> rfl

/-- What comes back from the first part goes to the second one, with the state it leaves. -/
theorem bind_ok {a : α} (h : m s = (.ok a, s')) : (m >>= f) s = f a s' := by
  rw [bind_apply, h]

/-- A part that stops leaves nothing to go on with. -/
theorem bind_error {reason : ε} (h : m s = (.error reason, s')) : (m >>= f) s = (.error reason, s') := by
  rw [bind_apply, h]

/-- First parts that end alike are followed alike. -/
theorem bind_same {m₁ m₂ : ExceptT ε (StateM σ) α} {s₁ s₂ : σ} (h : m₁ s₁ = m₂ s₂) : (m₁ >>= f) s₁ = (m₂ >>= f) s₂ := by
  rw [bind_apply, bind_apply, h]

/-- A part comes to a value or stops. -/
theorem cases (m : ExceptT ε (StateM σ) α) (s : σ) :
    (∃ a s', m s = (.ok a, s')) ∨ ∃ reason s', m s = (.error reason, s') := by
  obtain ⟨r, s', h⟩ : ∃ r s', m s = (r, s') := ⟨(m s).1, (m s).2, rfl⟩
  cases r with
  | ok a => exact .inl ⟨a, s', h⟩
  | error reason => exact .inr ⟨reason, s', h⟩

/-- What comes to a value went through its first part. -/
theorem ok_of_bind {b : β} (h : (m >>= f) s = (.ok b, s')) : ∃ a t, m s = (.ok a, t) ∧ f a t = (.ok b, s') := by
  rcases cases m s with ⟨a, t, hm⟩ | ⟨reason, t, hm⟩
  · exact ⟨a, t, hm, (bind_ok hm).symm.trans h⟩
  · cases (bind_error hm).symm.trans h

/-- What stops did so in its first part or behind it. -/
theorem error_of_bind {reason : ε} (h : (m >>= f) s = (.error reason, s')) :
    m s = (.error reason, s') ∨ ∃ a t, m s = (.ok a, t) ∧ f a t = (.error reason, s') := by
  rcases cases m s with ⟨a, t, hm⟩ | ⟨other, t, hm⟩
  · exact .inr ⟨a, t, hm, (bind_ok hm).symm.trans h⟩
  · have hstop : (m >>= f) s = (.error other, t) := bind_error hm
    cases hstop.symm.trans h
    exact .inl hm

/-- What both parts keep is kept by one after the other. -/
theorem bind_keeps {γ : Type} (g : σ → γ) (hm : ∀ s, g (m s).2 = g s) (hf : ∀ a s, g (f a s).2 = g s) (s : σ) :
    g ((m >>= f) s).2 = g s := by
  rcases cases m s with ⟨a, t, hrun⟩ | ⟨reason, t, hrun⟩
  · rw [bind_ok hrun, hf, ← hm s, hrun]
  · rw [bind_error hrun, ← hm s, hrun]

/-- Where nothing happens in the second part, the state is that behind the first. -/
theorem bind_state (hf : ∀ a s, (f a s).2 = s) (s : σ) : ((m >>= f) s).2 = (m s).2 := by
  rcases cases m s with ⟨a, t, hrun⟩ | ⟨reason, t, hrun⟩
  · rw [bind_ok hrun, hf, hrun]
  · rw [bind_error hrun, hrun]

theorem get_bind (f : σ → ExceptT ε (StateM σ) β) (s : σ) : (get >>= f) s = f s s := rfl

theorem set_bind (t : σ) (f : PUnit → ExceptT ε (StateM σ) β) (s : σ) : (set t >>= f) s = f ⟨⟩ t := rfl

theorem modify_apply (g : σ → σ) (s : σ) : (modify g : ExceptT ε (StateM σ) Unit) s = (.ok (), g s) := rfl

/-- A part that cannot stop comes to its value. -/
theorem liftM_apply {m : StateM σ α} {a : α} (h : m s = (a, s')) : (liftM m : ExceptT ε (StateM σ) α) s = (.ok a, s') := by
  show (Except.ok (m s).1, (m s).2) = _
  rw [h]

end

section

variable {W α β : Type}

/-- An act as a part of a run goes on with what the act goes on with. -/
theorem ofAct_bind (a : Act W α) (f : α → Act W β) : ofAct (a >>= f) = ofAct a >>= fun x => ofAct (f x) := by
  funext s
  rw [bind_apply]
  show (((a >>= f) s.world).1, { s with world := ((a >>= f) s.world).2 }) = _
  simp only [bind, ExceptT.bind, ExceptT.mk, ExceptT.bindCont, StateT.bind, ofAct]
  rcases a s.world with ⟨_ | _, _⟩ <;> rfl

/-- An act that does nothing is a run that does nothing. -/
theorem ofAct_pure (a : α) : ofAct (W := W) (pure a) = pure a := rfl

end

end EventScript.Run

namespace EventScript

section

variable {σ α β : Type}

theorem stateM_bind_apply (m : StateM σ α) (f : α → StateM σ β) (s : σ) : (m >>= f) s = f (m s).1 (m s).2 := rfl

theorem stateM_get_apply (s : σ) : (get : StateM σ σ) s = (s, s) := rfl

theorem stateM_modify_apply (g : σ → σ) (s : σ) : (modify g : StateM σ Unit) s = ((), g s) := rfl

end

/-- How a run ends that comes to this result. -/
def Outcome.of {α : Type} : Except Halt α → Host.Outcome
  | .ok _ => .completed
  | .error reason => .halted reason

/-- The run of a script is the execution of its statements, up to the signal that is left over. -/
theorem Host.run_apply {W : Type} (host : Host W) (fuel : Nat) (script : Script) (s : Scope W) :
    host.run fuel script s =
      (Outcome.of (host.executeAll host.enter fuel script.statements s).1,
        (host.executeAll host.enter fuel script.statements s).2) := by
  unfold Host.run
  show StateT.bind (host.executeAll host.enter fuel script.statements) _ s = _
  unfold StateT.bind
  rcases host.executeAll host.enter fuel script.statements s with ⟨_ | _, _⟩ <;> rfl

/-! ## What the steps of a host are made of -/

namespace Host

variable {W : Type} (host : Host W)

/-- Asks for the token of the run. -/
def askToken : Run W Bool := get >>= fun s => pure (host.isCancelled s.world)

/-- The questions about the deadline and to the hook, before a node. -/
def consult (node : Node) : Run W Unit := do
  let overdue ← Run.ofAct (liftM host.overdue?)
  match overdue with
  | some timeout => Run.fail (.deadlineExceeded timeout)
  | none => pure ()
  if ← Run.ofAct (host.veto node) then throw .vetoed

/-- Calls the command that is registered under a name. -/
def callCommand (n : String) (args : List Value) : Run W Unit := get >>= fun s =>
  (host.command? n s.world).elim (Run.fail (.unknownCommand (Text.upper n))) fun act => Run.ofAct (act args)

/-- Calls the placeholder that is registered under a name. -/
def callPlaceholder (n : String) (args : List Value) : Run W Value := get >>= fun s =>
  (host.placeholder? n s.world).elim (pure .null) fun act => Run.ofAct (act args)

/-- The token is asked for before anything else. -/
theorem enter_eq (node : Node) :
    host.enter node = host.askToken >>= fun cancelled => bif cancelled then throw Halt.cancelled else host.consult node := by
  unfold enter askToken
  rw [bind_assoc]
  refine bind_congr fun s => ?_
  rw [pure_bind]
  cases host.isCancelled s.world <;> rfl

/-- The hook is asked once the deadline has not come. -/
theorem consult_eq (node : Node) :
    host.consult node = Run.ofAct (liftM host.overdue?) >>= fun overdue =>
      overdue.elim (Run.ofAct (host.veto node) >>= fun refused => bif refused then throw .vetoed else pure ())
        fun timeout => Run.fail (.deadlineExceeded timeout) := by
  unfold consult
  refine bind_congr fun overdue => ?_
  cases overdue with
  | some timeout => rfl
  | none => exact bind_congr fun refused => by cases refused <;> rfl

/-- The value of a name is read off the scope. -/
theorem readName_eq (n : String) :
    host.readName n = get >>= fun s => pure (s.locals[n]?.getD ((host.readGlobal? n s.world).getD .null)) := by
  unfold readName
  refine bind_congr fun s => ?_
  cases s.locals[n]? <;> rfl

/-- The registered placeholder is called once the hook has no answer. -/
theorem resolve_eq (n : String) (args : List Value) :
    host.resolve n args =
      Run.ofAct (host.offerPlaceholder n args) >>= fun answer => answer.elim (host.callPlaceholder n args) pure := by
  unfold resolve
  refine bind_congr fun answer => ?_
  cases answer with
  | some => rfl
  | none =>
    refine bind_congr fun s => ?_
    cases host.placeholder? n s.world <;> rfl

/-- The registered command is called once the hook has left it. -/
theorem runCommand_eq (n : String) (args : List Value) :
    host.runCommand n args =
      host.offerCommand n args >>= fun done => bif done then pure () else host.callCommand n args := by
  unfold runCommand
  refine bind_congr fun done => ?_
  cases done with
  | true => rfl
  | false =>
    refine bind_congr fun s => ?_
    cases host.command? n s.world <;> rfl

end Host

end EventScript
