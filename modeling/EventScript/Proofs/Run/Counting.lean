import EventScript.Proofs.Run.Linked

/-!
# The passes of a counting loop

A counting loop has a counter of its own, which is a machine integer and which no script can change: `countUp` is the loop that
increases it behind each pass, and is what the interpreter does (`countUp_eq`), since the counter never comes to its limit while
there is a pass left. What such a loop does is told by the list of its passes (`CountedPass`). Each begins where the one before
ended, with the variable bound to the value of the counter (`Successive`), and the loop ends as the last one makes it
(`loopEnd`).
-/

namespace EventScript

variable {W : Type}

/-! ## The counter -/

/-- Below any other integer there is room for one more. -/
theorem toInt_succ {i j : Int64} (h : i < j) : (i + 1).toInt = i.toInt + 1 := by
  have hlt := Int64.lt_iff_toInt_lt.mp h
  have hlow := i.le_toInt
  have hhigh := j.toInt_lt
  rw [Int64.toInt_add]
  exact Int.bmod_eq_of_le (by simp only [Int64.toInt_one]; omega) (by simp only [Int64.toInt_one]; omega)

/-- Runs the passes of a counting loop from `i` up to the last value in front of `stop`. -/
def countUp (counter : String) (body : Run W Signal) (stop i : Int64) : Run W Signal :=
  if i < stop then do
    Host.bind counter (.int i)
    match ← body with
    | .breakLoop => pure .none
    | .returnScript => pure .returnScript
    | _ => countUp counter body stop (i + 1)
  else pure .none
termination_by (stop.toInt - i.toInt).toNat
decreasing_by
  rename_i h
  have hlt := Int64.lt_iff_toInt_lt.mp h
  have hsucc := toInt_succ h
  omega

variable {counter : String} {body : Run W Signal}

/-- The passes may be counted in front of the first one. -/
theorem countUp_eq (stop i : Int64) :
    countUp counter body stop i = forPasses counter body (stop.toInt - i.toInt).toNat i.toInt := by
  generalize hpasses : (stop.toInt - i.toInt).toNat = passes
  induction passes generalizing i with
  | zero =>
    have hstop : ¬i < stop := fun h => by
      have hlt := Int64.lt_iff_toInt_lt.mp h
      omega
    rw [countUp, if_neg hstop]
    rfl
  | succ passes ih =>
    have hgo : i < stop := Int64.lt_iff_toInt_lt.mpr (by omega)
    have hsucc := toInt_succ hgo
    rw [countUp, if_pos hgo, forPasses, Int64.ofInt_toInt]
    refine bind_congr fun _ => bind_congr fun signal => ?_
    cases signal with
    | breakLoop | returnScript => rfl
    | none | continueLoop =>
      rw [← hsucc]
      exact ih (i + 1) (by omega)

/-! ## Passes -/

/-- A pass of a counting loop. -/
structure CountedPass (W : Type) where
  /-- The value of the counter. -/
  value : Int64
  /-- The scope in which the body is begun. -/
  front : Scope W
  result : Except Halt Signal
  /-- The scope that the body leaves. -/
  behind : Scope W

namespace CountedPass

/-- The body comes to its end, or to `CONTINUE`. -/
def GoesOn (x : CountedPass W) : Prop := x.result = .ok .none ∨ x.result = .ok .continueLoop

/-- How the loop ends if this pass is the last one. -/
def ending (x : CountedPass W) : Except Halt Signal :=
  match x.result with
  | .ok .returnScript => .ok .returnScript
  | .ok _ => .ok .none
  | .error reason => .error reason

end CountedPass

/-- Passes one behind the other, the first one in this scope. In front of each the variable is bound to the value of the counter,
and behind each but the last the loop goes on. -/
def Successive (counter : String) (body : Run W Signal) : Scope W → List (CountedPass W) → Prop
  | _, [] => True
  | s, x :: rest =>
    x.front = { s with locals := s.locals.insert counter (.int x.value) } ∧ body x.front = (x.result, x.behind) ∧
      (rest = [] ∨ x.GoesOn) ∧ Successive counter body x.behind rest

/-- How a loop ends, and in which scope, that begins in this scope and has these passes. -/
def loopEnd (s : Scope W) (passes : List (CountedPass W)) : Except Halt Signal × Scope W :=
  match passes.getLast? with
  | some x => (x.ending, x.behind)
  | none => (.ok .none, s)

theorem loopEnd_cons {s : Scope W} {x : CountedPass W} {rest : List (CountedPass W)} (h : x.GoesOn) :
    loopEnd s (x :: rest) = loopEnd x.behind rest := by
  cases rest with
  | nil =>
    have hending : x.ending = .ok .none := by
      unfold CountedPass.ending
      rcases h with h | h <;> rw [h]
    exact congrArg (·, x.behind) hending
  | cons y rest => rfl

/-- The passes of a loop from `i` to in front of `stop`, of which at most so many are possible. -/
structure CountedFrom (i stop : Int64) (passes : List (CountedPass W)) : Prop where
  value : ∀ k (hk : k < passes.length), passes[k].value.toInt = i.toInt + k ∧ passes[k].value < stop
  most : passes.length ≤ (stop.toInt - i.toInt).toNat
  all : (∀ x ∈ passes, x.GoesOn) → passes.length = (stop.toInt - i.toInt).toNat

namespace CountedFrom

variable {i stop : Int64} {x : CountedPass W} {rest : List (CountedPass W)}

theorem nil (h : ¬i < stop) : CountedFrom (W := W) i stop [] where
  value k hk := absurd hk (Nat.not_lt_zero k)
  most := Nat.zero_le _
  all _ := by
    have hle := mt Int64.lt_iff_toInt_lt.mpr h
    simp only [List.length_nil]
    omega

/-- The last pass, behind which there would have been more. -/
theorem stopped (h : i < stop) (hvalue : x.value = i) (hstop : ¬x.GoesOn) : CountedFrom i stop [x] where
  value k hk := by
    obtain rfl : k = 0 := by simpa using hk
    exact ⟨by simp [hvalue], hvalue ▸ h⟩
  most := by
    have hlt := Int64.lt_iff_toInt_lt.mp h
    simp only [List.length_singleton]
    omega
  all hall := absurd (hall x (List.mem_singleton_self x)) hstop

theorem cons (h : i < stop) (hvalue : x.value = i) (hrest : CountedFrom (i + 1) stop rest) :
    CountedFrom i stop (x :: rest) where
  value k hk := by
    cases k with
    | zero => exact ⟨by simp [hvalue], hvalue ▸ h⟩
    | succ k =>
      obtain ⟨hk', hbelow⟩ := hrest.value k (Nat.lt_of_succ_lt_succ hk)
      rw [toInt_succ h] at hk'
      refine ⟨?_, hbelow⟩
      rw [List.getElem_cons_succ, hk']
      omega
  most := by
    have hlt := Int64.lt_iff_toInt_lt.mp h
    have hmost := hrest.most
    rw [toInt_succ h] at hmost
    rw [List.length_cons]
    omega
  all hall := by
    have hlt := Int64.lt_iff_toInt_lt.mp h
    have hlength := hrest.all (List.forall_mem_cons.mp hall).2
    rw [toInt_succ h] at hlength
    rw [List.length_cons]
    omega

end CountedFrom

/-- The pass of a counting loop that begins in this scope with the counter at `i`. -/
def passFrom (counter : String) (body : Run W Signal) (i : Int64) (s : Scope W) : CountedPass W :=
  let front : Scope W := { s with locals := s.locals.insert counter (.int i) }
  ⟨i, front, (body front).1, (body front).2⟩

/-- Behind a pass the loop is at its end, or it goes on from where the pass has left it. -/
theorem countUp_step (counter : String) (body : Run W Signal) {stop i : Int64} (h : i < stop) (s : Scope W) :
    let x := passFrom counter body i s
    x.GoesOn ∧ countUp counter body stop i s = countUp counter body stop (i + 1) x.behind ∨
      ¬x.GoesOn ∧ countUp counter body stop i s = (x.ending, x.behind) := by
  intro x
  have hbind : Host.bind counter (.int i) s = (.ok (), x.front) := rfl
  have hbody : body x.front = (x.result, x.behind) := rfl
  have hrun : countUp counter body stop i s =
      (body >>= fun
        | .breakLoop => pure .none
        | .returnScript => pure .returnScript
        | _ => countUp counter body stop (i + 1)) x.front := by
    rw [countUp, if_pos h, Run.bind_ok hbind]
  rw [hrun]
  unfold CountedPass.GoesOn CountedPass.ending
  cases hresult : x.result with
  | error reason =>
    rw [hresult] at hbody
    exact .inr ⟨by simp, Run.bind_error hbody⟩
  | ok signal =>
    rw [hresult] at hbody
    rw [Run.bind_ok hbody]
    cases signal with
    | none => exact .inl ⟨.inl rfl, rfl⟩
    | continueLoop => exact .inl ⟨.inr rfl, rfl⟩
    | breakLoop => exact .inr ⟨by simp, rfl⟩
    | returnScript => exact .inr ⟨by simp, rfl⟩

/-- What a counting loop does is told by its passes. -/
theorem countUp_passes (counter : String) (body : Run W Signal) (stop i : Int64) (s : Scope W) :
    ∃ passes, Successive counter body s passes ∧ countUp counter body stop i s = loopEnd s passes ∧
      CountedFrom i stop passes := by
  generalize hleft : (stop.toInt - i.toInt).toNat = left
  induction left generalizing i s with
  | zero =>
    have hstop : ¬i < stop := fun h => by
      have hlt := Int64.lt_iff_toInt_lt.mp h
      omega
    refine ⟨[], trivial, ?_, .nil hstop⟩
    rw [countUp, if_neg hstop]
    rfl
  | succ left ih =>
    have hgo : i < stop := Int64.lt_iff_toInt_lt.mpr (by omega)
    have hsucc := toInt_succ hgo
    rcases countUp_step counter body hgo s with ⟨hon, hrun⟩ | ⟨hstop, hrun⟩
    · obtain ⟨rest, hrest, hcount, hfrom⟩ := ih (i + 1) (passFrom counter body i s).behind (by omega)
      refine ⟨passFrom counter body i s :: rest, ⟨rfl, rfl, .inr hon, hrest⟩, ?_, .cons hgo rfl hfrom⟩
      rw [hrun, hcount, loopEnd_cons hon]
    · exact ⟨[passFrom counter body i s], ⟨rfl, rfl, .inl rfl, trivial⟩, hrun, .stopped hgo rfl hstop⟩

/-- The last pass begins with the variable at the value of the counter. -/
theorem Successive.front_last {s : Scope W} {passes : List (CountedPass W)} (h : Successive counter body s passes)
    {x : CountedPass W} (hx : passes.getLast? = some x) :
    x.front.locals[counter]? = some (.int x.value) ∧ body x.front = (x.result, x.behind) := by
  induction passes generalizing s with
  | nil => cases hx
  | cons y rest ih =>
    obtain ⟨hfront, hbody, -, hrest⟩ := h
    cases rest with
    | nil =>
      obtain rfl : y = x := Option.some.inj hx
      refine ⟨?_, hbody⟩
      rw [hfront]
      exact Std.ExtTreeMap.getElem?_insert_self
    | cons z rest => exact ih hrest hx

/-! ## Bodies that leave a variable alone -/

/-- The part leaves a variable as it is. -/
def LeavesVariable (name : String) (m : Run W α) : Prop := ∀ s, (m s).2.locals[name]? = s.locals[name]?

namespace LeavesVariable

variable {name : String}

theorem pure (a : α) : LeavesVariable (W := W) name (Pure.pure a) := fun _ => rfl

theorem ofAct (a : Act W α) : LeavesVariable name (Run.ofAct a) := fun _ => rfl

theorem bind {m : Run W α} {f : α → Run W β} (hm : LeavesVariable name m) (hf : ∀ a, LeavesVariable name (f a)) :
    LeavesVariable name (m >>= f) := Run.bind_keeps (fun s : Scope W => s.locals[name]?) hm hf

theorem get {f : Scope W → Run W α} (hf : ∀ s, LeavesVariable name (f s)) : LeavesVariable name (MonadState.get >>= f) :=
  fun s => hf s s

theorem bindOther {n : String} (h : n ≠ name) (v : Value) : LeavesVariable (W := W) name (Host.bind n v) := fun s => by
  show (s.locals.insert n v)[name]? = _
  rw [Std.ExtTreeMap.getElem?_insert, if_neg (mt Std.LawfulEqCmp.compare_eq_iff_eq.mp h)]

/-- The interpreter leaves a variable alone where all its steps do. -/
def link (W : Type) (name : String) : Link W W where
  Rel m _ := LeavesVariable name m
  pure := pure
  stop _ _ _ := rfl
  bind := bind

/-- The steps of a host do so for nodes that do not bind the variable if the hook does when it is offered a command. -/
theorem hosts {host : Host W} {Allowed : Node → Prop} (hnodes : ∀ node, Allowed node → ¬node.Binds name)
    (hoffer : ∀ n args, LeavesVariable name (host.offerCommand n args)) : (link W name).Hosts host host Allowed where
  askToken := get fun _ => pure _
  overdue := ofAct _
  veto node _ := ofAct _
  readName n _ := by
    rw [Host.readName_eq]
    exact get fun _ => pure _
  readGlobal key _ := get fun _ => pure _
  offerPlaceholder n args := ofAct _
  callPlaceholder n args := get fun s => by
    cases host.placeholder? n s.world with
    | none => exact pure _
    | some act => exact ofAct _
  bind n v := by
    rintro ⟨node, hnode, hbinds⟩
    refine bindOther (fun hn => hnodes node hnode ?_) v
    rwa [← hn]
  writeGlobal key v _ := ofAct _
  offerCommand := hoffer
  callCommand n args := get fun s => by
    cases host.command? n s.world with
    | none => exact fun _ => rfl
    | some act => exact ofAct _

/-- Statements leave a variable alone if none of their nodes binds it and the hook does not either. -/
theorem executeAll {host : Host W} {body : List Statement} (hbody : ∀ node ∈ Statement.nodesOfAll body, ¬node.Binds name)
    (hoffer : ∀ n args, LeavesVariable name (host.offerCommand n args)) (fuel : Nat) :
    LeavesVariable name (host.executeAll host.enter fuel body) := by
  have hhosts := hosts hbody hoffer
  have hlinked := hhosts.toParts.linked (fun node hnode => hhosts.enter node hnode)
  exact hlinked.executeAll (.same (fun _ => rfl) fuel) body fun node hnode => hnode

end LeavesVariable

/-! ## Counting loops -/

/-- A counting loop counts exactly. Once its bounds have come to the integers `i` and `j`, the start in front of the stop, nothing but
its body is executed, in passes that begin with the variable at `i`, `i + 1` and so on, up to in front of `j`. All of them are made
unless a body comes to `BREAK` or `RETURN` or the run stops; these end the loop, without a signal, with that of `RETURN`, or by
stopping. The counter always has room for one more. Behind the loop the variable is at the value of the last pass if that has left it
alone, and so it is if no node of the body binds the variable and the hook does not either. -/
theorem forLoop_counts {host : Host W} {fuel : Nat} {p : Position} {start stop : Expression} {body : List Statement}
    {s s₁ s₂ s₃ : Scope W} {v w : Value} {i j : Int64}
    (hentered : host.enter (.statement (.forLoop p counter start stop body)) s = (.ok (), s₁))
    (hstart : host.evaluate host.enter start s₁ = (.ok v, s₂)) (hi : v.asInt? = some i)
    (hstop : host.evaluate host.enter stop s₂ = (.ok w, s₃)) (hj : w.asInt? = some j) :
    let loop := host.execute host.enter fuel (.forLoop p counter start stop body)
    ∃ passes : List (CountedPass W),
      Successive counter (host.executeAll host.enter fuel body) s₃ passes ∧ loop s = loopEnd s₃ passes ∧
      loop s = countUp counter (host.executeAll host.enter fuel body) j i s₃ ∧
      (∀ k (hk : k < passes.length),
        passes[k].value.toInt = i.toInt + k ∧ passes[k].value < j ∧
          (passes[k].value + 1).toInt = passes[k].value.toInt + 1) ∧
      (passes.length : Int) ≤ max 0 (j.toInt - i.toInt) ∧
      ((∀ x ∈ passes, x.GoesOn) → (passes.length : Int) = max 0 (j.toInt - i.toInt)) ∧
      ∀ x, passes.getLast? = some x →
        x.behind.locals[counter]? = x.front.locals[counter]? ∨
            (∀ node ∈ Statement.nodesOfAll body, ¬node.Binds counter) ∧
              (∀ n args, LeavesVariable counter (host.offerCommand n args)) →
          (loop s).2.locals[counter]? = some (.int x.value) := by
  intro loop
  have hbounds : loop s = countUp counter (host.executeAll host.enter fuel body) j i s₃ := by
    have hbound {u : Value} {n : Int64} (hn : u.asInt? = some n) (t : Scope W) : Host.boundOf u t = (.ok n, t) := by
      unfold Host.boundOf
      rw [hn]
      rfl
    show host.execute host.enter fuel (.forLoop p counter start stop body) s = _
    unfold Host.execute
    rw [Run.bind_ok hentered, Run.bind_ok hstart, Run.bind_ok (hbound hi s₂), Run.bind_ok hstop, Run.bind_ok (hbound hj s₃),
      countUp_eq]
  obtain ⟨passes, hpasses, hend, hcounted⟩ :=
    countUp_passes counter (host.executeAll host.enter fuel body) j i s₃
  refine ⟨passes, hpasses, hbounds.trans hend, hbounds, fun k hk => ?_, ?_, fun hall => ?_, fun x hx hleft => ?_⟩
  · obtain ⟨hvalue, hbelow⟩ := hcounted.value k hk
    exact ⟨hvalue, hbelow, toInt_succ hbelow⟩
  · have hmost := hcounted.most
    omega
  · have hlength := hcounted.all hall
    omega
  · obtain ⟨hfront, hbody⟩ := hpasses.front_last hx
    have hbehind : (loop s).2 = x.behind := by
      rw [hbounds, hend, loopEnd, hx]
    rw [hbehind, ← hfront]
    rcases hleft with hleft | ⟨hnodes, hoffer⟩
    · exact hleft
    · have hkept := LeavesVariable.executeAll hnodes hoffer fuel x.front
      rwa [hbody] at hkept

/-- A loop up to the largest integer has one pass, and its variable is behind it at the largest integer but one. -/
theorem forLoop_counts_limit :
    let host : Host Unit :=
      { isCancelled := fun _ => false, overdue? := pure none, veto := fun _ => pure false,
        offerCommand := fun _ _ => pure false, command? := fun _ _ => none, offerPlaceholder := fun _ _ => pure none,
        placeholder? := fun _ _ => none, readGlobal? := fun _ _ => none, writeGlobal := fun _ _ => pure () }
    let last := Int64.maxValue - 1
    let loop : Statement := .forLoop {} "i" (.literal {} (.int last)) (.literal {} (.int .maxValue)) [.continueLoop {}]
    let behind := (host.execute host.enter 0 loop ⟨∅, ()⟩).2
    last.toInt = 9223372036854775806 ∧ behind.locals["i"]? = some (.int last) := by
  intro host last loop behind
  let s : Scope Unit := ⟨∅, ()⟩
  have hvalue (n : Int64) : host.evaluate host.enter (.literal {} (.int n)) s = (.ok (.int n), s) := by
    unfold Host.evaluate
    rfl
  obtain ⟨passes, -, -, -, hvalues, hmost, hall, hbehind⟩ :=
    @forLoop_counts Unit "i" host 0 {} (.literal {} (.int last)) (.literal {} (.int .maxValue)) [.continueLoop {}] s s s s _ _ last
      .maxValue rfl (hvalue last) rfl (hvalue .maxValue) rfl
  have hone : Int64.maxValue.toInt - last.toInt = 1 := by decide +kernel
  have hleaves : ∀ n args, LeavesVariable "i" (host.offerCommand n args) := fun _ _ => .pure false
  have hnodes : ∀ node ∈ Statement.nodesOfAll [.continueLoop {}], ¬node.Binds "i" := by decide
  refine ⟨by decide +kernel, ?_⟩
  rcases passes with _ | ⟨x, _ | ⟨y, rest⟩⟩
  · have hzero := hall (List.forall_mem_nil _)
    simp only [List.length_nil] at hzero
    omega
  · have hx : x.value = last := Int64.toInt_inj.mp ((hvalues 0 Nat.one_pos).1.trans (Int.add_zero _))
    rw [← hx]
    exact hbehind x rfl (.inr ⟨hnodes, hleaves⟩)
  · simp only [List.length_cons] at hmost
    omega

end EventScript
