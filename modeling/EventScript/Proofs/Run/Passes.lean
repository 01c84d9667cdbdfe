import EventScript.Proofs.Parse.Ending
import EventScript.Proofs.Run.Linked
import EventScript.Proofs.Run.Moments
import EventScript.Proofs.Run.Watched

/-!
# Checks between the passes of a loop

A loop is held up by nothing but the checks for the nodes that it comes to, so what counts is that each of its passes comes to one.
Every pass does but those of a counting loop with an empty body.

The invariant of a part of a run is that its moments are a chain between the state of the host in front of it and the one behind it
(`Unbroken`). What the interpreter does of its own keeps that, and so does a host that lets the condition last under which runs are
held up (`Host.Lasting`).
-/

namespace EventScript

variable {W α β : Type}

/-! ## Chains of moments -/

/-- The moments of a part of a run are a chain from the state of the host in front of it, and up to the one behind it if the run goes
on from there. -/
def Unbroken (barred : W → Prop) (w : W) (ms : List (Moment W)) (r : Except Halt α) (w' : W) : Prop :=
  match r with
  | .ok _ => ((Moment.idle w :: ms) ++ [Moment.idle w']).IsChain (Moment.Next barred)
  | .error _ => (Moment.idle w :: ms).IsChain (Moment.Next barred)

/-- The second part does what the first one does, and takes down a chain of moments with the property. -/
def Notes (barred : W → Prop) (P : W → List (Moment W) → Prop) (m : Run W α) (m' : Run (Noted W) α) : Prop :=
  ∀ s : Scope (Noted W), ∃ ms, m' s = ((m s.plain).1, s.withMoments (m s.plain).2 ms) ∧
    Unbroken barred s.world.world ms (m s.plain).1 (m s.plain).2.world ∧ P s.world.world ms

/-- Any moments. -/
def Anyhow (_ : W) (_ : List (Moment W)) : Prop := True

/-- A check comes first, in the state that the part begins in. -/
def Leading (w : W) (ms : List (Moment W)) : Prop := ∃ node more, ms = ⟨some (.check node), w⟩ :: more

/-- Moments that begin with a check do so whatever follows. -/
theorem Leading.append {w : W} {ms : List (Moment W)} (h : Leading w ms) (more : List (Moment W)) : Leading w (ms ++ more) := by
  obtain ⟨node, rest, rfl⟩ := h
  exact ⟨node, rest ++ more, rfl⟩

namespace Notes

variable {barred : W → Prop} {P Q : W → List (Moment W) → Prop} {m : Run W α} {m' : Run (Noted W) α}

/-- What is known of the moments may be weakened. -/
theorem mono (h : Notes barred P m m') (hPQ : ∀ w ms, P w ms → Q w ms) : Notes barred Q m m' := by
  intro s
  obtain ⟨ms, hm', hchain, hP⟩ := h s
  exact ⟨ms, hm', hchain, hPQ _ _ hP⟩

/-- Or forgotten. -/
theorem anyhow (h : Notes barred P m m') : Notes barred Anyhow m m' := h.mono fun _ _ _ => trivial

/-- A part that keeps the condition takes down nothing. -/
theorem beside (h : ∀ s, barred s.world → barred (m s).2.world) : Notes barred Anyhow m m.beside := by
  intro s
  refine ⟨[], rfl, ?_, trivial⟩
  cases (m s.plain).1 with
  | error reason => exact List.isChain_singleton _
  | ok a => exact List.isChain_pair.mpr (Moment.next_idle (h s.plain))

/-- A result has no moments. -/
theorem pure (a : α) : Notes barred Anyhow (Pure.pure a : Run W α) (Pure.pure a) := by
  intro s
  exact ⟨[], congrArg (Prod.mk (Except.ok a)) s.withMoments_plain.symm, List.isChain_pair.mpr (Moment.next_idle id), trivial⟩

/-- Neither has a stop. -/
theorem stop (reason : Halt) : Notes barred Anyhow (throw reason : Run W α) (throw reason) := by
  intro s
  exact ⟨[], congrArg (Prod.mk (Except.error reason)) s.withMoments_plain.symm, List.isChain_singleton _, trivial⟩

/-- The scope may be looked at. -/
theorem get {f : Scope W → Run W α} {f' : Scope (Noted W) → Run (Noted W) α} (h : ∀ s, Notes barred Anyhow (f s.plain) (f' s)) :
    Notes barred Anyhow (MonadState.get >>= f) (MonadState.get >>= f') := fun s => h s s

/-- One part behind another: the moments of the second are a chain with those of the first. -/
theorem bind {f : α → Run W β} {f' : α → Run (Noted W) β} (hm : Notes barred P m m')
    (hP : ∀ w ms more, P w ms → P w (ms ++ more)) (hf : ∀ a, Notes barred Anyhow (f a) (f' a)) :
    Notes barred P (m >>= f) (m' >>= f') := by
  intro s
  obtain ⟨ms, hm', hchain, hms⟩ := hm s
  rcases Run.cases m s.plain with ⟨a, b, h⟩ | ⟨reason, b, h⟩
  · rw [h] at hm' hchain
    have hfront : ((Moment.idle s.world.world :: ms) ++ [Moment.idle b.world]).IsChain (Moment.Next barred) := hchain
    obtain ⟨more, hf', hmore, -⟩ := hf a (s.withMoments b ms)
    refine ⟨ms ++ more, ?_, ?_, hP _ _ _ hms⟩
    · rw [Run.bind_ok hm', Run.bind_ok h, hf', Scope.withMoments_withMoments]
      rfl
    · rw [Run.bind_ok h]
      have hback : Unbroken barred b.world more (f a b).1 (f a b).2.world := hmore
      unfold Unbroken at hback ⊢
      cases hr : (f a b).1 with
      | ok c =>
        rw [hr] at hback
        simpa using Moment.isChain_across hfront hback
      | error reason =>
        rw [hr] at hback
        simpa using Moment.isChain_across hfront hback
  · rw [h] at hm' hchain
    refine ⟨ms, ?_, ?_, hms⟩
    · rw [Run.bind_error hm', Run.bind_error h]
    · rw [Run.bind_error h]
      exact hchain

end Notes

/-- Parts of a run and the same parts with a chain of moments. -/
def noteLink (W : Type) (barred : W → Prop) : Link W (Noted W) where
  Rel m m' := Notes barred Anyhow m m'
  pure := Notes.pure
  stop reason _ := Notes.stop reason
  bind hm hf := hm.bind (fun _ _ _ => id) hf

section

variable {barred : W → Prop} {host : Host W}

/-- A part beside the moments may be taken as one with variables. -/
theorem Run.ofAct_beside (a : Act W α) : Run.ofAct a.beside = (Run.ofAct a).beside := by
  funext s
  simp only [Run.ofAct, Run.beside, Act.beside, Scope.withMoments, Scope.plain, List.append_nil]

/-- What keeps the run barred once it is makes no break in the chain. -/
theorem notes_act {a : Act W α} (h : ∀ w, barred w → barred (a w).2) :
    Notes barred Anyhow (Run.ofAct a) (Run.ofAct a.beside) := by
  rw [Run.ofAct_beside]
  exact Notes.beside fun s hs => h s.world hs

/-- To bind a local variable is nothing that is noted. -/
theorem notes_bind (n : String) (v : Value) : Notes barred Anyhow (Host.bind n v) (Host.bind n v) := by
  have hbeside : (Host.bind n v : Run (Noted W) Unit) = (Host.bind n v : Run W Unit).beside := by
    funext s
    simp only [Host.bind, Run.modify_apply, Run.beside, Scope.withMoments, Scope.plain, List.append_nil]
  rw [hbeside]
  exact Notes.beside fun s hs => hs

/-- All in all, a host that lasts takes down an unbroken chain, whatever is asked of it. -/
theorem noteHosts (h : host.Lasting barred) : (noteLink W barred).Hosts host host.noted fun _ => True where
  askToken := Notes.get fun _ => Notes.pure _
  overdue := notes_act (a := liftM host.overdue?) h.overdue
  veto node _ := notes_act (h.veto node)
  readName n _ := by
    rw [Host.readName_eq, Host.readName_eq]
    exact Notes.get fun _ => Notes.pure _
  readGlobal key _ := Notes.get fun _ => Notes.pure _
  offerPlaceholder n args := notes_act (h.offerPlaceholder n args)
  callPlaceholder n args := Notes.get fun s => by
    show Notes barred Anyhow ((host.placeholder? n s.world.world).elim _ _)
      (((host.placeholder? n s.world.world).map _).elim _ _)
    cases hact : host.placeholder? n s.world.world with
    | none => exact Notes.pure _
    | some act => exact notes_act (h.placeholder n _ act hact args)
  bind n v _ := notes_bind n v
  writeGlobal key v _ := notes_act (h.writeGlobal key v)
  offerCommand n args := Notes.beside (h.offerCommand n args)
  callCommand n args := Notes.get fun s => by
    show Notes barred Anyhow ((host.command? n s.world.world).elim _ _)
      (((host.command? n s.world.world).map _).elim _ _)
    cases hact : host.command? n s.world.world with
    | none => exact Notes.stop _
    | some act => exact notes_act (h.command n _ act hact args)

/-- A part beside the moments does to the plain scope what it does alone. -/
theorem Run.beside_apply (m : Run W α) (s : Scope (Noted W)) : m.beside s = ((m s.plain).1, s.withMoments (m s.plain).2 []) := rfl

/-- Two parts beside the moments are both beside them. -/
theorem Run.beside_bind (m : Run W α) (f : α → Run W β) : (m >>= f).beside = m.beside >>= fun a => (f a).beside := by
  funext s
  rw [Run.bind_apply, Run.beside_apply, Run.beside_apply, Run.bind_apply]
  rcases m s.plain with ⟨reason | a, b⟩
  · rfl
  · show (_, Scope.withMoments _ _ _) = (_, Scope.withMoments _ _ _)
    rw [Scope.withMoments_withMoments]
    rfl

/-- Parts of a run and the same parts with nothing taken down. -/
def besideLink (W : Type) : Link W (Noted W) where
  Rel m m' := m' = m.beside
  pure a := funext fun s => congrArg (Prod.mk (Except.ok a)) s.withMoments_plain.symm
  stop reason _ := funext fun s => congrArg (Prod.mk (Except.error reason)) s.withMoments_plain.symm
  bind hm hf := by
    rw [Run.beside_bind, hm]
    exact bind_congr hf

/-- The checks themselves take down nothing. -/
theorem noted_enter (host : Host W) (node : Node) : host.noted.enter node = (host.enter node).beside := by
  refine (besideLink W).enter ?_ ?_ (Run.ofAct_beside (host.veto node))
  · funext s
    exact congrArg (Prod.mk (Except.ok (host.isCancelled s.world.world))) s.withMoments_plain.symm
  · exact Run.ofAct_beside (liftM host.overdue?)

/-- A check that is made while runs are held up stops the run. -/
theorem Host.Held.stops {s : Scope W} (h : host.Held s.world) (node : Node) :
    ∃ reason s', host.enter node s = (.error reason, s') := by
  rw [Host.enter_eq]
  cases hcancelled : host.isCancelled s.world with
  | true =>
    have htoken : host.askToken s = (.ok true, s) := congrArg (fun c => (Except.ok c, s)) hcancelled
    exact ⟨.cancelled, s, Run.bind_ok htoken⟩
  | false =>
    have htoken : host.askToken s = (.ok false, s) := congrArg (fun c => (Except.ok c, s)) hcancelled
    rw [Run.bind_ok htoken]
    show ∃ reason s', host.consult node s = (.error reason, s')
    rw [Host.consult_eq]
    have hclock : Run.ofAct (liftM host.overdue?) s =
        (.ok (host.overdue? s.world).1, ⟨s.locals, (host.overdue? s.world).2⟩) := rfl
    rw [Run.bind_ok hclock]
    cases hoverdue : (host.overdue? s.world).1 with
    | some timeout => exact ⟨_, _, rfl⟩
    | none =>
      have hrefused : ∀ node, (host.veto node (host.overdue? s.world).2).1 = .ok true := by
        rcases h with h | h | h
        · rw [hcancelled] at h
          cases h
        · rw [hoverdue] at h
          cases h
        · exact h
      have hveto : Run.ofAct (host.veto node) ⟨s.locals, (host.overdue? s.world).2⟩ =
          (.ok true, ⟨s.locals, (host.veto node (host.overdue? s.world).2).2⟩) :=
        congrArg (fun r => (r, _)) (hrefused node)
      exact ⟨_, _, Run.bind_ok hveto⟩

/-- Entering a node takes down the check, and goes on only if that was not made under the condition. -/
theorem leads_enter (h : host.Lasting barred) (node : Node) :
    Notes barred Leading (host.enter node) (host.enterNoted node) := by
  intro s
  have hrun : host.enterNoted node s = ((host.enter node s.plain).1,
      s.withMoments (host.enter node s.plain).2 [⟨some (.check node), s.world.world⟩]) := by
    show host.noted.enter node (s.withMoments s.plain [⟨some (.check node), s.world.world⟩]) = _
    rw [noted_enter, Run.beside_apply, Scope.withMoments_withMoments, List.append_nil]
    rfl
  refine ⟨_, hrun, ?_, node, [], rfl⟩
  have hfirst : Moment.Next barred (.idle s.world.world) ⟨some (.check node), s.world.world⟩ := Moment.next_idle id
  rcases Run.cases (host.enter node) s.plain with ⟨u, b, henter⟩ | ⟨reason, b, henter⟩
  · have hopen : ¬barred s.world.world := by
      intro hbarred
      obtain ⟨reason, b, hstop⟩ := (h.held _ hbarred).stops (s := s.plain) node
      cases hstop.symm.trans henter
    have hnext : Moment.Next barred ⟨some (.check node), s.world.world⟩ (.idle b.world) := by
      refine ⟨?_, fun hbarred => absurd hbarred hopen, fun _ => hopen⟩
      rintro ⟨loop, hloop, -⟩
      cases hloop
    rw [henter]
    exact List.isChain_cons_cons.mpr ⟨hfirst, List.isChain_pair.mpr hnext⟩
  · rw [henter]
    exact List.isChain_pair.mpr hfirst

/-! ## Passes -/

/-- A pass begins in front of a check. -/
theorem Notes.pass {m : Run W α} {m' : Run (Noted W) α} (h : Notes barred Leading m m') (loop : Statement) :
    Notes barred Anyhow m (Run.note (.pass loop) >>= fun _ => m') := by
  intro s
  let begun : Moment W := ⟨some (.pass loop), s.world.world⟩
  obtain ⟨ms, hm', hchain, node, more, rfl⟩ := h (s.withMoments s.plain [begun])
  have hfirst : Moment.Next barred (.idle s.world.world) begun := Moment.next_idle id
  have hsecond : Moment.Next barred begun ⟨some (.check node), s.world.world⟩ := by
    refine ⟨fun _ => ⟨node, rfl⟩, id, ?_⟩
    rintro ⟨other, hother⟩
    cases hother
  refine ⟨begun :: ⟨some (.check node), s.world.world⟩ :: more, ?_, ?_, trivial⟩
  · show m' (s.withMoments s.plain [begun]) = _
    rw [hm', Scope.withMoments_withMoments]
    rfl
  · have hchain : Unbroken barred s.world.world (⟨some (.check node), s.world.world⟩ :: more) (m s.plain).1 (m s.plain).2.world :=
      hchain
    unfold Unbroken at hchain ⊢
    cases hr : (m s.plain).1 with
    | ok a =>
      rw [hr] at hchain
      exact List.isChain_cons_cons.mpr ⟨hfirst, List.isChain_cons_cons.mpr ⟨hsecond, (List.isChain_cons_cons.mp hchain).2⟩⟩
    | error reason =>
      rw [hr] at hchain
      exact List.isChain_cons_cons.mpr ⟨hfirst, List.isChain_cons_cons.mpr ⟨hsecond, (List.isChain_cons_cons.mp hchain).2⟩⟩

/-- A pass of a hollow loop is nothing but its beginning. -/
theorem Notes.hollowPass (loop : Statement) (h : loop.Hollow) (a : α) :
    Notes barred Anyhow (Pure.pure a : Run W α) (Run.note (.pass loop) >>= fun _ => Pure.pure a) := by
  intro s
  have hnext : Moment.Next barred ⟨some (.pass loop), s.world.world⟩ (.idle s.world.world) := by
    refine ⟨?_, id, ?_⟩
    · rintro ⟨other, hother, hfull⟩
      cases hother
      exact absurd h hfull
    · rintro ⟨node, hnode⟩
      cases hnode
  exact ⟨[⟨some (.pass loop), s.world.world⟩], rfl,
    List.isChain_cons_cons.mpr ⟨Moment.next_idle id, List.isChain_pair.mpr hnext⟩, trivial⟩

/-- The interpreter keeps the chain. -/
theorem notes_linked (h : host.Lasting barred) :
    Linked (noteLink W barred) host host.enter host.noted host.enterNoted fun _ => True :=
  (noteHosts h).linked fun node _ => (leads_enter h node).anyhow

/-- What begins with a node is led by the check for that. -/
theorem Notes.enter {f : Unit → Run W α} {f' : Unit → Run (Noted W) α} (h : host.Lasting barred) (node : Node)
    (hf : ∀ u, Notes barred Anyhow (f u) (f' u)) : Notes barred Leading (host.enter node >>= f) (host.enterNoted node >>= f') :=
  (leads_enter h node).bind (fun _ _ more hleading => hleading.append more) hf

/-- An expression begins with the check of its node. -/
theorem leads_evaluate (h : host.Lasting barred) (e : Expression) :
    Notes barred Leading (host.evaluate host.enter e) (host.noted.evaluate host.enterNoted e) := by
  obtain ⟨rest, rest', hrest, hrest', hnotes⟩ := (notes_linked h).entered e fun _ _ => trivial
  rw [hrest, hrest']
  exact .enter h _ fun _ => hnotes

/-- The interpreter with passes taken down. -/
abbrev Host.executeNoted (host : Host W) (fuel : Nat) (s : Statement) : Run (Noted W) Signal :=
  host.noted.executeNoting host.enterNoted (fun loop => Run.note (.pass loop)) fuel s

abbrev Host.executeAllNoted (host : Host W) (fuel : Nat) (ss : List Statement) : Run (Noted W) Signal :=
  host.noted.executeAllNoting host.enterNoted (fun loop => Run.note (.pass loop)) fuel ss

mutual

/-- A statement begins with the check for its node. -/
theorem notes_execute (h : host.Lasting barred) (fuel : Nat) (s : Statement) :
    Notes barred Leading (host.execute host.enter fuel s) (host.executeNoted fuel s) := by
  have hlinked := notes_linked h
  have hdry : (noteLink W barred).Rel (α := Signal) (throw .outOfFuel) (throw .outOfFuel) := Notes.stop _
  cases s with
  | assign p target value =>
    unfold Host.execute Host.executeNoting
    refine .enter h _ fun _ => ?_
    have hassign : (noteLink W barred).Rel (host.assign host.enter target value) (host.noted.assign host.enterNoted target value) :=
      hlinked.assign (p := p) trivial (fun _ _ => trivial) fun _ _ => trivial
    exact (noteLink W barred).bind hassign fun _ => Notes.pure _
  | ifElse p condition thenBody elseBody =>
    unfold Host.execute Host.executeNoting
    refine .enter h _ fun _ => (noteLink W barred).bind (leads_evaluate h condition).anyhow fun c => ?_
    split
    · exact (notes_executeAll h fuel thenBody).anyhow
    · cases elseBody with
      | none => exact Notes.pure _
      | some body => exact (notes_executeAll h fuel body).anyhow
  | whileLoop p condition body =>
    unfold Host.execute Host.executeNoting
    refine .enter h _ fun _ => ?_
    exact Link.whilePasses_same hdry ((leads_evaluate h condition).pass _) (notes_executeAll h fuel body).anyhow fuel
  | forLoop p counter start stop body =>
    unfold Host.execute Host.executeNoting
    refine .enter h _ fun _ => (noteLink W barred).bind (leads_evaluate h start).anyhow fun v => ?_
    refine (noteLink W barred).bind ((noteLink W barred).boundOf v) fun i => ?_
    refine (noteLink W barred).bind (leads_evaluate h stop).anyhow fun w => ?_
    refine (noteLink W barred).bind ((noteLink W barred).boundOf w) fun j => ?_
    have hbody : Notes barred Anyhow (host.executeAll host.enter fuel body)
        (Run.note (.pass (.forLoop p counter start stop body)) >>= fun _ => host.executeAllNoted fuel body) := by
      cases body with
      | nil =>
        unfold Host.executeAll Host.executeAllNoted Host.executeAllNoting
        exact Notes.hollowPass (.forLoop p counter start stop []) trivial Signal.none
      | cons s rest =>
        exact ((notes_executeAll h fuel (s :: rest)).mono fun w ms hms => hms (List.cons_ne_nil s rest)).pass _
    exact hlinked.forPasses ⟨.statement (.forLoop p counter start stop body), trivial, rfl⟩ hbody _ _
  | block p body =>
    unfold Host.execute Host.executeNoting
    exact .enter h _ fun _ => (notes_executeAll h fuel body).anyhow
  | command p n args =>
    unfold Host.execute Host.executeNoting
    refine .enter h _ fun _ => ?_
    have hrun := hlinked.runCommand p n args trivial (hlinked.evaluateAll args fun _ _ => trivial)
    have hcommand := (noteLink W barred).bind hrun fun _ => Notes.pure Signal.none
    rw [bind_assoc, bind_assoc] at hcommand
    exact hcommand
  | breakLoop p | continueLoop p | returnScript p =>
    unfold Host.execute Host.executeNoting
    exact .enter h _ fun _ => Notes.pure _
  | expression p value =>
    unfold Host.execute Host.executeNoting
    exact .enter h _ fun _ => (noteLink W barred).bind (leads_evaluate h value).anyhow fun _ => Notes.pure _

/-- So do statements, if there are any. -/
theorem notes_executeAll (h : host.Lasting barred) (fuel : Nat) (ss : List Statement) :
    Notes barred (fun w ms => ss ≠ [] → Leading w ms) (host.executeAll host.enter fuel ss) (host.executeAllNoted fuel ss) := by
  cases ss with
  | nil =>
    unfold Host.executeAll Host.executeAllNoted Host.executeAllNoting
    exact (Notes.pure _).mono fun _ _ _ hne => absurd rfl hne
  | cons s rest =>
    unfold Host.executeAll Host.executeAllNoted Host.executeAllNoting
    refine ((notes_execute h fuel s).bind (fun _ _ more hleading => hleading.append more) fun signal => ?_).mono
      fun _ _ hleading _ => hleading
    cases signal with
    | none => exact (notes_executeAll h fuel rest).anyhow
    | _ => exact Notes.pure _

end

end

/-- The moments that are taken down in a run of statements. -/
def Host.momentsOf (host : Host W) (fuel : Nat) (ss : List Statement) (s : Scope W) : List (Moment W) :=
  (host.executeAllNoted fuel ss s.noted).2.world.moments

/-- What is taken down does not change the run, and it is a chain from its beginning to its end. -/
theorem unbroken_executeAll {host : Host W} {barred : W → Prop} (h : host.Lasting barred) (fuel : Nat) (ss : List Statement)
    (s : Scope W) :
    host.executeAllNoted fuel ss s.noted =
        ((host.executeAll host.enter fuel ss s).1, s.noted.withMoments (host.executeAll host.enter fuel ss s).2 (host.momentsOf fuel ss s)) ∧
      Unbroken barred s.world (host.momentsOf fuel ss s) (host.executeAll host.enter fuel ss s).1
        (host.executeAll host.enter fuel ss s).2.world := by
  obtain ⟨ms, hrun, hchain, -⟩ := notes_executeAll h fuel ss s.noted
  have hms : host.momentsOf fuel ss s = ms := by
    unfold Host.momentsOf
    rw [hrun]
    exact List.nil_append ms
  rw [hms]
  exact ⟨hrun, hchain⟩

/-- Moments that are unbroken are a chain. -/
theorem Unbroken.isChain {barred : W → Prop} {w w' : W} {ms : List (Moment W)} {r : Except Halt α} (h : Unbroken barred w ms r w') :
    ms.IsChain (Moment.Next barred) := by
  cases r with
  | ok a =>
    have hall : ((Moment.idle w :: ms) ++ [Moment.idle w']).IsChain (Moment.Next barred) := h
    exact (List.isChain_append.mp hall).1.tail
  | error reason => exact List.IsChain.tail h

/-- A run whose last check is made under the condition does not go on. -/
theorem Unbroken.error_of_isCheck {barred : W → Prop} {w w' : W} {before : List (Moment W)} {a : Moment W} {r : Except Halt α}
    (h : Unbroken barred w (before ++ [a]) r w') (hcheck : a.IsCheck) (hbarred : barred a.world) : ∃ reason, r = .error reason := by
  cases r with
  | ok b =>
    have hall : ((Moment.idle w :: before) ++ [a, Moment.idle w']).IsChain (Moment.Next barred) := by
      have hall : ((Moment.idle w :: (before ++ [a])) ++ [Moment.idle w']).IsChain (Moment.Next barred) := h
      simpa using hall
    obtain ⟨-, hend, -⟩ := List.isChain_append.mp hall
    exact absurd hbarred ((List.isChain_cons_cons.mp hend).1.stops hcheck)
  | error reason => exact ⟨reason, rfl⟩

/-- Between the beginning of a pass of any loop but a hollow one and that of the next pass of any loop there is a check. Once a
condition under which runs are held up has come for good, the next check ends the run, and at most one more pass begins, of all
loops together, before there is that check. -/
theorem passes_checked (host : Host W) (fuel : Nat) (ss : List Statement) (s : Scope W) :
    let run := host.executeAll host.enter fuel ss s
    let ms := host.momentsOf fuel ss s
    host.executeAllNoted fuel ss s.noted = (run.1, s.noted.withMoments run.2 ms) ∧
      (∀ before a between b after, ms = before ++ (a :: between ++ b :: after) → a.Begins → b.IsPass → ∃ c ∈ between, c.IsCheck) ∧
      ∀ barred, host.Lasting barred →
        (∀ before a after, ms = before ++ a :: after → a.IsCheck → barred a.world → after = [] ∧ ∃ reason, run.1 = .error reason) ∧
        ∀ before a after, ms = before ++ a :: after → barred a.world → (a :: after).Pairwise fun b c => ¬(b.Begins ∧ c.Begins) := by
  intro run ms
  have hnever : host.Lasting fun _ => False :=
    { held := fun _ h => h.elim, overdue := fun _ h => h.elim, veto := fun _ _ h => h.elim, offerCommand := fun _ _ _ h => h.elim,
      command := fun _ _ _ _ _ _ h => h.elim, offerPlaceholder := fun _ _ _ h => h.elim,
      placeholder := fun _ _ _ _ _ _ h => h.elim, writeGlobal := fun _ _ _ h => h.elim }
  obtain ⟨hrun, hfree⟩ := unbroken_executeAll hnever fuel ss s
  refine ⟨hrun, ?_, ?_⟩
  · intro before a between b after hms
    have hchain := hfree.isChain
    change ms.IsChain _ at hchain
    rw [hms] at hchain
    exact Moment.exists_isCheck (List.isChain_append.mp hchain).2.1
  · intro barred hlasting
    obtain ⟨-, hunbroken⟩ := unbroken_executeAll hlasting fuel ss s
    have hfrom (before a after) (hms : ms = before ++ a :: after) : (a :: after).IsChain (Moment.Next barred) := by
      have hchain : ms.IsChain (Moment.Next barred) := hunbroken.isChain
      rw [hms] at hchain
      exact (List.isChain_append.mp hchain).2.1
    refine ⟨?_, ?_⟩
    · intro before a after hms hcheck hbarred
      obtain rfl := Moment.eq_nil_of_isCheck (hfrom before a after hms) hcheck hbarred
      have hend : Unbroken barred s.world ms run.1 run.2.world := hunbroken
      rw [hms] at hend
      exact ⟨rfl, hend.error_of_isCheck hcheck hbarred⟩
    · intro before a after hms hbarred
      exact Moment.pairwise_of_barred (List.isChain_cons_cons.mpr ⟨Moment.next_idle id, hfrom before a after hms⟩) hbarred

/-- The interpreter begins a pass. -/
def Moment.passes (m : Moment W) : Bool :=
  match m.motion with
  | some (.pass _) => true
  | _ => false

/-- A host with nothing registered, behind a hook that cancels the run while it is asked about the `k`-th node. -/
def Host.cancelled (k : Nat) : Host (Watched Unit) :=
  let host : Host Unit :=
    { isCancelled := fun _ => false, overdue? := pure none, veto := fun _ => pure false, offerCommand := fun _ _ => pure false,
      command? := fun _ _ => none, offerPlaceholder := fun _ _ => pure none, placeholder? := fun _ _ => none,
      readGlobal? := fun _ _ => none, writeGlobal := fun _ _ => pure () }
  host.watch (cancelling k)

/-- What the hook has cancelled stays cancelled. -/
theorem lasting_cancelled (k : Nat) : (Host.cancelled k).Lasting fun w => w.cancelled = true where
  held w h := .inl h
  overdue _ h := h
  veto node w h := by
    show ((Host.cancelling k (w.entered + 1)).give { w with entered := w.entered + 1 }).2.cancelled = true
    unfold Host.cancelling
    split
    · rfl
    · exact h
  offerCommand _ _ _ h := h
  command _ _ _ hact := nomatch hact
  offerPlaceholder _ _ _ h := h
  placeholder _ _ _ hact := nomatch hact
  writeGlobal _ _ _ h := h

/-- A loop with a pass for each number is cancelled at the first statement of its body, and ends at the check behind that. -/
theorem passes_checked_cancelled :
    let host := Host.cancelled 4
    let s : Scope (Watched Unit) := Scope.watched ⟨∅, ()⟩
    ∃ script, Script.parse "FOR i = 0 : 9 \x7b x = i \x7d" = .ok script ∧
      (host.momentsOf 0 script.statements s).map (fun m => (m.passes, m.world.cancelled)) =
        [(false, false), (false, false), (false, false), (true, false), (false, false), (false, true)] ∧
      host.Lasting (fun w => w.cancelled = true) ∧
      ∀ before a after, host.momentsOf 0 script.statements s = before ++ a :: after → a.world.cancelled = true →
        (a :: after).Pairwise fun b c => ¬(b.Begins ∧ c.Begins) := by
  intro host s
  have hrun : (Script.parse "FOR i = 0 : 9 \x7b x = i \x7d").toOption.any fun script =>
      (host.momentsOf 0 script.statements s).map (fun m => (m.passes, m.world.cancelled)) =
        [(false, false), (false, false), (false, false), (true, false), (false, false), (false, true)] := by
    decide +kernel
  obtain ⟨script, hscript, htest⟩ := Script.exists_of_any hrun
  refine ⟨script, hscript, of_decide_eq_true htest, lasting_cancelled 4, ?_⟩
  exact ((passes_checked host 0 script.statements s).2.2 _ (lasting_cancelled 4)).2

/-- A loop that is cancelled before its first pass goes on to its last one: its body is empty, and there is no check from the first
pass on. -/
theorem passes_checked_false :
    let host := Host.cancelled 3
    let s : Scope (Watched Unit) := Scope.watched ⟨∅, ()⟩
    ∃ script, Script.parse "FOR i = 0 : 5 \x7b \x7d" = .ok script ∧ host.Lasting (fun w => w.cancelled = true) ∧
      (host.momentsOf 0 script.statements s).map (fun m => (m.passes, m.world.cancelled)) =
        [(false, false), (false, false), (false, false), (true, true), (true, true), (true, true), (true, true), (true, true)] ∧
      (host.executeAll host.enter 0 script.statements s).1.toOption = some .none := by
  intro host s
  have hrun : (Script.parse "FOR i = 0 : 5 \x7b \x7d").toOption.any fun script =>
      (host.momentsOf 0 script.statements s).map (fun m => (m.passes, m.world.cancelled)) =
        [(false, false), (false, false), (false, false), (true, true), (true, true), (true, true), (true, true), (true, true)] ∧
      (host.executeAll host.enter 0 script.statements s).1.toOption = some .none := by
    decide +kernel
  obtain ⟨script, hscript, htest⟩ := Script.exists_of_any hrun
  obtain ⟨hmoments, hresult⟩ := of_decide_eq_true htest
  exact ⟨script, hscript, lasting_cancelled 3, hmoments, hresult⟩

end EventScript
