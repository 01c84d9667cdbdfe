import EventScript.Extension.Loading
import EventScript.Proofs.Globals.Contents
import EventScript.Proofs.Registries

/-!
# Loads of extension scripts that fail

All scripts of a directory are read before the first of them is compiled, but each is registered as soon as it is compiled. What
a load that fails has registered by then stays registered: the scripts in front of the one that cannot be compiled, and all
commands if that one is a placeholder.
-/

namespace EventScript

namespace Registry

variable {α : Type}

/-- The registry with entries registered one after the other. -/
def insertAll (r : Registry α) (entries : List (String × α)) : Registry α := entries.foldl (fun r p => r.insert p.1 p.2) r

/-- The last of these entries whose name the registry does not tell from the given one. -/
def lastOf (r : Registry α) (entries : List (String × α)) (name : String) : Option α :=
  (entries.reverse.find? fun p => r.fold p.1 == r.fold name).map (·.2)

/-- The last entry of a name is among the later ones, or is the first if its name is the same but for case. -/
theorem lastOf_cons (r : Registry α) (p : String × α) (entries : List (String × α)) (n : String) :
    r.lastOf (p :: entries) n = (r.lastOf entries n).or (if r.fold p.1 = r.fold n then some p.2 else none) := by
  unfold lastOf
  rw [List.reverse_cons, List.find?_append]
  by_cases hp : r.fold p.1 = r.fold n
  · cases entries.reverse.find? fun p => r.fold p.1 == r.fold n <;> simp [hp]
  · cases entries.reverse.find? fun p => r.fold p.1 == r.fold n <;> simp [hp]

/-- A name resolves to the last of the entries that were registered under it, and to what it did before if there is none. -/
theorem get?_insertAll (r : Registry α) (entries : List (String × α)) (n : String) :
    (r.insertAll entries).get? n = (r.lastOf entries n).or (r.get? n) := by
  induction entries generalizing r with
  | nil => rfl
  | cons p rest ih =>
    show ((r.insert p.1 p.2).insertAll rest).get? n = _
    have hfold : (r.insert p.1 p.2).lastOf rest n = r.lastOf rest n := rfl
    rw [ih, hfold, lastOf_cons, get?_insert, Option.or_assoc]
    by_cases hp : r.fold p.1 = r.fold n
    · rw [if_pos hp, if_pos hp, Option.some_or]
    · rw [if_neg hp, if_neg hp, Option.none_or]

/-- A registry resolves names as another one did, but for those of the entries that were registered in it since. -/
def Gains (r : Registry α) (entries : List (String × α)) (r' : Registry α) : Prop :=
  ∀ n, r'.get? n = (r.lastOf entries n).or (r.get? n)

/-- A registry that entries are put into gains these entries. -/
theorem gains_insertAll (r : Registry α) (entries : List (String × α)) : r.Gains entries (r.insertAll entries) :=
  fun n => r.get?_insertAll entries n

end Registry

namespace Extension

variable {H α : Type} {compile : String → String → Except Fault α} {register : String → α → Engine H → Engine H}
variable {directory : Path} {files : Files} {e e' : Engine H} {f : Fault}

/-! ## Reading -/

/-- Scripts are read in the order of their names. -/
theorem readSources_sorted {sources : List Source} (h : (readSources directory files).1 = .ok sources) :
    sources.Pairwise fun s t => s.name ≤ t.name := by
  have hread : readSources directory files = (.ok sources, (readSources directory files).2) := Prod.ext h rfl
  unfold readSources at hread
  obtain ⟨root, files₁, -, hread⟩ := Run.ok_of_bind hread
  obtain ⟨names, files₂, -, hread⟩ := Run.ok_of_bind hread
  obtain ⟨found, files₃, -, hread⟩ := Run.ok_of_bind hread
  cases hread
  refine (List.pairwise_mergeSort ?_ ?_ found).imp fun {s t} hst => ?_
  · intro s t u hst htu
    simp only [Bool.not_eq_true', decide_eq_false_iff_not, String.not_lt] at hst htu ⊢
    exact String.le_trans hst htu
  · intro s t
    simp only [Bool.or_eq_true, Bool.not_eq_true', decide_eq_false_iff_not, String.not_lt]
    exact String.le_total s.name t.name
  · simpa only [Bool.not_eq_true', decide_eq_false_iff_not, String.not_lt] using hst

/-! ## Registering -/

/-- What a script is compiled to, with its name. -/
def Source.compiled (compile : String → String → Except Fault α) (s : Source) : Except Fault (String × α) :=
  (compile s.name s.text).map fun entry => (s.name, entry)

/-- The engine with entries registered one after the other. -/
def registered (register : String → α → Engine H → Engine H) (entries : List (String × α)) (e : Engine H) : Engine H :=
  entries.foldl (fun e p => register p.1 p.2 e) e

/-- Where a script does not compile, those in front of it have been registered and no others. -/
theorem registerAll_error {sources : List Source} (h : registerAll compile register sources e = (.error f, e')) :
    ∃ before s after fault entries, sources = before ++ s :: after ∧ before.mapM (Source.compiled compile) = .ok entries ∧
      compile s.name s.text = .error fault ∧ f = .scriptLoad s.path.text fault ∧ e' = registered register entries e := by
  induction sources generalizing e with
  | nil => cases h
  | cons s rest ih =>
    unfold registerAll at h
    cases hcompile : compile s.name s.text with
    | error fault =>
      rw [hcompile] at h
      cases h
      exact ⟨[], s, rest, fault, [], rfl, rfl, hcompile, rfl, rfl⟩
    | ok entry =>
      rw [hcompile] at h
      dsimp only at h
      rw [Run.bind_ok (Run.modify_apply _ e)] at h
      obtain ⟨before, t, after, fault, entries, hsources, hbefore, hfault, hf, he'⟩ := ih h
      refine ⟨s :: before, t, after, fault, (s.name, entry) :: entries, ?_, ?_, hfault, hf, he'⟩
      · rw [hsources, List.cons_append]
      · rw [List.mapM_cons, hbefore, Source.compiled, hcompile]
        rfl

/-- The first script that does not compile decides the fault, and those in front of it stay registered. -/
theorem registerAll_of_fault {before after : List Source} {s : Source} {fault : Fault} {entries : List (String × α)}
    (hbefore : before.mapM (Source.compiled compile) = .ok entries) (hfault : compile s.name s.text = .error fault)
    (e : Engine H) :
    registerAll compile register (before ++ s :: after) e =
      (.error (.scriptLoad s.path.text fault), registered register entries e) := by
  induction before generalizing e entries with
  | nil =>
    cases hbefore
    rw [List.nil_append, registerAll, hfault]
    rfl
  | cons t rest ih =>
    rw [List.mapM_cons, Source.compiled] at hbefore
    cases hcompile : compile t.name t.text with
    | error other =>
      rw [hcompile] at hbefore
      cases hbefore
    | ok entry =>
      rw [hcompile] at hbefore
      cases hrest : rest.mapM (Source.compiled compile) with
      | error other =>
        rw [hrest] at hbefore
        cases hbefore
      | ok others =>
        rw [hrest] at hbefore
        cases hbefore
        rw [List.cons_append, registerAll, hcompile]
        dsimp only
        rw [Run.bind_ok (Run.modify_apply _ e)]
        exact ih hrest _

/-- Where loading goes well every script has compiled, and all of them have been registered. -/
theorem registerAll_ok {sources : List Source} (h : registerAll compile register sources e = (.ok (), e')) :
    ∃ entries, sources.mapM (Source.compiled compile) = .ok entries ∧ e' = registered register entries e := by
  induction sources generalizing e with
  | nil =>
    cases h
    exact ⟨[], rfl, rfl⟩
  | cons s rest ih =>
    unfold registerAll at h
    cases hcompile : compile s.name s.text with
    | error fault =>
      rw [hcompile] at h
      cases h
    | ok entry =>
      rw [hcompile] at h
      dsimp only at h
      rw [Run.bind_ok (Run.modify_apply _ e)] at h
      obtain ⟨entries, hrest, he'⟩ := ih h
      refine ⟨(s.name, entry) :: entries, ?_, he'⟩
      rw [List.mapM_cons, hrest, Source.compiled, hcompile]
      rfl

/-! ## Loading a directory -/

/-- The scripts of a directory can all be read and compiled, to these entries in the order of their names. -/
def Loads (compile : String → String → Except Fault α) (directory : Path) (files : Files)
    (entries : List (String × α)) : Prop :=
  ∃ sources, (readSources directory files).1 = .ok sources ∧ sources.mapM (Source.compiled compile) = .ok entries

/-- The load of a directory ends in this fault, and these are the entries of the scripts that are compiled before that. -/
inductive Fails (compile : String → String → Except Fault α) (directory : Path) (files : Files) :
    Fault → List (String × α) → Prop
  /-- The directory or a script in it cannot be read. Then none is compiled. -/
  | unread {fault : FileFault} (hread : (readSources directory files).1 = .error fault) :
      Fails compile directory files (.file fault) []
  /-- A script cannot be compiled, but those with smaller names can. -/
  | uncompiled {before after : List Source} {s : Source} {fault : Fault} {entries : List (String × α)}
      (hread : (readSources directory files).1 = .ok (before ++ s :: after)) (hfront : ∀ t ∈ before, t.name ≤ s.name)
      (hback : ∀ t ∈ after, s.name ≤ t.name) (hbefore : before.mapM (Source.compiled compile) = .ok entries)
      (hfault : compile s.name s.text = .error fault) : Fails compile directory files (.scriptLoad s.path.text fault) entries

/-- What is read before anything is registered. -/
theorem filing_readSources (directory : Path) (e : Engine H) :
    Engine.filing (readSources directory) e =
      ((readSources directory e.files).1.mapError .file, { e with files := (readSources directory e.files).2 }) := by
  show (_, _) = _
  unfold Filing.ofAct
  rcases readSources directory e.files with ⟨_ | _, _⟩ <;> rfl

/-- A directory that fails to load leaves the scripts in front of the one that fails registered. -/
theorem loadFrom_error (h : loadFrom compile register directory e = (.error f, e')) :
    ∃ kept, Fails compile directory e.files f kept ∧
      e' = registered register kept { e with files := (readSources directory e.files).2 } := by
  have hfiling := filing_readSources directory e
  unfold loadFrom at h
  cases hread : (readSources directory e.files).1 with
  | error fault =>
    rw [hread] at hfiling
    cases (Run.bind_error hfiling).symm.trans h
    exact ⟨[], .unread hread, rfl⟩
  | ok sources =>
    rw [hread] at hfiling
    rw [Run.bind_ok hfiling] at h
    rcases Run.error_of_bind h with h | ⟨u, t, -, h⟩
    · obtain ⟨before, s, after, fault, kept, rfl, hbefore, hfault, rfl, rfl⟩ := registerAll_error h
      obtain ⟨-, hsorted, hfront⟩ := List.pairwise_append.mp (readSources_sorted hread)
      refine ⟨kept, .uncompiled hread ?_ (fun t => List.rel_of_pairwise_cons hsorted) hbefore hfault, rfl⟩
      intro t ht
      exact hfront t ht s List.mem_cons_self
    · cases h

/-- That is all that makes a load fail. -/
theorem loadFrom_of_fails {kept : List (String × α)} (h : Fails compile directory e.files f kept) :
    loadFrom compile register directory e =
      (.error f, registered register kept { e with files := (readSources directory e.files).2 }) := by
  have hfiling := filing_readSources directory e
  unfold loadFrom
  cases h with
  | unread hread =>
    rw [hread] at hfiling
    exact Run.bind_error hfiling
  | uncompiled hread hfront hback hbefore hfault =>
    rw [hread] at hfiling
    rw [Run.bind_ok hfiling]
    exact Run.bind_error (registerAll_of_fault hbefore hfault _)

/-- A directory that loads has all its scripts registered. -/
theorem loadFrom_ok {n : Nat} (h : loadFrom compile register directory e = (.ok n, e')) :
    ∃ entries, Loads compile directory e.files entries ∧
      e' = registered register entries { e with files := (readSources directory e.files).2 } := by
  have hfiling := filing_readSources directory e
  unfold loadFrom at h
  cases hread : (readSources directory e.files).1 with
  | error fault =>
    rw [hread] at hfiling
    cases (Run.bind_error hfiling).symm.trans h
  | ok sources =>
    rw [hread] at hfiling
    rw [Run.bind_ok hfiling] at h
    obtain ⟨u, t, hregister, h⟩ := Run.ok_of_bind h
    obtain ⟨entries, hcompiled, rfl⟩ := registerAll_ok hregister
    cases h
    exact ⟨entries, ⟨sources, hread, hcompiled⟩, rfl⟩

/-! ## Loading commands and placeholders -/

/-- Commands that are registered one after the other are put into the registry of commands, and nowhere else. -/
theorem registered_commands (entries : List (String × Command H)) (e : Engine H) :
    registered registerCommand entries e = { e with commands := e.commands.insertAll entries } := by
  unfold registered
  induction entries generalizing e with
  | nil => rfl
  | cons p rest ih =>
    rw [List.foldl_cons, ih]
    rfl

/-- Placeholders that are registered one after the other are put into the registry of placeholders, and nowhere else. -/
theorem registered_placeholders (entries : List (String × Placeholder H)) (e : Engine H) :
    registered registerPlaceholder entries e = { e with placeholders := e.placeholders.insertAll entries } := by
  unfold registered
  induction entries generalizing e with
  | nil => rfl
  | cons p rest ih =>
    rw [List.foldl_cons, ih]
    rfl

variable {compileCommand : String → String → Except Fault (Command H)}
variable {compilePlaceholder : String → String → Except Fault (Placeholder H)}

/-- Commands that fail to load leave those in front of the one that fails in the registry. -/
theorem loadCommands_error (h : loadCommands compileCommand directory e = (.error f, e')) :
    ∃ kept, Fails compileCommand directory e.files f kept ∧
      e' = { e with files := (readSources directory e.files).2, commands := e.commands.insertAll kept } := by
  obtain ⟨kept, hfails, he'⟩ := loadFrom_error h
  rw [registered_commands] at he'
  exact ⟨kept, hfails, he'⟩

/-- Commands that load are all put into the registry. -/
theorem loadCommands_ok {n : Nat} (h : loadCommands compileCommand directory e = (.ok n, e')) :
    ∃ entries, Loads compileCommand directory e.files entries ∧
      e' = { e with files := (readSources directory e.files).2, commands := e.commands.insertAll entries } := by
  obtain ⟨entries, hloads, he'⟩ := loadFrom_ok h
  rw [registered_commands] at he'
  exact ⟨entries, hloads, he'⟩

/-- Placeholders that fail to load leave those in front of the one that fails in the registry. -/
theorem loadPlaceholders_error (h : loadPlaceholders compilePlaceholder directory e = (.error f, e')) :
    ∃ kept, Fails compilePlaceholder directory e.files f kept ∧
      e' = { e with files := (readSources directory e.files).2, placeholders := e.placeholders.insertAll kept } := by
  obtain ⟨kept, hfails, he'⟩ := loadFrom_error h
  rw [registered_placeholders] at he'
  exact ⟨kept, hfails, he'⟩

/-- What the scripts of a directory are compiled to, if there is one, and the files once they are read. -/
inductive LoadsIf (compile : String → String → Except Fault α) (files : Files) :
    Option String → List (String × α) → Files → Prop
  | absent : LoadsIf compile files none [] files
  | present {directory : String} {entries : List (String × α)} (h : Loads compile (Path.ofText directory) files entries) :
      LoadsIf compile files (some directory) entries (readSources (Path.ofText directory) files).2

/-- A directory of commands that is configured loads, or there is none and nothing changes. -/
theorem loadIf_commands_ok {directory : Option String} {n : Nat}
    (h : loadIf (loadCommands compileCommand) directory e = (.ok n, e')) :
    ∃ loaded files, LoadsIf compileCommand e.files directory loaded files ∧
      e' = { e with files := files, commands := e.commands.insertAll loaded } := by
  cases directory with
  | none =>
    cases h
    exact ⟨[], e.files, .absent, rfl⟩
  | some directory =>
    obtain ⟨loaded, hloads, he'⟩ := loadCommands_ok h
    exact ⟨loaded, _, .present hloads, he'⟩

/-- Only a directory that is configured fails to load. -/
theorem loadIf_error {load : Path → ExceptT Fault (StateM (Engine H)) Nat} {directory : Option String}
    (h : loadIf load directory e = (.error f, e')) : ∃ d, directory = some d ∧ load (Path.ofText d) e = (.error f, e') := by
  cases directory with
  | none => cases h
  | some d => exact ⟨d, rfl, h⟩

/-- Commands come first, so a fault among the placeholders finds all of them registered. -/
theorem loadBoth_error (h : loadBoth compileCommand compilePlaceholder e = (.error f, e')) :
    (∃ directory, e.settings.scripts.executors = some directory ∧
      loadCommands compileCommand (Path.ofText directory) e = (.error f, e')) ∨
    ∃ directory loaded files, e.settings.scripts.placeholders = some directory ∧
      LoadsIf compileCommand e.files e.settings.scripts.executors loaded files ∧
      loadPlaceholders compilePlaceholder (Path.ofText directory)
        { e with files := files, commands := e.commands.insertAll loaded } = (.error f, e') := by
  unfold loadBoth at h
  rw [Run.get_bind] at h
  rcases Run.error_of_bind h with hcommands | ⟨n, t, hcommands, h⟩
  · exact .inl (loadIf_error hcommands)
  · obtain ⟨loaded, files, hloads, rfl⟩ := loadIf_commands_ok hcommands
    rcases Run.error_of_bind h with h | ⟨m, t, -, h⟩
    · obtain ⟨directory, hdirectory, h⟩ := loadIf_error h
      exact .inr ⟨directory, loaded, files, hdirectory, hloads, h⟩
    · cases h

/-- After a load of extension scripts that ends in a fault, names resolve as before, except those of the scripts that were
compiled before that: the ones in front of the script that cannot be compiled, and all commands if that is a placeholder. If the
scripts of a directory cannot be read, none of them was compiled. -/
theorem load_fault_keeps (compileCommand : String → String → Except Fault (Command H))
    (compilePlaceholder : String → String → Except Fault (Placeholder H)) :
    (∀ (directory : Path) (e e' : Engine H) (f : Fault), loadCommands compileCommand directory e = (.error f, e') →
      ∃ kept, Fails compileCommand directory e.files f kept ∧ e.commands.Gains kept e'.commands ∧
        ∀ n, e'.placeholders.get? n = e.placeholders.get? n) ∧
    (∀ (directory : Path) (e e' : Engine H) (f : Fault), loadPlaceholders compilePlaceholder directory e = (.error f, e') →
      ∃ kept, Fails compilePlaceholder directory e.files f kept ∧ e.placeholders.Gains kept e'.placeholders ∧
        ∀ n, e'.commands.get? n = e.commands.get? n) ∧
    ∀ (e e' : Engine H) (f : Fault), loadBoth compileCommand compilePlaceholder e = (.error f, e') →
      (∃ directory kept, e.settings.scripts.executors = some directory ∧
        Fails compileCommand (Path.ofText directory) e.files f kept ∧ e.commands.Gains kept e'.commands ∧
        ∀ n, e'.placeholders.get? n = e.placeholders.get? n) ∨
      ∃ directory loaded files kept, e.settings.scripts.placeholders = some directory ∧
        LoadsIf compileCommand e.files e.settings.scripts.executors loaded files ∧
        Fails compilePlaceholder (Path.ofText directory) files f kept ∧ e.commands.Gains loaded e'.commands ∧
        e.placeholders.Gains kept e'.placeholders := by
  refine ⟨?_, ?_, ?_⟩
  · intro directory e e' f h
    obtain ⟨kept, hfails, rfl⟩ := loadCommands_error h
    exact ⟨kept, hfails, Registry.gains_insertAll _ _, fun n => rfl⟩
  · intro directory e e' f h
    obtain ⟨kept, hfails, rfl⟩ := loadPlaceholders_error h
    exact ⟨kept, hfails, Registry.gains_insertAll _ _, fun n => rfl⟩
  · intro e e' f h
    rcases loadBoth_error h with ⟨directory, hdirectory, h⟩ | ⟨directory, loaded, files, hdirectory, hloads, h⟩
    · obtain ⟨kept, hfails, rfl⟩ := loadCommands_error h
      exact .inl ⟨directory, kept, hdirectory, hfails, Registry.gains_insertAll _ _, fun n => rfl⟩
    · obtain ⟨kept, hfails, rfl⟩ := loadPlaceholders_error h
      exact .inr ⟨directory, loaded, files, kept, hdirectory, hloads, hfails, Registry.gains_insertAll _ _,
        Registry.gains_insertAll _ _⟩

/-- A directory of commands, `x`, of which the second has no entry, and one of placeholders, `y`. -/
def halfLoadable : Engine Unit :=
  let files : Files :=
    ⟨[(["x"], .directory), (["x", "b.rhai"], .file (.text "fn other() \x7b\x7d")),
      (["x", "a.rhai"], .file (.text "fn execute(ctx, args) \x7b throw \"nope\"; \x7d")),
      (["y"], .directory), (["y", "c.rhai"], .file (.text "fn other() \x7b\x7d"))], 0, fun _ => none⟩
  .new { scripts := { executors := some "x", placeholders := some "y" } } .attached false () (.memory ∅) files (.steady 1)

/-- Two entries that stand the wrong way round are sorted into the other order. -/
theorem mergeSort_pair {le : α → α → Bool} {a b : α} (h : le b a = false) : [b, a].mergeSort le = [a, b] := by
  rw [List.mergeSort]
  simp [h]

/-- The load of the commands in `x` fails at the second of them. -/
theorem fails_halfLoadable : ∃ c : Command Unit, Fails (commandOf "object") ⟨["x"]⟩ halfLoadable.files
    (.scriptLoad "x/b.rhai" (.config (.entryMissing "b" "execute"))) [("a", c)] := by
  let first : Source := ⟨"a", "fn execute(ctx, args) \x7b throw \"nope\"; \x7d", ⟨["x", "a.rhai"]⟩⟩
  let second : Source := ⟨"b", "fn other() \x7b\x7d", ⟨["x", "b.rhai"]⟩⟩
  have hread : (readSources ⟨["x"]⟩ halfLoadable.files).1 = .ok ([first] ++ second :: []) :=
    congrArg Except.ok (mergeSort_pair (by decide))
  have hentry : (entryOf first.name first.text "execute").toOption.isSome = true := by decide +kernel
  obtain ⟨c, hfirst⟩ : ∃ c : Command Unit, commandOf "object" first.name first.text = .ok c := by
    unfold commandOf
    cases hp : entryOf first.name first.text "execute" with
    | error fault =>
      rw [hp] at hentry
      cases hentry
    | ok p => exact ⟨_, rfl⟩
  have hsecond : commandOf "object" second.name second.text = (.error (.config (.entryMissing "b" "execute")) :
      Except Fault (Command Unit)) := by
    have hmissing : entryOf "b" "fn other() \x7b\x7d" "execute" = .error (.config (.entryMissing "b" "execute")) := by rfl
    unfold commandOf
    rw [hmissing]
    rfl
  have hbefore : [first].mapM (Source.compiled (commandOf "object")) = .ok [("a", c)] := by
    rw [List.mapM_cons, Source.compiled, hfirst]
    rfl
  refine ⟨c, .uncompiled hread ?_ ?_ hbefore hsecond⟩
  · decide
  · intro t ht
    cases ht

/-- The load of the placeholders in `y` fails at the first of them. -/
theorem fails_halfLoadable_placeholders : Fails (placeholderOf (H := Unit) "object") ⟨["y"]⟩ halfLoadable.files
    (.scriptLoad "y/c.rhai" (.config (.entryMissing "c" "evaluate"))) [] := by
  let script : Source := ⟨"c", "fn other() \x7b\x7d", ⟨["y", "c.rhai"]⟩⟩
  have hread : (readSources ⟨["y"]⟩ halfLoadable.files).1 = .ok ([] ++ script :: []) :=
    congrArg Except.ok (List.mergeSort_singleton script)
  have hscript : placeholderOf "object" script.name script.text = (.error (.config (.entryMissing "c" "evaluate")) :
      Except Fault (Placeholder Unit)) := by
    have hmissing : entryOf "c" "fn other() \x7b\x7d" "evaluate" = .error (.config (.entryMissing "c" "evaluate")) := by rfl
    unfold placeholderOf
    rw [hmissing]
    rfl
  refine .uncompiled hread ?_ ?_ rfl hscript
  · intro t ht
    cases ht
  · intro t ht
    cases ht

/-- The three loads of these directories fail. -/
theorem load_fault_keeps_halfLoadable :
    (∃ f e' kept, loadCommands (commandOf "object") ⟨["x"]⟩ halfLoadable = (.error f, e') ∧
      Fails (commandOf "object") ⟨["x"]⟩ halfLoadable.files f kept ∧ halfLoadable.commands.Gains kept e'.commands) ∧
    (∃ f e' kept, loadPlaceholders (placeholderOf "object") ⟨["y"]⟩ halfLoadable = (.error f, e') ∧
      Fails (placeholderOf (H := Unit) "object") ⟨["y"]⟩ halfLoadable.files f kept ∧
      halfLoadable.placeholders.Gains kept e'.placeholders) ∧
    ∃ f e' kept, load "object" halfLoadable = (.error f, e') ∧ halfLoadable.commands.Gains kept e'.commands := by
  obtain ⟨c, hfails⟩ := fails_halfLoadable
  have hcommands : loadCommands (commandOf "object") ⟨["x"]⟩ halfLoadable = _ := loadFrom_of_fails hfails
  have hplaceholders : loadPlaceholders (placeholderOf "object") ⟨["y"]⟩ halfLoadable = _ :=
    loadFrom_of_fails fails_halfLoadable_placeholders
  have hpath : Path.ofText "x" = ⟨["x"]⟩ := by
    rw [Path.ofText, String.splitOn, if_neg (by decide), String.splitOnAux, if_neg (by decide), if_neg (by decide),
      String.splitOnAux, if_pos (by decide)]
    rfl
  obtain ⟨f, e', hboth⟩ : ∃ f e', load "object" halfLoadable = (.error f, e') := by
    unfold load loadBoth
    rw [Run.get_bind]
    have hexecutors : loadIf (loadCommands (commandOf "object")) halfLoadable.settings.scripts.executors halfLoadable = _ :=
      (congrArg (loadCommands (commandOf "object") · halfLoadable) hpath).trans hcommands
    exact ⟨_, _, Run.bind_error hexecutors⟩
  obtain ⟨kept, hkept, hgains, -⟩ := (load_fault_keeps (commandOf "object") (placeholderOf "object")).1 _ _ _ _ hcommands
  obtain ⟨kept', hkept', hgains', -⟩ :=
    (load_fault_keeps (commandOf "object") (placeholderOf "object")).2.1 _ _ _ _ hplaceholders
  refine ⟨⟨_, _, kept, hcommands, hkept, hgains⟩, ⟨_, _, kept', hplaceholders, hkept', hgains'⟩, ?_⟩
  rcases (load_fault_keeps (commandOf "object") (placeholderOf "object")).2.2 _ _ _ hboth with
    ⟨_, loaded, -, -, hgains, -⟩ | ⟨_, loaded, _, _, -, -, -, hgains, -⟩
  · exact ⟨_, _, loaded, hboth, hgains⟩
  · exact ⟨_, _, loaded, hboth, hgains⟩

/-- The load of the commands in `x` fails, and one of them is registered then that was not before. -/
theorem load_all_or_nothing_false :
    ∃ f e', loadCommands (commandOf "object") ⟨["x"]⟩ halfLoadable = (.error f, e') ∧
      (halfLoadable.commands.get? "a").isSome = false ∧ (e'.commands.get? "a").isSome = true := by
  obtain ⟨c, hfails⟩ := fails_halfLoadable
  have hload : loadCommands (commandOf "object") ⟨["x"]⟩ halfLoadable = _ := loadFrom_of_fails hfails
  refine ⟨_, _, hload, rfl, ?_⟩
  rw [registered_commands]
  show ((halfLoadable.commands.insertAll [("a", c)]).get? "a").isSome = true
  rw [Registry.get?_insertAll, Registry.lastOf_cons, if_pos rfl]
  rfl

end Extension
end EventScript
