import EventScript.Proofs.Globals.Closing
import EventScript.Proofs.Json.RoundTrip

/-!
# What comes back from a store's file

A value that is set and saved is what a store that is opened on the file has, if it is an integer, a string, a truth value, or a
double for which there is a number (`reopened_value`). A double that is not finite is taken by the store and written as `null`
(`reopened_value_false`). Integers and strings are read back for certain; of the finite doubles in the store, the text of each has to
be read as that double.
-/

namespace EventScript

/-- A double that is not finite has no number. -/
def Value.isFinite : Value → Bool
  | float x => (Binary.ofFloat? x).isSome
  | _ => true

/-- What the file of a store keeps of a value. -/
def Value.filed? (v : Value) : Option Value := v.toStored?.map fun s => s.filed.value

/-- What the file of a store keeps of its variables. -/
def Variables.filed (vars : Variables) : Variables := vars.filterMap fun _ v => v.filed?

/-- The text of the value is read as the value, if it is a finite double. -/
def Value.Exact (v : Value) : Prop := ∀ s, v.toStored? = some s → s.Exact

/-- The value comes back from a file as it was. -/
structure Value.Lasts (v : Value) : Prop where
  storable : v.kind ≠ .object
  finite : v.isFinite = true
  exact : v.Exact

theorem Value.exact_of_infinite {v : Value} (h : v.isFinite = false) : v.Exact := by
  cases v with
  | float x =>
    rintro s ⟨⟩
    exact fun hfinite => by cases h.symm.trans hfinite
  | _ => cases h

/-- All that can be stored comes back, but for doubles. -/
theorem Value.lasts_of_kind {v : Value} (hobject : v.kind ≠ .object) (hfloat : v.kind ≠ .float) : v.Lasts := by
  refine ⟨hobject, ?_, ?_⟩ <;> cases v
  case refine_1.float | refine_2.float => exact absurd rfl hfloat
  case refine_2.handle => nofun
  case refine_2.null | refine_2.bool | refine_2.int | refine_2.string =>
    rintro s ⟨⟩
    trivial
  all_goals rfl

theorem Value.filed?_eq {v : Value} (hv : v.kind ≠ .object) : v.filed? = some (if v.isFinite then v else .null) := by
  cases v with
  | handle h => exact absurd rfl hv
  | float x =>
    unfold filed? toStored? isFinite Stored.filed
    simp only [Option.map_some, Option.some.injEq]
    split <;> rfl
  | _ => rfl

theorem Value.filed?_eq_null {v : Value} : v.filed? = some .null ↔ v = .null ∨ v.isFinite = false := by
  by_cases hv : v.kind = .object
  · cases v <;> cases hv
    simp [filed?, toStored?, isFinite]
  · rw [filed?_eq hv, Option.some.injEq]
    cases hfinite : v.isFinite <;> simp

theorem Variables.ofList_toList (vars : Variables) : Std.ExtTreeMap.ofList vars.toList compare = vars := by
  refine Std.ExtTreeMap.ext_getElem? fun name => ?_
  cases hname : vars[name]? with
  | some v =>
    exact Std.ExtTreeMap.getElem?_ofList_of_mem Std.ReflCmp.compare_self Std.ExtTreeMap.distinct_keys_toList
      (Std.ExtTreeMap.mem_toList_iff_getElem?_eq_some.mpr hname)
  | none =>
    refine Std.ExtTreeMap.getElem?_ofList_of_contains_eq_false ?_
    rw [Std.ExtTreeMap.map_fst_toList_eq_keys, Std.ExtTreeMap.contains_keys, Std.ExtTreeMap.contains_eq_isSome_getElem?, hname]
    rfl

/-- The members that are written, read as variables. -/
theorem Variables.ofMembers_filed (vars : Variables) :
    Variables.ofMembers (vars.storedMembers.map fun m => (m.1, m.2.filed)) = vars.filed := by
  have hlist : (vars.storedMembers.map fun m => (m.1, m.2.filed.value)) = vars.filed.toList := by
    rw [filed, Std.ExtTreeMap.toList_filterMap, storedMembers, List.map_filterMap]
    refine congrArg (List.filterMap · vars.toList) (funext fun ⟨name, v⟩ => ?_)
    show Option.map _ (Option.map (fun s => (name, s)) v.toStored?) = Option.map _ (Option.map _ v.toStored?)
    cases v.toStored? <;> rfl
  rw [← ofList_toList vars.filed, ← hlist, Std.ExtTreeMap.ofList_eq_foldl, List.foldl_map]
  unfold ofMembers
  rw [List.foldl_map]

theorem Variables.getElem?_filed (vars : Variables) (name : String) :
    vars.filed[name]? = (vars[name]?).bind Value.filed? := Std.ExtTreeMap.getElem?_filterMap'

/-- Nothing changes where all values come back as they were. -/
theorem Variables.filed_of_lasts (vars : Variables) (h : Variables.All (fun _ v => v.Lasts) vars) : vars.filed = vars := by
  refine Std.ExtTreeMap.ext_getElem? fun name => ?_
  rw [getElem?_filed]
  cases hname : vars[name]? with
  | none => rfl
  | some v => rw [Option.bind_some, Value.filed?_eq (h name v hname).storable, if_pos (h name v hname).finite]

namespace FileStore

/-- What is written of variables is held as what a file keeps of them. -/
theorem held_writeObject {vars : Variables} (hexact : Variables.All (fun _ v => v.Exact) vars) :
    held (Json.writeObject vars.storedMembers) = some vars.filed := by
  have hmembers : ∀ m ∈ vars.storedMembers, m.2.Exact := by
    intro m hm
    obtain ⟨⟨name, v⟩, hv, hstored⟩ := List.mem_filterMap.mp hm
    obtain ⟨s, hs, rfl⟩ := Option.map_eq_some_iff.mp hstored
    exact hexact name v (Std.ExtTreeMap.mem_toList_iff_getElem?_eq_some.mp hv) s hs
  have hblank : Text.blank (Json.writeObject vars.storedMembers) = false := by
    obtain ⟨rest, htext⟩ := Json.writeObject_brace vars.storedMembers
    rw [Text.blank, htext, List.all_cons]
    rfl
  rw [held, hblank, Json.members?_writeObject hmembers, Option.map_some, Variables.ofMembers_filed]
  rfl

/-- Variables that come back as they were are held as they are. -/
theorem held_writeObject_of_lasts {vars : Variables} (h : Variables.All (fun _ v => v.Lasts) vars) :
    held (Json.writeObject vars.storedMembers) = some vars := by
  rw [held_writeObject fun name v hv => (h name v hv).exact, vars.filed_of_lasts h]

variable {store last : FileStore} {files files' : Files}

/-- What a store has saved is in its file, as far as a file keeps it. -/
theorem contents_of_save (hexact : Variables.All (fun _ v => v.Exact) store.cache) (hdirty : store.dirty = true)
    (hsave : store.save files = ((.ok (), last), files')) : contents store.path files' = some store.cache.filed := by
  rcases save_cases store files with ⟨hclean, -⟩ | ⟨saved, hwrite, hok⟩ | ⟨fault, saved, -, herror⟩
  · cases hdirty.symm.trans hclean
  · cases hok.symm.trans hsave
    exact (contents_of_write hwrite).trans (held_writeObject hexact)
  · cases herror.symm.trans hsave

/-- What a store has saved is what a store that is opened on the file has of it. -/
theorem start_of_save (hexact : Variables.All (fun _ v => v.Exact) store.cache) (hdirty : store.dirty = true)
    (hsave : store.save files = ((.ok (), last), files')) (hquiet : files'.trouble files'.accesses = none) :
    ∃ files'', start store.path files' = (.ok ⟨store.path, store.cache.filed, false, true⟩, files'') :=
  start_of_contents hquiet (contents_of_save hexact hdirty hsave)

/-- A value is set and saved, and a store is opened on the file: it has the value as it was, unless that is a double that is not
finite, of which it has `null`. The text of each finite double in the store has to be read as that double. -/
theorem reopened_value {changed : FileStore} {name : String} {v : Value} (hnull : v ≠ .null)
    (hset : store.set name v = .ok changed) (hexact : Variables.All (fun _ v => v.Exact) changed.cache)
    (hsave : changed.save files = ((.ok (), last), files')) (hquiet : files'.trouble files'.accesses = none) :
    ∃ opened files'', start store.path files' = (.ok opened, files'') ∧
      opened.cache[name]? = some (if v.isFinite then v else .null) := by
  rcases store.set_cases name v with ⟨-, herror⟩ | ⟨hnone, -⟩ | ⟨hkind, -, hok⟩
  · cases herror.symm.trans hset
  · exact absurd hnone hnull
  · cases hok.symm.trans hset
    obtain ⟨files'', hstart⟩ := start_of_save hexact rfl hsave hquiet
    refine ⟨_, files'', hstart, ?_⟩
    have hbound : (store.cache.insert name v)[name]? = some v := Std.ExtTreeMap.getElem?_insert_self
    rw [Variables.getElem?_filed, hbound, Option.bind_some, Value.filed?_eq hkind]

/-- Where nothing is in the way, a save succeeds, and the file can be read afterwards. -/
theorem Clear.save (store : FileStore) {l m : Location} (h : Clear store.path l m files) :
    ∃ last files', store.save files = ((.ok (), last), files') ∧ files'.trouble files'.accesses = none := by
  rcases save_cases store files with ⟨-, hsave⟩ | ⟨files', hwrite, hsave⟩ | ⟨fault, files', hwrite, -⟩
  · exact ⟨store, files, hsave, h.quiet _⟩
  · exact ⟨_, files', hsave, (h.of_accessed (.inr ⟨_, _, hwrite⟩)).quiet _⟩
  · obtain ⟨_, hok, -⟩ := h.write_eq store.cache
    cases hok.symm.trans hwrite

theorem clear_empty : Clear ⟨["var.json"]⟩ ["var.tmp"] ["var.json"] .empty :=
  ⟨fun _ => rfl, by rfl, by rfl, by rfl, by rfl⟩

/-- A double with a fraction is set beside a string that looks like it. -/
theorem reopened_value_fraction :
    let store : FileStore := ⟨⟨["var.json"]⟩, (∅ : Variables).insert "label" (.string "1.5"), false, true⟩
    ∃ changed last files' opened files'', store.set "ratio" (.float 1.5) = .ok changed ∧
      changed.save .empty = ((.ok (), last), files') ∧ start store.path files' = (.ok opened, files'') ∧
      opened.cache["ratio"]? = some (.float 1.5) := by
  intro store
  have hexact : Variables.All (fun _ v => v.Exact) (store.cache.insert "ratio" (.float 1.5)) := by
    refine Variables.All.insert (Variables.All.insert (fun _ _ hv => ?_) ?_) ?_
    · cases Std.ExtTreeMap.getElem?_empty.symm.trans hv
    · rintro s ⟨⟩
      trivial
    · rintro s ⟨⟩
      exact fun _ => by decide +kernel
  have hfinite : (Value.float 1.5).isFinite = true := by decide +kernel
  have hset : store.set "ratio" (.float 1.5) =
      .ok { store with cache := store.cache.insert "ratio" (.float 1.5), dirty := true } := rfl
  obtain ⟨last, files', hsave, hquiet⟩ :=
    Clear.save { store with cache := store.cache.insert "ratio" (.float 1.5), dirty := true } clear_empty
  obtain ⟨opened, files'', hstart, hvalue⟩ := reopened_value (fun hnull => by cases hnull) hset hexact hsave hquiet
  rw [if_pos hfinite] at hvalue
  exact ⟨_, last, files', opened, files'', hset, hsave, hstart, hvalue⟩

/-- A store takes a double that is no number and saves it, and the next store has `null`. -/
theorem reopened_value_false :
    let v : Value := .float (0.0 / 0.0)
    let store : FileStore := ⟨⟨["var.json"]⟩, ∅, false, true⟩
    ∃ changed last files' opened files'', store.set "x" v = .ok changed ∧ changed.save .empty = ((.ok (), last), files') ∧
      start store.path files' = (.ok opened, files'') ∧ opened.cache["x"]? = some .null := by
  intro v store
  have hinfinite : v.isFinite = false := by decide +kernel
  have hexact : Variables.All (fun _ v => v.Exact) (store.cache.insert "x" v) := by
    refine Variables.All.insert (fun _ _ hw => ?_) (Value.exact_of_infinite hinfinite)
    cases Std.ExtTreeMap.getElem?_empty.symm.trans hw
  have hset : store.set "x" v = .ok { store with cache := store.cache.insert "x" v, dirty := true } := rfl
  obtain ⟨last, files', hsave, hquiet⟩ :=
    Clear.save { store with cache := store.cache.insert "x" v, dirty := true } clear_empty
  obtain ⟨files'', hstart⟩ := start_of_save hexact rfl hsave hquiet
  have hbound : (store.cache.insert "x" v)[("x" : String)]? = some v := Std.ExtTreeMap.getElem?_insert_self
  refine ⟨_, last, files', _, files'', hset, hsave, hstart, ?_⟩
  rw [Variables.getElem?_filed, hbound, Option.bind_some, Value.filed?_eq (fun hkind => by cases hkind), hinfinite]
  rfl

end FileStore

end EventScript
