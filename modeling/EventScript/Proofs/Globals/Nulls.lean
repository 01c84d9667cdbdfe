import Mathlib.Data.Set.Insert
import EventScript.Globals.Basic
import EventScript.Proofs.Globals.Rereading

/-!
# Names that are bound to `null`

To write `null` unbinds a name, and so no name should be bound to `null`. A store of variables in memory keeps that. One that is backed
by a file takes what the file says: a name is bound to `null` exactly where the file that was last read binds it to `null` and the name
has not been written since (`Reached.bound_to_null`).
-/

namespace EventScript

/-- The names that the file at a path binds to `null`, if it can be read. -/
def FileStore.nullsIn (p : Path) (files : Files) : Set String :=
  {name | ∃ vars, contents p files = some vars ∧ vars[name]? = some .null}

namespace Globals

/-- What is left of the names bound to `null` when a store takes the variables from its file again, and this comes of it. -/
def nullsReloaded (nulls : Set String) (files : Files) : Globals → Except Fault Unit → Set String
  | file store, .ok _ => FileStore.nullsIn store.path files
  | _, _ => nulls

/-- What can become of a store of global variables and the files, whatever is done with the two. The names are those that the file that
was last read binds to `null`, but for names that have been written since. -/
inductive Reached : Set String → Globals → Files → Prop
  /-- A new store in memory. -/
  | memory (files) : Reached ∅ (memory ∅) files
  /-- A store is opened, on whatever files there are. -/
  | opened {p files store files'} (h : FileStore.start p files = (.ok store, files')) :
    Reached (FileStore.nullsIn p files) (file store) files'
  | set {nulls g files name v g'} (h : Reached nulls g files) (hset : g.set name v = .ok g') : Reached (nulls \ {name}) g' files
  | remove {nulls g files} (h : Reached nulls g files) (name) : Reached (nulls \ {name}) (g.remove name).2 files
  | flush {nulls g files} (h : Reached nulls g files) : Reached nulls (g.flush files).1.2 (g.flush files).2
  | reload {nulls g files} (h : Reached nulls g files) :
    Reached (g.nullsReloaded nulls files (g.reload files).1.1) (g.reload files).1.2 (g.reload files).2
  | close {nulls g files} (h : Reached nulls g files) : Reached nulls (g.close files).1 (g.close files).2
  /-- Files are changed behind the back of the store. -/
  | edited {nulls g files} (h : Reached nulls g files) (files') : Reached nulls g files'

/-- The names that are bound to `null`. -/
def BindsToNull (g : Globals) (nulls : Set String) : Prop := ∀ name, g.values[name]? = some .null ↔ name ∈ nulls

variable {g g' : Globals} {nulls : Set String} {files : Files}

/-- A variable that is set is written, or erased if it is set to null, or the store refuses it. -/
theorem set_values (g : Globals) (name : String) (v : Value) :
    (∃ f, g.set name v = .error f) ∨
    ∃ g', g.set name v = .ok g' ∧ g'.values = if v.isNull then g.values.erase name else g.values.insert name v := by
  cases g with
  | memory values => exact .inr ⟨_, rfl, rfl⟩
  | file store =>
    unfold set FileStore.set
    cases v.toStored? with
    | none => exact .inl ⟨_, rfl⟩
    | some s => exact .inr ⟨_, rfl, rfl⟩

/-- A variable that is removed is erased. -/
theorem remove_values (g : Globals) (name : String) : (g.remove name).2.values = g.values.erase name := by
  cases g with
  | memory values => rfl
  | file store =>
    show (store.remove name).2.cache = store.cache.erase name
    rcases store.remove_cases name with ⟨v, -, hremove⟩ | ⟨hbound, hremove⟩
    · rw [hremove]
    · rw [hremove, Variables.erase_of_unbound hbound]

/-- A store that is saved keeps its variables. -/
theorem flush_values (g : Globals) (files : Files) : (g.flush files).1.2.values = g.values := by
  cases g with
  | memory values => rfl
  | file store => exact FileStore.save_cache store files

/-- A store that is closed keeps its variables. -/
theorem close_values (g : Globals) (files : Files) : (g.close files).1.values = g.values := by
  cases g with
  | memory values => rfl
  | file store =>
    show (store.close files).1.cache = store.cache
    cases hsaving : store.saving with
    | true =>
      rw [FileStore.close_apply hsaving]
      exact FileStore.save_cache store files
    | false => rw [FileStore.close_stopped hsaving]

namespace BindsToNull

/-- A name that is erased is not bound to null any more. -/
theorem erase (h : g.BindsToNull nulls) {name : String} (hvalues : g'.values = g.values.erase name) :
    g'.BindsToNull (nulls \ {name}) := by
  intro other
  rw [hvalues, Std.ExtTreeMap.getElem?_erase]
  split
  next hsame =>
    obtain rfl := Std.LawfulEqCmp.eq_of_compare hsame
    simp
  next hother =>
    have hne : other ≠ name := by
      rintro rfl
      exact hother Std.ReflCmp.compare_self
    simp [h other, hne]

/-- A name that is bound to another value is not bound to null any more. -/
theorem insert (h : g.BindsToNull nulls) {name : String} {v : Value} (hv : v ≠ .null)
    (hvalues : g'.values = g.values.insert name v) : g'.BindsToNull (nulls \ {name}) := by
  intro other
  rw [hvalues, Std.ExtTreeMap.getElem?_insert]
  split
  next hsame =>
    obtain rfl := Std.LawfulEqCmp.eq_of_compare hsame
    simp [hv]
  next hother =>
    have hne : other ≠ name := by
      rintro rfl
      exact hother Std.ReflCmp.compare_self
    simp [h other, hne]

/-- A store that has what its file holds binds to `null` what the file does. -/
theorem of_contents {p : Path} (hvalues : FileStore.contents p files = some g.values) :
    g.BindsToNull (FileStore.nullsIn p files) := by
  intro name
  constructor
  · exact fun hname => ⟨g.values, hvalues, hname⟩
  · rintro ⟨vars, hvars, hname⟩
    cases hvalues.symm.trans hvars
    exact hname

/-- A store that is loaded again binds to null what its file does. -/
theorem reload (h : g.BindsToNull nulls) (files : Files) :
    (g.reload files).1.2.BindsToNull (g.nullsReloaded nulls files (g.reload files).1.1) := by
  cases g with
  | memory values => exact h
  | file store =>
    show BindsToNull (file (store.reload files).1.2) (nullsReloaded nulls files (file store) (store.reload files).1.1)
    rcases store.reload_cases files with ⟨vars, files', hread, hreload⟩ | ⟨f, files', -, hreload⟩ <;> rw [hreload]
    · exact of_contents (FileStore.contents_of_read hread)
    · exact h

end BindsToNull

/-- A name is bound to `null` exactly where the file that was last read says so, up to names that have been written since. -/
theorem Reached.bindsToNull (h : Reached nulls g files) : g.BindsToNull nulls := by
  induction h with
  | memory files =>
    intro name
    simp [values]
  | opened h =>
    obtain ⟨vars, hread, rfl⟩ := FileStore.start_eq_ok h
    exact .of_contents (FileStore.contents_of_read hread)
  | @set nulls g files name v g' _ hset ih =>
    rcases g.set_values name v with ⟨f, herror⟩ | ⟨changed, hok, hvalues⟩
    · cases herror.symm.trans hset
    · cases hok.symm.trans hset
      cases hnull : v.isNull with
      | true => exact ih.erase (by rw [hvalues, if_pos hnull])
      | false =>
        refine ih.insert (v := v) ?_ (by rw [hvalues, hnull]; rfl)
        rintro rfl
        cases hnull
  | remove _ name ih => exact ih.erase (remove_values _ name)
  | @flush _ g files _ ih =>
    intro name
    rw [flush_values g files]
    exact ih name
  | reload _ ih => exact ih.reload _
  | @close _ g files _ ih =>
    intro name
    rw [close_values g files]
    exact ih name
  | edited _ files' ih => exact ih

/-- A store has the names that it finds a value for. -/
theorem has_iff (g : Globals) (name : String) : g.has name = true ↔ ∃ v, g.get? name = some v := by
  unfold has get?
  rw [Std.ExtTreeMap.contains_eq_isSome_getElem?, Option.isSome_iff_exists]

/-- To write `null` leaves what is left when the name is removed, and nothing changes where there is no such name. -/
theorem set_null (g : Globals) (name : String) :
    ∃ g', g.set name .null = .ok g' ∧ g'.values = (g.remove name).2.values ∧ g'.has name = false ∧
      (g.has name = false → g'.values = g.values) := by
  rcases g.set_values name .null with ⟨f, herror⟩ | ⟨g', hok, hvalues⟩
  · cases g <;> cases herror
  · have herase : g'.values = g.values.erase name := hvalues
    refine ⟨g', hok, herase.trans (g.remove_values name).symm, ?_, fun habsent => ?_⟩
    · rw [has, herase, Std.ExtTreeMap.contains_eq_isSome_getElem?, Std.ExtTreeMap.getElem?_erase_self]
      rfl
    · rw [has, Std.ExtTreeMap.contains_eq_isSome_getElem?, Option.isSome_eq_false_iff, Option.isNone_iff_eq_none] at habsent
      rw [herase, Variables.erase_of_unbound habsent]

/-- The store has a name exactly if it has a value other than `null` for it, but for the names that the file that was last read binds to
`null` and that have not been written since: it has those, as `null`. To write `null` and to remove a name come to the same. -/
theorem Reached.bound_to_null (h : Reached nulls g files) :
    (∀ name ∉ nulls, g.has name = true ↔ ∃ v, g.get? name = some v ∧ v ≠ .null) ∧
    (∀ name ∈ nulls, g.has name = true ∧ g.get? name = some .null) ∧
    ∀ name, ∃ g', g.set name .null = .ok g' ∧ g'.values = (g.remove name).2.values ∧ g'.has name = false ∧
      (g.has name = false → g'.values = g.values) := by
  refine ⟨fun name hname => ?_, fun name hname => ?_, g.set_null⟩
  · rw [has_iff]
    constructor
    · rintro ⟨v, hv⟩
      refine ⟨v, hv, ?_⟩
      rintro rfl
      exact hname ((h.bindsToNull name).mp hv)
    · rintro ⟨v, hv, -⟩
      exact ⟨v, hv⟩
  · have hnull := (h.bindsToNull name).mpr hname
    exact ⟨(g.has_iff name).mpr ⟨.null, hnull⟩, hnull⟩

/-- A file was written by hand, and a name that it binds to `null` is set to a number. -/
theorem bound_to_null_written :
    let p : Path := ⟨["var.json"]⟩
    let files : Files := ⟨[(["var.json"], .file (.text "\x7b\"x\": null, \"y\": true\x7d"))], 0, fun _ => none⟩
    ∃ g files', Reached (FileStore.nullsIn p files \ {"x"}) g files' ∧ g.get? "x" = some (.int 1) ∧
      (g.has "x" = true ↔ ∃ v, g.get? "x" = some v ∧ v ≠ .null) := by
  intro p files
  have hcontents : FileStore.contents p files = some (((∅ : Variables).insert "x" .null).insert "y" (.bool true)) := by
    dsimp only [p, files]
    rfl
  obtain ⟨files', hstart⟩ := FileStore.start_of_contents rfl hcontents
  have hset : (file ⟨p, ((∅ : Variables).insert "x" .null).insert "y" (.bool true), false, true⟩).set "x" (.int 1) =
      .ok (file ⟨p, (((∅ : Variables).insert "x" .null).insert "y" (.bool true)).insert "x" (.int 1), true, true⟩) := rfl
  have hreached := (Reached.opened hstart).set hset
  exact ⟨_, files', hreached, Std.ExtTreeMap.getElem?_insert_self, hreached.bound_to_null.1 "x" (fun hmem => hmem.2 rfl)⟩

/-- A store is opened on a file that binds a name to `null`. It has that name, and counts it. -/
theorem bound_to_null_false :
    let files : Files := ⟨[(["var.json"], .file (.text "\x7b\"x\": null\x7d"))], 0, fun _ => none⟩
    ∃ store files', FileStore.start ⟨["var.json"]⟩ files = (.ok store, files') ∧ (file store).has "x" = true ∧
      ¬(∃ v, (file store).get? "x" = some v ∧ v ≠ .null) ∧ (file store).size = 1 := by
  intro files
  have hcontents : FileStore.contents ⟨["var.json"]⟩ files = some ((∅ : Variables).insert "x" .null) := by
    dsimp only [files]
    rfl
  obtain ⟨files', hstart⟩ := FileStore.start_of_contents rfl hcontents
  have hbound : ((∅ : Variables).insert "x" .null)["x"]? = some .null := Std.ExtTreeMap.getElem?_insert_self
  refine ⟨_, files', hstart, rfl, ?_, rfl⟩
  rintro ⟨v, hv, hne⟩
  exact hne (Option.some.inj (hv.symm.trans hbound))

end Globals

end EventScript
