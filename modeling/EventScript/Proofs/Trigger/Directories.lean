import EventScript.Proofs.Files.Collecting
import EventScript.Proofs.Trigger.Loading

/-!
# Directories of triggers

A directory is taken over as a whole or not at all. Its files are listed in some way and order, sorted, read and parsed one after
another; only then the named triggers change. `Engine.TakesOver` says when that fails, and how, and what the named triggers are
otherwise. It holds whether the triggers of a directory are added to those that are there or put in their place, and whatever the order
of the listing is.
-/

namespace EventScript

namespace Engine

open Trigger (nameOf)

variable {H : Type} {files : Files} {root l : Location} {extension name : String} {mode : Mode} {path : Path}
variable {e e' e₁ e₂ : Engine H} {ls : List Location} {ts : List Trigger} {listing : Listing}

abbrev NamedTriggers := Std.ExtTreeMap String Trigger compare

/-- Reads and parses the files below a directory with an extension, with a way to list them. -/
def loadTreeBy (listing : Listing) (path : Path) (extension : String) (mode : Mode) :
    ExceptT Fault (StateM (Engine H)) (List Trigger) := do
  let root ← filing (FileAct.ofQuery path.locate)
  let found ← filing (listing.run root extension)
  (found.mergeSort Location.precedes).mapM (loadFile path root mode)

/-- Takes the triggers of a directory over, next to what is kept of the named ones, and counts their names. -/
def takeDirectory (kept : NamedTriggers → NamedTriggers) (listing : Listing) (path : Path) (extension : String) (mode : Mode) :
    ExceptT Fault (StateM (Engine H)) Nat := do
  let triggers ← loadTreeBy listing path extension mode
  modify fun e => { e with named := triggers.foldl (fun m t => m.insert t.name t) (kept e.named) }
  pure (byName triggers).size

/-! ## Adding and replacing -/

/-- Two operations on files one after the other are one operation on files. -/
theorem filing_bind {α β : Type} (a : FileAct α) (f : α → FileAct β) :
    filing (H := H) (a >>= f) = filing a >>= fun x => filing (f x) := by
  funext e
  rw [Run.bind_apply]
  unfold filing onFiles Filing.ofAct
  rw [Run.bind_apply]
  rcases a e.files with ⟨_ | _, _⟩ <;> rfl

/-- With the one listing a tree is loaded as the engine loads it. -/
theorem loadTreeBy_atOnce (path : Path) (extension : String) (mode : Mode) :
    loadTreeBy (H := H) .atOnce path extension mode = loadTree path extension mode := by
  unfold loadTreeBy loadTree scriptFiles Listing.run
  refine bind_congr fun root => ?_
  rw [filing_bind, filing_bind, bind_assoc, bind_assoc]
  rfl

/-- To insert triggers changes the named ones, and nothing else. -/
theorem insertAll_named (ts : List Trigger) (e : Engine H) :
    ts.foldl (fun e t => e.insertTrigger t) e = { e with named := ts.foldl (fun m t => m.insert t.name t) e.named } := by
  induction ts generalizing e with
  | nil => rfl
  | cons t rest ih => exact ih (e.insertTrigger t)

/-- To add the triggers of a directory is to keep all named ones. -/
theorem loadDirectory_eq (path : Path) (extension : String) (mode : Mode) :
    loadDirectory (H := H) path extension mode = takeDirectory id .atOnce path extension mode := by
  unfold loadDirectory takeDirectory
  rw [loadTreeBy_atOnce]
  refine bind_congr fun ts => ?_
  simp only [insertAll_named, id]

/-- To put them in the place of the named ones is to keep none. -/
theorem reloadDirectory_eq (path : Path) (extension : String) (mode : Mode) :
    reloadDirectory (H := H) path extension mode = takeDirectory (fun _ => ∅) .atOnce path extension mode := by
  unfold reloadDirectory takeDirectory
  rw [loadTreeBy_atOnce]
  rfl

/-- Under a name there is the last of the new triggers, or what was there. -/
theorem getElem?_insertAll (ts : List Trigger) (named : NamedTriggers) (name : String) :
    (ts.foldl (fun m t => m.insert t.name t) named)[name]? = ((byName ts)[name]?).or named[name]? := by
  induction ts using List.reverseRecOn with
  | nil => rfl
  | append_singleton ts t ih =>
    rw [byName_concat, List.foldl_concat, Std.ExtTreeMap.getElem?_insert, Std.ExtTreeMap.getElem?_insert, ih]
    split <;> rfl

/-! ## The files -/

/-- Every file can be read, one after another. -/
def ReadsAll (root : Location) : List Location → Files → Prop
  | [], _ => True
  | l :: rest, files => ∃ text files', Files.readText (root ++ l) files = (.ok text, files') ∧ ReadsAll root rest files'

/-- A file that a trigger was made of can be loaded. -/
theorem MadeOf.loadable {t : Trigger} (h : MadeOf files root mode l t) : Loadable files root l := ⟨_, _, h.source, h.script⟩

/-- So can each of the files that triggers were made of. -/
theorem loadable_of_made (h : ls.Forall₂ (MadeOf files root mode) ts) (hl : l ∈ ls) : Loadable files root l := by
  induction h with
  | nil => cases hl
  | cons hmade _ ih =>
    rcases List.mem_cons.mp hl with rfl | hl
    · exact hmade.loadable
    · exact ih hl

/-- The fault is that of the first of the files that holds a text that cannot be parsed. -/
def Refused (files : Files) (path : Path) (root : Location) (ls : List Location) (f : Fault) : Prop :=
  ∃ before l after text fault, ls = before ++ l :: after ∧ (∀ m ∈ before, Loadable files root m) ∧
    files.entry? (root ++ l) = some (.file (.text text)) ∧ Script.parse text = .error fault ∧
      f = .scriptLoad (path.append l).text (.parse fault)

/-- The files are all read and made triggers of, or the first one that is not fails them all. -/
theorem loadFiles_cases (path : Path) (root : Location) (mode : Mode) (ls : List Location) (e : Engine H) :
    (∃ ts e', ls.mapM (loadFile path root mode) e = (.ok ts, e') ∧ ReadsAll root ls e.files ∧
      ls.Forall₂ (MadeOf e.files root mode) ts) ∨
    ∃ f e', ls.mapM (loadFile path root mode) e = (.error f, e') ∧
      (ReadsAll root ls e.files → Refused e.files path root ls f) := by
  induction ls generalizing e with
  | nil => exact .inl ⟨[], e, rfl, trivial, .nil⟩
  | cons l rest ih =>
    rw [List.mapM_cons]
    rcases hread : Files.readText (root ++ l) e.files with ⟨fault | text, files'⟩
    · refine .inr ⟨_, _, Run.bind_error (loadFile_unread path mode hread), ?_⟩
      rintro ⟨text, files'', htext, -⟩
      cases hread.symm.trans htext
    have htext := Files.readText_eq_ok hread
    have hentries := Files.readText_entries hread
    cases hparse : Script.parse text with
    | error fault =>
      refine .inr ⟨_, _, Run.bind_error (loadFile_unparsed path mode hread hparse), fun _ => ?_⟩
      exact ⟨[], l, rest, text, fault, rfl, List.forall_mem_nil _, htext, hparse, rfl⟩
    | ok script =>
      rw [Run.bind_ok (loadFile_parsed path mode hread hparse)]
      have hfirst : MadeOf e.files root mode l ⟨e.nextTrigger, nameOf l, text, script, mode⟩ := ⟨rfl, rfl, htext, hparse⟩
      rcases ih { e with files := files', nextTrigger := e.nextTrigger + 1 } with
        ⟨ts, e', hrest, hreads, hmade⟩ | ⟨f, e', hrest, hrefused⟩
      · rw [Run.bind_ok hrest]
        refine .inl ⟨_, e', rfl, ⟨text, files', hread, hreads⟩, .cons hfirst ?_⟩
        exact hmade.imp fun m t h => h.of_entries hentries.symm
      · refine .inr ⟨f, e', Run.bind_error hrest, ?_⟩
        rintro ⟨text', files'', htext', hreads⟩
        cases hread.symm.trans htext'
        obtain ⟨before, m, after, text', fault, hsplit, hbefore, hm, hfault, hf⟩ := hrefused hreads
        refine ⟨l :: before, m, after, text', fault, by rw [hsplit, List.cons_append], ?_,
          (Files.entry?_of_entries hentries _).symm.trans hm, hfault, hf⟩
        exact List.forall_mem_cons.mpr ⟨hfirst.loadable, fun k hk => (hbefore k hk).of_entries hentries.symm⟩

/-- To load a file leaves the named triggers alone. -/
theorem loadFile_named (path : Path) (root : Location) (mode : Mode) (l : Location) (e : Engine H) :
    (loadFile path root mode l e).2.named = e.named := by
  rcases hread : Files.readText (root ++ l) e.files with ⟨fault | text, files'⟩
  · rw [loadFile_unread path mode hread]
  cases hparse : Script.parse text with
  | error fault => rw [loadFile_unparsed path mode hread hparse]
  | ok script => rw [loadFile_parsed path mode hread hparse]

/-- So does it to load any number of them. -/
theorem loadFiles_named (path : Path) (root : Location) (mode : Mode) (ls : List Location) (e : Engine H) :
    (ls.mapM (loadFile path root mode) e).2.named = e.named := by
  induction ls generalizing e with
  | nil => rfl
  | cons l rest ih =>
    rw [List.mapM_cons]
    refine Run.bind_keeps named (loadFile_named path root mode l) (fun t => ?_) e
    exact Run.bind_keeps named ih fun ts e => rfl

/-! ## The directory -/

/-- A directory that is not found fails the load before anything else. -/
theorem loadTreeBy_unlocated {fault : FileFault} (h : path.locate e.files = .error fault) :
    loadTreeBy listing path extension mode e = (.error (.file fault), e) := by
  have hlocate : FileAct.ofQuery path.locate e.files = (.error fault, e.files) := by
    unfold FileAct.ofQuery
    rw [h]
  exact Run.bind_error (filing_error hlocate)

/-- One that is found is listed, and its files are loaded in their order. -/
theorem loadTreeBy_located (h : path.locate e.files = .ok root) :
    loadTreeBy listing path extension mode e =
      (filing (listing.run root extension) >>= fun found =>
        (found.mergeSort Location.precedes).mapM (loadFile path root mode)) e := by
  have hlocate : FileAct.ofQuery path.locate e.files = (.ok root, e.files) := by
    unfold FileAct.ofQuery
    rw [h]
  exact Run.bind_ok (filing_apply hlocate)

/-- One that cannot be listed fails the load. -/
theorem loadTreeBy_unlisted (h : path.locate e.files = .ok root) {fault : FileFault} {files' : Files}
    (hlist : listing.run root extension e.files = (.error fault, files')) :
    loadTreeBy listing path extension mode e = (.error (.file fault), { e with files := files' }) := by
  rw [loadTreeBy_located h]
  exact Run.bind_error (filing_error hlist)

/-- Whatever the listing, the same files are loaded in the same order. -/
theorem loadTreeBy_listed (mode : Mode) (htree : e.files.Tree) (h : path.locate e.files = .ok root) {found : List Location}
    {files' : Files} (hlist : listing.run root extension e.files = (.ok found, files')) :
    files'.entries = e.files.entries ∧ loadTreeBy listing path extension mode e =
      (e.files.scripts root extension).mapM (loadFile path root mode) { e with files := files' } := by
  have hsurvey := htree.surveys_listing listing extension (Files.isDirectory_of_listing hlist) e.files rfl
  rw [hlist] at hsurvey
  refine ⟨hsurvey.entries, ?_⟩
  rw [loadTreeBy_located h, Run.bind_ok (filing_apply hlist), Files.mergeSort_eq_scripts (hsurvey.gives found rfl)]

/-- Whatever comes of it, a load leaves the named triggers alone. -/
theorem loadTreeBy_named (listing : Listing) (path : Path) (extension : String) (mode : Mode) (e : Engine H) :
    (loadTreeBy listing path extension mode e).2.named = e.named := by
  have hfiling {α : Type} (a : FileAct α) (e : Engine H) : (filing a e).2.named = e.named := rfl
  refine Run.bind_keeps named (hfiling _) (fun root => Run.bind_keeps named (hfiling _) fun found => ?_) e
  exact loadFiles_named path root mode _

/-- What taking over a directory does to the named triggers of this engine, of which some are kept. A directory that cannot be found
or listed, a file that cannot be read and one whose text cannot be parsed fail it, and a failure changes nothing. If listing and reading
go well, the fault is that of the first file that cannot be parsed. Otherwise there is for each name that files come to the trigger
that the last of them makes, and for every other name what is kept. -/
structure TakesOver (listing : Listing) (path : Path) (extension : String) (mode : Mode) (kept : NamedTriggers → NamedTriggers)
    (run : ExceptT Fault (StateM (Engine H)) Nat) (e : Engine H) : Prop where
  atomic : ∀ f, (run e).1 = .error f → (run e).2.named = e.named
  unlocated : ∀ fault, path.locate e.files = .error fault → (run e).1 = .error (.file fault)
  unlisted : ∀ root fault files', path.locate e.files = .ok root → listing.run root extension e.files = (.error fault, files') →
    (run e).1 = .error (.file fault)
  unread : ∀ root found files', path.locate e.files = .ok root → listing.run root extension e.files = (.ok found, files') →
    ¬ReadsAll root (e.files.scripts root extension) files' → ∃ f, (run e).1 = .error f
  unparsed : ∀ root, path.locate e.files = .ok root →
    ∀ l ∈ scriptsBelow e.files root extension, ¬Loadable e.files root l → ∃ f, (run e).1 = .error f
  first : ∀ root found files', path.locate e.files = .ok root → listing.run root extension e.files = (.ok found, files') →
    ReadsAll root (e.files.scripts root extension) files' → ∀ f, (run e).1 = .error f →
      ∃ l ∈ scriptsBelow e.files root extension, ∃ text fault, e.files.entry? (root ++ l) = some (.file (.text text)) ∧
        Script.parse text = .error fault ∧ f = .scriptLoad (path.append l).text (.parse fault) ∧
          ∀ m ∈ scriptsBelow e.files root extension, ¬Loadable e.files root m → l.precedes m = true
  exact : ∀ root found files', path.locate e.files = .ok root → listing.run root extension e.files = (.ok found, files') →
    ReadsAll root (e.files.scripts root extension) files' →
    (∀ l ∈ scriptsBelow e.files root extension, Loadable e.files root l) →
      ∃ (n : Nat) (e' : Engine H) (new : NamedTriggers), run e = (.ok n, e') ∧ n = new.size ∧
        (∀ name : String, e'.named[name]? = (new[name]?).or (kept e.named)[name]?) ∧
        (∀ l ∈ scriptsBelow e.files root extension, ∃ t, new[nameOf l]? = some t) ∧
        ∀ (name : String) (t : Trigger), new[name]? = some t → ∃ l ∈ scriptsBelow e.files root extension, nameOf l = name ∧
          MadeOf e.files root mode l t ∧ ∀ m ∈ scriptsBelow e.files root extension, nameOf m = name → m.precedes l = true

/-- The sorted list has the files that count as scripts. -/
theorem mem_scripts_iff : l ∈ files.scripts root extension ↔ l ∈ scriptsBelow files root extension := by
  unfold Files.scripts scriptsBelow
  rw [List.mem_mergeSort, List.mem_toFinset]
  rfl

/-- The first of sorted files that is refused comes in front of all others that cannot be loaded. -/
theorem Refused.first {f : Fault} (h : Refused files path root (files.scripts root extension) f) :
    ∃ l ∈ scriptsBelow files root extension, ∃ text fault, files.entry? (root ++ l) = some (.file (.text text)) ∧
      Script.parse text = .error fault ∧ f = .scriptLoad (path.append l).text (.parse fault) ∧
        ∀ m ∈ scriptsBelow files root extension, ¬Loadable files root m → l.precedes m = true := by
  obtain ⟨before, l, after, text, fault, hsplit, hbefore, hfile, hfault, hf⟩ := h
  have hsorted : (before ++ l :: after).Pairwise fun l m => l.precedes m = true := hsplit ▸ Files.pairwise_sorted _
  refine ⟨l, mem_scripts_iff.mp (by rw [hsplit]; simp), text, fault, hfile, hfault, hf, fun m hm hrefused => ?_⟩
  rw [← mem_scripts_iff, hsplit, List.mem_append, List.mem_cons] at hm
  rcases hm with hm | rfl | hm
  · exact absurd (hbefore m hm) hrefused
  · exact m.precedes_refl
  · exact (List.pairwise_cons.mp (List.pairwise_append.mp hsorted).2.1).1 m hm

/-- Where a load is refused, some file cannot be loaded. -/
theorem Refused.not_loadable {f : Fault} (h : Refused files path root ls f) : ∃ l ∈ ls, ¬Loadable files root l := by
  obtain ⟨before, l, after, text, fault, rfl, -, hfile, hfault, -⟩ := h
  refine ⟨l, by simp, ?_⟩
  rintro ⟨text', script, hfile', hparse⟩
  cases hfile.symm.trans hfile'
  cases hfault.symm.trans hparse

/-- Taking over fails as loading does. -/
theorem takeDirectory_error (kept : NamedTriggers → NamedTriggers) {f : Fault}
    (h : loadTreeBy listing path extension mode e = (.error f, e')) :
    takeDirectory kept listing path extension mode e = (.error f, e') := Run.bind_error h

/-- Triggers that were loaded are named all at once. -/
theorem takeDirectory_ok (kept : NamedTriggers → NamedTriggers) (h : loadTreeBy listing path extension mode e = (.ok ts, e')) :
    takeDirectory kept listing path extension mode e =
      (.ok (byName ts).size, { e' with named := ts.foldl (fun m t => m.insert t.name t) (kept e'.named) }) := Run.bind_ok h

/-- What came of loading if nothing failed. -/
theorem loadTreeBy_eq_ok (htree : e.files.Tree) (h : loadTreeBy listing path extension mode e = (.ok ts, e'))
    (hroot : path.locate e.files = .ok root) :
    ∃ found files', listing.run root extension e.files = (.ok found, files') ∧
      ReadsAll root (e.files.scripts root extension) files' ∧
      (e.files.scripts root extension).Forall₂ (MadeOf e.files root mode) ts := by
  rcases hlist : listing.run root extension e.files with ⟨fault | found, files'⟩
  · cases (loadTreeBy_unlisted hroot hlist).symm.trans h
  obtain ⟨hentries, hload⟩ := loadTreeBy_listed mode htree hroot hlist
  refine ⟨found, files', rfl, ?_⟩
  rcases loadFiles_cases path root mode (e.files.scripts root extension) { e with files := files' } with
    ⟨us, e'', hrun, hreads, hmade⟩ | ⟨f, e'', hrun, -⟩
  · cases (hload.trans hrun).symm.trans h
    exact ⟨hreads, hmade.imp fun l t hmade => hmade.of_entries hentries.symm⟩
  · cases (hload.trans hrun).symm.trans h

/-- What came of loading if listing and reading went well. -/
theorem loadTreeBy_read (mode : Mode) (htree : e.files.Tree) (hroot : path.locate e.files = .ok root) {found : List Location} {files' : Files}
    (hlist : listing.run root extension e.files = (.ok found, files'))
    (hreads : ReadsAll root (e.files.scripts root extension) files') :
    (∃ ts e', loadTreeBy listing path extension mode e = (.ok ts, e') ∧
      (e.files.scripts root extension).Forall₂ (MadeOf e.files root mode) ts) ∨
    ∃ f e', loadTreeBy listing path extension mode e = (.error f, e') ∧
      Refused e.files path root (e.files.scripts root extension) f := by
  obtain ⟨hentries, hload⟩ := loadTreeBy_listed mode htree hroot hlist
  rcases loadFiles_cases path root mode (e.files.scripts root extension) { e with files := files' } with
    ⟨ts, e', hrun, -, hmade⟩ | ⟨f, e', hrun, hrefused⟩
  · exact .inl ⟨ts, e', hload.trans hrun, hmade.imp fun l t hmade => hmade.of_entries hentries.symm⟩
  · obtain ⟨before, l, after, text, fault, hsplit, hbefore, hfile, hrest⟩ := hrefused hreads
    refine .inr ⟨f, e', hload.trans hrun, before, l, after, text, fault, hsplit, fun m hm => ?_, ?_, hrest⟩
    · exact (hbefore m hm).of_entries hentries.symm
    · rwa [← Files.entry?_of_entries hentries]

/-- Where loading fails, so does taking over. -/
theorem takesOver_of_error (htree : e.files.Tree) (kept : NamedTriggers → NamedTriggers) {f : Fault}
    (hrun : loadTreeBy listing path extension mode e = (.error f, e')) :
    TakesOver listing path extension mode kept (takeDirectory kept listing path extension mode) e := by
  have htake := takeDirectory_error kept hrun
  have hnamed := loadTreeBy_named listing path extension mode e
  rw [hrun] at hnamed
  have herror : ∃ f, (takeDirectory kept listing path extension mode e).1 = .error f := ⟨f, congrArg Prod.fst htake⟩
  have hrefused {root : Location} {found : List Location} {files' : Files} (hroot : path.locate e.files = .ok root)
      (hlist : listing.run root extension e.files = (.ok found, files'))
      (hreads : ReadsAll root (e.files.scripts root extension) files') :
      Refused e.files path root (e.files.scripts root extension) f := by
    rcases loadTreeBy_read mode htree hroot hlist hreads with ⟨ts, e'', hok, -⟩ | ⟨g, e'', hfail, hrefused⟩
    · cases hrun.symm.trans hok
    · cases hrun.symm.trans hfail
      exact hrefused
  constructor
  case atomic =>
    rw [htake]
    exact fun _ _ => hnamed
  case unlocated =>
    intro fault hroot
    rw [takeDirectory_error kept (loadTreeBy_unlocated hroot)]
  case unlisted =>
    intro root fault files' hroot hlist
    rw [takeDirectory_error kept (loadTreeBy_unlisted hroot hlist)]
  case unread => exact fun _ _ _ _ _ _ => herror
  case unparsed => exact fun _ _ _ _ _ => herror
  case first =>
    intro root found files' hroot hlist hreads g hg
    rw [htake] at hg
    cases hg
    exact (hrefused hroot hlist hreads).first
  case exact =>
    intro root found files' hroot hlist hreads hall
    obtain ⟨l, hl, hnot⟩ := (hrefused hroot hlist hreads).not_loadable
    exact absurd (hall l (mem_scripts_iff.mp hl)) hnot

/-- Where loading comes to triggers, these are taken over. -/
theorem takesOver_of_ok (htree : e.files.Tree) (kept : NamedTriggers → NamedTriggers)
    (hrun : loadTreeBy listing path extension mode e = (.ok ts, e')) :
    TakesOver listing path extension mode kept (takeDirectory kept listing path extension mode) e := by
  have htake := takeDirectory_ok kept hrun
  have hnamed : e'.named = e.named := by
    rw [← loadTreeBy_named listing path extension mode e, hrun]
  constructor
  case atomic =>
    rw [htake]
    exact fun _ => nofun
  case unlocated =>
    intro fault hroot
    cases hrun.symm.trans (loadTreeBy_unlocated hroot)
  case unlisted =>
    intro root fault files' hroot hlist
    cases hrun.symm.trans (loadTreeBy_unlisted hroot hlist)
  case unread =>
    intro root found files' hroot hlist hnot
    obtain ⟨found', files'', hlist', hreads, -⟩ := loadTreeBy_eq_ok htree hrun hroot
    cases hlist.symm.trans hlist'
    exact absurd hreads hnot
  case unparsed =>
    intro root hroot l hl hnot
    obtain ⟨found', files'', -, -, hmade⟩ := loadTreeBy_eq_ok htree hrun hroot
    exact absurd (loadable_of_made hmade (mem_scripts_iff.mpr hl)) hnot
  case first =>
    intro root found files' hroot hlist hreads g hg
    rw [htake] at hg
    cases hg
  case exact =>
    intro root found files' hroot hlist hreads hall
    obtain ⟨found', files'', -, -, hmade⟩ := loadTreeBy_eq_ok htree hrun hroot
    refine ⟨_, _, byName ts, htake, rfl, fun name => ?_, fun l hl => ?_, fun name t ht => ?_⟩
    · rw [← hnamed]
      exact getElem?_insertAll ts _ name
    · exact exists_of_mem hmade (mem_scripts_iff.mpr hl)
    · rw [getElem?_byName] at ht
      obtain ⟨l, hl, hname, hmadeOf, hlast⟩ :=
        find?_name (List.forall₂_reverse_iff.mpr hmade) (List.pairwise_reverse.mpr (Files.pairwise_sorted _)) ht
      refine ⟨l, mem_scripts_iff.mp (List.mem_reverse.mp hl), hname, hmadeOf, fun m hm => ?_⟩
      exact hlast m (List.mem_reverse.mpr (mem_scripts_iff.mpr hm))

/-! ## Without trouble -/

/-- Files with the same entries, on which no access is going to meet a fault, and the same triggers to come. -/
structure AlikeFor (e₁ e₂ : Engine H) : Prop where
  entries : e₁.files.entries = e₂.files.entries
  quiet₁ : e₁.files.Quiet
  quiet₂ : e₂.files.Quiet
  next : e₁.nextTrigger = e₂.nextTrigger

/-- One trigger more in front makes no difference between two results. -/
theorem consed_alike {m : ExceptT Fault (StateM (Engine H)) (List Trigger)} {t : Trigger} (h : (m e₁).1 = (m e₂).1) :
    ((m >>= fun ts => pure (t :: ts)) e₁).1 = ((m >>= fun ts => pure (t :: ts)) e₂).1 := by
  rw [Run.bind_apply, Run.bind_apply]
  rcases h₁ : m e₁ with ⟨_ | _, _⟩ <;> rcases h₂ : m e₂ with ⟨_ | _, _⟩ <;> rw [h₁, h₂] at h <;> cases h <;> rfl

/-- Without trouble the same files give the same triggers, however often files were accessed before. -/
theorem loadFiles_alike (path : Path) (root : Location) (mode : Mode) (ls : List Location) (h : AlikeFor e₁ e₂) :
    (ls.mapM (loadFile path root mode) e₁).1 = (ls.mapM (loadFile path root mode) e₂).1 := by
  induction ls generalizing e₁ e₂ with
  | nil => rfl
  | cons l rest ih =>
    have hread₁ := Files.readText_of_quiet (root ++ l) h.quiet₁
    have hread₂ := Files.readText_of_quiet (root ++ l) h.quiet₂
    have hsame : e₁.files.textAt (root ++ l) = e₂.files.textAt (root ++ l) := Files.textAt_of_entries h.entries _
    rw [List.mapM_cons]
    cases htext : e₂.files.textAt (root ++ l) with
    | error fault =>
      rw [htext] at hsame hread₂
      rw [hsame] at hread₁
      rw [Run.bind_error (loadFile_unread path mode hread₁), Run.bind_error (loadFile_unread path mode hread₂)]
    | ok text =>
      rw [htext] at hsame hread₂
      rw [hsame] at hread₁
      cases hparse : Script.parse text with
      | error fault =>
        rw [Run.bind_error (loadFile_unparsed path mode hread₁ hparse), Run.bind_error (loadFile_unparsed path mode hread₂ hparse)]
      | ok script =>
        rw [Run.bind_ok (loadFile_parsed path mode hread₁ hparse), Run.bind_ok (loadFile_parsed path mode hread₂ hparse), ← h.next]
        exact consed_alike (ih ⟨h.entries, h.quiet₁.accessed, h.quiet₂.accessed, rfl⟩)

/-- Without trouble the order of the listing does not matter, and neither does how it is made. -/
theorem loadTreeBy_alike (htree : e.files.Tree) (hquiet : e.files.Quiet) (listing other : Listing) (path : Path) (extension : String)
    (mode : Mode) : (loadTreeBy listing path extension mode e).1 = (loadTreeBy other path extension mode e).1 := by
  cases hroot : path.locate e.files with
  | error fault => rw [loadTreeBy_unlocated hroot, loadTreeBy_unlocated hroot]
  | ok root =>
    by_cases hdirectory : e.files.isDirectory root = true
    · have hsurvey := htree.surveys_listing listing extension hdirectory e.files rfl
      have hother := htree.surveys_listing other extension hdirectory e.files rfl
      obtain ⟨found, hfound⟩ := hsurvey.comes hquiet
      obtain ⟨found', hfound'⟩ := hother.comes hquiet
      have hlist : listing.run root extension e.files = (.ok found, (listing.run root extension e.files).2) := Prod.ext hfound rfl
      have hlist' : other.run root extension e.files = (.ok found', (other.run root extension e.files).2) := Prod.ext hfound' rfl
      rw [(loadTreeBy_listed mode htree hroot hlist).2, (loadTreeBy_listed mode htree hroot hlist').2]
      exact loadFiles_alike path root mode _
        ⟨hsurvey.entries.trans hother.entries.symm, hsurvey.quiet hquiet, hother.quiet hquiet, rfl⟩
    · have hrefused := Files.listing_refused listing extension hquiet (Bool.not_eq_true _ ▸ hdirectory)
      have hrefused' := Files.listing_refused other extension hquiet (Bool.not_eq_true _ ▸ hdirectory)
      rw [loadTreeBy_unlisted hroot (Prod.ext hrefused rfl), loadTreeBy_unlisted hroot (Prod.ext hrefused' rfl)]

/-- Loads of directories are atomic and exact, and the order in which directories are listed does not show in them. In a tree of files
the named triggers are taken over from a directory as `TakesOver` says, whatever way there is to list the files and whatever is kept.
To load a directory is to keep all named triggers, and to reload it is to keep none. Without trouble the result and the named triggers
are the same for all listings. -/
theorem directories_taken_over (htree : e.files.Tree) (listing : Listing) (path : Path) (extension : String) (mode : Mode)
    (kept : NamedTriggers → NamedTriggers) :
    TakesOver listing path extension mode kept (takeDirectory kept listing path extension mode) e ∧
    loadDirectory (H := H) path extension mode = takeDirectory id .atOnce path extension mode ∧
    reloadDirectory (H := H) path extension mode = takeDirectory (fun _ => ∅) .atOnce path extension mode ∧
    (e.files.Quiet → ∀ other : Listing,
      (takeDirectory kept listing path extension mode e).1 = (takeDirectory kept other path extension mode e).1 ∧
        (takeDirectory kept listing path extension mode e).2.named = (takeDirectory kept other path extension mode e).2.named) := by
  have htakes : TakesOver listing path extension mode kept (takeDirectory kept listing path extension mode) e := by
    rcases hrun : loadTreeBy listing path extension mode e with ⟨f | ts, e'⟩
    · exact takesOver_of_error htree kept hrun
    · exact takesOver_of_ok htree kept hrun
  refine ⟨htakes, loadDirectory_eq path extension mode, reloadDirectory_eq path extension mode, fun hquiet other => ?_⟩
  have hsame := loadTreeBy_alike htree hquiet listing other path extension mode
  have hnamed := (loadTreeBy_named listing path extension mode e).trans (loadTreeBy_named other path extension mode e).symm
  rcases hrun : loadTreeBy listing path extension mode e with ⟨f | ts, e'⟩
  · rcases hother : loadTreeBy other path extension mode e with ⟨g | us, e''⟩
    · rw [takeDirectory_error kept hrun, takeDirectory_error kept hother]
      rw [hrun, hother] at hsame hnamed
      exact ⟨congrArg Except.error (Except.error.inj hsame), hnamed⟩
    · rw [hrun, hother] at hsame
      cases hsame
  · rcases hother : loadTreeBy other path extension mode e with ⟨g | us, e''⟩
    · rw [hrun, hother] at hsame
      cases hsame
    · rw [takeDirectory_ok kept hrun, takeDirectory_ok kept hother]
      rw [hrun, hother] at hsame hnamed
      cases hsame
      replace hnamed : e'.named = e''.named := hnamed
      exact ⟨rfl, by rw [hnamed]⟩

/-- The shop is loaded by a walk that lists each directory from the last name to the first. -/
theorem directories_taken_over_shop :
    let e := standing shopEntries
    let backwards : Listing := .walk (fun _ names => names.reverse) fun _ names => names.reverse_perm
    e.files.Tree ∧ (backwards.run ["triggers"] "trg" e.files).1 = .ok [["shop", "buy.trg"], ["hello.trg"]] ∧
      ∃ n e', takeDirectory id backwards ⟨["triggers"]⟩ "trg" .sync e = (.ok n, e') ∧
        ∃ t, e'.named["shop:buy"]? = some t ∧ t.source = "y = 2" ∧ t.mode = .sync := by
  intro e backwards
  have htree : e.files.Tree := ⟨by decide +kernel, by decide +kernel⟩
  have hfound : (backwards.run ["triggers"] "trg" e.files).1 = .ok [["shop", "buy.trg"], ["hello.trg"]] := by rfl
  have hdirectory : e.files.isDirectory ["triggers"] = true := rfl
  have hscripts : e.files.scripts ["triggers"] "trg" = [["hello.trg"], ["shop", "buy.trg"]] := by
    have hperm := (htree.surveys_listing backwards "trg" hdirectory e.files rfl).gives _ hfound
    rw [← Files.mergeSort_eq_scripts ((List.Perm.swap ["shop", "buy.trg"] ["hello.trg"] []).trans hperm)]
    exact List.mergeSort_of_pairwise (by decide +kernel)
  have hroot : (⟨["triggers"]⟩ : Path).locate e.files = .ok ["triggers"] := by rfl
  obtain ⟨htakes, -⟩ := directories_taken_over htree backwards ⟨["triggers"]⟩ "trg" .sync id
  have hreads : ReadsAll ["triggers"] (e.files.scripts ["triggers"] "trg") (backwards.run ["triggers"] "trg" e.files).2 := by
    rw [hscripts]
    exact ⟨"x = 1", _, rfl, "y = 2", _, rfl, trivial⟩
  have hloadable : ∀ l ∈ scriptsBelow e.files ["triggers"] "trg", Loadable e.files ["triggers"] l := by
    intro l hl
    rw [← mem_scripts_iff, hscripts, List.mem_cons, List.mem_singleton] at hl
    rcases hl with rfl | rfl
    · exact loadable_of_text rfl (by decide +kernel)
    · exact loadable_of_text rfl (by decide +kernel)
  obtain ⟨n, e', new, hrun, -, hnamed, hall, hmade⟩ :=
    htakes.exact ["triggers"] _ _ hroot (Prod.ext hfound rfl) hreads hloadable
  obtain ⟨t, ht⟩ := hall ["shop", "buy.trg"] (by rw [← mem_scripts_iff, hscripts]; decide)
  obtain ⟨l, hl, hname, hmadeOf, -⟩ := hmade _ t ht
  have hbuy : l = ["shop", "buy.trg"] := by
    rw [← mem_scripts_iff, hscripts, List.mem_cons, List.mem_singleton] at hl
    rcases hl with rfl | rfl
    · exact absurd hname (by decide +kernel)
    · rfl
  subst hbuy
  have hsource : some (Entry.file (.text "y = 2")) = some (.file (.text t.source)) := hmadeOf.source
  refine ⟨htree, hfound, n, e', hrun, t, ?_, ?_, hmadeOf.mode⟩
  · have hthere := hnamed (nameOf ["shop", "buy.trg"])
    rw [ht] at hthere
    rw [← show nameOf ["shop", "buy.trg"] = "shop:buy" by decide +kernel]
    exact hthere
  · exact (Content.text.inj (Entry.file.inj (Option.some.inj hsource))).symm

end Engine

end EventScript
