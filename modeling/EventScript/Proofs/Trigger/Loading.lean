import EventScript.Proofs.Files.Collecting
import EventScript.Proofs.Trigger.Naming
import Mathlib.Data.Finset.Card
import Mathlib.Data.Finset.Image
import Mathlib.Data.List.Forall2

/-!
# Triggers from files, by name

The files are those that a walk from directory to directory finds, although one listing does for it (`Engine.scriptFiles_eq_walk`). A
reload makes one trigger of each file, and one entry of each name. Where two files come to one name, the later one is left.
-/

namespace EventScript

namespace Engine

open Trigger (nameOf fileOf)

variable {H : Type} {files : Files} {root l m : Location} {extension name : String} {mode : Mode} {path : Path} {e : Engine H}
variable {ls : List Location} {ts : List Trigger} {t : Trigger}

/-! ## The files -/

/-- The files below a directory with this extension. -/
def scriptsBelow (files : Files) (root : Location) (extension : String) : Finset Location :=
  ((files.below root).filter fun l => FileName.extension? (fileOf l) == some extension).toFinset

/-- The files below a directory that count as scripts are those with the extension. -/
theorem mem_scriptsBelow (hproper : files.Proper) :
    l ∈ scriptsBelow files root extension ↔
      l ≠ [] ∧ FileName.extension? (fileOf l) = some extension ∧ ∃ c, files.entry? (root ++ l) = some (.file c) := by
  unfold scriptsBelow
  rw [List.mem_toFinset, List.mem_filter, Files.mem_below_iff hproper, beq_iff_eq]
  refine ⟨?_, ?_⟩
  · rintro ⟨⟨hl, hfile⟩, hextension⟩
    exact ⟨hl, hextension, hfile⟩
  · rintro ⟨hl, hextension, hfile⟩
    exact ⟨⟨hl, hfile⟩, hextension⟩

/-- A listing comes to the files with the extension, in their order. -/
theorem scriptFiles_eq_scripts {files' : Files} (h : scriptFiles root extension files = (.ok ls, files')) :
    ls = files.scripts root extension := by
  obtain ⟨found, files'', hlist, hrest⟩ := Run.ok_of_bind h
  have hsurvey := Files.surveys_listBelow (Files.isDirectory_of_listBelow hlist) files rfl
  obtain rfl : found = files.below root := hsurvey.gives found (by rw [hlist])
  cases hrest
  rfl

/-- The one listing stands for a walk from directory to directory: in a tree both come to the same files, in whatever order the walk
lists each directory. -/
theorem scriptFiles_eq_walk {order : Location → List String → List String} (shuffles : ∀ l names, (order l names).Perm names)
    (htree : files.Tree) {files' files'' : Files} (hlist : scriptFiles root extension files = (.ok ls, files')) {found : List Location}
    (hwalk : Files.collect order root extension (files.depth + 1) [] files = (.ok found, files'')) :
    ls = found.mergeSort Location.precedes := by
  have hrun : (Listing.walk order shuffles).run root extension files = (.ok found, files'') := hwalk
  have hsurvey := htree.surveys_listing (.walk order shuffles) extension (Files.isDirectory_of_listing hrun) files rfl
  rw [hrun] at hsurvey
  rw [scriptFiles_eq_scripts hlist, Files.mergeSort_eq_scripts (hsurvey.gives found rfl)]

/-- The files with an extension are listed in their order. -/
theorem scriptFiles_quiet (extension : String) (hquiet : files.trouble files.accesses = none)
    (hdirectory : files.isDirectory root = true) :
    ∃ ls, scriptFiles root extension files = (.ok ls, files.accessed) ∧ ls.Pairwise (fun l m => l.precedes m = true) ∧
      ∀ l, l ∈ ls ↔ l ∈ scriptsBelow files root extension := by
  refine ⟨_, Run.bind_ok (Files.listBelow_quiet hquiet hdirectory), Files.pairwise_sorted _, fun l => ?_⟩
  unfold scriptsBelow
  rw [List.mem_mergeSort, List.mem_toFinset]
  rfl

/-! ## Their triggers -/

/-- The trigger is what is made of the file that `l` leads to. -/
structure MadeOf (files : Files) (root : Location) (mode : Mode) (l : Location) (t : Trigger) : Prop where
  name : t.name = nameOf l
  mode : t.mode = mode
  source : files.entry? (root ++ l) = some (.file (.text t.source))
  script : Script.parse t.source = .ok t.script

/-- The file holds a text that can be parsed. -/
def Loadable (files : Files) (root l : Location) : Prop :=
  ∃ text script, files.entry? (root ++ l) = some (.file (.text text)) ∧ Script.parse text = .ok script

/-- A file operation that succeeds gives the engine the files as they are then. -/
theorem filing_apply {α : Type} {a : FileAct α} {x : α} {files : Files} (h : a e.files = (.ok x, files)) :
    filing a e = (.ok x, { e with files := files }) := by
  show ((Filing.ofAct a e.files).1, _) = _
  unfold Filing.ofAct
  rw [h]

/-- Whether a file can be loaded depends on the entries alone. -/
theorem Loadable.of_entries (h : Loadable files root l) {files' : Files} (hentries : files'.entries = files.entries) :
    Loadable files' root l := by
  unfold Loadable
  rw [Files.entry?_of_entries hentries]
  exact h

/-- So does what is made of it. -/
theorem MadeOf.of_entries {t : Trigger} (h : MadeOf files root mode l t) {files' : Files} (hentries : files'.entries = files.entries) :
    MadeOf files' root mode l t :=
  { h with source := (Files.entry?_of_entries hentries _).trans h.source }

/-- A file operation that fails is a fault of the engine. -/
theorem filing_error {α : Type} {a : FileAct α} {fault : FileFault} {files : Files} (h : a e.files = (.error fault, files)) :
    filing a e = (.error (.file fault), { e with files := files }) := by
  show ((Filing.ofAct a e.files).1, _) = _
  unfold Filing.ofAct
  rw [h]

/-- A file that cannot be read. -/
theorem loadFile_unread (path : Path) (mode : Mode) {fault : FileFault} {files' : Files}
    (hread : Files.readText (root ++ l) e.files = (.error fault, files')) :
    loadFile path root mode l e = (.error (.file fault), { e with files := files' }) := by
  unfold loadFile
  rw [Run.bind_error (filing_error hread)]

/-- A trigger that is made is made alike in the load of a directory. -/
theorem liftM_newTrigger {text : String} {e e' : Engine H} {r : Except Fault Trigger} (h : newTrigger name text mode e = (r, e')) :
    (liftM (newTrigger (H := H) name text mode) : ExceptT Fault (StateM (Engine H)) _) e = (.ok r, e') := by
  show (Except.ok (newTrigger name text mode e).1, (newTrigger name text mode e).2) = _
  rw [h]

/-- A file whose text is not that of a script. -/
theorem loadFile_unparsed (path : Path) (mode : Mode) {text : String} {fault : ParseFault} {files' : Files}
    (hread : Files.readText (root ++ l) e.files = (.ok text, files')) (hparse : Script.parse text = .error fault) :
    loadFile path root mode l e = (.error (.scriptLoad (path.append l).text (.parse fault)), { e with files := files' }) := by
  have hnew : newTrigger (nameOf l) text mode { e with files := files' } = (.error (.parse fault), { e with files := files' }) := by
    unfold newTrigger
    rw [hparse]
  unfold loadFile
  rw [Run.bind_ok (filing_apply hread), Run.bind_ok (liftM_newTrigger hnew)]
  rfl

/-- A file that a trigger is made of. -/
theorem loadFile_parsed (path : Path) (mode : Mode) {text : String} {script : Script} {files' : Files}
    (hread : Files.readText (root ++ l) e.files = (.ok text, files')) (hparse : Script.parse text = .ok script) :
    loadFile path root mode l e = (.ok ⟨e.nextTrigger, nameOf l, text, script, mode⟩,
      { e with files := files', nextTrigger := e.nextTrigger + 1 }) := by
  have hnew : newTrigger (nameOf l) text mode { e with files := files' } =
      (.ok ⟨e.nextTrigger, nameOf l, text, script, mode⟩, { e with files := files', nextTrigger := e.nextTrigger + 1 }) := by
    unfold newTrigger
    rw [hparse]
  unfold loadFile
  rw [Run.bind_ok (filing_apply hread), Run.bind_ok (liftM_newTrigger hnew)]
  rfl

/-- Without trouble a file that can be loaded becomes its trigger. -/
theorem loadFile_quiet (path : Path) (mode : Mode) (hquiet : e.files.Quiet) (hloadable : Loadable e.files root l) :
    ∃ t e', loadFile path root mode l e = (.ok t, e') ∧ e'.files = e.files.accessed ∧ MadeOf e.files root mode l t := by
  obtain ⟨text, script, hfile, hparse⟩ := hloadable
  exact ⟨_, _, loadFile_parsed path mode (Files.readText_quiet hquiet.now hfile) hparse, rfl, rfl, rfl, hfile, hparse⟩

/-- Each file is made a trigger of its own. Reading one of them changes nothing about the others. -/
theorem loadFiles_quiet (path : Path) (mode : Mode) (hquiet : e.files.Quiet) (hfiles : e.files.entries = files.entries)
    (hloadable : ∀ l ∈ ls, Loadable files root l) :
    ∃ ts e', ls.mapM (loadFile path root mode) e = (.ok ts, e') ∧ ls.Forall₂ (MadeOf files root mode) ts := by
  induction ls generalizing e with
  | nil => exact ⟨[], e, rfl, .nil⟩
  | cons l rest ih =>
    obtain ⟨hl, hrest⟩ := List.forall_mem_cons.mp hloadable
    obtain ⟨t, e₁, hload, hfiles₁, hmade⟩ := loadFile_quiet path mode hquiet (hl.of_entries hfiles)
    have hentries : e₁.files.entries = files.entries := by
      rw [hfiles₁]
      exact hfiles
    obtain ⟨ts, e₂, hloads, hmades⟩ := ih (hfiles₁ ▸ hquiet.accessed) hentries hrest
    refine ⟨t :: ts, e₂, ?_, .cons (hmade.of_entries hfiles.symm) hmades⟩
    rw [List.mapM_cons, Run.bind_ok hload, Run.bind_ok hloads]
    rfl

/-- Without trouble a tree becomes the triggers of its files, in their order. -/
theorem loadTree_quiet (mode : Mode) (hroot : path.locate e.files = .ok root) (hdirectory : e.files.isDirectory root = true)
    (hquiet : e.files.Quiet) (hloadable : ∀ l ∈ scriptsBelow e.files root extension, Loadable e.files root l) :
    ∃ (ls : List Location) (ts : List Trigger) (e' : Engine H), loadTree path extension mode e = (.ok ts, e') ∧
      ls.Pairwise (fun l m => l.precedes m = true) ∧ (∀ l, l ∈ ls ↔ l ∈ scriptsBelow e.files root extension) ∧ ls.Forall₂ (MadeOf e.files root mode) ts := by
  obtain ⟨ls, hlist, hsorted, hmem⟩ := scriptFiles_quiet extension hquiet.now hdirectory
  have hlocate : FileAct.ofQuery path.locate e.files = (.ok root, e.files) := by
    unfold FileAct.ofQuery
    rw [hroot]
  obtain ⟨ts, e', hload, hmade⟩ : ∃ ts e', ls.mapM (loadFile path root mode) { e with files := e.files.accessed } = (.ok ts, e') ∧
      ls.Forall₂ (MadeOf e.files root mode) ts :=
    loadFiles_quiet path mode hquiet.accessed rfl fun l hl => hloadable l ((hmem l).mp hl)
  refine ⟨ls, ts, e', ?_, hsorted, hmem, hmade⟩
  unfold loadTree
  rw [Run.bind_ok (filing_apply hlocate), Run.bind_ok (filing_apply hlist)]
  exact hload

/-! ## Their names -/

/-- One trigger more counts for its name. -/
theorem byName_concat (ts : List Trigger) (t : Trigger) : byName (ts ++ [t]) = (byName ts).insert t.name t :=
  List.foldl_concat _ _ _ _

/-- A name belongs to the last trigger that has it. -/
theorem getElem?_byName (ts : List Trigger) (name : String) : (byName ts)[name]? = ts.reverse.find? (·.name == name) := by
  induction ts using List.reverseRecOn with
  | nil => rfl
  | append_singleton ts t ih =>
    rw [byName_concat, Std.ExtTreeMap.getElem?_insert, ih, List.reverse_concat, List.find?_cons]
    by_cases hname : t.name = name
    · simp [hname]
    · simp [hname, beq_false_of_ne hname]

/-- There are as many entries as names. -/
theorem size_byName (ts : List Trigger) : (byName ts).size = (ts.map Trigger.name).toFinset.card := by
  induction ts using List.reverseRecOn with
  | nil => rfl
  | append_singleton ts t ih =>
    have hcontains : (byName ts).contains t.name = true ↔ t.name ∈ (ts.map Trigger.name).toFinset := by
      rw [Std.ExtTreeMap.contains_eq_isSome_getElem?, getElem?_byName]
      simp
    have hnames : ((ts ++ [t]).map Trigger.name).toFinset = insert t.name (ts.map Trigger.name).toFinset := by
      simp [Finset.union_comm]
    rw [byName_concat, Std.ExtTreeMap.size_insert, ih, hnames]
    by_cases hname : t.name ∈ (ts.map Trigger.name).toFinset
    · rw [if_pos (hcontains.mpr hname), Finset.insert_eq_of_mem hname]
    · rw [if_neg (mt hcontains.mp hname), Finset.card_insert_of_notMem hname]

/-- The triggers have the names of their files. -/
theorem map_name_eq (h : ls.Forall₂ (MadeOf files root mode) ts) : ts.map Trigger.name = ls.map nameOf := by
  induction h with
  | nil => rfl
  | cons hmade _ ih => rw [List.map_cons, List.map_cons, hmade.name, ih]

/-- Among files from the last to the first, the trigger that has a name is that of the last file that comes to it. -/
theorem find?_name (h : ls.Forall₂ (MadeOf files root mode) ts) (hsorted : ls.Pairwise fun l m => m.precedes l = true)
    (hfind : ts.find? (·.name == name) = some t) :
    ∃ l ∈ ls, nameOf l = name ∧ MadeOf files root mode l t ∧ ∀ m ∈ ls, nameOf m = name → m.precedes l = true := by
  induction h with
  | nil => cases hfind
  | @cons l u ls ts hmade _ ih =>
    obtain ⟨hfirst, hrest⟩ := List.pairwise_cons.mp hsorted
    by_cases hname : nameOf l = name
    · have hu : u.name = name := hmade.name.trans hname
      rw [List.find?_cons_of_pos (by simpa using hu)] at hfind
      cases hfind
      refine ⟨l, List.mem_cons_self, hname, hmade, ?_⟩
      intro m hm _
      rcases List.mem_cons.mp hm with rfl | hm
      · exact m.precedes_refl
      · exact hfirst m hm
    · have hu : u.name ≠ name := fun hu => hname (hmade.name.symm.trans hu)
      rw [List.find?_cons_of_neg (by simpa using hu)] at hfind
      obtain ⟨k, hk, hkname, hkmade, hklast⟩ := ih hrest hfind
      refine ⟨k, List.mem_cons_of_mem l hk, hkname, hkmade, ?_⟩
      intro m hm hmname
      rcases List.mem_cons.mp hm with rfl | hm
      · exact absurd hmname hname
      · exact hklast m hm hmname

/-- For every file there is an entry of its name. -/
theorem exists_of_mem (h : ls.Forall₂ (MadeOf files root mode) ts) (hl : l ∈ ls) : ∃ t, (byName ts)[nameOf l]? = some t := by
  have hname : nameOf l ∈ ts.map Trigger.name := by
    rw [map_name_eq h]
    exact List.mem_map_of_mem hl
  obtain ⟨t, ht, htname⟩ := List.mem_map.mp hname
  rw [getElem?_byName]
  refine Option.isSome_iff_exists.mp (List.find?_isSome.mpr ⟨t, List.mem_reverse.mpr ht, ?_⟩)
  exact beq_iff_eq.mpr htname

/-- A reload counts the names that the files come to. -/
theorem reloadDirectory_quiet (mode : Mode) (hroot : path.locate e.files = .ok root) (hdirectory : e.files.isDirectory root = true)
    (hquiet : e.files.Quiet) (hloadable : ∀ l ∈ scriptsBelow e.files root extension, Loadable e.files root l) :
    ∃ (ls : List Location) (ts : List Trigger) (e' : Engine H), reloadDirectory path extension mode e = (.ok e'.named.size, e') ∧
      e'.named = byName ts ∧ e'.named.size = ((scriptsBelow e.files root extension).image nameOf).card ∧
      ls.Pairwise (fun l m => l.precedes m = true) ∧ (∀ l, l ∈ ls ↔ l ∈ scriptsBelow e.files root extension) ∧
      ls.Forall₂ (MadeOf e.files root mode) ts := by
  obtain ⟨ls, ts, e₁, hload, hsorted, hmem, hmade⟩ := loadTree_quiet mode hroot hdirectory hquiet hloadable
  have hreload : reloadDirectory path extension mode e = (.ok (byName ts).size, { e₁ with named := byName ts }) := by
    unfold reloadDirectory
    rw [Run.bind_ok hload, Run.bind_ok (Run.modify_apply _ _)]
    rfl
  have hfiles : (scriptsBelow e.files root extension).image nameOf = (ls.map nameOf).toFinset := by
    ext name
    simp [hmem]
  refine ⟨ls, ts, { e₁ with named := byName ts }, hreload, rfl, ?_, hsorted, hmem, hmade⟩
  show (byName ts).size = _
  rw [size_byName, map_name_eq hmade, hfiles]

/-- If all files with an extension below a directory can be parsed, a reload puts one trigger for each name that they come to in
place of all named ones: the one in the last of the files, in the order of their locations, that come to this name. It counts the
names. These are as many as the files if and only if no two files come to one, which is so if the way to each file shows in its
name; then each file has its own trigger. -/
theorem reload_last_of_name (hroot : path.locate e.files = .ok root) (hdirectory : e.files.isDirectory root = true)
    (hproper : e.files.Proper) (hquiet : e.files.Quiet)
    (hloadable : ∀ l ∈ scriptsBelow e.files root extension, Loadable e.files root l) :
    ∃ n e', reloadDirectory path extension mode e = (.ok n, e') ∧ n = e'.named.size ∧
      n = ((scriptsBelow e.files root extension).image nameOf).card ∧
      (∀ l ∈ scriptsBelow e.files root extension, ∃ t, e'.named[nameOf l]? = some t) ∧
      (∀ name t, e'.named[name]? = some t → ∃ l ∈ scriptsBelow e.files root extension, nameOf l = name ∧
        MadeOf e.files root mode l t ∧ ∀ m ∈ scriptsBelow e.files root extension, nameOf m = name → m.precedes l = true) ∧
      (n = (scriptsBelow e.files root extension).card ↔ Set.InjOn nameOf (scriptsBelow e.files root extension : Set Location)) ∧
      ((∀ l ∈ scriptsBelow e.files root extension, Trigger.Telling l) → n = (scriptsBelow e.files root extension).card ∧
        ∀ l ∈ scriptsBelow e.files root extension, ∃ t, e'.named[nameOf l]? = some t ∧ MadeOf e.files root mode l t) := by
  obtain ⟨ls, ts, e', hreload, hnamed, hcount, hsorted, hmem, hmade⟩ :=
    reloadDirectory_quiet mode hroot hdirectory hquiet hloadable
  have hsome : ∀ l ∈ scriptsBelow e.files root extension, ∃ t, e'.named[nameOf l]? = some t := by
    intro l hl
    rw [hnamed]
    exact exists_of_mem hmade ((hmem l).mpr hl)
  have hlast : ∀ name t, e'.named[name]? = some t → ∃ l ∈ scriptsBelow e.files root extension, nameOf l = name ∧
      MadeOf e.files root mode l t ∧ ∀ m ∈ scriptsBelow e.files root extension, nameOf m = name → m.precedes l = true := by
    intro name t ht
    rw [hnamed, getElem?_byName] at ht
    obtain ⟨l, hl, hname, hmadeOf, hprecedes⟩ :=
      find?_name (List.forall₂_reverse_iff.mpr hmade) (List.pairwise_reverse.mpr hsorted) ht
    refine ⟨l, (hmem l).mp (List.mem_reverse.mp hl), hname, hmadeOf, ?_⟩
    intro m hm
    exact hprecedes m (List.mem_reverse.mpr ((hmem m).mpr hm))
  have hiff : e'.named.size = (scriptsBelow e.files root extension).card ↔
      Set.InjOn nameOf (scriptsBelow e.files root extension : Set Location) := by
    rw [hcount]
    exact Finset.card_image_iff
  refine ⟨_, e', hreload, rfl, hcount, hsome, hlast, hiff, ?_⟩
  intro htelling
  have hinjective : Set.InjOn nameOf (scriptsBelow e.files root extension : Set Location) := by
    intro l hl m hm hname
    obtain ⟨hne, hextension, -⟩ := (mem_scriptsBelow hproper).mp hl
    obtain ⟨hne', hextension', -⟩ := (mem_scriptsBelow hproper).mp hm
    exact Trigger.nameOf_injective hname hne hne' hextension hextension' (htelling l hl) (htelling m hm)
  refine ⟨hiff.mpr hinjective, ?_⟩
  intro l hl
  obtain ⟨t, ht⟩ := hsome l hl
  obtain ⟨m, hm, hname, hmadeOf, -⟩ := hlast _ t ht
  obtain rfl := hinjective hm hl hname
  exact ⟨t, ht, hmadeOf⟩

/-- An engine that stands at these files, on which nothing has happened yet. -/
def standing (entries : List (Location × Entry)) : Engine Unit :=
  .new {} .attached false () (.memory ∅) ⟨entries, 0, fun _ => none⟩ (.steady 1)

/-- A script, and another one in a directory beside it. -/
def shopEntries : List (Location × Entry) :=
  [(["triggers"], .directory), (["triggers", "hello.trg"], .file (.text "x = 1")), (["triggers", "notes.txt"], .file (.text "(")),
    (["triggers", "shop"], .directory), (["triggers", "shop", "buy.trg"], .file (.text "y = 2"))]

/-- A file can be loaded that holds a text which can be parsed. -/
theorem loadable_of_text {text : String} (hfile : files.entry? (root ++ l) = some (.file (.text text)))
    (hparse : (Script.parse text).toOption.isSome = true) : Loadable files root l := by
  cases hscript : Script.parse text with
  | error f =>
    rw [hscript] at hparse
    cases hparse
  | ok script => exact ⟨text, script, hfile, hscript⟩

/-- In a standing engine there is no trouble. -/
theorem quiet_standing (entries : List (Location × Entry)) : (standing entries).files.Quiet := fun _ _ => rfl

/-- The two scripts have a trigger each, and the file that is no script has none. -/
theorem reload_last_of_name_shop :
    let e := standing shopEntries
    ∃ n e', reloadDirectory ⟨["triggers"]⟩ "trg" .sync e = (.ok n, e') ∧ n = 2 ∧
      ∃ t, e'.named["shop:buy"]? = some t ∧ MadeOf e.files ["triggers"] .sync ["shop", "buy.trg"] t := by
  intro e
  have hscripts : scriptsBelow e.files ["triggers"] "trg" = {["hello.trg"], ["shop", "buy.trg"]} := by decide +kernel
  have hloadable : ∀ l ∈ scriptsBelow e.files ["triggers"] "trg", Loadable e.files ["triggers"] l := by
    intro l hl
    rw [hscripts, Finset.mem_insert, Finset.mem_singleton] at hl
    rcases hl with rfl | rfl
    · exact loadable_of_text rfl (by decide +kernel)
    · exact loadable_of_text rfl (by decide +kernel)
  have htelling : ∀ l ∈ scriptsBelow e.files ["triggers"] "trg", Trigger.Telling l := by
    intro l hl
    rw [hscripts, Finset.mem_insert, Finset.mem_singleton] at hl
    rcases hl with rfl | rfl
    · exact ⟨by decide +kernel, by decide +kernel⟩
    · exact ⟨by decide +kernel, by decide +kernel⟩
  have hroot : (⟨["triggers"]⟩ : Path).locate e.files = .ok ["triggers"] := by rfl
  have hproper : e.files.Proper := by decide +kernel
  obtain ⟨n, e', hreload, -, -, -, -, -, hown⟩ := reload_last_of_name hroot rfl hproper (quiet_standing _) hloadable
  obtain ⟨hcount, hown⟩ := hown htelling
  have hmem : ["shop", "buy.trg"] ∈ scriptsBelow e.files ["triggers"] "trg" := by
    rw [hscripts]
    decide
  obtain ⟨t, ht, hmade⟩ := hown _ hmem
  refine ⟨n, e', hreload, ?_, t, ?_, hmade⟩
  · rw [hcount, hscripts]
    decide
  · rw [← ht]
    congr 1

/-- A script whose name has a colon in it, and another one in the directory that this colon stands for. -/
def colonEntries : List (Location × Entry) :=
  [(["triggers"], .directory), (["triggers", "a:b.trg"], .file (.text "x = 1")), (["triggers", "a"], .directory),
    (["triggers", "a", "b.trg"], .file (.text "x = 2"))]

/-- Both of them come to the name `a:b`, so the reload makes one entry of two files. -/
theorem reload_one_each_false :
    let e := standing colonEntries
    e.files.Proper ∧ e.files.Quiet ∧ (∀ l ∈ scriptsBelow e.files ["triggers"] "trg", Loadable e.files ["triggers"] l) ∧
      (scriptsBelow e.files ["triggers"] "trg").card = 2 ∧ (reloadDirectory ⟨["triggers"]⟩ "trg" .sync e).1 = .ok 1 := by
  intro e
  have hscripts : scriptsBelow e.files ["triggers"] "trg" = {["a:b.trg"], ["a", "b.trg"]} := by decide +kernel
  have hloadable : ∀ l ∈ scriptsBelow e.files ["triggers"] "trg", Loadable e.files ["triggers"] l := by
    intro l hl
    rw [hscripts, Finset.mem_insert, Finset.mem_singleton] at hl
    rcases hl with rfl | rfl
    · exact loadable_of_text rfl (by decide +kernel)
    · exact loadable_of_text rfl (by decide +kernel)
  refine ⟨by decide +kernel, quiet_standing _, hloadable, ?_, ?_⟩
  · rw [hscripts]
    decide
  · have hroot : (⟨["triggers"]⟩ : Path).locate e.files = .ok ["triggers"] := by rfl
    obtain ⟨ls, ts, e', hreload, -, hcount, -⟩ := reloadDirectory_quiet .sync hroot rfl (quiet_standing _) hloadable
    have hone : ((scriptsBelow e.files ["triggers"] "trg").image nameOf).card = 1 := by
      rw [hscripts]
      decide
    rw [hreload, hcount, hone]

end Engine

end EventScript
