import EventScript.Proofs.Files.Listings
import Mathlib.Data.List.Forall2
import Mathlib.Data.List.Induction
import Mathlib.Data.List.Nodup

/-!
# Collecting files

The files below a directory with some extension can be had from a single listing, or by going from directory to directory, each of
which is listed in an order of its own (`Listing`). If the files make up a tree, both come to the same files, in some order
(`Files.Tree.surveys_listing`). A walk goes no deeper than the locations are long.
-/

namespace EventScript

namespace Files

/-! ## Trees -/

/-- Each location stands for one thing, and what it stands in is a directory. -/
structure Tree (files : Files) : Prop where
  proper : files.Proper
  parent : ∀ x ∈ files.entries, files.isDirectory x.1.dropLast = true

variable {files : Files} {root l m dir : Location} {extension name : String}

/-- In a proper list an entry is there exactly if it is the one at its location. -/
theorem mem_entries_iff (hproper : files.Proper) (hl : l ≠ []) {e : Entry} :
    (l, e) ∈ files.entries ↔ files.entry? l = some e := by
  unfold entry?
  rw [if_neg hl, lookup_eq_some_iff_mem hproper]

/-- A directory other than the root has an entry. -/
theorem exists_entry (hl : l ≠ []) (h : files.isDirectory l = true) (hproper : files.Proper) : ∃ e, (l, e) ∈ files.entries :=
  ⟨_, (mem_entries_iff hproper hl).mpr (isDirectory_iff.mp h)⟩

/-- On the way to what stands in a tree there are directories. -/
theorem Tree.isDirectory_of_prefix (htree : files.Tree) (hl : ∃ e, (l, e) ∈ files.entries) (hm : m <+: l) (hne : m ≠ l) :
    files.isDirectory m = true := by
  obtain ⟨rest, rfl⟩ := hm
  induction rest using List.reverseRecOn with
  | nil => exact absurd (List.append_nil m).symm hne
  | append_singleton rest name ih =>
    obtain ⟨e, he⟩ := hl
    have hparent := htree.parent _ he
    rw [← List.append_assoc, List.dropLast_concat] at hparent
    by_cases hrest : m = m ++ rest
    · rwa [← hrest] at hparent
    · have hnonempty : m ++ rest ≠ [] := fun h => hrest (by rw [h, (List.append_eq_nil_iff.mp h).1])
      exact ih (exists_entry hnonempty hparent htree.proper) hrest

/-- How long the locations are at most. -/
def depth (files : Files) : Nat := (files.entries.map fun x => x.1.length).max?.getD 0

/-- No directory of a tree lies deeper than the tree. -/
theorem Tree.length_le_depth (htree : files.Tree) (h : files.isDirectory l = true) : l.length ≤ files.depth := by
  by_cases hl : l = []
  · rw [hl]
    exact Nat.zero_le _
  · obtain ⟨e, he⟩ := exists_entry hl h htree.proper
    exact List.le_max?_getD_of_mem (List.mem_map_of_mem he)

/-! ## Operations that only look -/

/-- What an operation comes to that begins with these files: they are as they were, but for accesses. What it comes to has a property,
and it comes to something unless an access meets a fault. -/
structure Surveyed (s : Files) (r : Except FileFault α × Files) (P : α → Prop) : Prop where
  entries : r.2.entries = s.entries
  trouble : r.2.trouble = s.trouble
  onward : s.accesses ≤ r.2.accesses
  gives : ∀ x, r.1 = .ok x → P x
  comes : s.Quiet → ∃ x, r.1 = .ok x

/-- Behind an operation that only looks there is no trouble if there was none ahead. -/
theorem Surveyed.quiet {s : Files} {r : Except FileFault α × Files} {P : α → Prop} (h : Surveyed s r P) (hquiet : s.Quiet) :
    r.2.Quiet := by
  intro n hn
  rw [h.trouble]
  exact hquiet n (Nat.le_trans h.onward hn)

/-- The operation only looks at files with these entries. -/
def Surveys (files : Files) (a : FileAct α) (P : α → Prop) : Prop :=
  ∀ s : Files, s.entries = files.entries → Surveyed s (a s) P

namespace Surveys

/-- To do nothing is to look only. -/
theorem pure {x : α} {P : α → Prop} (h : P x) : files.Surveys (Pure.pure x) P := fun s _ =>
  ⟨rfl, rfl, Nat.le_refl _, fun y hy => by cases hy; exact h, fun _ => ⟨x, rfl⟩⟩

/-- Two operations that only look do so one after the other, the second one with what the first gave. -/
theorem bind {a : FileAct α} {f : α → FileAct β} {P : α → Prop} {Q : β → Prop} (ha : files.Surveys a P)
    (hf : ∀ x, P x → files.Surveys (f x) Q) : files.Surveys (a >>= f) Q := by
  intro s hs
  have hfirst := ha s hs
  rcases Run.cases a s with ⟨x, t, hrun⟩ | ⟨fault, t, hrun⟩
  · rw [Run.bind_ok hrun]
    rw [hrun] at hfirst
    have hsecond := hf x (hfirst.gives x rfl) t (hfirst.entries.trans hs)
    exact
      { entries := hsecond.entries.trans hfirst.entries
        trouble := hsecond.trouble.trans hfirst.trouble
        onward := Nat.le_trans hfirst.onward hsecond.onward
        gives := hsecond.gives
        comes := fun hquiet => hsecond.comes (hfirst.quiet hquiet) }
  · rw [Run.bind_error hrun]
    rw [hrun] at hfirst
    exact
      { entries := hfirst.entries
        trouble := hfirst.trouble
        onward := hfirst.onward
        gives := fun _ => nofun
        comes := fun hquiet => by
          obtain ⟨x, hx⟩ := hfirst.comes hquiet
          cases hx }

/-- What is known of the outcome may be weakened. -/
theorem mono {a : FileAct α} {P Q : α → Prop} (h : files.Surveys a P) (hmono : ∀ x, P x → Q x) : files.Surveys a Q :=
  fun s hs => { h s hs with gives := fun x hx => hmono x ((h s hs).gives x hx) }

/-- The files may be looked at themselves, which has the same entries as at the beginning. -/
theorem get {f : Files → FileAct α} {P : α → Prop} (hf : ∀ s : Files, s.entries = files.entries → files.Surveys (f s) P) :
    files.Surveys (MonadState.get >>= f) P := fun s hs => hf s hs s hs

/-- One operation for each of a list only looks if each of them does. -/
theorem mapM {β γ : Type} {f : β → FileAct γ} {P : β → γ → Prop} {xs : List β}
    (hf : ∀ x ∈ xs, files.Surveys (f x) (P x)) : files.Surveys (xs.mapM f) (xs.Forall₂ P) := by
  induction xs with
  | nil => exact pure .nil
  | cons x rest ih =>
    rw [List.mapM_cons]
    refine bind (hf x List.mem_cons_self) fun y hy => ?_
    refine bind (ih fun z hz => hf z (List.mem_cons_of_mem x hz)) fun ys hys => ?_
    exact pure (.cons hy hys)

/-- An access counts itself, and may meet a fault. -/
theorem access : files.Surveys Files.access fun _ => True := fun s _ => by
  rw [access_apply]
  exact
    { entries := rfl
      trouble := rfl
      onward := Nat.le_succ _
      gives := fun _ _ => trivial
      comes := fun hquiet => ⟨(), by rw [hquiet.now]; rfl⟩ }

end Surveys

/-- The names of what stands directly in a directory. -/
def namesIn (files : Files) (root : Location) : List String :=
  files.entries.filterMap fun x =>
    match root.below? x.1 with
    | some [name] => some name
    | _ => none

/-- To list a directory gives the names in it. -/
theorem surveys_list (h : files.isDirectory root = true) : files.Surveys (list root) (· = files.namesIn root) := by
  refine .bind .access fun _ _ => .get fun s hs => ?_
  rw [entry?_of_entries hs, isDirectory_iff.mp h]
  exact .pure (congrArg (List.filterMap _) hs)

/-- To list all that is below it gives the files at any depth. -/
theorem surveys_listBelow (h : files.isDirectory root = true) : files.Surveys (listBelow root) (· = files.below root) := by
  refine .bind .access fun _ _ => .get fun s hs => ?_
  rw [entry?_of_entries hs, isDirectory_iff.mp h]
  exact .pure (congrArg (List.filterMap _) hs)

/-- What stands directly in a directory is one name behind it. -/
theorem nameIn_eq_some_iff : (match root.below? l with | some [name] => some name | _ => none) = some name ↔ l = root ++ [name] := by
  cases hbelow : root.below? l with
  | none =>
    refine ⟨nofun, fun h => ?_⟩
    rw [Location.below?_eq_some_iff.mpr ⟨h, List.cons_ne_nil _ _⟩] at hbelow
    cases hbelow
  | some rest =>
    obtain ⟨rfl, hne⟩ := Location.below?_eq_some_iff.mp hbelow
    match rest with
    | [] => exact absurd rfl hne
    | [other] => simp
    | first :: second :: rest => simp

/-- A name is listed exactly if there is an entry for it. -/
theorem mem_namesIn : name ∈ files.namesIn root ↔ ∃ e, (root ++ [name], e) ∈ files.entries := by
  unfold namesIn
  simp only [List.mem_filterMap, nameIn_eq_some_iff, Prod.exists]
  refine ⟨?_, ?_⟩
  · rintro ⟨l, e, hmem, rfl⟩
    exact ⟨e, hmem⟩
  · rintro ⟨e, hmem⟩
    exact ⟨_, e, hmem, rfl⟩

/-- What different locations come to is different if it tells them apart. -/
theorem nodup_filterMap {β : Type} (hproper : files.Proper) {f : Location × Entry → Option β}
    (hf : ∀ x y b, f x = some b → f y = some b → x.1 = y.1) : (files.entries.filterMap f).Nodup := by
  refine List.Pairwise.filterMap f ?_ (List.pairwise_map.mp hproper)
  rintro x y hne b hb c hc rfl
  exact hne (hf x y b hb hc)

/-- No name is listed twice. -/
theorem nodup_namesIn (hproper : files.Proper) : (files.namesIn root).Nodup := by
  refine nodup_filterMap hproper fun x y name hx hy => ?_
  exact (nameIn_eq_some_iff.mp hx).trans (nameIn_eq_some_iff.mp hy).symm

/-- No file is listed twice. -/
theorem nodup_below (hproper : files.Proper) : (files.below root).Nodup := by
  refine nodup_filterMap hproper fun x y l hx hy => ?_
  obtain ⟨x, _ | _⟩ := x
  · obtain ⟨y, _ | _⟩ := y
    · exact (Location.below?_eq_some_iff.mp hx).1.trans (Location.below?_eq_some_iff.mp hy).1.symm
    · cases hy
  · cases hx

/-! ## Walks -/

/-- A file with the extension, to which `l` leads from the root. -/
def IsScript (files : Files) (root : Location) (extension : String) (l : Location) : Prop :=
  FileName.extension? (l.getLast?.getD "") = some extension ∧ ∃ c, files.entry? (root ++ l) = some (.file c)

/-- These are the files with the extension at `dir` and below, each once. -/
structure Finds (files : Files) (root : Location) (extension : String) (dir : Location) (found : List Location) : Prop where
  nodup : found.Nodup
  mem : ∀ l, l ∈ found ↔ dir <+: l ∧ files.IsScript root extension l

section

variable {order : Location → List String → List String} {names : List String} {founds : List (List Location)}

/-- On the way from a directory to a file below it the first thing is in the directory. -/
theorem Tree.exists_name (htree : files.Tree) (hdir : files.isDirectory (root ++ dir) = true) (hl : dir <+: l)
    (hscript : files.IsScript root extension l) : ∃ name ∈ files.namesIn (root ++ dir), dir ++ [name] <+: l := by
  obtain ⟨-, c, hfile⟩ := hscript
  obtain ⟨rest, rfl⟩ := hl
  cases rest with
  | nil =>
    rw [List.append_nil, isDirectory_iff.mp hdir] at hfile
    cases hfile
  | cons name rest =>
    have hnonempty : root ++ (dir ++ [name]) ≠ [] := by simp
    have hentry : ∃ e, (root ++ (dir ++ name :: rest), e) ∈ files.entries :=
      ⟨_, (mem_entries_iff htree.proper (by simp)).mpr hfile⟩
    have hstep : root ++ dir ++ [name] = root ++ (dir ++ [name]) := List.append_assoc ..
    refine ⟨name, mem_namesIn.mpr ?_, by simp⟩
    rw [hstep]
    by_cases hrest : rest = []
    · rwa [hrest] at hentry
    · have hdirectory := htree.isDirectory_of_prefix (m := root ++ (dir ++ [name])) hentry (by simp) (by simpa using Ne.symm hrest)
      exact exists_entry hnonempty hdirectory htree.proper

/-- What is no directory is the only thing that can be found there. -/
theorem Tree.finds_file (htree : files.Tree) (hname : name ∈ files.namesIn (root ++ dir))
    (hfile : files.isDirectory (root ++ (dir ++ [name])) = false) :
    files.Finds root extension (dir ++ [name])
      (if FileName.extension? name == some extension then [dir ++ [name]] else []) := by
  have hlast : (dir ++ [name]).getLast?.getD "" = name := by simp
  have hthere : ∃ c, files.entry? (root ++ (dir ++ [name])) = some (.file c) := by
    obtain ⟨e, he⟩ := mem_namesIn.mp hname
    rw [List.append_assoc] at he
    have hentry := (mem_entries_iff htree.proper (by simp)).mp he
    cases e with
    | file c => exact ⟨c, hentry⟩
    | directory =>
      rw [isDirectory_iff.mpr hentry] at hfile
      cases hfile
  have honly {l : Location} (hl : dir ++ [name] <+: l) (hscript : files.IsScript root extension l) : l = dir ++ [name] := by
    obtain ⟨-, c, hc⟩ := hscript
    by_contra hne
    have hentry : ∃ e, (root ++ l, e) ∈ files.entries := by
      refine ⟨_, (mem_entries_iff htree.proper fun h => ?_).mpr hc⟩
      rw [(List.append_eq_nil_iff.mp h).2] at hl
      simp at hl
    have hdirectory := htree.isDirectory_of_prefix hentry ((List.prefix_append_right_inj root).mpr hl)
      fun h => hne (List.append_cancel_left h).symm
    rw [hfile] at hdirectory
    cases hdirectory
  by_cases hextension : FileName.extension? name = some extension
  · rw [if_pos (beq_iff_eq.mpr hextension)]
    refine ⟨List.nodup_singleton _, fun l => List.mem_singleton.trans ⟨?_, fun h => honly h.1 h.2⟩⟩
    rintro rfl
    exact ⟨List.prefix_rfl, by rwa [hlast], hthere⟩
  · rw [if_neg (mt beq_iff_eq.mp hextension)]
    refine ⟨List.nodup_nil, fun l => ⟨nofun, fun h => ?_⟩⟩
    have hl := honly h.1 h.2
    have hscript := h.2.1
    rw [hl, hlast] at hscript
    exact absurd hscript hextension

/-- What is found behind different names is different, and together it is all behind any of them. -/
theorem finds_all (hnames : names.Nodup)
    (h : names.Forall₂ (fun name found => files.Finds root extension (dir ++ [name]) found) founds) :
    founds.flatten.Nodup ∧
      ∀ l, l ∈ founds.flatten ↔ ∃ name ∈ names, dir ++ [name] <+: l ∧ files.IsScript root extension l := by
  induction h with
  | nil => exact ⟨List.nodup_nil, fun l => by simp⟩
  | @cons name found names founds hfound _ ih =>
    obtain ⟨hname, hnames⟩ := List.nodup_cons.mp hnames
    obtain ⟨hnodup, hmem⟩ := ih hnames
    refine ⟨?_, fun l => ?_⟩
    · rw [List.flatten_cons, List.nodup_append]
      refine ⟨hfound.nodup, hnodup, ?_⟩
      rintro l hl m hm rfl
      obtain ⟨hpre, -⟩ := (hfound.mem l).mp hl
      obtain ⟨other, hother, hpre', -⟩ := (hmem l).mp hm
      have heq : dir ++ [name] = dir ++ [other] :=
        (List.prefix_of_prefix_length_le hpre hpre' (by simp)).eq_of_length (by simp)
      have hsame : name = other := by simpa using heq
      exact hname (hsame ▸ hother)
    · rw [List.flatten_cons, List.mem_append, hfound.mem, hmem]
      simp only [List.mem_cons, exists_eq_or_imp]

/-- What is found in all that a directory holds is what is found in the directory. -/
theorem Tree.finds_directory (htree : files.Tree) (hdir : files.isDirectory (root ++ dir) = true)
    (hnames : names.Perm (files.namesIn (root ++ dir)))
    (h : names.Forall₂ (fun name found => files.Finds root extension (dir ++ [name]) found) founds) :
    files.Finds root extension dir founds.flatten := by
  obtain ⟨hnodup, hmem⟩ := finds_all (hnames.nodup_iff.mpr (nodup_namesIn htree.proper)) h
  refine ⟨hnodup, fun l => (hmem l).trans ⟨?_, ?_⟩⟩
  · rintro ⟨name, -, hpre, hscript⟩
    exact ⟨(List.prefix_append dir [name]).trans hpre, hscript⟩
  · rintro ⟨hpre, hscript⟩
    obtain ⟨name, hname, hpre'⟩ := htree.exists_name hdir hpre hscript
    exact ⟨name, hnames.mem_iff.mpr hname, hpre', hscript⟩

/-- A walk that may go as deep as the tree is finds what there is, in whatever order it goes. -/
theorem Tree.surveys_collect (htree : files.Tree) (horder : ∀ l names, (order l names).Perm names) {depth : Nat}
    (hdepth : files.depth < depth + (root ++ dir).length) (hdir : files.isDirectory (root ++ dir) = true) :
    files.Surveys (collect order root extension depth dir) (files.Finds root extension dir) := by
  induction depth generalizing dir with
  | zero =>
    have hlength := htree.length_le_depth hdir
    omega
  | succ depth ih =>
    refine .bind (surveys_list hdir) fun names hnames => ?_
    subst hnames
    have hperm := horder (root ++ dir) (files.namesIn (root ++ dir))
    refine .bind (.mapM fun name hname => .get fun s hs => ?_) fun founds hfounds => .pure (htree.finds_directory hdir hperm hfounds)
    have hsame : s.isDirectory (root ++ (dir ++ [name])) = files.isDirectory (root ++ (dir ++ [name])) := by
      unfold isDirectory
      rw [entry?_of_entries hs]
    rw [hsame]
    split
    next hdirectory =>
      refine ih ?_ hdirectory
      simp only [List.length_append, List.length_singleton] at hdepth ⊢
      omega
    next hfile => exact .pure (htree.finds_file (hperm.mem_iff.mp hname) (Bool.not_eq_true _ ▸ hfile))

end

end Files

/-! ## Listings -/

/-- A way to list the files below a directory: at once, or directory by directory, each in an order of its own. -/
inductive Listing where
  | atOnce
  | walk (order : Location → List String → List String) (shuffles : ∀ l names, (order l names).Perm names)

/-- Lists the files below a directory with an extension, as ways that lead to them from there. -/
def Listing.run (listing : Listing) (root : Location) (extension : String) : FileAct (List Location) :=
  match listing with
  | .atOnce => do
    let files ← Files.listBelow root
    pure (files.filter fun l => FileName.extension? (l.getLast?.getD "") == some extension)
  | .walk order _ => do
    let files ← get
    Files.collect order root extension (files.depth + 1) []

namespace Files

variable {files : Files} {root l : Location} {extension : String}

/-- The files below a directory with an extension, in the order of their locations. -/
def scripts (files : Files) (root : Location) (extension : String) : List Location :=
  ((files.below root).filter fun l => FileName.extension? (l.getLast?.getD "") == some extension).mergeSort Location.precedes

/-- The sorted list has exactly the files with the extension. -/
theorem mem_scripts (hproper : files.Proper) (hroot : files.isDirectory root = true) :
    l ∈ files.scripts root extension ↔ files.IsScript root extension l := by
  unfold scripts IsScript
  rw [List.mem_mergeSort, List.mem_filter, mem_below_iff hproper, beq_iff_eq]
  refine ⟨fun h => ⟨h.2, h.1.2⟩, fun h => ⟨⟨?_, h.2⟩, h.1⟩⟩
  rintro rfl
  obtain ⟨-, c, hc⟩ := h
  rw [List.append_nil, isDirectory_iff.mp hroot] at hc
  cases hc

/-- It is in the order of the locations. -/
theorem pairwise_sorted (ls : List Location) :
    (ls.mergeSort Location.precedes).Pairwise fun l m => l.precedes m = true := by
  refine List.pairwise_mergeSort ?_ ?_ ls
  · intro l m k
    exact Location.precedes_trans
  · intro l m
    exact Location.precedes_total l m

/-- It has each of them once. -/
theorem nodup_scripts (hproper : files.Proper) : (files.scripts root extension).Nodup :=
  (List.mergeSort_perm _ _).nodup_iff.mpr ((nodup_below hproper).filter _)

/-- Whatever the listing, in the end the files are in the same order. -/
theorem mergeSort_eq_scripts {found : List Location} (h : found.Perm (files.scripts root extension)) :
    found.mergeSort Location.precedes = files.scripts root extension :=
  List.Perm.eq_of_pairwise (fun _ _ _ _ => Location.precedes_antisymm) (pairwise_sorted found) (pairwise_sorted _)
    ((List.mergeSort_perm found _).trans h)

/-- Every listing of a tree only looks, and finds the files of the sorted list in some order. -/
theorem Tree.surveys_listing (htree : files.Tree) (listing : Listing) (extension : String) (hroot : files.isDirectory root = true) :
    files.Surveys (listing.run root extension) fun found => found.Perm (files.scripts root extension) := by
  cases listing with
  | atOnce =>
    refine .bind (surveys_listBelow hroot) fun found hfound => .pure ?_
    subst hfound
    exact (List.mergeSort_perm _ _).symm
  | walk order shuffles =>
    refine .get fun s hs => ?_
    have hdepth : s.depth = files.depth := by
      unfold depth
      rw [hs]
    have hdir : files.isDirectory (root ++ []) = true := by rwa [List.append_nil]
    rw [hdepth]
    refine (htree.surveys_collect shuffles (by omega) hdir).mono fun found hfound => ?_
    refine (List.perm_ext_iff_of_nodup hfound.nodup (nodup_scripts htree.proper)).mpr fun l => ?_
    rw [hfound.mem, mem_scripts htree.proper hroot, and_iff_right (List.nil_prefix)]

/-- Only directories can be listed. -/
theorem isDirectory_of_list {names : List String} {files' : Files} (h : list root files = (.ok names, files')) :
    files.isDirectory root = true := by
  rcases access_bind h with ⟨fault, hfault, -⟩ | h
  · cases hfault
  · rw [Run.get_bind] at h
    rcases hentry : files.accessed.entry? root with _ | _ | _ <;> simp only [hentry] at h <;> cases h
    exact isDirectory_iff.mpr hentry

/-- What is listed at once is a directory. -/
theorem isDirectory_of_listBelow {found : List Location} {files' : Files} (h : listBelow root files = (.ok found, files')) :
    files.isDirectory root = true := by
  rcases access_bind h with ⟨fault, hfault, -⟩ | h
  · cases hfault
  · rw [Run.get_bind] at h
    rcases hentry : files.accessed.entry? root with _ | _ | _ <;> simp only [hentry] at h <;> cases h
    exact isDirectory_iff.mpr hentry

/-- Whatever the listing, what is listed is a directory. -/
theorem isDirectory_of_listing {listing : Listing} {found : List Location} {files' : Files}
    (h : listing.run root extension files = (.ok found, files')) : files.isDirectory root = true := by
  cases listing with
  | atOnce =>
    obtain ⟨found, files'', hlist, -⟩ := Run.ok_of_bind h
    exact isDirectory_of_listBelow hlist
  | walk order shuffles =>
    obtain ⟨names, files'', hlist, -⟩ := Run.ok_of_bind (show collect order root extension (files.depth + 1) [] files = _ from h)
    rw [List.append_nil] at hlist
    exact isDirectory_of_list hlist

/-! ## Without trouble -/

/-- The text of a file. -/
def textAt (files : Files) (l : Location) : Except FileFault String :=
  match files.entry? l with
  | some (.file (.text s)) => .ok s
  | some (.file (.binary _)) => .error .invalidData
  | some .directory => .error .isDirectory
  | none => .error .notFound

/-- The text of a file depends on the entries alone. -/
theorem textAt_of_entries {files' : Files} (h : files'.entries = files.entries) (l : Location) : files'.textAt l = files.textAt l := by
  unfold textAt
  rw [entry?_of_entries h]

/-- Without trouble the text is read, at the cost of one access. -/
theorem readText_of_quiet (l : Location) (hquiet : files.Quiet) : readText l files = (files.textAt l, files.accessed) := by
  have hentry : files.accessed.entry? l = files.entry? l := rfl
  unfold readText textAt
  rw [access_bind_quiet hquiet.now, Run.get_bind, hentry]
  rcases files.entry? l with _ | ⟨_ | _⟩ | _ <;> rfl

/-- What is no directory is refused in one way by all listings. -/
theorem listing_refused (listing : Listing) (extension : String) (hquiet : files.Quiet) (hroot : files.isDirectory root = false) :
    (listing.run root extension files).1 = .error (if (files.entry? root).isSome then .notDirectory else .notFound) := by
  have hentry : files.accessed.entry? root = files.entry? root := rfl
  have hnot : files.entry? root ≠ some .directory := fun h => by
    rw [isDirectory_iff.mpr h] at hroot
    cases hroot
  cases listing with
  | atOnce =>
    have hlist : listBelow root files =
        (.error (if (files.entry? root).isSome then .notDirectory else .notFound), files.accessed) := by
      unfold listBelow
      rw [access_bind_quiet hquiet.now, Run.get_bind, hentry]
      rcases h : files.entry? root with _ | _ | _
      · rfl
      · rfl
      · exact absurd h hnot
    exact congrArg Prod.fst (Run.bind_error hlist)
  | walk order shuffles =>
    have hlist : list (root ++ []) files =
        (.error (if (files.entry? root).isSome then .notDirectory else .notFound), files.accessed) := by
      rw [List.append_nil]
      unfold list
      rw [access_bind_quiet hquiet.now, Run.get_bind, hentry]
      rcases h : files.entry? root with _ | _ | _
      · rfl
      · rfl
      · exact absurd h hnot
    exact congrArg Prod.fst (Run.bind_error hlist)

end Files

end EventScript
