import EventScript.Trigger.Loading
import Mathlib.Data.List.Basic

/-!
# Names of triggers in files

A trigger in a file is named after the way to the file. Two files can come to one name, because a colon may stand in the name of
a directory or a file as well as between two names. Where none does, files with the same extension have names of their own; the
one exception is a file with nothing but a point in front of its extension, which is taken for the one with two points there.
-/

namespace EventScript

namespace FileName

/-- A name with an extension is put together from what it is split into. -/
theorem toList_of_split {name stem extension : String} (h : split name = (stem, some extension)) :
    name.toList = stem.toList ++ '.' :: extension.toList := by
  unfold split at h
  dsimp only at h
  have hwhole := List.takeWhile_append_dropWhile (p := (· != '.')) (l := name.toList.reverse)
  have hpoint := List.head_dropWhile_not (· != '.') (l := name.toList.reverse)
  rcases hdrop : name.toList.reverse.dropWhile (· != '.') with _ | ⟨c, _ | ⟨d, before⟩⟩
  · rw [hdrop] at h
    cases h
  · rw [hdrop] at h
    cases h
  · rw [hdrop] at h hwhole
    cases h
    have hc : c = '.' := by
      have hnot := hpoint (by rw [hdrop]; exact List.cons_ne_nil _ _)
      simpa [hdrop] using hnot
    subst hc
    have hname : name.toList = (name.toList.reverse.takeWhile (· != '.') ++ '.' :: d :: before).reverse := by
      rw [hwhole, List.reverse_reverse]
    refine hname.trans ?_
    simp

/-- A file name is its stem and its extension. -/
theorem toList_eq {name extension : String} (h : extension? name = some extension) :
    name.toList = (stem name).toList ++ '.' :: extension.toList :=
  toList_of_split (Prod.ext rfl h)

theorem bare_of_stem {name : String} (h : stem name ≠ ".") : bare name = stem name := by
  unfold bare
  rw [if_neg (by simpa using h)]

/-- Without its extension a name has no more characters than with it. -/
theorem mem_of_mem_bare {name extension : String} (h : extension? name = some extension) (hstem : stem name ≠ ".") {c : Char}
    (hc : c ∈ (bare name).toList) : c ∈ name.toList := by
  rw [bare_of_stem hstem] at hc
  rw [toList_eq h]
  exact List.mem_append_left _ hc

/-- What an extension was taken from can be told from what is left. -/
theorem bare_injective {name name' extension : String} (h : extension? name = some extension)
    (h' : extension? name' = some extension) (hstem : stem name ≠ ".") (hstem' : stem name' ≠ ".") (hbare : bare name = bare name') :
    name = name' := by
  rw [bare_of_stem hstem, bare_of_stem hstem'] at hbare
  rw [← String.toList_inj, toList_eq h, toList_eq h', hbare]

end FileName

namespace Trigger

/-- The file name of a location. -/
def fileOf (l : Location) : String := l.getLast?.getD ""

/-- The names of which the name of a trigger is made up. -/
def nameParts (l : Location) : List String := l.dropLast ++ [FileName.bare (fileOf l)]

/-- The way to a file shows in the name of its trigger: no colon stands in it but between two names, and more than a point in
front of the extension. -/
structure Telling (l : Location) : Prop where
  noColon : ∀ name ∈ l, ':' ∉ name.toList
  stem_ne : FileName.stem (fileOf l) ≠ "."

variable {l m : Location} {extension : String}

theorem fileOf_mem (hl : l ≠ []) : fileOf l ∈ l := by
  unfold fileOf
  rw [List.getLast?_eq_some_getLast hl]
  exact List.getLast_mem hl

theorem Telling.noColon_nameParts (h : Telling l) (hl : l ≠ []) (hextension : FileName.extension? (fileOf l) = some extension) :
    ∀ part ∈ (nameParts l).map String.toList, ':' ∉ part := by
  intro part hpart hcolon
  obtain ⟨name, hname, rfl⟩ := List.mem_map.mp hpart
  rcases List.mem_append.mp hname with hname | hname
  · exact h.noColon name (List.dropLast_subset l hname) hcolon
  · obtain rfl := List.mem_singleton.mp hname
    exact h.noColon _ (fileOf_mem hl) (FileName.mem_of_mem_bare hextension h.stem_ne hcolon)

/-- Names without a colon can be told from the name that they are joined to. -/
theorem nameParts_injective (h : nameOf l = nameOf m) (hl : ∀ part ∈ (nameParts l).map String.toList, ':' ∉ part)
    (hm : ∀ part ∈ (nameParts m).map String.toList, ':' ∉ part) : nameParts l = nameParts m := by
  have hjoined : [':'].intercalate ((nameParts l).map String.toList) = [':'].intercalate ((nameParts m).map String.toList) := by
    have htexts := congrArg String.toList h
    unfold nameOf at htexts
    rw [String.toList_intercalate, String.toList_intercalate] at htexts
    exact htexts
  have hsplit := congrArg (List.splitOn ':') hjoined
  rw [List.splitOn_intercalate ':' hl (by simp [nameParts]), List.splitOn_intercalate ':' hm (by simp [nameParts])] at hsplit
  exact List.map_injective_iff.mpr (fun s t hst => String.toList_inj.mp hst) hsplit

/-- Files with one extension to which the way shows have triggers of different names. -/
theorem nameOf_injective (h : nameOf l = nameOf m) (hl : l ≠ []) (hm : m ≠ [])
    (hextension : FileName.extension? (fileOf l) = some extension) (hextension' : FileName.extension? (fileOf m) = some extension)
    (htelling : Telling l) (htelling' : Telling m) : l = m := by
  have hparts := nameParts_injective h (htelling.noColon_nameParts hl hextension) (htelling'.noColon_nameParts hm hextension')
  obtain ⟨hfront, hlast⟩ := List.append_inj' hparts rfl
  have hfile : fileOf l = fileOf m :=
    FileName.bare_injective hextension hextension' htelling.stem_ne htelling'.stem_ne (List.singleton_inj.mp hlast)
  unfold fileOf at hfile
  rw [List.getLast?_eq_some_getLast hl, List.getLast?_eq_some_getLast hm, Option.getD_some, Option.getD_some] at hfile
  rw [← List.dropLast_concat_getLast hl, ← List.dropLast_concat_getLast hm, hfront, hfile]

end Trigger

end EventScript
