import HAtom.Vocabulary
import Mathlib.Data.List.Basic

/-!
# The names of a vocabulary

The names in a file may have blanks around them, may be empty and may occur again. What counts is
each name without the blanks around it, unless nothing is left of it, in the place where it occurs
first. Only one list holds the names that count, and it is the one that `Vocabulary.unique` makes.
Since that list holds its own names as well, it is left as it is when the same is done again.

* `Text.IsTrimmed` says that a text has no blank at either end.
* `Vocabulary.Collects` says what it is for a list to hold the names that count.
* `Vocabulary.Collects.eq`: there is only one such list.
* `Vocabulary.unique_settled`: `unique` makes it, for every list and for the lists of every file.
-/

namespace HAtom.Text

/-- There is no blank at either end of the text. -/
structure IsTrimmed (s : String) : Prop where
  head : ∀ c ∈ s.toList.head?, isBlank c = false
  last : ∀ c ∈ s.toList.getLast?, isBlank c = false

theorem isTrimmed_trim (s : String) : IsTrimmed (trim s) where
  head := by
    rw [trim, String.toList_ofList]
    exact head_trimChars s.toList
  last := by
    rw [trim, String.toList_ofList]
    exact getLast_trimChars s.toList

theorem IsTrimmed.trim_eq {s : String} (h : IsTrimmed s) : trim s = s := by
  rw [trim, trimChars_eq_self h.head h.last, String.ofList_toList]

end HAtom.Text

namespace HAtom.Vocabulary

open Text

/-! ## The order of first occurrences -/

/-- The texts stand in the order in which they occur first among the names. -/
def InOrder (names listed : List String) : Prop :=
  listed.Pairwise fun a b => names.idxOf a < names.idxOf b

/-- A name in front of the others moves all of them, and so it does not change their order. -/
theorem InOrder.cons {name : String} {names listed : List String} (h : InOrder names listed)
    (hname : name ∉ listed) : InOrder (name :: names) listed := by
  refine List.Pairwise.imp_of_mem (fun {a b} ha hb hlt => ?_) h
  have hne {c : String} (hc : c ∈ listed) : name ≠ c := fun heq => hname (heq ▸ hc)
  rw [List.idxOf_cons_ne _ (hne ha), List.idxOf_cons_ne _ (hne hb)]
  omega

theorem InOrder.cons_cons {name : String} {names listed : List String} (h : InOrder names listed)
    (hname : name ∉ listed) : InOrder (name :: names) (name :: listed) := by
  refine List.pairwise_cons.2 ⟨fun b hb => ?_, h.cons hname⟩
  have hne : name ≠ b := fun heq => hname (heq ▸ hb)
  rw [List.idxOf_cons_self, List.idxOf_cons_ne _ hne]
  omega

/-! ## The names that are left -/

theorem uniqueAfter_cons_of_mem {before : List String} {name : String} (h : name ∈ before)
    (rest : List String) : uniqueAfter before (name :: rest) = uniqueAfter before rest := by
  rw [uniqueAfter, if_pos (List.contains_iff_mem.2 h)]

theorem uniqueAfter_cons_of_not_mem {before : List String} {name : String} (h : name ∉ before)
    (rest : List String) :
    uniqueAfter before (name :: rest) = name :: uniqueAfter (name :: before) rest := by
  rw [uniqueAfter, if_neg fun hmem => h (List.contains_iff_mem.1 hmem)]

theorem mem_uniqueAfter {before names : List String} {name : String} :
    name ∈ uniqueAfter before names ↔ name ∈ names ∧ name ∉ before := by
  induction names generalizing before with
  | nil => simp [uniqueAfter]
  | cons first rest ih =>
    by_cases hfirst : first ∈ before
    · rw [uniqueAfter_cons_of_mem hfirst, ih, List.mem_cons]
      constructor
      · exact fun ⟨hrest, hnot⟩ => ⟨.inr hrest, hnot⟩
      · rintro ⟨rfl | hrest, hnot⟩
        · exact absurd hfirst hnot
        · exact ⟨hrest, hnot⟩
    · rw [uniqueAfter_cons_of_not_mem hfirst, List.mem_cons, ih, List.mem_cons, List.mem_cons]
      by_cases heq : name = first
      · subst heq
        simp [hfirst]
      · simp [heq]

theorem not_mem_uniqueAfter {before : List String} {name : String} (h : name ∈ before)
    (names : List String) : name ∉ uniqueAfter before names :=
  fun hmem => (mem_uniqueAfter.1 hmem).2 h

theorem nodup_uniqueAfter (before names : List String) : (uniqueAfter before names).Nodup := by
  induction names generalizing before with
  | nil => exact List.nodup_nil
  | cons name rest ih =>
    by_cases hname : name ∈ before
    · rw [uniqueAfter_cons_of_mem hname]
      exact ih before
    · rw [uniqueAfter_cons_of_not_mem hname]
      exact List.nodup_cons.2 ⟨not_mem_uniqueAfter List.mem_cons_self rest, ih _⟩

/-- The names that are kept stand in order among all names, those included that are not kept. -/
theorem inOrder_uniqueAfter (before names : List String) :
    InOrder names (uniqueAfter before (names.filter fun name => !name.isEmpty)) := by
  induction names generalizing before with
  | nil => exact .nil
  | cons name rest ih =>
    -- a name is dropped as empty or as seen before, and then it is not kept later either
    by_cases hempty : name = ""
    · rw [List.filter_cons_of_neg (by simp [hempty])]
      refine (ih before).cons fun hmem => ?_
      have hkept := List.of_mem_filter (mem_uniqueAfter.1 hmem).1
      simp [hempty] at hkept
    · rw [List.filter_cons_of_pos (by simpa using hempty)]
      by_cases hname : name ∈ before
      · rw [uniqueAfter_cons_of_mem hname]
        exact (ih before).cons (not_mem_uniqueAfter hname _)
      · rw [uniqueAfter_cons_of_not_mem hname]
        exact (ih _).cons_cons (not_mem_uniqueAfter List.mem_cons_self _)

theorem mem_unique {names : List String} {name : String} :
    name ∈ unique names ↔ name ≠ "" ∧ ∃ written ∈ names, trim written = name := by
  simp [unique, mem_uniqueAfter, and_comm]

/-! ## The only list that holds them -/

/-- The list holds the names that count among those written. -/
structure Collects (names listed : List String) : Prop where
  nodup : listed.Nodup
  trimmed : ∀ name ∈ listed, name ≠ "" ∧ IsTrimmed name
  mem_iff : ∀ name, name ∈ listed ↔ name ≠ "" ∧ ∃ written ∈ names, trim written = name
  inOrder : InOrder (names.map trim) listed

theorem collects_unique (names : List String) : Collects names (unique names) where
  nodup := nodup_uniqueAfter ..
  trimmed name h := by
    obtain ⟨hne, written, -, rfl⟩ := mem_unique.1 h
    exact ⟨hne, isTrimmed_trim written⟩
  mem_iff _ := mem_unique
  inOrder := inOrder_uniqueAfter ..

/-- **Only one list holds the names that count**: two have the same members, each once, and in the
same order. -/
theorem Collects.eq {names listed other : List String} (h : Collects names listed)
    (hother : Collects names other) : listed = other := by
  have hperm : listed.Perm other := (List.perm_ext_iff_of_nodup h.nodup hother.nodup).2 fun name =>
    (h.mem_iff name).trans (hother.mem_iff name).symm
  refine hperm.eq_of_pairwise (fun a b _ _ hab hba => ?_) h.inOrder hother.inOrder
  omega

theorem inOrder_self {listed : List String} (h : listed.Nodup) : InOrder listed listed := by
  induction listed with
  | nil => exact .nil
  | cons name rest ih =>
    obtain ⟨hname, hrest⟩ := List.nodup_cons.1 h
    exact (ih hrest).cons_cons hname

/-- A list of names that count holds its own names. -/
theorem Collects.self {names listed : List String} (h : Collects names listed) :
    Collects listed listed := by
  have htrim : ∀ name ∈ listed, trim name = name := fun name hname =>
    (h.trimmed name hname).2.trim_eq
  refine ⟨h.nodup, h.trimmed, fun name => ⟨fun hname => ?_, ?_⟩, ?_⟩
  · exact ⟨(h.trimmed name hname).1, name, hname, htrim name hname⟩
  · rintro ⟨-, written, hwritten, rfl⟩
    rwa [htrim written hwritten]
  · rw [List.map_congr_left htrim, List.map_id']
    exact inOrder_self h.nodup

theorem unique_unique (names : List String) : unique (unique names) = unique names :=
  (collects_unique (unique names)).eq (collects_unique names).self

/-! ## Vocabularies from files -/

theorem eq_unique_of_ofJson? {format : DataFormat} {value : Json} {v : Vocabulary}
    (h : ofJson? format value = some v) :
    ∃ keywords elements, v.keywords = unique keywords ∧ v.elements = unique elements := by
  unfold ofJson? at h
  split at h
  · simp only [Option.bind_eq_bind, Option.bind_eq_some_iff, Option.pure_def] at h
    obtain ⟨keywords, -, elements, -, documentation, -, hv⟩ := h
    obtain rfl := Option.some.inj hv
    exact ⟨keywords, elements, rfl, rfl⟩
  · cases h

theorem exists_of_load {files : FileTree} {path : String} {v : Vocabulary}
    (h : load files path = .ok v) : ∃ format value, ofJson? format value = some v := by
  unfold load at h
  split at h
  · cases h
  · split at h
    · cases h
    · next text _ =>
      dsimp only at h
      split at h
      · next hread =>
        obtain rfl := Except.ok.inj h
        obtain ⟨value, -, hvalue⟩ := Option.bind_eq_some_iff.1 hread
        exact ⟨_, value, hvalue⟩
      · cases h

/-- The lists of a vocabulary from a file are left as they are; those for a file that cannot be read
are empty. -/
theorem unique_loadOr (usual : Vocabulary) (files : FileTree) (path : String) :
    unique (loadOr usual files (some path)).keywords = (loadOr usual files (some path)).keywords ∧
      unique (loadOr usual files (some path)).elements =
        (loadOr usual files (some path)).elements := by
  rw [loadOr]
  cases hload : load files path with
  | error fault => exact ⟨rfl, rfl⟩
  | ok v =>
    obtain ⟨format, value, hread⟩ := exists_of_load hload
    obtain ⟨keywords, elements, hkeywords, helements⟩ := eq_unique_of_ofJson? hread
    rw [hkeywords, helements]
    exact ⟨unique_unique keywords, unique_unique elements⟩

/-- **The names of a vocabulary**, whatever the list they come from: each is without blanks at its
ends and not empty, none occurs twice, all names of the list are there and no others, and they stand
in the order in which they occur first. Doing the same again changes nothing, nor does it change the
lists of a vocabulary from a file, whatever the file. -/
theorem unique_settled (names : List String) :
    Collects names (unique names) ∧ unique (unique names) = unique names ∧
      ∀ usual files path,
        let v := loadOr usual files (some path)
        unique v.keywords = v.keywords ∧ unique v.elements = v.elements :=
  ⟨collects_unique names, unique_unique names, unique_loadOr⟩

example : unique ["hentry", " hentry ", "", "entry-title\u3000", "\t", "hentry"] =
    ["hentry", "entry-title"] := by
  decide

end HAtom.Vocabulary
