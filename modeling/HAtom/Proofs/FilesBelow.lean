import HAtom.FileTree
import Mathlib.Data.List.Lex
import Mathlib.Data.String.Basic
import Mathlib.Tactic.Common

/-!
# What lies below a directory

Names lead from a directory to whatever they name, one after another, as long as all of them but the
last stand for directories. Links are not followed on such a way. A tree of files is proper when every
directory of it is one that a system can keep: its entries have names, and no two the same.

* `Directory.Leads`: names lead from a directory to an entry.
* `Directory.IsProper` and `FileTree.IsProper`: directories that a system can keep.
* `FileTree.isProper_of_look`: in a proper tree every path leads to proper directories only.
* `PathText.components_below`: the components of a path that goes on by names.
* `PathText.namesLe_iff`: the order of lists of names is the lexicographic one.
-/

namespace HAtom

/-! ## Names in paths -/

namespace PathText

/-- A name that an entry of a directory can have. -/
structure IsName (name : String) : Prop where
  ne_empty : name ≠ ""
  ne_here : name ≠ "."
  ne_up : name ≠ ".."
  no_slash : '/' ∉ name.toList

instance (name : String) : Decidable (IsName name) :=
  decidable_of_iff (name ≠ "" ∧ name ≠ "." ∧ name ≠ ".." ∧ '/' ∉ name.toList)
    ⟨fun ⟨h₁, h₂, h₃, h₄⟩ => ⟨h₁, h₂, h₃, h₄⟩, fun ⟨h₁, h₂, h₃, h₄⟩ => ⟨h₁, h₂, h₃, h₄⟩⟩

/-- The components before a slash and those after it. -/
theorem components_append (path name : String) :
    components (path ++ "/" ++ name) = components path ++ components name := by
  have hslash : (path ++ "/" ++ name).toList = path.toList ++ '/' :: name.toList := by
    simp [String.toList_append]
  rw [components, components, components, parts, parts, parts, Text.splitOn, Text.splitOn,
    Text.splitOn, hslash, Text.pieces_append (by decide), List.map_append, List.filter_append]

theorem IsName.components {name : String} (h : IsName name) : components name = [name] := by
  have hpieces : Text.pieces (· == '/') name.toList = [name.toList] := by
    apply Text.pieces_of_forall
    intro c hc
    have hne : c ≠ '/' := fun heq => h.no_slash (heq ▸ hc)
    simpa using hne
  rw [PathText.components, parts, Text.splitOn, hpieces]
  simp [h.ne_empty, h.ne_here]

/-- A name is one more component of the path that goes on by it. -/
theorem IsName.components_join {name : String} (h : IsName name) (path : String) :
    PathText.components (join path name) = PathText.components path ++ [name] := by
  by_cases hend : path.toList.getLast? = some '/'
  · -- the slash at the end of the path adds no component
    obtain ⟨before, hbefore⟩ := List.getLast?_eq_some_iff.1 hend
    have hpath : path = String.ofList before ++ "/" := by
      apply String.toList_injective
      simp [String.toList_append, hbefore]
    have hpath' := components_append (String.ofList before) ""
    have hempty : PathText.components "" = [] := by decide
    rw [String.append_empty, ← hpath, hempty, List.append_nil] at hpath'
    rw [join, if_pos (by simp [hend]), hpath', ← h.components, ← components_append, ← hpath]
  · rw [join, if_neg (by simpa using hend), components_append, h.components]

theorem components_below {names : List String} (h : ∀ name ∈ names, IsName name) (path : String) :
    components (below path names) = components path ++ names := by
  induction names generalizing path with
  | nil => simp [below]
  | cons name rest ih =>
    rw [List.forall_mem_cons] at h
    rw [below, List.foldl_cons, ← below, ih h.2, h.1.components_join, List.append_assoc]
    rfl

theorem below_append (path : String) (names more : List String) :
    below path (names ++ more) = below (below path names) more := List.foldl_append

/-- Paths that go on by names get no shorter. -/
theorem size_le_below (path : String) (names : List String) :
    path.utf8ByteSize ≤ (below path names).utf8ByteSize := by
  induction names generalizing path with
  | nil => exact Nat.le_refl _
  | cons name rest ih =>
    refine Nat.le_trans ?_ (ih (join path name))
    rw [join]
    split <;> simp only [String.utf8ByteSize_append] <;> omega

theorem namesLe_iff {names names' : List String} : namesLe names names' = true ↔ names ≤ names' := by
  rw [← not_lt]
  induction names generalizing names' with
  | nil => simp [namesLe]
  | cons name rest ih =>
    cases names' with
    | nil => simp [namesLe]
    | cons name' rest' =>
      rw [List.cons_lt_cons_iff, namesLe]
      by_cases h : name = name'
      · simp [h, ih]
      · have hlt : ¬(name' < name ∨ name' = name ∧ rest' < rest) ↔ name < name' := by
          constructor
          · intro hnot
            exact lt_of_le_of_ne (not_lt.1 fun hlt => hnot (.inl hlt)) h
          · rintro hlt (hlt' | ⟨rfl, -⟩)
            · exact lt_asymm hlt hlt'
            · exact h rfl
        simp only [beq_iff_eq, h, if_false, decide_eq_true_eq, hlt]

end PathText

/-! ## Directories -/

namespace Directory

/-- Names lead from a directory to an entry: each of them but the last names a directory in the one
before. -/
inductive Leads : Directory → List String → Entry → Prop
  | entry {entries : Directory} {name : String} {e : Entry} (h : (name, e) ∈ entries) :
    Leads entries [name] e
  | inside {entries inner : Directory} {name : String} {names : List String} {e : Entry}
    (h : (name, .directory inner) ∈ entries) (hinner : Leads inner names e) :
    Leads entries (name :: names) e

/-- A directory that a system can keep: its entries have names, no two of them the same, and so it is
in every directory below. -/
inductive IsProper : Directory → Prop
  | nil : IsProper []
  | cons {name : String} {e : Entry} {rest : Directory} (hname : PathText.IsName name)
    (hnew : name ∉ rest.map Prod.fst) (hinner : ∀ inner, e = .directory inner → IsProper inner)
    (hrest : IsProper rest) : IsProper ((name, e) :: rest)

theorem leads_nil {names : List String} {x : Entry} : ¬Leads [] names x := by
  rintro (h | ⟨h, -⟩) <;> simp at h

/-- Names lead to the first entry, into the directory that it is, or to the other entries. -/
theorem leads_cons {name : String} {e : Entry} {rest : Directory} {names : List String}
    {x : Entry} : Leads ((name, e) :: rest) names x ↔
      (names = [name] ∧ x = e) ∨
        (∃ inner more, e = .directory inner ∧ names = name :: more ∧ Leads inner more x) ∨
          Leads rest names x := by
  constructor
  · rintro (h | ⟨h, hinner⟩)
    · rcases List.mem_cons.1 h with heq | h
      · obtain ⟨rfl, rfl⟩ := Prod.mk.inj heq
        exact .inl ⟨rfl, rfl⟩
      · exact .inr (.inr (.entry h))
    · rcases List.mem_cons.1 h with heq | h
      · obtain ⟨rfl, rfl⟩ := Prod.mk.inj heq
        exact .inr (.inl ⟨_, _, rfl, rfl, hinner⟩)
      · exact .inr (.inr (.inside h hinner))
  · rintro (⟨rfl, rfl⟩ | ⟨inner, more, rfl, rfl, hinner⟩ | h | ⟨h, hinner⟩)
    · exact .entry List.mem_cons_self
    · exact .inside List.mem_cons_self hinner
    · exact .entry (List.mem_cons_of_mem _ h)
    · exact .inside (List.mem_cons_of_mem _ h) hinner

/-- The first of the names that lead somewhere is that of an entry. -/
theorem Leads.head {entries : Directory} {names : List String} {x : Entry}
    (h : entries.Leads names x) :
    ∃ name more, names = name :: more ∧ name ∈ entries.map Prod.fst := by
  cases h with
  | entry h => exact ⟨_, _, rfl, List.mem_map_of_mem h⟩
  | inside h _ => exact ⟨_, _, rfl, List.mem_map_of_mem h⟩

/-- Names that lead somewhere are one directory further away behind one more name. -/
theorem Leads.length_dropLast {entries : Directory} {names : List String} {x : Entry}
    (h : entries.Leads names x) (name : String) :
    (name :: names).dropLast.length = names.dropLast.length + 1 := by
  obtain ⟨first, more, rfl, -⟩ := h.head
  simp

theorem IsProper.of_mem {entries : Directory} (h : IsProper entries) {name : String} {e : Entry}
    (hmem : (name, e) ∈ entries) :
    PathText.IsName name ∧ ∀ inner, e = .directory inner → IsProper inner := by
  induction h with
  | nil => simp at hmem
  | cons hname _ hinner _ _ ihrest =>
    rcases List.mem_cons.1 hmem with heq | hmem
    · obtain ⟨rfl, rfl⟩ := Prod.mk.inj heq
      exact ⟨hname, hinner⟩
    · exact ihrest hmem

/-- Whatever leads somewhere in a proper directory is a name. -/
theorem Leads.isName {entries : Directory} {names : List String} {x : Entry}
    (h : entries.Leads names x) (hproper : entries.IsProper) :
    ∀ name ∈ names, PathText.IsName name := by
  induction h with
  | entry h => simpa using (hproper.of_mem h).1
  | inside h _ ih =>
    obtain ⟨hname, hinner⟩ := hproper.of_mem h
    exact List.forall_mem_cons.2 ⟨hname, ih (hinner _ rfl)⟩

end Directory

/-! ## What paths lead to -/

namespace FileTree

/-- A tree of files that a system can keep. -/
def IsProper (t : FileTree) : Prop := t.root.IsProper

/-- The directories on the way to a directory are proper. -/
def AllProper (ds : List Directory) : Prop := ∀ d ∈ ds, d.IsProper

theorem AllProper.head {ds : List Directory} (h : AllProper ds) : (ds.headD []).IsProper := by
  cases ds with
  | nil => exact .nil
  | cons d ds => exact h d List.mem_cons_self

theorem AllProper.lookup {ds : List Directory} (h : AllProper ds) {name : String}
    {inner : Directory} (hname : (ds.headD []).lookup name = some (.directory inner)) :
    inner.IsProper := by
  obtain ⟨before, after, heq, -⟩ := List.lookup_eq_some_iff.1 hname
  exact (h.head.of_mem (heq ▸ List.mem_append_right _ List.mem_cons_self)).2 inner rfl

theorem AllProper.cons {d : Directory} {ds : List Directory} (hd : d.IsProper)
    (h : AllProper ds) : AllProper (d :: ds) := List.forall_mem_cons.2 ⟨hd, h⟩

/-- Parts of a path that are followed from proper directories lead to proper ones, if what links lead
to is proper. -/
theorem isProper_of_descend {jump : List Directory → List String → Except IoFault Entry}
    (hjump : ∀ ds parts (entries : Directory), AllProper ds →
      jump ds parts = .ok (.directory entries) → entries.IsProper) (parts : List String) (ds : List Directory) (entries : Directory)
    (hds : AllProper ds) (h : descend jump ds parts = .ok (.directory entries)) :
    entries.IsProper := by
  induction parts generalizing ds with
  | nil =>
    rw [descend] at h
    cases h
    exact hds.head
  | cons part rest ih =>
    rw [descend] at h
    split at h
    · exact ih ds hds h
    split at h
    · -- on the way up are the directories that were on the way down
      refine ih _ ?_ h
      split
      · exact hds
      · exact fun d hd => hds d (List.mem_of_mem_tail hd)
    split at h
    · cases h
    split at h
    · cases h
    · next inner hinner => exact ih _ (.cons (hds.lookup hinner) hds) h
    · exact hjump _ _ _ hds h
    · next e hdir _ hlookup =>
      split at h
      · cases h
        exact absurd rfl (hdir entries)
      · cases h

theorem isProper_of_walk {root : Directory} (hroot : root.IsProper) (links : Nat)
    (ds : List Directory) (parts : List String) (entries : Directory) (hds : AllProper ds)
    (h : walk root links ds parts = .ok (.directory entries)) : entries.IsProper := by
  have hstart : ∀ ds parts, AllProper ds → AllProper (walk.start root ds parts) := by
    intro ds parts hds
    unfold walk.start
    split
    · exact List.forall_mem_singleton.2 hroot
    · exact hds
  induction links generalizing ds parts entries with
  | zero =>
    rw [walk] at h
    exact isProper_of_descend (fun _ _ _ _ h => by cases h) parts _ entries (hstart ds parts hds) h
  | succ links ih =>
    rw [walk] at h
    exact isProper_of_descend (fun ds parts entries hds h => ih ds parts entries hds h) parts _ entries
      (hstart ds parts hds) h

theorem allProper_ancestors (names : List String) (ds : List Directory) (h : AllProper ds) :
    AllProper (ancestors names ds) := by
  induction names generalizing ds with
  | nil => exact h
  | cons name rest ih =>
    rw [ancestors]
    split
    · next inner hinner => exact ih _ (.cons (h.lookup hinner) h)
    · exact ih _ (.cons .nil h)

/-- **A path leads to proper directories only**, in a tree that is proper. -/
theorem isProper_of_look {t : FileTree} (h : t.IsProper) {path : String} {entries : Directory}
    (hlook : t.look path = .ok (.directory entries)) : entries.IsProper := by
  unfold look at hlook
  split at hlook
  · cases hlook
  split at hlook
  · cases hlook
  split at hlook
  · cases hlook
  exact isProper_of_walk h _ _ _ _
    (allProper_ancestors _ _ (List.forall_mem_singleton.2 h)) hlook

end FileTree

end HAtom
