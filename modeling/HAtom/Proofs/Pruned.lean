import HAtom.Proofs.Sight

/-!
# Trees with nodes cut out

Instead of hiding the nodes that it finds, a search may cut them out of the tree, with everything
below them (`Tree.cut`). What is left of a tree then holds the nodes that would be in sight of it:
`Tree.Remains` relates a tree, the nodes of it that are in sight, and what is left of it.

* `Tree.Remains.cut`: a cut takes the outermost nodes in sight with a keyword, and leaves the nodes
  that they do not cover. Of each node that was cut out it keeps what is in sight inside it.
-/

namespace HAtom.Markup

/-! ## Cuts -/

/-- Cuts the outermost nodes that `accepts` holds of out of a forest: those nodes with what lies
below them, and what is left. -/
def Forest.cut (accepts : Node → Bool) : Forest → List Tree × Forest
  | nil => ([], nil)
  | node n below after =>
    if accepts n then (⟨n, below⟩ :: (cut accepts after).1, (cut accepts after).2)
    else ((cut accepts below).1 ++ (cut accepts after).1,
      node n (cut accepts below).2 (cut accepts after).2)

/-- Cuts the outermost nodes below a node that carry a keyword out of its tree. -/
def Tree.cut (t : Tree) (name keyword : String) : List Tree × Tree :=
  ((t.below.cut (·.carries name keyword)).1,
    ⟨t.head, (t.below.cut (·.carries name keyword)).2⟩)

/-! ## What is left when nodes are hidden -/

/-- The forest without the nodes that are hidden and what lies below them. -/
def Forest.prune (hidden : Nat → Bool) : Forest → Forest
  | nil => nil
  | node n below after =>
    if hidden n.label then prune hidden after
    else node n (prune hidden below) (prune hidden after)

/-- The tree without the nodes below its own that are hidden and what lies below them. -/
def Tree.prune (hidden : Nat → Bool) (t : Tree) : Tree := ⟨t.head, t.below.prune hidden⟩

namespace Forest

variable {f : Forest} {hidden hidden' : Nat → Bool} {accepts : Node → Bool}

theorem trees_prune (hidden : Nat → Bool) (f : Forest) :
    (f.prune hidden).trees = (f.visible hidden).map (Tree.prune hidden) := by
  induction f with
  | nil => rfl
  | node n below after ihb iha =>
    rw [prune, visible]
    split
    · exact iha
    · rw [trees_node, ihb, iha, List.map_cons, List.map_append]
      rfl

theorem prune_congr (h : ∀ l ∈ f.labels, hidden' l = hidden l) :
    f.prune hidden' = f.prune hidden := by
  induction f with
  | nil => rfl
  | node n below after ihb iha =>
    simp only [labels_node, List.mem_cons, List.mem_append] at h
    rw [prune, prune, h _ (.inl rfl), ihb fun l hl => h l (.inr (.inl hl)),
      iha fun l hl => h l (.inr (.inr hl))]

theorem prune_of_clear (h : ∀ l ∈ f.labels, hidden l = false) : f.prune hidden = f := by
  induction f with
  | nil => rfl
  | node n below after ihb iha =>
    simp only [labels_node, List.mem_cons, List.mem_append] at h
    rw [prune, h _ (.inl rfl), ihb fun l hl => h l (.inr (.inl hl)),
      iha fun l hl => h l (.inr (.inr hl))]
    rfl

/-- What a cut takes out of what is left of a forest. -/
theorem cut_prune_fst (hidden : Nat → Bool) (accepts : Node → Bool) (f : Forest) :
    ((f.prune hidden).cut accepts).1 = (f.outermost hidden accepts).map (Tree.prune hidden) := by
  induction f with
  | nil => rfl
  | node n below after ihb iha =>
    rw [prune, outermost]
    split
    · exact iha
    · rw [cut]
      split
      · rw [iha, List.map_cons]
        rfl
      · rw [ihb, iha, List.map_append]

/-- The nodes that are hidden when those that a search finds are hidden as well. -/
def alsoFound (hidden : Nat → Bool) (accepts : Node → Bool) (f : Forest) (l : Nat) : Bool :=
  hidden l || ((f.outermost hidden accepts).map (·.head.label)).contains l

theorem alsoFound_of_not_mem {l : Nat} (h : l ∉ f.labels) :
    f.alsoFound hidden accepts l = hidden l := by
  rw [alsoFound, Bool.or_eq_left_iff_imp, List.contains_iff_mem]
  intro hl
  obtain ⟨t, ht, rfl⟩ := List.mem_map.1 hl
  exact absurd (label_mem_labels (visible_subset ((outermost_sublist ..).subset ht))) h

@[simp] theorem alsoFound_or_hidden (l : Nat) :
    (f.alsoFound hidden accepts l || hidden l) = f.alsoFound hidden accepts l := by
  rw [alsoFound, Bool.or_right_comm, Bool.or_self]

@[simp] theorem hidden_or_alsoFound (l : Nat) :
    (hidden l || f.alsoFound hidden accepts l) = f.alsoFound hidden accepts l := by
  rw [Bool.or_comm, alsoFound_or_hidden]

theorem Distinct.alsoFound_iff (hd : f.Distinct) {t : Tree} (ht : t ∈ f.trees) :
    f.alsoFound hidden accepts t.head.label ↔
      hidden t.head.label ∨ t ∈ f.outermost hidden accepts := by
  rw [alsoFound, Bool.or_eq_true, List.contains_iff_mem, List.mem_map]
  refine or_congr_right ⟨?_, fun h => ⟨t, h, rfl⟩⟩
  rintro ⟨s, hs, hst⟩
  exact hd.eq_of_label_eq (visible_subset ((outermost_sublist ..).subset hs)) ht hst ▸ hs

section Node

variable {n : Node} {below after : Forest}

theorem alsoFound_of_hidden (hn : hidden n.label) :
    (node n below after).alsoFound hidden accepts = after.alsoFound hidden accepts := by
  funext l
  rw [alsoFound, outermost, if_pos hn, ← alsoFound]

theorem alsoFound_of_accepts (hn : ¬hidden n.label) (hacc : accepts n) (l : Nat) :
    (node n below after).alsoFound hidden accepts l =
      (l == n.label || after.alsoFound hidden accepts l) := by
  rw [alsoFound, outermost, if_neg hn, if_pos hacc, List.map_cons, List.contains_cons,
    Bool.or_left_comm, ← alsoFound]

theorem alsoFound_of_not_accepts (hn : ¬hidden n.label) (hacc : ¬accepts n) (l : Nat) :
    (node n below after).alsoFound hidden accepts l =
      (below.alsoFound hidden accepts l || after.alsoFound hidden accepts l) := by
  rw [alsoFound, alsoFound, alsoFound, outermost, if_neg hn, if_neg hacc, List.map_append,
    List.contains_append]
  cases hidden l <;> rfl

end Node

/-- What a cut leaves of what is left of a forest. -/
theorem Distinct.cut_prune_snd (hd : f.Distinct) :
    ((f.prune hidden).cut accepts).2 = f.prune (f.alsoFound hidden accepts) := by
  induction f with
  | nil => rfl
  | node n below after ihb iha =>
    obtain ⟨⟨hnb, hna⟩, hdb, hda, hba⟩ := distinct_node.1 hd
    by_cases hn : hidden n.label
    · rw [prune, if_pos hn, iha hda, alsoFound_of_hidden hn, prune, if_pos]
      rw [alsoFound_of_not_mem hna, hn]
    by_cases hacc : accepts n
    · rw [prune, if_neg hn, cut, if_pos hacc, iha hda, prune,
        if_pos (by simp [alsoFound_of_accepts hn hacc])]
      refine (prune_congr fun l hl => ?_).symm
      have hne : l ≠ n.label := by
        rintro rfl
        exact hna hl
      rw [alsoFound_of_accepts hn hacc, beq_false_of_ne hne, Bool.false_or]
    · have hhead : ¬(node n below after).alsoFound hidden accepts n.label := by
        rwa [alsoFound_of_not_accepts hn hacc, alsoFound_of_not_mem hnb,
          alsoFound_of_not_mem hna, Bool.or_self]
      rw [prune, if_neg hn, cut, if_neg hacc, ihb hdb, iha hda, prune, if_neg hhead]
      -- what is found in one part of the forest hides nothing in the other
      refine congrArg₂ (Forest.node n) ?_ ?_
      · refine (prune_congr fun l hl => ?_).symm
        rw [alsoFound_of_not_accepts hn hacc, alsoFound_of_not_mem (hba l hl),
          alsoFound_or_hidden]
      · refine (prune_congr fun l hl => ?_).symm
        rw [alsoFound_of_not_accepts hn hacc, alsoFound_of_not_mem fun h => hba l h hl,
          hidden_or_alsoFound]

end Forest

/-! ## What is left of a tree -/

/-- A tree is what is left of the tree `t` when the nodes `view` are in sight below its node. -/
def Tree.Remains (t : Tree) (view : List Tree) (rest : Tree) : Prop :=
  ∃ hidden, view = t.below.visible hidden ∧ rest = t.prune hidden

namespace Tree.Remains

variable {t rest : Tree} {view : List Tree}

/-- Of a tree nobody has cut anything out of everything is left. -/
theorem refl (t : Tree) : t.Remains t.below.trees t :=
  ⟨fun _ => false, (Forest.visible_of_clear fun _ _ => rfl).symm, by
    rw [Tree.prune, Forest.prune_of_clear fun _ _ => rfl]⟩

theorem head (h : t.Remains view rest) : rest.head = t.head := by
  obtain ⟨hidden, -, rfl⟩ := h
  rfl

theorem sublist (h : t.Remains view rest) : view.Sublist t.below.trees := by
  obtain ⟨hidden, rfl, -⟩ := h
  exact Forest.visible_sublist ..

/-- The nodes that are left are those in sight. -/
theorem nodes (h : t.Remains view rest) : rest.below.nodes = view.map (·.head) := by
  obtain ⟨hidden, rfl, rfl⟩ := h
  rw [Forest.nodes, Tree.prune, Forest.trees_prune, List.map_map]
  rfl

/-- **A cut takes the outermost nodes in sight with a keyword**, with what is in sight inside them,
**and leaves the nodes that they do not cover.** -/
theorem cut (h : t.Remains view rest) (hd : t.below.Distinct) (name keyword : String) :
    List.Forall₂ (fun s found => s.Remains (inside s view) found)
        (tops (marked name keyword view)) (rest.cut name keyword).1 ∧
      t.Remains (uncovered view (marked name keyword view)) (rest.cut name keyword).2 := by
  obtain ⟨hidden, rfl, rfl⟩ := h
  have hout : t.below.outermost hidden (·.carries name keyword) =
      tops (marked name keyword (t.below.visible hidden)) := hd.outermost_eq
  constructor
  · have hfst : ((t.prune hidden).cut name keyword).1 =
        (tops (marked name keyword (t.below.visible hidden))).map (Tree.prune hidden) := by
      rw [Tree.cut, Tree.prune, Forest.cut_prune_fst, hout]
    rw [hfst, List.forall₂_map_right_iff, List.forall₂_same]
    exact fun s hs =>
      ⟨hidden, (hd.visible_below (mem_marked.1 (mem_tops.1 hs).1).1).symm, rfl⟩
  · refine ⟨t.below.alsoFound hidden (·.carries name keyword), ?_, ?_⟩
    · rw [← uncovered_tops, ← hout]
      refine (hd.visible_claim (fun a ha => ?_) fun s hs =>
        Forest.visible_subset ((Forest.outermost_sublist ..).subset hs)).symm
      rw [hd.alsoFound_iff ha]
    · rw [Tree.cut, Tree.prune, Tree.prune, hd.cut_prune_snd]

end Tree.Remains

end HAtom.Markup
