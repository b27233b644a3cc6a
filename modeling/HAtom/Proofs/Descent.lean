import HAtom.Markup.Growth
import Mathlib.Data.List.MinMax
import Mathlib.Data.List.Nodup
import Mathlib.Data.List.Perm.Basic
import Mathlib.Tactic.Common

/-!
# Nodes inside nodes

A node of a document is known by its tree: the node with everything below it. That a node `t` lies
inside a node `a` is `t ∈ a.below.trees`, and `a.all` also counts `a` itself. When no two nodes
share a label (`Forest.Distinct`), two nodes lie one inside the other or apart
(`Forest.mem_all_or_mem_all`), and lists of nodes in document order are known by their members
(`Forest.eq_of_sublist`).

* `tops` keeps the nodes of a list that lie inside no other one of it.
* `uncovered` drops the nodes that lie at or below one of another list.
* `inside` keeps the nodes inside a given one.
-/

namespace HAtom.Markup

/-- The node of a tree and all nodes below it, in document order. -/
def Tree.all (t : Tree) : List Tree := t :: t.below.trees

@[simp] theorem Tree.mem_all {a t : Tree} : t ∈ a.all ↔ t = a ∨ t ∈ a.below.trees :=
  List.mem_cons

namespace Forest

/-- The labels of the nodes of a forest, in document order. -/
def labels (f : Forest) : List Nat := f.trees.map (·.head.label)

/-- No two nodes of the forest share a label. -/
def Distinct (f : Forest) : Prop := f.labels.Nodup

@[simp] theorem trees_nil : trees nil = [] := rfl

@[simp] theorem trees_node (n : Node) (below after : Forest) :
    (node n below after).trees = ⟨n, below⟩ :: (below.trees ++ after.trees) := rfl

@[simp] theorem trees_append (f g : Forest) : (f.append g).trees = f.trees ++ g.trees := by
  induction f with
  | nil => rfl
  | node n below after _ iha =>
    rw [append, trees_node, trees_node, iha, List.cons_append, List.append_assoc]

theorem mem_trees_node {n : Node} {below after : Forest} {t : Tree} :
    t ∈ (node n below after).trees ↔ t = ⟨n, below⟩ ∨ t ∈ below.trees ∨ t ∈ after.trees := by
  rw [trees_node, List.mem_cons, List.mem_append]

@[simp] theorem labels_node (n : Node) (below after : Forest) :
    (node n below after).labels = n.label :: (below.labels ++ after.labels) := by
  simp [labels]

theorem label_mem_labels {f : Forest} {t : Tree} (h : t ∈ f.trees) : t.head.label ∈ f.labels :=
  List.mem_map_of_mem h

/-! ## Inside is transitive and has no loops -/

theorem mem_trees_trans {f : Forest} {s t : Tree} (hs : s ∈ f.trees) (ht : t ∈ s.below.trees) :
    t ∈ f.trees := by
  induction f with
  | nil => simp at hs
  | node n below after ihb iha =>
    simp only [trees_node, List.mem_cons, List.mem_append] at hs ⊢
    rcases hs with rfl | hs | hs
    · exact .inr (.inl ht)
    · exact .inr (.inl (ihb hs))
    · exact .inr (.inr (iha hs))

theorem mem_trees_of_mem_all {f : Forest} {s t : Tree} (hs : s ∈ f.trees) (ht : t ∈ s.all) :
    t ∈ f.trees := by
  rcases Tree.mem_all.1 ht with rfl | ht
  · exact hs
  · exact mem_trees_trans hs ht

theorem trees_below_sublist {f : Forest} {t : Tree} (h : t ∈ f.trees) :
    t.below.trees.Sublist f.trees := by
  induction f with
  | nil => simp at h
  | node n below after ihb iha =>
    simp only [trees_node, List.mem_cons, List.mem_append] at h ⊢
    rcases h with rfl | h | h
    · exact (List.sublist_append_left ..).cons _
    · exact ((ihb h).trans (List.sublist_append_left ..)).cons _
    · exact ((iha h).trans (List.sublist_append_right ..)).cons _

theorem size_below_lt {f : Forest} {t : Tree} (h : t ∈ f.trees) : t.below.size < f.size := by
  induction f with
  | nil => simp at h
  | node n below after ihb iha =>
    simp only [trees_node, List.mem_cons, List.mem_append] at h
    simp only [size]
    rcases h with rfl | h | h
    · show below.size < _
      omega
    · have := ihb h
      omega
    · have := iha h
      omega

end Forest

namespace Tree

theorem not_mem_below (t : Tree) : t ∉ t.below.trees :=
  fun h => lt_irrefl _ (Forest.size_below_lt h)

theorem mem_all_trans {a b t : Tree} (hb : b ∈ a.all) (ht : t ∈ b.all) : t ∈ a.all := by
  rcases mem_all.1 hb with rfl | hb
  · exact ht
  · exact mem_all.2 (.inr (Forest.mem_trees_of_mem_all hb ht))

theorem mem_below_of_mem_all {a b t : Tree} (hb : b ∈ a.below.trees) (ht : t ∈ b.all) :
    t ∈ a.below.trees :=
  Forest.mem_trees_of_mem_all hb ht

theorem mem_below_of_all_mem {a b t : Tree} (hb : b ∈ a.all) (ht : t ∈ b.below.trees) :
    t ∈ a.below.trees := by
  rcases mem_all.1 hb with rfl | hb
  · exact ht
  · exact Forest.mem_trees_trans hb ht

theorem not_mem_below_of_mem_below {a b : Tree} (h : b ∈ a.below.trees) : a ∉ b.below.trees :=
  fun h' => a.not_mem_below (Forest.mem_trees_trans h h')

end Tree

/-! ## Distinct labels -/

namespace Forest

theorem distinct_node {n : Node} {below after : Forest} :
    (node n below after).Distinct ↔
      (n.label ∉ below.labels ∧ n.label ∉ after.labels) ∧ below.Distinct ∧ after.Distinct ∧
        ∀ l ∈ below.labels, l ∉ after.labels := by
  simp only [Distinct, labels_node, List.nodup_cons, List.mem_append, not_or, List.nodup_append,
    ne_eq]
  refine and_congr_right fun _ => and_congr_right fun _ => and_congr_right fun _ => ?_
  exact ⟨fun h l hl hl' => h l hl l hl' rfl, fun h l hl m hm e => h l hl (e ▸ hm)⟩

variable {f : Forest}

theorem Distinct.trees_nodup (hd : f.Distinct) : f.trees.Nodup := List.Nodup.of_map _ hd

/-- A label belongs to one node only. -/
theorem Distinct.eq_of_label_eq (hd : f.Distinct) {s t : Tree} (hs : s ∈ f.trees)
    (ht : t ∈ f.trees) (h : s.head.label = t.head.label) : s = t :=
  List.inj_on_of_nodup_map hd hs ht h

theorem Distinct.label_mem_below_iff (hd : f.Distinct) {s t : Tree} (hs : s ∈ f.trees)
    (ht : t ∈ f.trees) : s.head.label ∈ t.below.labels ↔ s ∈ t.below.trees := by
  refine ⟨fun h => ?_, label_mem_labels⟩
  obtain ⟨u, hu, hus⟩ := List.mem_map.1 h
  exact hd.eq_of_label_eq (mem_trees_trans ht hu) hs hus ▸ hu

theorem Distinct.below (hd : f.Distinct) {t : Tree} (h : t ∈ f.trees) : t.below.Distinct := by
  induction f with
  | nil => simp at h
  | node n below after ihb iha =>
    obtain ⟨-, hb, ha, -⟩ := distinct_node.1 hd
    simp only [trees_node, List.mem_cons, List.mem_append] at h
    rcases h with rfl | h | h
    · exact hb
    · exact ihb hb h
    · exact iha ha h

/-- A node in the first part of a forest lies at or below no node of the second part. -/
theorem Distinct.not_mem_all {n : Node} {below after : Forest}
    (hd : (node n below after).Distinct) {a t : Tree} (ha : a ∈ after.trees)
    (ht : t ∈ below.trees) : t ∉ a.all := fun h => by
  obtain ⟨-, -, -, hba⟩ := distinct_node.1 hd
  exact hba _ (label_mem_labels ht) (label_mem_labels (mem_trees_of_mem_all ha h))

/-- A node in the second part of a forest lies at or below no node of the first part. -/
theorem Distinct.not_mem_all' {n : Node} {below after : Forest}
    (hd : (node n below after).Distinct) {b t : Tree} (hb : b ∈ below.trees)
    (ht : t ∈ after.trees) : t ∉ b.all := fun h => by
  obtain ⟨-, -, -, hba⟩ := distinct_node.1 hd
  exact hba _ (label_mem_labels (mem_trees_of_mem_all hb h)) (label_mem_labels ht)

theorem Distinct.not_mem_all_head {n : Node} {below after : Forest}
    (hd : (node n below after).Distinct) {t : Tree} (ht : t ∈ after.trees) :
    t ∉ (⟨n, below⟩ : Tree).all := fun h => by
  obtain ⟨⟨-, hna⟩, -, -, hba⟩ := distinct_node.1 hd
  rcases Tree.mem_all.1 h with rfl | h
  · exact hna (label_mem_labels ht)
  · exact hba _ (label_mem_labels h) (label_mem_labels ht)

/-- What is at or above a node in the first part of a forest is in the same part, or is the node
above that part. -/
theorem Distinct.forall_above_below {n : Node} {below after : Forest}
    (hd : (node n below after).Distinct) {t : Tree} (ht : t ∈ below.trees) {P : Tree → Prop} :
    (∀ a ∈ (node n below after).trees, t ∈ a.all → P a) ↔
      P ⟨n, below⟩ ∧ ∀ a ∈ below.trees, t ∈ a.all → P a := by
  rw [trees_node, List.forall_mem_cons, List.forall_mem_append]
  refine and_congr (forall_prop_of_true (by simp [ht])) (and_iff_left fun a ha hta => ?_)
  exact absurd hta (hd.not_mem_all ha ht)

/-- What is at or above a node in the second part of a forest is in the same part. -/
theorem Distinct.forall_above_after {n : Node} {below after : Forest}
    (hd : (node n below after).Distinct) {t : Tree} (ht : t ∈ after.trees) {P : Tree → Prop} :
    (∀ a ∈ (node n below after).trees, t ∈ a.all → P a) ↔
      ∀ a ∈ after.trees, t ∈ a.all → P a := by
  rw [trees_node, List.forall_mem_cons, List.forall_mem_append]
  refine ⟨fun h => h.2.2, fun h => ⟨fun hta => ?_, fun a ha hta => ?_, h⟩⟩
  · exact absurd hta (hd.not_mem_all_head ht)
  · exact absurd hta (hd.not_mem_all' ha ht)

/-- Nothing but itself is at or above the first node of a forest. -/
theorem Distinct.forall_above_head {n : Node} {below after : Forest}
    (hd : (node n below after).Distinct) {P : Tree → Prop} :
    (∀ a ∈ (node n below after).trees, (⟨n, below⟩ : Tree) ∈ a.all → P a) ↔ P ⟨n, below⟩ := by
  rw [trees_node, List.forall_mem_cons, List.forall_mem_append]
  refine ⟨fun h => h.1 (by simp), fun h => ⟨fun _ => h, fun a ha hta => ?_, fun a ha hta => ?_⟩⟩
  · exact absurd (Tree.mem_below_of_mem_all ha hta) (Tree.not_mem_below _)
  · exact absurd (Tree.mem_all.2 (.inl rfl)) (hd.not_mem_all_head (mem_trees_of_mem_all ha hta))

/-- **Two nodes above a third lie one inside the other.** -/
theorem Distinct.mem_all_or_mem_all (hd : f.Distinct) {a b t : Tree} (ha : a ∈ f.trees)
    (hb : b ∈ f.trees) (hta : t ∈ a.all) (htb : t ∈ b.all) : a ∈ b.all ∨ b ∈ a.all := by
  induction f with
  | nil => simp at ha
  | node n below after ihb iha =>
    obtain ⟨-, hdb, hda, -⟩ := distinct_node.1 hd
    simp only [trees_node, List.mem_cons, List.mem_append] at ha hb
    rcases ha with rfl | ha | ha <;> rcases hb with rfl | hb | hb
    · exact .inl (by simp)
    · exact .inr (by simp [hb])
    · exact absurd hta (hd.not_mem_all_head (mem_trees_of_mem_all hb htb))
    · exact .inl (by simp [ha])
    · exact ihb hdb ha hb
    · exact absurd hta (hd.not_mem_all' ha (mem_trees_of_mem_all hb htb))
    · exact absurd htb (hd.not_mem_all_head (mem_trees_of_mem_all ha hta))
    · exact absurd hta (hd.not_mem_all ha (mem_trees_of_mem_all hb htb))
    · exact iha hda ha hb

/-- Below two nodes of which none lies inside the other there is no common label. -/
theorem Distinct.apart (hd : f.Distinct) {s t : Tree} (hs : s ∈ f.trees) (ht : t ∈ f.trees)
    (hne : s ≠ t) (hst : t ∉ s.below.trees) (hts : s ∉ t.below.trees) :
    ∀ l ∈ s.below.labels, l ∉ t.below.labels := by
  intro l hls hlt
  obtain ⟨u, hu, rfl⟩ := List.mem_map.1 hls
  have hut := (hd.label_mem_below_iff (mem_trees_trans hs hu) ht).1 hlt
  rcases hd.mem_all_or_mem_all hs ht (Tree.mem_all.2 (.inr hu)) (Tree.mem_all.2 (.inr hut))
    with h | h
  · exact (Tree.mem_all.1 h).elim hne hts
  · exact (Tree.mem_all.1 h).elim (fun e => hne e.symm) hst

/-- Two lists of nodes of a forest in document order are equal when they have the same members. -/
theorem Distinct.eq_of_sublist (hd : f.Distinct) {l m : List Tree} (hl : l.Sublist f.trees)
    (hm : m.Sublist f.trees) (h : ∀ t, t ∈ l ↔ t ∈ m) : l = m :=
  (List.Nodup.perm_iff_eq_of_sublist hd.trees_nodup hl hm).1
    ((List.perm_ext_iff_of_nodup (hl.nodup hd.trees_nodup) (hm.nodup hd.trees_nodup)).2 h)

end Forest

/-! ## Documents -/

namespace Document

/-- The root of the document stands for the document itself, and a label belongs to one node. -/
structure WellFormed (d : Document) : Prop where
  content : d.root.head.content = .document
  label : d.root.head.label ∉ d.root.below.labels
  distinct : d.root.below.Distinct

end Document

theorem Forest.labels_numbered (f : Forest) (next : Nat) :
    (f.numbered next).labels = List.range' next f.size := by
  induction f generalizing next with
  | nil => rfl
  | node n below after ihb iha =>
    rw [Forest.numbered, Forest.labels_node, ihb, iha, List.range'_append_1, Forest.size,
      Nat.add_assoc, Nat.add_comm 1, List.range'_succ]

theorem Document.wellFormed_ofForest (f : Forest) : (Document.ofForest f).WellFormed where
  content := rfl
  label := by
    change 0 ∉ (f.numbered 1).labels
    rw [Forest.labels_numbered]
    simp
  distinct := by
    change (f.numbered 1).labels.Nodup
    rw [Forest.labels_numbered]
    exact List.nodup_range'

/-- A document that was read is well-formed. -/
theorem Document.wellFormed_of_parse {text : String} {d : Document}
    (h : Document.parse text = .ok d) : d.WellFormed := by
  unfold Document.parse at h
  cases hf : Document.forest text with
  | error _ => simp [hf, Except.map] at h
  | ok f =>
    obtain rfl : Document.ofForest f = d := by simpa [hf, Except.map] using h
    exact Document.wellFormed_ofForest f

/-- What is decided of the document that was read holds of it. -/
theorem Document.exists_of_parse (text : String) (P : Document → Prop) [DecidablePred P]
    (h : (Document.parse text).toOption.any (fun d => decide (P d)) = true) :
    ∃ d, Document.parse text = .ok d ∧ P d := by
  cases hp : Document.parse text with
  | error _ => simp [hp, Except.toOption] at h
  | ok d => exact ⟨d, rfl, by simpa [hp, Except.toOption] using h⟩

/-! ## Lists of nodes -/

/-- Those of some nodes that lie inside no other one of them. -/
def tops (ts : List Tree) : List Tree := ts.filter fun t => ∀ s ∈ ts, t ∉ s.below.trees

/-- Those of some nodes that lie neither at nor below any of the nodes `us`. -/
def uncovered (ts us : List Tree) : List Tree := ts.filter fun t => ∀ s ∈ us, t ∉ s.all

/-- Those of some nodes that lie inside the node `a`. -/
def inside (a : Tree) (ts : List Tree) : List Tree := ts.filter fun t => t ∈ a.below.trees

@[simp] theorem mem_tops {ts : List Tree} {t : Tree} :
    t ∈ tops ts ↔ t ∈ ts ∧ ∀ s ∈ ts, t ∉ s.below.trees := by
  simp [tops]

@[simp] theorem mem_uncovered {ts us : List Tree} {t : Tree} :
    t ∈ uncovered ts us ↔ t ∈ ts ∧ ∀ s ∈ us, t ∉ s.all := by
  simp only [uncovered, List.mem_filter, decide_eq_true_eq]

@[simp] theorem mem_inside {a t : Tree} {ts : List Tree} :
    t ∈ inside a ts ↔ t ∈ ts ∧ t ∈ a.below.trees := by
  simp [inside]

theorem tops_sublist (ts : List Tree) : (tops ts).Sublist ts := List.filter_sublist

theorem uncovered_sublist (ts us : List Tree) : (uncovered ts us).Sublist ts :=
  List.filter_sublist

theorem inside_sublist (a : Tree) (ts : List Tree) : (inside a ts).Sublist ts :=
  List.filter_sublist

/-- Every node of a list lies at or below one that is inside no other. -/
theorem exists_mem_tops {ts : List Tree} {t : Tree} (ht : t ∈ ts) :
    ∃ s ∈ tops ts, t ∈ s.all := by
  -- of the nodes of the list at or above `t`, the one with most below it
  have hne : ts.filter (t ∈ ·.all) ≠ [] :=
    List.ne_nil_of_mem (List.mem_filter.2 ⟨ht, by simp⟩)
  obtain ⟨s, hs⟩ := Option.ne_none_iff_exists'.1
    (mt (List.argmax_eq_none (f := fun t : Tree => t.below.size)).1 hne)
  obtain ⟨hs, hmax⟩ := List.argmax_eq_some_iff.1 hs |>.imp id And.left
  simp only [List.mem_filter, decide_eq_true_eq] at hs hmax
  refine ⟨s, mem_tops.2 ⟨hs.1, fun u hu hsu => ?_⟩, hs.2⟩
  have hle := hmax u ⟨hu, Tree.mem_all.2 (.inr (Tree.mem_below_of_mem_all hsu hs.2))⟩
  exact absurd (Forest.size_below_lt hsu) (not_lt.2 hle)

/-- Of a node and nodes inside it the node is outermost. -/
theorem tops_cons {a : Tree} {ts : List Tree} (h : ∀ t ∈ ts, t ∈ a.below.trees) :
    tops (a :: ts) = [a] := by
  have ha : ∀ s ∈ a :: ts, a ∉ s.below.trees := List.forall_mem_cons.2
    ⟨a.not_mem_below, fun s hs => Tree.not_mem_below_of_mem_below (h s hs)⟩
  rw [tops, List.filter_cons_of_pos (by simpa using ha), List.filter_eq_nil_iff.2]
  intro t ht hout
  exact of_decide_eq_true hout a List.mem_cons_self (h t ht)

/-- The outermost nodes of two lists apart from each other. -/
theorem tops_append {ts us : List Tree} (h : ∀ s ∈ ts, ∀ t ∈ us, t ∉ s.below.trees)
    (h' : ∀ s ∈ us, ∀ t ∈ ts, t ∉ s.below.trees) : tops (ts ++ us) = tops ts ++ tops us := by
  rw [tops, List.filter_append]
  refine congrArg₂ (· ++ ·) (List.filter_congr fun t ht => ?_) (List.filter_congr fun t ht => ?_)
  · rw [decide_eq_decide, List.forall_mem_append]
    exact and_iff_left fun s hs => h' s hs t ht
  · rw [decide_eq_decide, List.forall_mem_append]
    exact and_iff_right fun s hs => h s hs t ht

theorem tops_eq_nil {ts : List Tree} : tops ts = [] ↔ ts = [] := by
  refine ⟨fun h => ?_, fun h => by simp [h, tops]⟩
  by_contra hne
  obtain ⟨t, ht⟩ := List.exists_mem_of_ne_nil _ hne
  obtain ⟨s, hs, -⟩ := exists_mem_tops ht
  simp [h] at hs

/-- What the outermost nodes of a list cover is all that the list covers. -/
theorem uncovered_tops (ts us : List Tree) : uncovered ts (tops us) = uncovered ts us := by
  refine List.filter_congr fun t _ => decide_eq_decide.2 ⟨fun h s hs hts => ?_, fun h s hs => ?_⟩
  · obtain ⟨u, hu, hsu⟩ := exists_mem_tops hs
    exact h u hu (Tree.mem_all_trans hsu hts)
  · exact h s (mem_tops.1 hs).1

/-- Outermost nodes of a list do not lie inside each other. -/
theorem not_mem_below_of_mem_tops {ts : List Tree} :
    ∀ s ∈ tops ts, ∀ t ∈ tops ts, t ∉ s.below.trees :=
  fun s hs _ ht => (mem_tops.1 ht).2 s (mem_tops.1 hs).1

/-- Inside a node of a forest lies what is below it. -/
theorem Forest.Distinct.inside_trees {f : Forest} (hd : f.Distinct) {t : Tree}
    (ht : t ∈ f.trees) : inside t f.trees = t.below.trees :=
  hd.eq_of_sublist (inside_sublist t f.trees) (Forest.trees_below_sublist ht) fun s => by
    rw [mem_inside]
    exact and_iff_right_of_imp (Forest.mem_trees_trans ht)

@[simp] theorem uncovered_nil (ts : List Tree) : uncovered ts [] = ts := by simp [uncovered]

/-- A list of which no node lies inside another is its own outermost part. -/
theorem tops_eq_self {ts : List Tree} (h : ∀ s ∈ ts, ∀ t ∈ ts, t ∉ s.below.trees) :
    tops ts = ts := by
  refine List.filter_eq_self.2 fun t ht => ?_
  simpa using fun s hs => h s hs t ht

end HAtom.Markup
