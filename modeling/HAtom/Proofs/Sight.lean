import HAtom.Markup.Visible
import HAtom.Proofs.Descent

/-!
# What a search sees

The nodes in sight of a search, and those it finds, described by what lies inside what: a node is in
sight when nothing at or above it is hidden (`Forest.Distinct.mem_visible`), and a search finds the
outermost of the nodes in sight that it accepts (`Forest.Distinct.outermost_eq`). Hiding more nodes
takes what they cover out of sight (`Forest.Distinct.visible_claim`), and nothing else; what is
hidden already can be hidden again without effect (`Forest.Distinct.visible_eq_of_covered`).
-/

namespace HAtom.Markup

namespace Forest

variable {f : Forest} {hidden hidden' : Nat → Bool} {accepts : Node → Bool}

theorem visible_sublist (hidden : Nat → Bool) (f : Forest) :
    (f.visible hidden).Sublist f.trees := by
  induction f with
  | nil => exact List.Sublist.slnil
  | node n below after ihb iha =>
    rw [visible, trees_node]
    split
    · exact (iha.trans (List.sublist_append_right ..)).cons _
    · exact (ihb.append iha).cons_cons _

/-- **A node is in sight when nothing at or above it is hidden.** -/
theorem Distinct.mem_visible (hd : f.Distinct) {t : Tree} :
    t ∈ f.visible hidden ↔
      t ∈ f.trees ∧ ∀ a ∈ f.trees, t ∈ a.all → hidden a.head.label = false := by
  induction f with
  | nil => simp [visible]
  | node n below after ihb iha =>
    obtain ⟨-, hdb, hda, -⟩ := distinct_node.1 hd
    rw [visible]
    split
    · next hn =>
      rw [iha hda]
      constructor
      · exact fun h => ⟨by simp [h.1], (hd.forall_above_after h.1).2 h.2⟩
      · rintro ⟨ht, h⟩
        rcases mem_trees_node.1 ht with rfl | ht | ht
        · exact absurd (hd.forall_above_head.1 h) (by simp [hn])
        · exact absurd ((hd.forall_above_below ht).1 h).1 (by simp [hn])
        · exact ⟨ht, (hd.forall_above_after ht).1 h⟩
    · next hn =>
      have hn : hidden n.label = false := Bool.eq_false_iff.2 hn
      rw [List.mem_cons, List.mem_append, ihb hdb, iha hda]
      constructor
      · rintro (rfl | ⟨ht, h⟩ | ⟨ht, h⟩)
        · exact ⟨by simp, hd.forall_above_head.2 hn⟩
        · exact ⟨by simp [ht], (hd.forall_above_below ht).2 ⟨hn, h⟩⟩
        · exact ⟨by simp [ht], (hd.forall_above_after ht).2 h⟩
      · rintro ⟨ht, h⟩
        rcases mem_trees_node.1 ht with rfl | ht | ht
        · exact .inl rfl
        · exact .inr (.inl ⟨ht, ((hd.forall_above_below ht).1 h).2⟩)
        · exact .inr (.inr ⟨ht, (hd.forall_above_after ht).1 h⟩)

theorem visible_subset {t : Tree} (ht : t ∈ f.visible hidden) : t ∈ f.trees :=
  (visible_sublist hidden f).subset ht

/-! ## Changes of what is hidden -/

/-- Hiding nodes at or below hidden ones has no effect. -/
theorem Distinct.visible_eq_of_covered (hd : f.Distinct)
    (hmono : ∀ a ∈ f.trees, hidden a.head.label → hidden' a.head.label)
    (hcov : ∀ a ∈ f.trees, hidden' a.head.label →
      ∃ b ∈ f.trees, a ∈ b.all ∧ hidden b.head.label) :
    f.visible hidden' = f.visible hidden := by
  refine hd.eq_of_sublist (visible_sublist ..) (visible_sublist ..) fun t => ?_
  rw [hd.mem_visible, hd.mem_visible]
  refine and_congr_right fun _ => ⟨fun h a ha hta => ?_, fun h a ha hta => ?_⟩
  · exact Bool.eq_false_iff.2 fun hh => Bool.eq_false_iff.1 (h a ha hta) (hmono a ha hh)
  · refine Bool.eq_false_iff.2 fun hh => ?_
    obtain ⟨b, hb, hab, hhb⟩ := hcov a ha hh
    exact Bool.eq_false_iff.1 (h b hb (Tree.mem_all_trans hab hta)) hhb

theorem Distinct.visible_congr (hd : f.Distinct)
    (h : ∀ l ∈ f.labels, hidden' l = hidden l) : f.visible hidden' = f.visible hidden :=
  hd.visible_eq_of_covered (fun a ha hh => by rwa [h _ (label_mem_labels ha)])
    fun a ha hh => ⟨a, ha, by simp, by rwa [← h _ (label_mem_labels ha)]⟩

/-- With nothing hidden everything is in sight. -/
theorem visible_of_clear (h : ∀ l ∈ f.labels, hidden l = false) : f.visible hidden = f.trees := by
  induction f with
  | nil => rfl
  | node n below after ihb iha =>
    simp only [labels_node, List.mem_cons, List.mem_append] at h
    rw [visible, h _ (.inl rfl), ihb fun l hl => h l (.inr (.inl hl)),
      iha fun l hl => h l (.inr (.inr hl))]
    rfl

/-- Hiding some nodes takes what lies at or below them out of sight. -/
theorem Distinct.visible_claim (hd : f.Distinct) {ts : List Tree}
    (h : ∀ a ∈ f.trees, hidden' a.head.label ↔ hidden a.head.label ∨ a ∈ ts)
    (hts : ∀ t ∈ ts, t ∈ f.trees) :
    f.visible hidden' = uncovered (f.visible hidden) ts := by
  refine hd.eq_of_sublist (visible_sublist ..)
    ((uncovered_sublist ..).trans (visible_sublist ..)) fun t => ?_
  rw [hd.mem_visible, mem_uncovered, hd.mem_visible, and_assoc]
  refine and_congr_right fun _ => ⟨fun ht => ⟨fun a ha hta => ?_, fun s hs hts' => ?_⟩, ?_⟩
  · exact Bool.eq_false_iff.2 fun hh => Bool.eq_false_iff.1 (ht a ha hta) ((h a ha).2 (.inl hh))
  · exact Bool.eq_false_iff.1 (ht s (hts s hs) hts') ((h s (hts s hs)).2 (.inr hs))
  · rintro ⟨h₁, h₂⟩ a ha hta
    refine Bool.eq_false_iff.2 fun hh => ?_
    rcases (h a ha).1 hh with hh | has
    · exact Bool.eq_false_iff.1 (h₁ a ha hta) hh
    · exact h₂ a has hta

/-- Below a node in sight the same is in sight as in the whole forest. -/
theorem Distinct.visible_below (hd : f.Distinct) {t : Tree} (ht : t ∈ f.visible hidden) :
    t.below.visible hidden = inside t (f.visible hidden) := by
  have htf := visible_subset ht
  have hdt := hd.below htf
  refine hd.eq_of_sublist ((visible_sublist ..).trans (trees_below_sublist htf))
    ((inside_sublist ..).trans (visible_sublist ..)) fun s => ?_
  rw [hdt.mem_visible, mem_inside, hd.mem_visible]
  constructor
  · rintro ⟨hs, h⟩
    refine ⟨⟨mem_trees_trans htf hs, fun a ha hsa => ?_⟩, hs⟩
    -- a node above `s` is inside `t`, or at or above it
    rcases hd.mem_all_or_mem_all ha htf hsa (by simp [hs]) with hat | hta
    · rcases Tree.mem_all.1 hat with rfl | hat
      · exact (hd.mem_visible.1 ht).2 a ha (by simp)
      · exact h a hat hsa
    · exact (hd.mem_visible.1 ht).2 a ha hta
  · rintro ⟨⟨-, h⟩, hs⟩
    exact ⟨hs, fun a ha hsa => h a (mem_trees_trans htf ha) hsa⟩

/-! ## What a search finds -/

theorem outermost_sublist (hidden : Nat → Bool) (accepts : Node → Bool) (f : Forest) :
    (f.outermost hidden accepts).Sublist (f.visible hidden) := by
  induction f with
  | nil => exact List.Sublist.slnil
  | node n below after ihb iha =>
    rw [outermost, visible]
    split
    · exact iha
    · split
      · exact (iha.trans (List.sublist_append_right ..)).cons_cons _
      · exact (ihb.append iha).cons _

/-- **A search finds the outermost of the nodes in sight that it accepts.** -/
theorem Distinct.outermost_eq (hd : f.Distinct) :
    f.outermost hidden accepts = tops ((f.visible hidden).filter fun t => accepts t.head) := by
  induction f with
  | nil => rfl
  | node n below after ihb iha =>
    obtain ⟨-, hdb, hda, -⟩ := distinct_node.1 hd
    rw [outermost, visible]
    split
    · exact iha hda
    · -- nodes of different parts of the forest do not lie inside each other
      have hba : ∀ s ∈ (below.visible hidden).filter fun t => accepts t.head,
          ∀ t ∈ (after.visible hidden).filter fun t => accepts t.head, t ∉ s.below.trees :=
        fun s hs t ht h => hd.not_mem_all' (visible_subset (List.mem_filter.1 hs).1)
          (visible_subset (List.mem_filter.1 ht).1) (by simp [h])
      have hab : ∀ s ∈ (after.visible hidden).filter fun t => accepts t.head,
          ∀ t ∈ (below.visible hidden).filter fun t => accepts t.head, t ∉ s.below.trees :=
        fun s hs t ht h => hd.not_mem_all (visible_subset (List.mem_filter.1 hs).1)
          (visible_subset (List.mem_filter.1 ht).1) (by simp [h])
      split
      · next hacc =>
        have hin : ∀ t ∈ (below.visible hidden).filter fun t => accepts t.head,
            t ∈ below.trees := fun t ht => visible_subset (List.mem_filter.1 ht).1
        have hout : ∀ t ∈ (after.visible hidden).filter fun t => accepts t.head,
            t ∈ after.trees := fun t ht => visible_subset (List.mem_filter.1 ht).1
        rw [List.filter_cons_of_pos (p := fun t : Tree => accepts t.head) hacc, List.filter_append,
          ← List.cons_append, tops_append, tops_cons hin, iha hda]
        · rfl
        · refine List.forall_mem_cons.2 ⟨fun t ht h => ?_, hba⟩
          exact hd.not_mem_all_head (hout t ht) (by simp [h])
        · refine fun s hs => List.forall_mem_cons.2 ⟨fun h => ?_, hab s hs⟩
          exact hd.not_mem_all_head (mem_trees_trans (hout s hs) h) (by simp)
      · next hacc =>
        rw [List.filter_cons_of_neg (p := fun t : Tree => accepts t.head) hacc, List.filter_append,
          tops_append hba hab, ihb hdb, iha hda]

end Forest

/-! ## Nodes with a keyword -/

/-- The nodes of a list that carry a keyword. -/
def marked (name keyword : String) (ts : List Tree) : List Tree :=
  ts.filter (·.head.carries name keyword)

@[simp] theorem mem_marked {name keyword : String} {ts : List Tree} {t : Tree} :
    t ∈ marked name keyword ts ↔ t ∈ ts ∧ t.head.carries name keyword := List.mem_filter

theorem marked_sublist (name keyword : String) (ts : List Tree) :
    (marked name keyword ts).Sublist ts := List.filter_sublist

end HAtom.Markup
