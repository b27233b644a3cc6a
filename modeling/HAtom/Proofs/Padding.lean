import HAtom.Proofs.Matching

/-!
# Structure without keywords

Elements without attributes, comments and instructions carry no keyword. A page that is padded with
them has the same findings, at the nodes that correspond.

* `Forest.Padded ρ f g` says that `g` is `f` with such padding: runs of siblings wrapped in elements
  without attributes, comments and instructions put in anywhere, also in the middle of a text. The
  map `ρ` takes the labels of `f` to those of `g`.
* `Forest.Padded.copies`: the nodes with attributes are copied one by one.
* `Markup.Document.findings_of_padded`: the findings move with the nodes.
-/

namespace HAtom

namespace Markup

/-! ## Padding -/

/-- Whether the node is a comment or an instruction. -/
def Node.isAside (n : Node) : Bool :=
  match n.content with
  | .comment => true
  | .instruction _ => true
  | _ => false

theorem Node.text_of_isAside {n : Node} (h : n.isAside) : n.text = "" := by
  unfold Node.isAside at h
  cases hc : n.content with
  | comment | instruction target => rw [Node.text, hc]
  | document | element name attributes | text value => simp [hc] at h

theorem Node.attributes_of_isAside {n : Node} (h : n.isAside) : n.attributes = [] := by
  unfold Node.isAside at h
  cases hc : n.content with
  | comment | instruction target => rw [Node.attributes, hc]
  | document | element name attributes | text value => simp [hc] at h

theorem Node.text_congr {n n' : Node} (h : n'.content = n.content) : n'.text = n.text := by
  unfold Node.text
  rw [h]

/-- The second forest is the first one with padding. The map takes the labels of the nodes of the
first to those of the second. -/
inductive Forest.Padded (ρ : Nat → Nat) : Forest → Forest → Prop
  | nil : Padded ρ .nil .nil
  /-- A node of both forests. -/
  | node {n n' : Node} {below below' after after' : Forest} (content : n'.content = n.content)
      (label : n'.label = ρ n.label) (hbelow : Padded ρ below below')
      (hafter : Padded ρ after after') : Padded ρ (.node n below after) (.node n' below' after')
  /-- A comment or an instruction is put in. -/
  | insert {n : Node} {f g : Forest} (aside : n.isAside) (hafter : Padded ρ f g) :
      Padded ρ f (.node n .nil g)
  /-- A run of siblings is wrapped in an element without attributes. -/
  | wrap {n : Node} {name : String} {run run' rest rest' : Forest}
      (content : n.content = .element name []) (hrun : Padded ρ run run')
      (hrest : Padded ρ rest rest') : Padded ρ (run.append rest) (.node n run' rest')
  /-- A text is cut in two, so that something can be put in between. -/
  | cut {n a b : Node} {x y : String} {after g : Forest} (content : n.content = .text (x ++ y))
      (left : a.content = .text x) (right : b.content = .text y)
      (hparts : Padded ρ (.node a .nil (.node b .nil after)) g) : Padded ρ (.node n .nil after) g

/-- The second node is a copy of the first one up to padding below it. -/
structure Copy (ρ : Nat → Nat) (t t' : Tree) : Prop where
  content : t'.head.content = t.head.content
  label : t'.head.label = ρ t.head.label
  text : t'.text = t.text
  below : Forest.Padded ρ t.below t'.below

namespace Forest

theorem text_append (f g : Forest) : (f.append g).text = f.text ++ g.text := by
  induction f with
  | nil => simp [append, text]
  | node n below after _ iha => rw [append, text, text, iha, ← String.append_assoc]

namespace Padded

variable {ρ : Nat → Nat} {f g : Forest}

/-- Padding adds no text. -/
theorem text_eq (h : Padded ρ f g) : g.text = f.text := by
  induction h with
  | nil => rfl
  | node content _ _ _ ihb iha => rw [text, text, ihb, iha, Node.text_congr content]
  | insert aside _ ih =>
    rw [text, Node.text_of_isAside aside, ih, text, String.empty_append, String.empty_append]
  | @wrap n name _ _ _ _ content _ _ ihrun ihrest =>
    have hn : n.text = "" := by rw [Node.text, content]
    rw [text, hn, ihrun, ihrest, text_append, String.empty_append]
  | @cut n a b x y _ _ content left right _ ih =>
    have hn : n.text = a.text ++ b.text := by
      simp only [Node.text, content, left, right]
    rw [ih]
    simp only [text, hn, String.append_empty, String.append_assoc]

/-- **The nodes with attributes are copied one by one.** -/
theorem copies (h : Padded ρ f g) :
    List.Forall₂ (Copy ρ) (dressed f.trees) (dressed g.trees) := by
  induction h with
  | nil => exact .nil
  | @node n n' below below' after after' content label hbelow hafter ihb iha =>
    have hcopy : Copy ρ ⟨n, below⟩ ⟨n', below'⟩ := by
      refine ⟨content, label, ?_, hbelow⟩
      rw [Tree.text, Tree.text, text_eq hbelow, Node.text_congr content]
    have hattributes := Node.attributes_congr content
    have hrest : List.Forall₂ (Copy ρ) (dressed (below.trees ++ after.trees))
        (dressed (below'.trees ++ after'.trees)) := by
      rw [dressed_append, dressed_append]
      exact List.rel_append ihb iha
    rw [trees_node, trees_node]
    by_cases hn : n.attributes = []
    · rw [dressed_cons_of_nil hn, dressed_cons_of_nil (hattributes.trans hn)]
      exact hrest
    · rw [dressed_cons_of_ne_nil hn, dressed_cons_of_ne_nil (hattributes ▸ hn)]
      exact .cons hcopy hrest
  | insert aside _ ih =>
    rw [trees_node, dressed_cons_of_nil (Node.attributes_of_isAside aside)]
    exact ih
  | @wrap n name run run' rest rest' content _ _ ihrun ihrest =>
    have hn : n.attributes = [] := by rw [Node.attributes, content]
    rw [trees_append, trees_node, dressed_cons_of_nil hn, dressed_append, dressed_append]
    exact List.rel_append ihrun ihrest
  | @cut n a b x y after g content left right _ ih =>
    have hn : n.attributes = [] := by rw [Node.attributes, content]
    have ha : a.attributes = [] := by rw [Node.attributes, left]
    have hb : b.attributes = [] := by rw [Node.attributes, right]
    simp only [trees_node, trees_nil, List.nil_append, dressed_cons_of_nil, hn, ha, hb] at ih ⊢
    exact ih

/-! ## Copies match -/

/-- A node with attributes of one forest and its copy in the other. -/
def Copied (ρ : Nat → Nat) (f g : Forest) (t t' : Tree) : Prop :=
  t ∈ dressed f.trees ∧ t' ∈ dressed g.trees ∧ Copy ρ t t'

/-- The copies lie in the same order. -/
theorem echoes (h : Padded ρ f g) : Echoes (Copied ρ f g) f.trees g.trees :=
  forall₂_mem h.copies

theorem labels_eq (h : Padded ρ f g) : (dressed g.trees).map (·.head.label) =
    (dressed f.trees).map fun t => ρ t.head.label :=
  map_congr_of_forall₂ h.copies fun _ _ ht => ht.label

theorem mem_dressed_trans {s t : Tree} (hs : s ∈ dressed f.trees)
    (ht : t ∈ dressed s.below.trees) : t ∈ dressed f.trees := by
  obtain ⟨hts, hattributes⟩ := mem_dressed.1 ht
  exact mem_dressed.2 ⟨Forest.mem_trees_trans (mem_of_mem_dressed hs) hts, hattributes⟩

theorem mem_dressed_below {s t : Tree} (ht : t ∈ dressed f.trees) (hts : t ∈ s.below.trees) :
    t ∈ dressed s.below.trees :=
  mem_dressed.2 ⟨hts, (mem_dressed.1 ht).2⟩

variable (hg : g.Distinct)

include hg

/-- Nodes with attributes keep their labels apart. -/
theorem eq_of_label_eq (h : Padded ρ f g) {s t : Tree} (hs : s ∈ dressed f.trees)
    (ht : t ∈ dressed f.trees) (hlabel : ρ s.head.label = ρ t.head.label) : s = t := by
  have hnodup : ((dressed g.trees).map (·.head.label)).Nodup :=
    (List.filter_sublist.map _).nodup hg
  rw [labels_eq h] at hnodup
  exact List.inj_on_of_nodup_map hnodup hs ht hlabel

theorem copy_unique {t t' u : Tree} (ht' : t' ∈ dressed g.trees) (hu : u ∈ dressed g.trees)
    (htt' : Copy ρ t t') (htu : Copy ρ t u) : t' = u :=
  hg.eq_of_label_eq (mem_of_mem_dressed ht') (mem_of_mem_dressed hu)
    (htt'.label.trans htu.label.symm)

/-- **Copies match** when no two nodes of a page share a label. -/
theorem matching (h : Padded ρ f g) : Matching ρ (Copied ρ f g) where
  content := fun ht => ht.2.2.content
  label := fun ht => ht.2.2.label
  text := fun ht => ht.2.2.text
  below := by
    rintro s s' t t' ⟨hs, hs', hss⟩ ⟨ht, ht', htt⟩
    have hcopies := hss.below.copies
    constructor
    · intro hts
      obtain ⟨u, hu, htu⟩ := exists_of_forall₂ hcopies (mem_dressed_below ht hts)
      rw [copy_unique hg ht' (mem_dressed_trans hs' hu) htt htu]
      exact mem_of_mem_dressed hu
    · intro hts
      obtain ⟨u, hu, hut⟩ := exists_of_forall₂ hcopies.flip (mem_dressed_below ht' hts)
      rw [eq_of_label_eq hg h ht (mem_dressed_trans hs hu) (htt.label.symm.trans hut.label)]
      exact mem_of_mem_dressed hu
  eq := by
    rintro s s' t t' ⟨hs, hs', hss⟩ ⟨ht, ht', htt⟩
    constructor
    · rintro rfl
      exact copy_unique hg ht' hs' htt hss
    · rintro rfl
      exact eq_of_label_eq hg h ht hs (htt.label.symm.trans hss.label)

end Padded

end Forest

namespace Document

variable {d d' : Document} {ρ : Nat → Nat}

/-- **Padding moves the findings of a page with its nodes**: a page that is padded with structure
without keywords has the same problems in the same order, at the nodes that correspond. -/
theorem findings_of_padded (hd : d.WellFormed) (hd' : d'.WellFormed)
    (h : Forest.Padded ρ d.root.below d'.root.below) :
    d'.findings = d.findings.map (Finding.relabel ρ) :=
  (h.matching hd'.distinct).findings_eq hd hd' h.echoes

/-- An entry with a text, at the second place in its document. -/
def bareEntry : Forest :=
  .node ⟨2, .element "b" [⟨none, "class", "hentry"⟩], ⟨1, 4⟩⟩
    (.node ⟨3, .text "xy", ⟨1, 22⟩⟩ .nil .nil) .nil

/-- The same entry wrapped in an element, with a comment in its text. -/
def paddedEntry : Forest :=
  .node ⟨2, .element "s" [], ⟨1, 4⟩⟩
    (.node ⟨3, .element "b" [⟨none, "class", "hentry"⟩], ⟨1, 7⟩⟩
      (.node ⟨4, .text "x", ⟨1, 25⟩⟩ .nil
        (.node ⟨5, .comment, ⟨1, 26⟩⟩ .nil (.node ⟨6, .text "y", ⟨1, 34⟩⟩ .nil .nil))) .nil) .nil

/-- Where the labels of the entry and of the two parts of its text go. -/
def paddedLabel : Nat → Nat
  | 2 => 3
  | 3 => 4
  | 4 => 6
  | l => l

theorem padded_paddedEntry : Forest.Padded paddedLabel bareEntry paddedEntry := by
  have htext : Forest.Padded paddedLabel (.node ⟨3, .text "xy", ⟨1, 22⟩⟩ .nil .nil)
      (.node ⟨4, .text "x", ⟨1, 25⟩⟩ .nil
        (.node ⟨5, .comment, ⟨1, 26⟩⟩ .nil (.node ⟨6, .text "y", ⟨1, 34⟩⟩ .nil .nil))) :=
    .cut (a := ⟨3, .text "x", ⟨1, 22⟩⟩) (b := ⟨4, .text "y", ⟨1, 23⟩⟩) (x := "x") (y := "y")
      rfl rfl rfl (.node rfl rfl .nil (.insert rfl (.node rfl rfl .nil .nil)))
  have hentry : Forest.Padded paddedLabel bareEntry
      (.node ⟨3, .element "b" [⟨none, "class", "hentry"⟩], ⟨1, 7⟩⟩
        (.node ⟨4, .text "x", ⟨1, 25⟩⟩ .nil
          (.node ⟨5, .comment, ⟨1, 26⟩⟩ .nil (.node ⟨6, .text "y", ⟨1, 34⟩⟩ .nil .nil))) .nil) :=
    .node rfl rfl htext .nil
  exact .wrap rfl hentry .nil

set_option maxRecDepth 100000 in
/-- The findings of the entry move with it. -/
theorem findings_of_padded_entry :
    ∃ d d', Document.parse "<p><b class='hentry'>xy</b></p>" = .ok d ∧
      Document.parse "<p><s><b class='hentry'>x<!--c-->y</b></s></p>" = .ok d' ∧
      d.WellFormed ∧ d'.WellFormed ∧ Forest.Padded paddedLabel d.root.below d'.root.below ∧
      d.findings.length = 2 ∧ d'.findings = d.findings.map (Finding.relabel paddedLabel) := by
  have hpage : Document.parse "<p><b class='hentry'>xy</b></p>" =
      .ok ⟨⟨0, .document, ⟨1, 1⟩⟩, .node ⟨1, .element "p" [], ⟨1, 1⟩⟩ bareEntry .nil⟩ := by
    decide +kernel
  have hpadded : Document.parse "<p><s><b class='hentry'>x<!--c-->y</b></s></p>" =
      .ok ⟨⟨0, .document, ⟨1, 1⟩⟩, .node ⟨1, .element "p" [], ⟨1, 1⟩⟩ paddedEntry .nil⟩ := by
    decide +kernel
  have hd := Document.wellFormed_of_parse hpage
  have hd' := Document.wellFormed_of_parse hpadded
  have hpad : Forest.Padded paddedLabel (.node ⟨1, .element "p" [], ⟨1, 1⟩⟩ bareEntry .nil)
      (.node ⟨1, .element "p" [], ⟨1, 1⟩⟩ paddedEntry .nil) :=
    .node rfl rfl padded_paddedEntry .nil
  exact ⟨_, _, hpage, hpadded, hd, hd', hpad, by decide +kernel, findings_of_padded hd hd' hpad⟩

end Document

end Markup

end HAtom
