import HAtom.Proofs.Accepted
import HAtom.Proofs.Misplaced
import HAtom.Proofs.Padding

/-!
# Pages that are feeds themselves

A page without feeds is checked as if it were one. It has the findings of the page where its root
element is marked as a feed, when there is an entry and no keyword on the root element.

* `QuietOutside a view` says that the nodes of a view outside of `a` have no keyword. The rules of a
  feed find the same there and inside `a` (`findings_inside`).
* `Markup.Forest.unplaced` forgets where the nodes stand in the text, which no rule looks at
  (`Markup.Document.findings_of_unplaced`).
* `Markup.Document.findings_implicit_feed` compares the two pages.
-/

namespace HAtom

open Markup

/-! ## Nodes without keywords -/

theorem Markup.Node.mentions_of_carries {n : Node} {name keyword : String}
    (h : n.carries name keyword) : n.Mentions keyword := by
  obtain ⟨i, a, ha, hword⟩ := Node.exists_of_carries h
  exact ⟨a, List.mem_of_getElem? ha, hword⟩

theorem Pass.strays_eq_nil_of_not_mentions {n : Node} {keyword : String}
    (h : ¬n.Mentions keyword) : Pass.strays keyword n = [] := by
  refine List.map_eq_nil_iff.2 (List.filter_eq_nil_iff.2 fun a ha hword => h ?_)
  exact ⟨a, ha, hword⟩

/-- No attribute of the node has a keyword. -/
def Markup.Node.Quiet (n : Node) : Prop := ∀ keyword ∈ allKeywords, ¬n.Mentions keyword

theorem Markup.Node.quiet_of_attributes {n : Node} (h : n.attributes = []) : n.Quiet := by
  rintro keyword - ⟨a, ha, -⟩
  rw [h] at ha
  exact List.not_mem_nil ha

/-- The nodes of a view that do not lie inside a node have no keyword. -/
def QuietOutside (a : Tree) (view : List Tree) : Prop :=
  ∀ t ∈ view, t ∉ a.below.trees → t.head.Quiet

section QuietOutside

variable {a : Tree} {view : List Tree} (h : QuietOutside a view)

include h

theorem marked_inside {name keyword : String} (hk : keyword ∈ allKeywords) :
    marked name keyword (inside a view) = marked name keyword view := by
  rw [marked, inside, List.filter_filter]
  refine List.filter_congr fun t ht => ?_
  by_cases hin : t ∈ a.below.trees
  · rw [decide_eq_true hin, Bool.and_true]
  · have hnot : t.head.carries name keyword = false :=
      Bool.eq_false_iff.2 fun hc => h t ht hin keyword hk (Node.mentions_of_carries hc)
    rw [hnot, Bool.false_and]

theorem strayFindings_inside :
    strayFindings entryKeywords (inside a view) = strayFindings entryKeywords view := by
  refine Pass.strayFindings_filter fun t ht hin keyword hk => ?_
  have hquiet := h t ht (of_decide_eq_false hin)
  exact Pass.strays_eq_nil_of_not_mentions (hquiet keyword (List.mem_append_left _ hk))

theorem feedEntries_inside : feedEntries (inside a view) = feedEntries view := by
  rw [feedEntries, feedEntries, marked_inside h (by decide)]

theorem besideEntries_inside : besideEntries (inside a view) = inside a (besideEntries view) := by
  rw [besideEntries, besideEntries, marked_inside h (by decide)]
  exact List.filter_comm ..

theorem quiet_besideEntries : QuietOutside a (besideEntries view) :=
  fun t ht => h t (mem_uncovered.1 ht).1

theorem leftover_inside : leftover (inside a view) = inside a (leftover view) := by
  rw [leftover, leftover, besideEntries_inside h,
    marked_inside (quiet_besideEntries h) (by decide)]
  exact List.filter_comm ..

theorem quiet_leftover : QuietOutside a (leftover view) :=
  fun t ht => h t ((leftover_sublist view).subset ht)

theorem keysFindings_inside :
    (keysEffect (besideEntries (inside a view))).findings =
      (keysEffect (besideEntries view)).findings := by
  rw [findings_keysEffect, findings_keysEffect, besideEntries_inside h,
    marked_inside (quiet_besideEntries h) (by decide)]

/-- The entries of the view lie inside the node. -/
theorem mem_below_of_mem_feedEntries {entry : Tree} (hentry : entry ∈ feedEntries view) :
    entry ∈ a.below.trees := by
  have hmarked := mem_marked.1 (mem_tops.1 hentry).1
  by_contra hout
  exact h entry hmarked.1 hout entryKeyword (by decide) (Node.mentions_of_carries hmarked.2)

theorem entriesFindings_inside :
    (entriesEffect (inside a view)).findings = (entriesEffect view).findings := by
  rw [findings_entriesEffect, findings_entriesEffect, feedEntries_inside h]
  refine List.flatMap_congr fun entry hentry => ?_
  have hbelow := mem_below_of_mem_feedEntries h hentry
  have hview : inside entry (inside a view) = inside entry view := by
    rw [inside, inside, List.filter_filter]
    refine List.filter_congr fun t _ => ?_
    by_cases hin : t ∈ entry.below.trees
    · rw [decide_eq_true hin, decide_eq_true (Forest.mem_trees_trans hbelow hin), Bool.and_self]
    · rw [decide_eq_false hin, Bool.false_and]
  rw [hview]

/-- **What is found in a feed with an entry** is found in the whole view and in the last scan when
there is no feed. -/
theorem findings_inside (hentry : feedEntries view ≠ []) (feed page : Tree) :
    (feedEffect true (inside a view) feed).findings =
      (feedEffect false view page).findings ++ strayFindings entryKeywords (leftover view) := by
  have hempty : (feedEntries view).isEmpty = false :=
    Bool.eq_false_iff.2 (mt List.isEmpty_iff.1 hentry)
  have hstray : strayFindings entryKeywords (leftover (inside a view)) =
      strayFindings entryKeywords (leftover view) := by
    rw [leftover_inside h, strayFindings_inside (quiet_leftover h)]
  have hnested : marked "class" entryKeyword (inside a view) = marked "class" entryKeyword view :=
    marked_inside h (by decide)
  simp only [findings_feedEffect, feedEntries_inside h, hempty, hnested, keysFindings_inside h,
    entriesFindings_inside h, hstray, Bool.and_false, Bool.false_eq_true, if_false, if_true,
    List.append_nil, List.append_assoc]

end QuietOutside

/-! ## Places in the text -/

/-- The forest without the places of its nodes in the text. -/
def Markup.Forest.unplaced : Forest → Forest
  | nil => nil
  | node n below after =>
    node { n with position := ⟨1, 1⟩ } (unplaced below) (unplaced after)

theorem Markup.Forest.Padded.of_unplaced {f g : Forest} (h : g.unplaced = f.unplaced) :
    Forest.Padded id f g := by
  induction f generalizing g with
  | nil =>
    cases g with
    | nil => exact .nil
    | node n below after => exact absurd h Forest.noConfusion
  | node n below after ihb iha =>
    cases g with
    | nil => exact absurd h Forest.noConfusion
    | node n' below' after' =>
      obtain ⟨hhead, hbelow, hafter⟩ := Forest.node.inj h
      obtain ⟨hlabel, hcontent, -⟩ := Node.mk.inj hhead
      exact .node hcontent hlabel (ihb hbelow) (iha hafter)

namespace Markup.Document

variable {d d' : Document}

/-- Where the nodes stand in the text does not matter. -/
theorem findings_of_unplaced (hd : d.WellFormed) (hd' : d'.WellFormed)
    (h : d'.root.below.unplaced = d.root.below.unplaced) : d'.findings = d.findings := by
  have hpadded := Forest.Padded.of_unplaced h
  rw [(hpadded.matching hd'.distinct).findings_eq hd hd' hpadded.echoes]
  exact List.map_id _

/-! ## The root element as a feed -/

/-- The element stands at the top of the page, with the forest below it, and no other element does:
before and after it there are comments and instructions only. -/
structure RootElement (d : Document) (before : Forest) (n : Node) (below after : Forest) : Prop where
  top : d.root.below = before.append (.node n below after)
  element : n.isElement
  alone : ∀ t ∈ before.trees ++ after.trees, t.head.isElement = false

namespace RootElement

variable {before below after : Forest} {n n' : Node} (h : d.RootElement before n below after)

include h

theorem trees_eq : d.root.below.trees =
    before.trees ++ ⟨n, below⟩ :: (below.trees ++ after.trees) := by
  rw [h.top, Forest.trees_append, Forest.trees_node]

theorem mem_trees : (⟨n, below⟩ : Tree) ∈ d.root.below.trees := by
  rw [h.trees_eq]
  exact List.mem_append_right _ List.mem_cons_self

theorem attributes_of_alone {t : Tree} (ht : t ∈ before.trees ++ after.trees) :
    t.head.attributes = [] :=
  Node.attributes_of_not_isElement (h.alone t ht)

/-- Only inside the root element there are keywords when it has none itself. -/
theorem quietOutside (hquiet : n.Quiet) : QuietOutside ⟨n, below⟩ d.root.below.trees := by
  intro t ht hout
  rw [h.trees_eq] at ht
  rcases List.mem_append.1 ht with ht | ht
  · exact Node.quiet_of_attributes (h.attributes_of_alone (List.mem_append_left _ ht))
  rcases List.mem_cons.1 ht with rfl | ht
  · exact hquiet
  rcases List.mem_append.1 ht with ht | ht
  · exact absurd ht hout
  · exact Node.quiet_of_attributes (h.attributes_of_alone (List.mem_append_right _ ht))

end RootElement

/-- The page with another node as its root element. -/
def withRoot (d : Document) (before : Forest) (n : Node) (below after : Forest) : Document :=
  ⟨⟨d.root.head, before.append (.node n below after)⟩⟩

section Implicit

variable {before below after : Forest} {n n' : Node}

theorem wellFormed_withRoot (hd : d.WellFormed) (h : d.RootElement before n below after)
    (hlabel : n'.label = n.label) : (d.withRoot before n' below after).WellFormed := by
  have hlabels : (d.withRoot before n' below after).root.below.labels = d.root.below.labels := by
    rw [Forest.labels, Forest.labels, h.trees_eq, withRoot, Forest.trees_append,
      Forest.trees_node, List.map_append, List.map_append, List.map_cons, List.map_cons, hlabel]
  refine ⟨hd.content, ?_, ?_⟩
  · rw [hlabels]
    exact hd.label
  · rw [Forest.Distinct, hlabels]
    exact hd.distinct

/-- When the root element is marked as a feed it is the only feed. -/
theorem marked_withRoot (h : d.RootElement before n below after)
    (hadded : n'.carries "class" feedKeyword)
    (hnone : ∀ t ∈ d.root.below.trees, ¬t.head.carries "class" feedKeyword) :
    marked "class" feedKeyword (d.withRoot before n' below after).root.below.trees =
      [⟨n', below⟩] := by
  have hfilter : ∀ ts : List Tree, (∀ t ∈ ts, t ∈ d.root.below.trees) →
      marked "class" feedKeyword ts = [] := fun ts hts =>
    List.filter_eq_nil_iff.2 fun t ht => hnone t (hts t ht)
  rw [h.trees_eq] at hfilter
  rw [withRoot, Forest.trees_append, Forest.trees_node, marked, List.filter_append,
    List.filter_cons_of_pos (p := fun t : Tree => t.head.carries "class" feedKeyword) hadded,
    ← marked, ← marked, hfilter before.trees, hfilter]
  · rfl
  · exact fun t ht => List.mem_append_right _ (List.mem_cons_of_mem _ ht)
  · exact fun t ht => List.mem_append_left _ ht

theorem findings_withRoot (hd : d.WellFormed) (h : d.RootElement before n below after)
    (hlabel : n'.label = n.label) (hadded : n'.carries "class" feedKeyword)
    (hnone : ∀ t ∈ d.root.below.trees, ¬t.head.carries "class" feedKeyword) :
    (d.withRoot before n' below after).findings =
      (feedEffect true below.trees ⟨n', below⟩).findings := by
  have hmarked := marked_withRoot h hadded hnone
  have htops : tops [(⟨n', below⟩ : Tree)] = [⟨n', below⟩] :=
    tops_cons fun t ht => absurd ht List.not_mem_nil
  have hnested : nestedFindings feedKeyword [(⟨n', below⟩ : Tree)] = [] := by
    rw [nestedFindings_eq_nil]
    intro s hs t ht
    obtain rfl := List.mem_singleton.1 hs
    obtain rfl := List.mem_singleton.1 ht
    exact Tree.not_mem_below _
  have hfeeds : (d.withRoot before n' below after).feeds = [⟨n', below⟩] := by
    rw [feeds, hmarked, htops]
  -- around the root element there are no attributes
  have hrest : strayFindings allKeywords (d.withRoot before n' below after).besideFeeds = [] := by
    rw [strayFindings_eq_nil]
    intro t ht
    rw [besideFeeds, hmarked, mem_uncovered, withRoot, Forest.trees_append, Forest.trees_node] at ht
    have hout : t ∉ (⟨n', below⟩ : Tree).all := ht.2 _ (List.mem_singleton_self _)
    refine Node.quiet_of_attributes (h.attributes_of_alone ?_)
    rcases List.mem_append.1 ht.1 with ht | ht
    · exact List.mem_append_left _ ht
    · rcases List.mem_cons.1 ht with rfl | ht
      · exact absurd (Tree.mem_all.2 (.inl rfl)) hout
      · refine List.mem_append_right _ ((List.mem_append.1 ht).resolve_left fun ht => ?_)
        exact hout (Tree.mem_all.2 (.inr ht))
  rw [findings_eq (wellFormed_withRoot hd h hlabel), hmarked, hfeeds, hnested, hrest,
    if_neg (List.cons_ne_nil _ _), List.flatMap_singleton, List.nil_append, List.append_nil]

end Implicit

/-- **A page without feeds has the findings of the page whose root element is a feed**, when it has
an entry and no keyword on the root element. The other page has the same nodes but for the root
element, wherever they stand in its text. -/
theorem findings_implicit_feed (hd : d.WellFormed) (hd' : d'.WellFormed)
    {before below after : Forest} {n n' : Node} (hroot : d.RootElement before n below after)
    (hroot' : d'.root.below.unplaced = (before.append (.node n' below after)).unplaced)
    (hlabel : n'.label = n.label) (hadded : n'.carries "class" feedKeyword)
    (hnone : ∀ t ∈ d.root.below.trees, ¬t.head.carries "class" feedKeyword) (hquiet : n.Quiet)
    (hentry : ∃ t ∈ d.root.below.trees, t.head.carries "class" entryKeyword) :
    d'.findings = d.findings := by
  have hview := hroot.quietOutside hquiet
  have hmarked : marked "class" feedKeyword d.root.below.trees = [] :=
    List.filter_eq_nil_iff.2 hnone
  have hfeeds : d.feeds = [] := tops_eq_nil.2 hmarked
  have hentries : feedEntries d.root.below.trees ≠ [] := by
    obtain ⟨t, ht, hcarries⟩ := hentry
    exact mt tops_eq_nil.1 (List.ne_nil_of_mem (mem_marked.2 ⟨ht, hcarries⟩))
  have hinside : inside ⟨n, below⟩ d.root.below.trees = below.trees :=
    hd.distinct.inside_trees hroot.mem_trees
  have hfeed := findings_inside hview hentries ⟨n', below⟩ d.root
  rw [hinside] at hfeed
  calc d'.findings = (d.withRoot before n' below after).findings :=
        findings_of_unplaced (wellFormed_withRoot hd hroot hlabel) hd' hroot'
    _ = (feedEffect true below.trees ⟨n', below⟩).findings :=
        findings_withRoot hd hroot hlabel hadded hnone
    _ = d.findings := by
        rw [d.findings_eq hd, hmarked, if_pos hfeeds, hfeed]
        rfl

set_option maxRecDepth 100000 in
/-- An entry with a date beside it. -/
theorem findings_implicit_feed_entry :
    ∃ d d' n n' below, Document.parse "<p><b class='hentry'/><i class='updated'/></p>" = .ok d ∧
      Document.parse "<p class='hfeed'><b class='hentry'/><i class='updated'/></p>" = .ok d' ∧
      d.WellFormed ∧ d'.WellFormed ∧ d.RootElement .nil n below .nil ∧
      d'.root.below.unplaced = (Forest.nil.append (.node n' below .nil)).unplaced ∧
      n'.label = n.label ∧ n'.carries "class" feedKeyword ∧
      (∀ t ∈ d.root.below.trees, ¬t.head.carries "class" feedKeyword) ∧ n.Quiet ∧
      (∃ t ∈ d.root.below.trees, t.head.carries "class" entryKeyword) ∧
      d.findings.length = 3 ∧ d'.findings = d.findings := by
  obtain ⟨d, h, htop, hnone, hentry, hlength⟩ := Document.exists_of_parse
    "<p><b class='hentry'/><i class='updated'/></p>"
    (fun d => d.root.below = .node ⟨1, .element "p" [], ⟨1, 1⟩⟩
        (.node ⟨2, .element "b" [⟨none, "class", "hentry"⟩], ⟨1, 4⟩⟩ .nil
          (.node ⟨3, .element "i" [⟨none, "class", "updated"⟩], ⟨1, 23⟩⟩ .nil .nil)) .nil ∧
      (∀ t ∈ d.root.below.trees, ¬t.head.carries "class" feedKeyword) ∧
      (∃ t ∈ d.root.below.trees, t.head.carries "class" entryKeyword) ∧ d.findings.length = 3)
    (by decide +kernel)
  obtain ⟨d', h', htop'⟩ := Document.exists_of_parse
    "<p class='hfeed'><b class='hentry'/><i class='updated'/></p>"
    (fun d => d.root.below = .node ⟨1, .element "p" [⟨none, "class", "hfeed"⟩], ⟨1, 1⟩⟩
      (.node ⟨2, .element "b" [⟨none, "class", "hentry"⟩], ⟨1, 18⟩⟩ .nil
        (.node ⟨3, .element "i" [⟨none, "class", "updated"⟩], ⟨1, 37⟩⟩ .nil .nil)) .nil)
    (by decide +kernel)
  have hd := Document.wellFormed_of_parse h
  have hd' := Document.wellFormed_of_parse h'
  have hroot : d.RootElement .nil _ _ .nil := ⟨htop, rfl, by simp⟩
  have hroot' : d'.root.below.unplaced = (Forest.nil.append
      (.node ⟨1, .element "p" [⟨none, "class", "hfeed"⟩], ⟨1, 1⟩⟩
        (.node ⟨2, .element "b" [⟨none, "class", "hentry"⟩], ⟨1, 4⟩⟩ .nil
          (.node ⟨3, .element "i" [⟨none, "class", "updated"⟩], ⟨1, 23⟩⟩ .nil .nil))
        .nil)).unplaced := by
    rw [htop']
    rfl
  have hadded : (⟨1, .element "p" [⟨none, "class", "hfeed"⟩], ⟨1, 1⟩⟩ : Node).carries "class"
      feedKeyword := by
    decide +kernel
  have hquiet : (⟨1, .element "p" [], ⟨1, 1⟩⟩ : Node).Quiet := Node.quiet_of_attributes rfl
  exact ⟨d, d', _, _, _, h, h', hd, hd', hroot, hroot', rfl, hadded, hnone, hquiet, hentry, hlength,
    findings_implicit_feed hd hd' hroot hroot' rfl hadded hnone hquiet hentry⟩

end Markup.Document

end HAtom
