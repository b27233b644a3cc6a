import HAtom.Proofs.Containers
import HAtom.Proofs.Walk
import Mathlib.Data.List.Flatten

/-!
# What a search finds and what it leaves

A search from a node splits the nodes in sight with a keyword in two: it finds and claims the
outermost ones, and the check of what is nested inside those reports all others. Another search
finds nothing.

* `Pass.matching` are the nodes that are split.
* `Pass.Partition` is all that can be said of the two parts, and `Pass.search_partition` that a
  search splits so, whatever was claimed before, its scope or nodes between others included.
* `Pass.scan_searchVisit` and `Pass.scan_nestedVisit`: a cursor that skips claimed nodes, and that
  claims as it goes, finds and reports the same.
-/

namespace HAtom

open Markup

/-! ## Nodes apart from each other -/

/-- What lies below nodes apart from each other stands in document order. -/
theorem Markup.Forest.flatMap_below_sublist {f : Forest} {ts : List Tree}
    (hts : ts.Sublist f.trees) (hapart : ∀ s ∈ ts, ∀ t ∈ ts, t ∉ s.below.trees) :
    (ts.flatMap fun t => t.below.trees).Sublist f.trees := by
  induction f generalizing ts with
  | nil =>
    obtain rfl := List.sublist_nil.1 hts
    exact List.Sublist.slnil
  | node n below after ihb iha =>
    rw [trees_node] at hts ⊢
    rcases List.sublist_cons_iff.1 hts with hts | ⟨rest, rfl, hrest⟩
    · obtain ⟨us, vs, rfl, hus, hvs⟩ := List.sublist_append_iff.1 hts
      rw [List.flatMap_append]
      refine ((ihb hus ?_).append (iha hvs ?_)).cons _
      · exact fun s hs t ht => hapart s (List.mem_append_left _ hs) t (List.mem_append_left _ ht)
      · exact fun s hs t ht => hapart s (List.mem_append_right _ hs) t (List.mem_append_right _ ht)
    · -- nothing of the list is below its first node, so the others come after it
      obtain ⟨us, vs, rfl, hus, hvs⟩ := List.sublist_append_iff.1 hrest
      have hnone : us = [] := List.eq_nil_iff_forall_not_mem.2 fun t ht =>
        hapart _ List.mem_cons_self t (by simp [ht]) (hus.subset ht)
      subst hnone
      rw [List.nil_append, List.flatMap_cons]
      refine ((List.Sublist.refl _).append (iha hvs ?_)).cons _
      exact fun s hs t ht => hapart s (by simp [hs]) t (by simp [ht])

/-- Nested nodes stand in document order, those inside one outermost node before those inside the
next. -/
theorem nestedIn_sublist {f : Forest} (hd : f.Distinct) {ts : List Tree}
    (hts : ts.Sublist f.trees) : (nestedIn ts).Sublist f.trees := by
  have htops := (tops_sublist ts).trans hts
  refine (List.Sublist.flatMap_right _ fun t ht => ?_).trans
    (Forest.flatMap_below_sublist htops not_mem_below_of_mem_tops)
  rw [← hd.inside_trees (htops.subset ht)]
  exact hts.filter _

/-- The nodes of a list are the outermost ones and the nested ones. -/
theorem nestedIn_eq_filter {f : Forest} (hd : f.Distinct) {ts : List Tree}
    (hts : ts.Sublist f.trees) : nestedIn ts = ts.filter fun t => t ∉ tops ts := by
  refine hd.eq_of_sublist (nestedIn_sublist hd hts) (List.filter_sublist.trans hts) fun t => ?_
  rw [List.mem_filter, decide_eq_true_iff]
  constructor
  · intro h
    have ht := (mem_nestedIn.1 h).1
    exact ⟨ht, fun htop => (mem_tops_iff_not_mem_nestedIn ht).1 htop h⟩
  · rintro ⟨ht, hnot⟩
    by_contra h
    exact hnot ((mem_tops_iff_not_mem_nestedIn ht).2 h)

theorem Markup.Document.WellFormed.below_distinct {d : Document} (hd : d.WellFormed) {t : Tree}
    (ht : t ∈ d.root.all) : t.below.Distinct := by
  rcases Tree.mem_all.1 ht with rfl | ht
  · exact hd.distinct
  · exact hd.distinct.below ht

/-- Only elements have attributes, and so only they carry keywords. -/
theorem Markup.Node.isElement_of_carries {n : Node} {name keyword : String}
    (h : n.carries name keyword) : n.isElement := by
  obtain ⟨label, content, position⟩ := n
  cases content with
  | element tag attributes => rfl
  | _ => exact absurd h Bool.false_ne_true

namespace Pass

/-! ## Cursors that search -/

/-- The visit of a node by a search: nodes that were claimed are passed over, and nodes with the
keyword are claimed and then passed over. -/
def searchVisit (name keyword : String) : List Tree × Pass → Tree → Bool × List Tree × Pass
  | (found, p), t =>
    if p.isClaimed t.head.label then (true, found, p)
    else if t.head.isElement && t.head.carries name keyword then
      (true, found ++ [t], p.claim [t.head.label])
    else (false, found, p)

/-- The visit of a node inside one with the keyword: nodes that were claimed are passed over. -/
def nestedVisit (name keyword : String) (p : Pass) (t : Tree) : Bool × Pass :=
  if p.isClaimed t.head.label then (true, p)
  else (false, p.noteIf (t.head.isElement && t.head.carries name keyword) (.nested keyword) t.head)

section Visits

variable (name keyword : String) {f : Forest}

theorem isElement_and_carries (n : Node) :
    (n.isElement && n.carries name keyword) = n.carries name keyword := by
  rw [Bool.and_eq_right_iff_imp]
  exact Node.isElement_of_carries

theorem searchVisit_eq (found : List Tree) (p : Pass) (t : Tree) :
    searchVisit name keyword (found, p) t =
      if p.isClaimed t.head.label then (true, found, p)
      else if t.head.carries name keyword then (true, found ++ [t], p.claim [t.head.label])
      else (false, found, p) := by
  rw [searchVisit, isElement_and_carries]

theorem isClaimed_claim (p : Pass) (labels : List Nat) (l : Nat) :
    (p.claim labels).isClaimed l ↔ l ∈ labels ∨ p.isClaimed l := by
  simp [isClaimed, claim]

/-- Claims elsewhere do not change what a search finds. -/
theorem outermost_claim (p : Pass) {f : Forest} (hd : f.Distinct) (labels : List Nat)
    (h : ∀ l ∈ labels, l ∉ f.labels) (accepts : Node → Bool) :
    f.outermost (p.claim labels).isClaimed accepts = f.outermost p.isClaimed accepts := by
  rw [hd.outermost_eq, hd.outermost_eq, hd.visible_congr fun l hl => ?_]
  refine Bool.eq_iff_iff.2 ((p.isClaimed_claim labels l).trans (or_iff_right fun hmem => ?_))
  exact h l hmem hl

/-- **A search by visits** finds and claims the outermost nodes in sight. Nodes that it claims on
its way hide nothing from it. -/
theorem scan_searchVisit (hd : f.Distinct) (found : List Tree) (p : Pass) :
    f.scan (searchVisit name keyword) (found, p) =
      (found ++ f.outermost p.isClaimed (·.carries name keyword), p.claim
        ((f.outermost p.isClaimed (·.carries name keyword)).map (·.head.label)).reverse) := by
  induction f generalizing found p with
  | nil => exact congrArg (·, p) (List.append_nil found).symm
  | node n below after ihb iha =>
    obtain ⟨⟨-, hna⟩, hdb, hda, hba⟩ := Forest.distinct_node.1 hd
    rw [Forest.outermost]
    by_cases hclaimed : p.isClaimed n.label
    · have hvisit : searchVisit name keyword (found, p) ⟨n, below⟩ = (true, found, p) := by
        rw [searchVisit_eq, if_pos hclaimed]
      rw [Forest.scan_of_skip hvisit, iha hda, if_pos hclaimed]
    by_cases hcarries : n.carries name keyword
    · have hvisit : searchVisit name keyword (found, p) ⟨n, below⟩ =
          (true, found ++ [⟨n, below⟩], p.claim [n.label]) := by
        rw [searchVisit_eq, if_neg hclaimed, if_pos hcarries]
      have hlater := p.outermost_claim hda [n.label] (by simpa using hna) (·.carries name keyword)
      rw [Forest.scan_of_skip hvisit, iha hda, hlater, if_neg hclaimed, if_pos hcarries]
      simp [claim]
    · have hvisit : searchVisit name keyword (found, p) ⟨n, below⟩ = (false, found, p) := by
        rw [searchVisit_eq, if_neg hclaimed, if_neg hcarries]
      rw [Forest.scan_of_enter hvisit, ihb hdb, iha hda, outermost_claim p hda, if_neg hclaimed,
        if_neg hcarries]
      · simp [claim]
      · intro l hl
        obtain ⟨t, ht, rfl⟩ := List.mem_map.1 (List.mem_reverse.1 hl)
        exact hba _ (Forest.label_mem_labels
          (Forest.visible_subset ((Forest.outermost_sublist ..).subset ht)))

/-- **A check by visits** reports the nodes in sight with the keyword. -/
theorem scan_nestedVisit (f : Forest) (p : Pass) :
    f.scan (nestedVisit name keyword) p =
      p.add ((marked name keyword (f.visible p.isClaimed)).map fun t =>
        ⟨.nested keyword, t.head.label⟩) := by
  induction f generalizing p with
  | nil => exact (add_nil p).symm
  | node n below after ihb iha =>
    rw [Forest.visible]
    by_cases hclaimed : p.isClaimed n.label
    · have hvisit : nestedVisit name keyword p ⟨n, below⟩ = (true, p) := by
        rw [nestedVisit, if_pos hclaimed]
      rw [Forest.scan_of_skip hvisit, iha, if_pos hclaimed]
    · have hvisit : nestedVisit name keyword p ⟨n, below⟩ =
          (false, p.add (if n.carries name keyword then [⟨.nested keyword, n.label⟩] else [])) := by
        rw [nestedVisit, if_neg hclaimed, isElement_and_carries, noteIf_eq_add]
      rw [Forest.scan_of_enter hvisit, ihb, iha, if_neg hclaimed]
      by_cases hcarries : n.carries name keyword <;> simp [marked, hcarries]

end Visits

/-! ## The two parts -/

/-- The elements below a node that carry a keyword, when neither they nor an ancestor of theirs
below the node was claimed. -/
def matching (p : Pass) (scope : Tree) (name keyword : String) : List Tree :=
  scope.below.trees.filter fun t => t.head.isElement ∧ t.head.carries name keyword ∧
    ∀ a ∈ scope.below.trees, t ∈ a.all → p.isClaimed a.head.label = false

theorem matching_eq (p : Pass) {scope : Tree} (hd : scope.below.Distinct)
    (name keyword : String) :
    p.matching scope name keyword = marked name keyword (p.view scope) := by
  refine hd.eq_of_sublist List.filter_sublist (p.marked_view_sublist scope name keyword) fun t => ?_
  rw [matching, List.mem_filter, decide_eq_true_iff, mem_marked, view, hd.mem_visible]
  constructor
  · rintro ⟨ht, -, hcarries, hclear⟩
    exact ⟨⟨ht, hclear⟩, hcarries⟩
  · rintro ⟨⟨ht, hclear⟩, hcarries⟩
    exact ⟨ht, Node.isElement_of_carries hcarries, hcarries, hclear⟩

/-- **How a search splits the nodes with a keyword**: it finds some nodes, and others are left
nested inside those. The pass `q` is what the search leaves. -/
structure Partition (p : Pass) (scope : Tree) (name keyword : String) (found nested : List Tree)
    (q : Pass) : Prop where
  search : p.search scope name keyword = (found, q)
  /-- What is found are the nodes that lie inside no other one, in document order. -/
  found_eq : found = (p.matching scope name keyword).filter fun t =>
    ∀ s ∈ p.matching scope name keyword, t ∉ s.below.trees
  found_nodup : found.Nodup
  /-- They are claimed, and nothing else is done to the pass. -/
  isClaimed : ∀ l, q.isClaimed l ↔ p.isClaimed l ∨ ∃ t ∈ found, t.head.label = l
  findings : q.findings = p.findings
  seen : q.seen = p.seen
  /-- The check of what is nested adds one finding at each of the other nodes, in document order and
  after the findings made before, -/
  findings_check : (q.checkAllNested found name keyword).findings =
    q.findings ++ nested.map fun t => ⟨.nested keyword, t.head.label⟩
  /-- and does nothing else. -/
  claimed_check : (q.checkAllNested found name keyword).claimed = q.claimed
  seen_check : (q.checkAllNested found name keyword).seen = q.seen
  /-- The other nodes are those that were not found, -/
  nested_eq : nested = (p.matching scope name keyword).filter fun t => t ∉ found
  nested_nodup : nested.Nodup
  /-- and they come group by group, each inside one of those that were found. -/
  nested_groups : nested = found.flatMap fun t =>
    (p.matching scope name keyword).filter fun s => s ∈ t.below.trees
  /-- Another search finds and changes nothing, -/
  again : q.search scope name keyword = ([], q)
  /-- nor does one after the check. -/
  again_after : (q.checkAllNested found name keyword).search scope name keyword =
    ([], q.checkAllNested found name keyword)
  /-- A cursor that walks from the scope finds the same nodes, and claims them one by one. -/
  walk : (Cursor.start scope).scan (searchVisit name keyword) (scope.below.size + 1) ([], p) =
    (found, { p with claimed := (found.map (·.head.label)).reverse ++ p.claimed })
  /-- Cursors that walk from the nodes that were found do what the check does. -/
  walk_nested : found.foldl (fun q t =>
    (Cursor.start t).scan (nestedVisit name keyword) (t.below.size + 1) q) q =
      q.checkAllNested found name keyword

section Search

variable {d : Document} {scope : Tree} (p : Pass) (name keyword : String)

/-- A search from where the same was searched before finds nothing. -/
theorem search_search (hd : scope.below.Distinct) :
    (p.search scope name keyword).2.search scope name keyword =
      ([], (p.search scope name keyword).2) := by
  have hnone : marked name keyword ((p.search scope name keyword).2.view scope) = [] := by
    rw [p.view_search hd]
    refine List.eq_nil_iff_forall_not_mem.2 fun t ht => ?_
    obtain ⟨huncovered, hcarries⟩ := mem_marked.1 ht
    obtain ⟨hview, hout⟩ := mem_uncovered.1 huncovered
    exact hout t (mem_marked.2 ⟨hview, hcarries⟩) (Tree.mem_all.2 (.inl rfl))
  refine Prod.ext ?_ ?_
  · rw [search_fst _ hd, hnone]
    rfl
  · rw [search_snd _ hd, hnone]
    rfl

/-- Findings change nothing for a search. -/
theorem search_add (fs : List Finding) : (p.add fs).search scope name keyword =
    ((p.search scope name keyword).1, (p.search scope name keyword).2.add fs) := rfl

theorem checkNested_eq_scan (t : Tree) : p.checkNested t name keyword =
    (Cursor.start t).scan (nestedVisit name keyword) (t.below.size + 1) p := by
  have hscan := Cursor.scan_eq (nestedVisit name keyword) (Cursor.live_start t)
    (Nat.lt_succ_self _) p
  exact (hscan.trans (scan_nestedVisit name keyword t.below p)).symm

theorem search_eq_scan (hd : scope.below.Distinct) :
    (Cursor.start scope).scan (searchVisit name keyword) (scope.below.size + 1) ([], p) =
      ((p.search scope name keyword).1,
        p.claim ((p.search scope name keyword).1.map (·.head.label)).reverse) := by
  have hscan := Cursor.scan_eq (searchVisit name keyword) (Cursor.live_start scope)
    (Nat.lt_succ_self _) ([], p)
  exact hscan.trans (scan_searchVisit name keyword hd [] p)

/-- **A search splits the nodes in sight with a keyword** into the outermost ones, which it finds
and claims, and those nested inside them, which the check after it reports. -/
theorem search_partition (hd : d.WellFormed) (hscope : scope ∈ d.root.all) :
    ∃ found nested q, p.Partition scope name keyword found nested q := by
  have hbelow := hd.below_distinct hscope
  have hmatching := p.matching_eq hbelow name keyword
  have hsub := p.marked_view_sublist scope name keyword
  obtain ⟨⟨found, q⟩, hsearch⟩ : ∃ r, p.search scope name keyword = r := ⟨_, rfl⟩
  have hfound : found = tops (marked name keyword (p.view scope)) := by
    rw [← p.search_fst hbelow, hsearch]
  have hq : q = p.claim (found.map (·.head.label)) := by
    rw [hfound, ← p.search_snd hbelow, hsearch]
  have hnested := nestedIn_eq_filter hbelow hsub
  have hcheck : q.checkAllNested found name keyword =
      q.noteEach (.nested keyword) (nestedIn (marked name keyword (p.view scope))) := by
    have hcollect := p.collect_snd hbelow name keyword
    rw [collect, hsearch, nestedFindings_eq_map] at hcollect
    exact hcollect
  have hagain := p.search_search name keyword hbelow
  rw [hsearch] at hagain
  have hwalk := p.search_eq_scan name keyword hbelow
  rw [hsearch] at hwalk
  refine ⟨found, nestedIn (marked name keyword (p.view scope)), q, {
    search := hsearch
    found_eq := by rw [hfound, hmatching, tops]
    found_nodup := ?_
    isClaimed := fun l => by rw [hq, isClaimed_claim, List.mem_map, or_comm]
    findings := by rw [hq]; rfl
    seen := by rw [hq]; rfl
    findings_check := by rw [hcheck]; rfl
    claimed_check := by rw [hcheck]; rfl
    seen_check := by rw [hcheck]; rfl
    nested_eq := by rw [hmatching, hnested, hfound]
    nested_nodup := nestedIn_nodup hbelow hsub
    nested_groups := by rw [hmatching, hfound]; rfl
    again := hagain
    again_after := by rw [hcheck, noteEach, search_add, hagain]
    walk := hwalk
    walk_nested := by simp only [← checkNested_eq_scan]; rfl }⟩
  rw [hfound]
  exact ((tops_sublist _).trans hsub).nodup hbelow.trees_nodup

end Search

set_option maxRecDepth 100000 in
/-- Nodes with a keyword inside each other, one of which was claimed before, as was the one around
them all. The nested node is reported after what was reported before. -/
theorem search_partition_around_claimed :
    ∃ d, Document.parse
        "<p id='k'><b id='k'><i id='k'/><u id='k'><s id='k'/></u></b><q id='k'/></p>" =
          .ok d ∧
      ∃ scope ∈ d.root.all, ∃ found nested q,
        (⟨[1, 4], .empty, [⟨.nested "k", 1⟩]⟩ : Pass).Partition scope "id" "k" found nested q ∧
        found.map (·.head.name) = ["b", "q"] ∧ nested.map (·.head.name) = ["i"] ∧
        (q.checkAllNested found "id" "k").findings = [⟨.nested "k", 1⟩, ⟨.nested "k", 3⟩] := by
  obtain ⟨d, h, scope, hscope, hfound, hnested, hfindings⟩ := Document.exists_of_parse
    "<p id='k'><b id='k'><i id='k'/><u id='k'><s id='k'/></u></b><q id='k'/></p>"
    (fun d => ∃ scope ∈ d.root.all,
      let ts := (⟨[1, 4], .empty, [⟨.nested "k", 1⟩]⟩ : Pass).matching scope "id" "k"
      let rest := ts.filter fun t => t ∉ tops ts
      (tops ts).map (·.head.name) = ["b", "q"] ∧ rest.map (·.head.name) = ["i"] ∧
        rest.map (fun t => (⟨.nested "k", t.head.label⟩ : Finding)) = [⟨.nested "k", 3⟩])
    (by decide +kernel)
  obtain ⟨found, nested, q, hsplit⟩ :=
    search_partition ⟨[1, 4], .empty, [⟨.nested "k", 1⟩]⟩ "id" "k" (Document.wellFormed_of_parse h)
      hscope
  refine ⟨d, h, scope, hscope, found, nested, q, hsplit, ?_, ?_, ?_⟩
  · rw [hsplit.found_eq]
    exact hfound
  · rw [hsplit.nested_eq, hsplit.found_eq]
    exact hnested
  · rw [hsplit.findings_check, hsplit.findings, hsplit.nested_eq, hsplit.found_eq]
    exact congrArg ([⟨.nested "k", 1⟩] ++ ·) hfindings

end Pass

end HAtom
