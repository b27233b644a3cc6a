import HAtom.Proofs.Partition

/-!
# Two scans for keywords out of place

Keywords where they do not belong are found in two ways. Below a node a cursor walks once for each
keyword and passes over what was claimed; among the nodes of the page those are looked at that no
claimed node hides, neither the node itself nor one above it. Both report the same in the same
order.

* `Pass.openBelow` are the nodes below a scope that nothing claimed below the scope hides.
* `Pass.scanWalk` is the scan by cursors, and `Pass.scanWalk_eq` says what it reports.
* `Pass.scans_agree`: from any node of a document the scans report what the list of open nodes gives
  rise to. When neither the scope nor a node above it was claimed, these are the nodes below the scope
  that are not hidden from the page.
-/

namespace HAtom

open Markup

namespace Pass

/-! ## The scan by cursors -/

/-- The visit of a node by a scan for a keyword: nodes that were claimed are passed over. -/
def strayVisit (keyword : String) (p : Pass) (t : Tree) : Bool × Pass :=
  if p.isClaimed t.head.label then (true, p) else (false, p.add (strays keyword t.head))

/-- Reports the keywords below a node: a new cursor walks for each of them. -/
def scanWalk (p : Pass) (scope : Tree) (keywords : List String) : Pass :=
  keywords.foldl (fun p keyword =>
    (Cursor.start scope).scan (strayVisit keyword) (scope.below.size + 1) p) p

/-- A scan by visits reports the keyword on the nodes in sight. -/
theorem scan_strayVisit (keyword : String) (f : Forest) (p : Pass) :
    f.scan (strayVisit keyword) p =
      p.add ((f.visible p.isClaimed).flatMap fun t => strays keyword t.head) := by
  induction f generalizing p with
  | nil => exact (add_nil p).symm
  | node n below after ihb iha =>
    rw [Forest.visible]
    by_cases hclaimed : p.isClaimed n.label
    · have hvisit : strayVisit keyword p ⟨n, below⟩ = (true, p) := by
        rw [strayVisit, if_pos hclaimed]
      rw [Forest.scan_of_skip hvisit, iha, if_pos hclaimed]
    · have hvisit : strayVisit keyword p ⟨n, below⟩ = (false, p.add (strays keyword n)) := by
        rw [strayVisit, if_neg hclaimed]
      rw [Forest.scan_of_enter hvisit, ihb, iha, if_neg hclaimed]
      simp only [isClaimed_add, add_add, List.flatMap_cons, List.flatMap_append,
        List.append_assoc]

/-- **A scan by cursors** reports the keywords on the nodes in sight, keyword by keyword. -/
theorem scanWalk_eq (p : Pass) (scope : Tree) (keywords : List String) :
    p.scanWalk scope keywords = p.scanBelow scope.below keywords := by
  rw [scanBelow, scanNodes_eq]
  induction keywords generalizing p with
  | nil => exact (add_nil p).symm
  | cons keyword keywords ih =>
    have hwalk : (Cursor.start scope).scan (strayVisit keyword) (scope.below.size + 1) p =
        p.add ((scope.below.visible p.isClaimed).flatMap fun t => strays keyword t.head) :=
      (Cursor.scan_eq _ (Cursor.live_start scope) (Nat.lt_succ_self _) p).trans
        (scan_strayVisit keyword scope.below p)
    have hrest := ih (p.add ((scope.below.visible p.isClaimed).flatMap fun t =>
      strays keyword t.head))
    rw [scanWalk, List.foldl_cons, hwalk]
    exact hrest.trans (add_add ..)

/-! ## The nodes that are looked at -/

/-- The nodes below the scope that were not claimed, and of which no ancestor below the scope was
claimed, in document order. -/
def openBelow (p : Pass) (scope : Tree) : List Tree :=
  scope.below.trees.filter fun t =>
    ∀ a ∈ scope.below.trees, t ∈ a.all → p.isClaimed a.head.label = false

theorem openBelow_eq (p : Pass) {scope : Tree} (hd : scope.below.Distinct) :
    p.openBelow scope = scope.below.visible p.isClaimed := by
  refine hd.eq_of_sublist List.filter_sublist (Forest.visible_sublist ..) fun t => ?_
  rw [openBelow, List.mem_filter, decide_eq_true_iff, hd.mem_visible]

end Pass

namespace Markup.Document

/-- The node from which a document is scanned: its root, unless another one is given. -/
def scope (d : Document) (root : Option Tree) : Tree := root.getD d.root

variable {d : Document}

/-- The root of a document and all below it share no labels. -/
theorem WellFormed.all_distinct (hd : d.WellFormed) :
    (Forest.node d.root.head d.root.below .nil).Distinct :=
  Forest.distinct_node.2
    ⟨⟨hd.label, List.not_mem_nil⟩, hd.distinct, List.nodup_nil, fun _ _ => List.not_mem_nil⟩

theorem trees_all (d : Document) :
    (Forest.node d.root.head d.root.below .nil).trees = d.root.all := by
  rw [Forest.trees_node, Forest.trees_nil, List.append_nil]
  rfl

theorem places_all (d : Document) :
    (Forest.node d.root.head d.root.below .nil).places [] = d.places := by
  rw [Forest.places, Forest.places, List.append_nil]
  rfl

end Markup.Document

namespace Pass

variable {d : Document} {scope : Tree} (p : Pass)

/-- Below a node that is not hidden from the page the open nodes are those that are not hidden. -/
theorem openBelow_eq_places (hd : d.WellFormed) (hscope : scope ∈ d.root.all)
    (hclear : ∀ a ∈ d.root.all, scope ∈ a.all → p.isClaimed a.head.label = false) :
    p.openBelow scope = (d.places.filter fun place =>
      place.tree ∈ scope.below.trees && !p.isHidden place.lineage).map (·.tree) := by
  have hvisible : scope ∈ (Forest.node d.root.head d.root.below .nil).visible p.isClaimed := by
    rw [hd.all_distinct.mem_visible, d.trees_all]
    exact ⟨hscope, hclear⟩
  have hopen : p.isHidden [] = false := rfl
  have hplaces := p.places_of_not_hidden (Forest.node d.root.head d.root.below .nil) hopen
  rw [d.places_all] at hplaces
  calc p.openBelow scope
      = scope.below.visible p.isClaimed := p.openBelow_eq (hd.below_distinct hscope)
    _ = inside scope ((Forest.node d.root.head d.root.below .nil).visible p.isClaimed) :=
        hd.all_distinct.visible_below hvisible
    _ = ((d.places.filter fun place => !p.isHidden place.lineage).map (·.tree)).filter
          (· ∈ scope.below.trees) := by rw [hplaces, inside]
    _ = _ := by
        rw [List.filter_map, List.filter_filter]
        rfl

variable (keywords : List String)

/-- **Both scans report the same.** The scan by cursors below a node reports what a scan of the list
of open nodes reports, in the same order; and these are the nodes below it that are not hidden from
the page, unless the node itself is. -/
theorem scans_agree (hd : d.WellFormed) (root : Option Tree) (hroot : ∀ r ∈ root, r ∈ d.root.all) :
    p.scanWalk (d.scope root) keywords =
        p.scanNodes ((p.openBelow (d.scope root)).map (·.head)) keywords ∧
      p.scanBelow (d.scope root).below keywords =
        p.scanNodes ((p.openBelow (d.scope root)).map (·.head)) keywords ∧
      ((∀ a ∈ d.root.all, d.scope root ∈ a.all → p.isClaimed a.head.label = false) →
        (p.openBelow (d.scope root)).map (·.head) = (d.places.filter fun place =>
          place.tree ∈ (d.scope root).below.trees && !p.isHidden place.lineage).map Place.node) := by
  have hscope : d.scope root ∈ d.root.all := by
    cases root with
    | none => exact Tree.mem_all.2 (.inl rfl)
    | some r => exact hroot r rfl
  have hbelow : p.scanBelow (d.scope root).below keywords =
      p.scanNodes ((p.openBelow (d.scope root)).map (·.head)) keywords := by
    rw [scanBelow, p.openBelow_eq (hd.below_distinct hscope)]
  refine ⟨(p.scanWalk_eq _ keywords).trans hbelow, hbelow, fun hclear => ?_⟩
  rw [p.openBelow_eq_places hd hscope hclear, List.map_map]
  rfl

set_option maxRecDepth 100000 in
/-- A keyword above, on, inside and beside a node that was claimed, scanned from the root and from a
node inside it. -/
theorem scans_agree_around_claimed :
    ∃ d, Document.parse
        "<p id='k'><b id='k'><i id='k'><s id='k'/></i></b><u id='k'/></p>" = .ok d ∧
      ∃ inner ∈ d.root.all, inner.head.name = "b" ∧
        let p : Pass := ⟨[3], .empty, []⟩
        p.scanWalk (d.scope none) ["k", "id"] = p.scanNodes (((d.places.filter fun place =>
          place.tree ∈ d.root.below.trees && !p.isHidden place.lineage).map Place.node)) ["k", "id"] ∧
        ((p.openBelow (d.scope none)).map (·.head.name)) = ["p", "b", "u"] ∧
        p.scanWalk (d.scope (some inner)) ["k"] = p := by
  obtain ⟨d, h, inner, hinner, hname, hclear, hopen, hnone⟩ := Document.exists_of_parse
    "<p id='k'><b id='k'><i id='k'><s id='k'/></i></b><u id='k'/></p>"
    (fun d => ∃ inner ∈ d.root.all, inner.head.name = "b" ∧
      (∀ a ∈ d.root.all, d.root ∈ a.all → (⟨[3], .empty, []⟩ : Pass).isClaimed a.head.label = false) ∧
      ((⟨[3], .empty, []⟩ : Pass).openBelow d.root).map (·.head.name) = ["p", "b", "u"] ∧
      ((⟨[3], .empty, []⟩ : Pass).openBelow inner) = [])
    (by decide +kernel)
  have hd := Document.wellFormed_of_parse h
  obtain ⟨hwalk, -, hplaces⟩ := scans_agree ⟨[3], .empty, []⟩ ["k", "id"] hd none
    (fun r hr => absurd hr (Option.not_mem_none r))
  obtain ⟨hinside, -⟩ := scans_agree ⟨[3], .empty, []⟩ ["k"] hd (some inner)
    (fun r hr => Option.mem_some.1 hr ▸ hinner)
  refine ⟨d, h, inner, hinner, hname, ?_, hopen, ?_⟩
  · rw [hwalk, hplaces hclear]
    rfl
  · rw [hinside]
    show Pass.scanNodes _ ((Pass.openBelow _ inner).map _) _ = _
    rw [hnone]
    rfl

end Pass

end HAtom
