import HAtom.Proofs.Containers

/-!
# Entries are checked on their own

What checking an entry does depends on what has been claimed below the entry, and on nothing else
that the pass has done; and in a pass over a page nothing has been claimed there.

* `Effect.Inside` says that an effect stays at and below a node. The effect of an entry does
  (`inside_entryEffect`).
* `Pass.AgreeOn.gains_checkEntry`: passes that have claimed the same below an entry gain the same
  effect from it, whatever else they have claimed, seen and found.
* `Markup.Document.entries_checked_alone`: a page reports of each of its entries what a fresh pass
  finds there.
-/

namespace HAtom

open Markup

/-- The effect claims nodes below a node only, and makes findings only at the node or below it. -/
structure Effect.Inside (t : Tree) (e : Effect) : Prop where
  claims : ∀ l ∈ e.claims, l ∈ t.below.labels
  findings : ∀ f ∈ e.findings, f.label = t.head.label ∨ f.label ∈ t.below.labels

/-- An entry has its effect at the entry and below it. -/
theorem inside_entryEffect {entry : Tree} {view : List Tree}
    (hview : ∀ s ∈ view, s ∈ entry.below.trees) : (entryEffect view entry).Inside entry where
  claims := by
    intro l hl
    obtain ⟨s, hs, rfl⟩ := claims_entryEffect hl
    exact Forest.label_mem_labels (hview s hs)
  findings := by
    intro f hf
    rcases (foundIn_entryEffect hf).place with h | ⟨s, hs, h⟩
    · exact .inl h
    · rw [← h]
      exact .inr (Forest.label_mem_labels (hview s hs))

namespace Pass

/-- Two passes have claimed the same of some nodes. -/
def AgreeOn (labels : List Nat) (p q : Pass) : Prop := ∀ l ∈ labels, p.isClaimed l = q.isClaimed l

variable {entry : Tree} (hd : entry.below.Distinct)

include hd

/-- What has been claimed below a node decides what is in sight there. -/
theorem AgreeOn.view_eq {p q : Pass} (h : AgreeOn entry.below.labels p q) :
    p.view entry = q.view entry :=
  hd.visible_congr h

/-- **Passes that have claimed the same below an entry** gain the same effect when they check it. -/
theorem AgreeOn.gains_checkEntry {p q : Pass} (h : AgreeOn entry.below.labels p q) :
    ∃ e : Effect, e.Inside entry ∧ p.Gains e (p.checkEntry entry) ∧
      q.Gains e (q.checkEntry entry) := by
  refine ⟨entryEffect (p.view entry) entry, ?_, Pass.gains_checkEntry hd p, ?_⟩
  · exact inside_entryEffect fun s => mem_below_of_mem_view
  · rw [h.view_eq hd]
    exact Pass.gains_checkEntry hd q

end Pass

theorem Check.Clear.agreeOn {c : Check} (h : c.Clear) :
    Pass.AgreeOn c.tree.below.labels c.pass Pass.fresh := by
  intro l hl
  rw [h l hl]
  rfl

/-- A check that begins while nothing below the entry is claimed finds what a fresh pass finds. -/
theorem Check.Clear.findings_checkEntry {c : Check} (h : c.Clear) (hd : c.tree.below.Distinct) :
    (c.pass.checkEntry c.tree).findings =
      c.pass.findings ++ (Pass.fresh.checkEntry c.tree).findings := by
  obtain ⟨e, -, hpass, hfresh⟩ := h.agreeOn.gains_checkEntry hd
  have hfindings : (Pass.fresh.checkEntry c.tree).findings = e.findings := hfresh.findings
  rw [hpass.findings, hfindings]

namespace Markup.Document

variable {d : Document}

/-- What a fresh pass finds in an entry is what its effect on all that is below it finds. -/
theorem findings_checkEntry_fresh {entry : Tree} (hd : entry.below.Distinct) :
    (Pass.fresh.checkEntry entry).findings = (entryEffect entry.below.trees entry).findings := by
  have hview : Pass.fresh.view entry = entry.below.trees :=
    Pass.view_of_clear fun _ _ => List.not_mem_nil
  have hgains := Pass.gains_checkEntry hd Pass.fresh
  rw [hview] at hgains
  exact hgains.findings

/-- What one member of a list contributes stands in one piece. -/
theorem infix_flatMap {α β : Type} {a : α} {l : List α} (h : a ∈ l) (g : α → List β) :
    g a <:+: l.flatMap g := by
  rw [List.flatMap_def]
  exact List.infix_of_mem_flatten (List.mem_map_of_mem h)

/-- What a page reports of its entries stands in one piece, feed by feed. -/
theorem infix_entriesEffect (hd : d.WellFormed) {scope : Tree} (hscope : scope ∈ d.scopes) :
    (entriesEffect scope.below.trees).findings <:+: d.findings := by
  have hfeed : ∀ explicit, (entriesEffect scope.below.trees).findings <:+:
      (feedEffect explicit scope.below.trees scope).findings := by
    intro explicit
    rw [findings_feedEffect]
    exact List.infix_append' ..
  rw [d.findings_eq hd]
  refine List.IsInfix.trans ?_ (List.suffix_append _ _).isInfix
  by_cases h : d.feeds = []
  · rw [scopes, if_pos h] at hscope
    obtain rfl := List.mem_singleton.1 hscope
    rw [if_pos h]
    exact (hfeed false).trans (List.prefix_append _ _).isInfix
  · rw [scopes, if_neg h] at hscope
    rw [if_neg h]
    exact ((hfeed true).trans (infix_flatMap hscope fun feed =>
      (feedEffect true feed.below.trees feed).findings)).trans (List.prefix_append _ _).isInfix

/-- What a fresh pass finds in an entry of a page stands in one piece among what the page reports. -/
theorem infix_checkEntry_fresh (hd : d.WellFormed) {entry : Tree} (h : entry ∈ d.entries) :
    (Pass.fresh.checkEntry entry).findings <:+: d.findings := by
  have hpage : entry ∈ d.root.below.trees := mem_of_mem_entry h (Tree.mem_all.2 (.inl rfl))
  rw [entries_eq] at h
  obtain ⟨scope, hscope, hentry⟩ := List.mem_flatMap.1 h
  -- inside the entry there is what is below it
  have hinside : inside entry scope.below.trees = entry.below.trees := by
    refine hd.distinct.eq_of_sublist ((inside_sublist ..).trans (below_scope hscope))
      (Forest.trees_below_sublist hpage) fun s => ?_
    rw [mem_inside]
    exact and_iff_right_of_imp (Forest.mem_trees_trans (mem_feedEntries hentry))
  have hone := infix_flatMap hentry fun entry =>
    (entryEffect (inside entry scope.below.trees) entry).findings
  rw [hinside, ← findings_checkEntry_fresh (hd.distinct.below hpage),
    ← findings_entriesEffect] at hone
  exact hone.trans (infix_entriesEffect hd hscope)

/-- **Entries are checked on their own.** Two passes that have claimed the same below a node gain
the same effect, at the node and below it, when they check it as an entry. When a pass over a page
checks its entries, each of them once, nothing below the entry is claimed, so that what is found is
what a fresh pass finds there. -/
theorem entries_checked_alone (hd : d.WellFormed) :
    (∀ entry ∈ d.root.below.trees, ∀ p q : Pass, Pass.AgreeOn entry.below.labels p q →
      ∃ e : Effect, e.Inside entry ∧ p.Gains e (p.checkEntry entry) ∧
        q.Gains e (q.checkEntry entry)) ∧
      d.journal.pass.findings = d.findings ∧ d.journal.entries.map Check.tree = d.entries ∧
      ∀ c ∈ d.journal.entries, c.Clear ∧
        (c.pass.checkEntry c.tree).findings =
          c.pass.findings ++ (Pass.fresh.checkEntry c.tree).findings ∧
        (Pass.fresh.checkEntry c.tree).findings <:+: d.findings := by
  refine ⟨fun entry hentry p q h => h.gains_checkEntry (hd.distinct.below hentry),
    d.findings_journal, entries_journal hd, fun c hc => ?_⟩
  have hentry : c.tree ∈ d.entries := by
    rw [← entries_journal hd]
    exact List.mem_map_of_mem hc
  have hbelow := hd.distinct.below (mem_of_mem_entry hentry (Tree.mem_all.2 (.inl rfl)))
  have hclear := clear_journal hd c hc
  exact ⟨hclear, hclear.findings_checkEntry hbelow, infix_checkEntry_fresh hd hentry⟩

set_option maxRecDepth 100000 in
/-- Two entries beside each other and beside a key of the page. -/
theorem entries_checked_alone_beside_key :
    ∃ d, Document.parse
        "<p><b class='feed-key' title='k'/><i class='hentry'/><u class='hentry author'/></p>" =
          .ok d ∧ d.WellFormed ∧ d.journal.entries.length = 2 ∧
      ∀ c ∈ d.journal.entries, c.Clear ∧
        (c.pass.checkEntry c.tree).findings =
          c.pass.findings ++ (Pass.fresh.checkEntry c.tree).findings ∧
        (Pass.fresh.checkEntry c.tree).findings <:+: d.findings := by
  obtain ⟨d, h, hlength⟩ := Document.exists_of_parse
    "<p><b class='feed-key' title='k'/><i class='hentry'/><u class='hentry author'/></p>"
    (fun d => d.journal.entries.length = 2) (by decide +kernel)
  have hd := Document.wellFormed_of_parse h
  exact ⟨d, h, hd, hlength, (entries_checked_alone hd).2.2.2⟩

end Markup.Document

end HAtom
