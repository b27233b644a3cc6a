import HAtom.Proofs.EntryReports

/-!
# The reports of a page, told apart by rule

Of what its entries are checked for a page reports what each rule finds in each of them, entry by
entry, and nothing else on the page gives rise to such a report. Entries lie apart from each other,
so that the reports at or below one of them come from that one alone.

* `Markup.Document.filter_findings`: what a page reports of keys and of entries, feed by feed.
* `Markup.Document.byRule_findings`: what a rule of entries reports on a page.
* `Markup.Document.countP_findings_entry`: how often it does so in an entry.
* `Markup.Document.noContent_reported_iff`: an entry is reported to be without a body when every
  content and summary below it is hidden by a title. Those that are hidden do not count
  (`Markup.Document.noContent_reported_of_hidden`).
-/

namespace HAtom

open Markup

/-! ## Counting what one member of a list contributes -/

/-- When no other member of a list contributes anything that counts, one of them contributes all. -/
theorem countP_flatMap_of_unique {α β : Type} {l : List α} (hnodup : l.Nodup) {a : α} (ha : a ∈ l)
    {g : α → List β} {p : β → Bool} (h : ∀ other ∈ l, other ≠ a → ∀ b ∈ g other, ¬p b) :
    (l.flatMap g).countP p = (g a).countP p := by
  induction l with
  | nil => exact absurd ha List.not_mem_nil
  | cons first rest ih =>
    obtain ⟨hfirst, hrest⟩ := List.nodup_cons.1 hnodup
    rw [List.flatMap_cons, List.countP_append]
    rcases List.mem_cons.1 ha with rfl | ha
    · have hnone : (rest.flatMap g).countP p = 0 := by
        refine List.countP_eq_zero.2 fun b hb => ?_
        obtain ⟨other, hother, hb⟩ := List.mem_flatMap.1 hb
        exact h other (List.mem_cons_of_mem _ hother) (ne_of_mem_of_not_mem hother hfirst) b hb
      rw [hnone, Nat.add_zero]
    · have hnone : (g first).countP p = 0 := List.countP_eq_zero.2
        (h first List.mem_cons_self (ne_of_mem_of_not_mem ha hfirst).symm)
      rw [hnone, Nat.zero_add]
      exact ih hrest ha fun other hother => h other (List.mem_cons_of_mem _ hother)

/-! ## Problems that only keys and entries give rise to -/

/-- The search for keys and the checks of keys and entries alone give rise to the problem: it is
neither that containers are nested or empty nor that a keyword is misplaced. -/
structure Problem.OfKeysAndEntries (P : Problem → Bool) : Prop where
  feed : P (.nested feedKeyword) = false
  entry : P (.nested entryKeyword) = false
  empty : P .emptyFeed = false
  misplaced : ∀ keyword name value, P (.misplaced keyword name value) = false

section Filter

variable {P : Problem → Bool}

theorem filter_nestedFindings {keyword : String} (h : P (.nested keyword) = false)
    (ts : List Tree) : (nestedFindings keyword ts).filter (P ·.problem) = [] := by
  refine List.filter_eq_nil_iff.2 fun f hf => ?_
  rw [(mem_nestedFindings hf).1, h]
  exact Bool.false_ne_true

theorem filter_strayFindings (h : ∀ keyword name value, P (.misplaced keyword name value) = false)
    (keywords : List String) (ts : List Tree) :
    (strayFindings keywords ts).filter (P ·.problem) = [] := by
  rw [strayFindings_eq_map]
  refine List.filter_eq_nil_iff.2 fun f hf => ?_
  obtain ⟨o, -, rfl⟩ := List.mem_map.1 hf
  rw [Occurrence.finding, h]
  exact Bool.false_ne_true

/-- What a feed reports of its keys and entries. -/
theorem filter_feedEffect_keysAndEntries (h : Problem.OfKeysAndEntries P) (explicit : Bool)
    (view : List Tree) (feed : Tree) :
    (feedEffect explicit view feed).findings.filter (P ·.problem) =
      (keysEffect (besideEntries view)).findings.filter (P ·.problem) ++
        (entriesEffect view).findings.filter (P ·.problem) := by
  have hempty : (if explicit && (feedEntries view).isEmpty then
      [⟨.emptyFeed, feed.head.label⟩] else [] : List Finding).filter (P ·.problem) = [] := by
    split
    · exact List.filter_cons_of_neg (by rw [h.empty]; exact Bool.false_ne_true)
    · rfl
  have hstray : (if explicit then strayFindings entryKeywords (leftover view) else []).filter
      (P ·.problem) = [] := by
    split
    · exact filter_strayFindings h.misplaced ..
    · rfl
  rw [findings_feedEffect, List.filter_append, List.filter_append, List.filter_append,
    List.filter_append, filter_nestedFindings h.entry, hempty, hstray, List.append_nil,
    List.append_nil, List.nil_append]

end Filter

/-! ## Entries apart from each other -/

namespace Markup.Document

variable {d : Document} (hd : d.WellFormed)

include hd

/-- A node at or below two entries that are checked is so because they are the same. -/
theorem entry_unique {entry other t : Tree} (hentry : entry ∈ d.entries)
    (hother : other ∈ d.entries) (ht : t ∈ entry.all) (ht' : t ∈ other.all) : entry = other := by
  have hin : ∀ e ∈ d.entries, e ∈ d.root.below.trees := fun e he =>
    mem_of_mem_entry he (Tree.mem_all.2 (.inl rfl))
  -- an entry below another one would have been found below the same scope
  have hnot : ∀ e ∈ d.entries, ∀ o ∈ d.entries, o ∉ e.below.trees := by
    intro e he o ho hoe
    rw [entries_eq] at he ho
    obtain ⟨scope, hscope, he⟩ := List.mem_flatMap.1 he
    obtain ⟨scope', hscope', ho⟩ := List.mem_flatMap.1 ho
    obtain rfl := scope_unique hd hscope hscope'
      (Forest.mem_trees_trans (mem_feedEntries he) hoe) (mem_feedEntries ho)
    exact not_mem_below_of_mem_tops e he o ho hoe
  rcases hd.distinct.mem_all_or_mem_all (hin _ hentry) (hin _ hother) ht ht' with h | h
  · exact (Tree.mem_all.1 h).resolve_right (hnot _ hother _ hentry)
  · exact ((Tree.mem_all.1 h).resolve_right (hnot _ hentry _ hother)).symm

theorem mem_entries_of_journal {c : Check} (hc : c ∈ d.journal.entries) : c.tree ∈ d.entries := by
  rw [← entries_journal hd]
  exact List.mem_map_of_mem hc

/-- What is found at or below an entry is found by that entry. -/
theorem entry_eq_of_mem_entryEffect {entry other t : Tree} {f : Finding}
    (hentry : entry ∈ d.entries) (hother : other ∈ d.entries) (ht : t ∈ entry.all)
    (hft : t.head.label = f.label) (hf : f ∈ (entryEffect other.below.trees other).findings) :
    other = entry := by
  have hplace : ∃ s ∈ other.all, s.head.label = f.label := by
    rcases (foundIn_entryEffect hf).place with h | ⟨s, hs, h⟩
    · exact ⟨other, Tree.mem_all.2 (.inl rfl), h.symm⟩
    · exact ⟨s, Tree.mem_all.2 (.inr hs), h⟩
  obtain ⟨s, hs, hsf⟩ := hplace
  obtain rfl := hd.distinct.eq_of_label_eq (mem_of_mem_entry hother hs)
    (mem_of_mem_entry hentry ht) (hsf.trans hft.symm)
  exact entry_unique hd hother hentry hs ht

/-! ## What a page reports of keys and entries -/

/-- **What a page reports of keys and entries**, feed by feed. -/
theorem filter_findings {P : Problem → Bool} (h : Problem.OfKeysAndEntries P) :
    d.findings.filter (P ·.problem) = d.scopes.flatMap fun scope =>
      (keysEffect (besideEntries scope.below.trees)).findings.filter (P ·.problem) ++
        (entriesEffect scope.below.trees).findings.filter (P ·.problem) := by
  rw [d.findings_eq hd, List.filter_append, filter_nestedFindings h.feed, List.nil_append, scopes]
  split
  · rw [List.filter_append, filter_strayFindings h.misplaced, List.append_nil,
      filter_feedEffect_keysAndEntries h, List.flatMap_singleton]
  · rw [List.filter_append, filter_strayFindings h.misplaced, List.append_nil,
      List.filter_flatMap]
    exact List.flatMap_congr fun feed _ => filter_feedEffect_keysAndEntries h true _ feed

/-- What the entries of a feed report is what each of them finds below it. -/
theorem findings_entriesEffect_scope {scope : Tree} (hscope : scope ∈ d.scopes) :
    (entriesEffect scope.below.trees).findings =
      (feedEntries scope.below.trees).flatMap fun entry =>
        (entryEffect entry.below.trees entry).findings := by
  rw [findings_entriesEffect]
  have hbelow : scope.below.Distinct := ((below_scope hscope).map _).nodup hd.distinct
  refine List.flatMap_congr fun entry hentry => ?_
  rw [hbelow.inside_trees (mem_feedEntries hentry)]

/-- **What a rule of entries reports on a page** is what it finds in each entry. -/
theorem byRule_findings (rule : EntryRule) :
    byRule rule d.findings =
      d.entries.flatMap fun entry => ruleFindings entry.below.trees entry rule := by
  have hP : Problem.OfKeysAndEntries fun problem => decide (problem.rule? = some rule) :=
    { feed := by simp [Problem.rule?, Property.ofKeyword?, Property.all, Property.keyword,
        DateProperty.keyword, feedKeyword]
      entry := by simp [Problem.rule?, Property.ofKeyword?, Property.all, Property.keyword,
        DateProperty.keyword, entryKeyword]
      empty := rfl
      misplaced := fun _ _ _ => rfl }
  have hkeys : ∀ view : List Tree, (keysEffect view).findings.filter
      (fun f => decide (f.problem.rule? = some rule)) = [] := by
    intro view
    refine List.filter_eq_nil_iff.2 fun f hf => ?_
    have hnone : f.problem.rule? = none := by
      rw [findings_keysEffect] at hf
      rcases List.mem_append.1 hf with hf | hf
      · rw [(mem_nestedFindings hf).1]
        decide
      · rcases (mem_keyFindings hf).1 with h | ⟨value, h⟩
        · rw [h]
          rfl
        · rw [h]
          rfl
    rw [hnone]
    exact Bool.false_ne_true
  have hfilter := filter_findings hd hP
  rw [byRule, hfilter, entries_eq, List.flatMap_assoc]
  refine List.flatMap_congr fun scope hscope => ?_
  rw [hkeys, List.nil_append, findings_entriesEffect_scope hd hscope, List.filter_flatMap]
  exact List.flatMap_congr fun entry _ => byRule_entryEffect rule _ entry

/-- **How often a page reports something in an entry** that a rule of entries reports. -/
theorem countP_findings_entry {entry : Tree} (hentry : entry ∈ d.entries) (rule : EntryRule)
    {p : Finding → Bool}
    (hp : ∀ f, p f → f.problem.rule? = some rule ∧ ∃ t ∈ entry.all, t.head.label = f.label) :
    d.findings.countP p = (ruleFindings entry.below.trees entry rule).countP p := by
  have hrule : (byRule rule d.findings).countP p = d.findings.countP p := by
    rw [byRule, List.countP_filter]
    refine List.countP_congr fun f _ => ?_
    rw [Bool.and_eq_true, decide_eq_true_iff]
    exact and_iff_left_of_imp fun h => (hp f h).1
  rw [← hrule, byRule_findings hd]
  refine countP_flatMap_of_unique (entries_nodup hd) hentry fun other hother hne f hf hpf => hne ?_
  obtain ⟨t, ht, hft⟩ := (hp f hpf).2
  rw [← byRule_entryEffect] at hf
  exact entry_eq_of_mem_entryEffect hd hentry hother ht hft (List.mem_filter.1 hf).1

end Markup.Document

/-! ## Entries without a body -/

/-- Whether a node is marked as the content or as a summary of an entry. -/
def Markup.Node.isBody (n : Node) : Bool :=
  n.carries "class" "entry-content" || n.carries "class" "entry-summary"

/-- **Nothing is found as a body** when all that is marked as one is hidden by titles. Content in a
summary needs no mention: the summary is found. -/
theorem bodyCount_eq_zero_iff {view : List Tree} :
    bodyCount view Property.all = 0 ↔ ∀ t ∈ view, t.head.isBody →
      ∃ s ∈ view, s.head.carries "class" "entry-title" ∧ t ∈ s.all := by
  have htitles : members view .title = marked "class" "entry-title" view := rfl
  have hsummaries : members view .summary =
      marked "class" "entry-summary" (uncovered view (members view .title)) := rfl
  have hcontents : members view .content = marked "class" "entry-content"
      (uncovered (uncovered view (members view .title)) (members view .summary)) := rfl
  rw [bodyCount_eq_zero, tops_eq_nil, tops_eq_nil]
  constructor
  · rintro ⟨hsummary, hcontent⟩ t ht hbody
    by_contra hfree
    have hun : t ∈ uncovered view (members view .title) := by
      rw [mem_uncovered, htitles]
      refine ⟨ht, fun s hs hts => hfree ?_⟩
      obtain ⟨hs, hcarries⟩ := mem_marked.1 hs
      exact ⟨s, hs, hcarries, hts⟩
    rcases Bool.or_eq_true_iff.1 hbody with h | h
    · refine List.eq_nil_iff_forall_not_mem.1 hcontent t ?_
      rw [hcontents, hsummary, uncovered_nil]
      exact mem_marked.2 ⟨hun, h⟩
    · refine List.eq_nil_iff_forall_not_mem.1 hsummary t ?_
      rw [hsummaries]
      exact mem_marked.2 ⟨hun, h⟩
  · intro h
    have hnone : ∀ t ∈ uncovered view (members view .title), ¬t.head.isBody := by
      intro t ht hbody
      obtain ⟨ht, hfree⟩ := mem_uncovered.1 ht
      obtain ⟨s, hs, hcarries, hts⟩ := h t ht hbody
      exact hfree s (mem_marked.2 ⟨hs, hcarries⟩) hts
    constructor
    · refine List.eq_nil_iff_forall_not_mem.2 fun t ht => ?_
      rw [hsummaries] at ht
      obtain ⟨ht, hcarries⟩ := mem_marked.1 ht
      exact hnone t ht (Bool.or_eq_true_iff.2 (.inr hcarries))
    · refine List.eq_nil_iff_forall_not_mem.2 fun t ht => ?_
      rw [hcontents] at ht
      obtain ⟨ht, hcarries⟩ := mem_marked.1 ht
      exact hnone t (mem_uncovered.1 ht).1 (Bool.or_eq_true_iff.2 (.inl hcarries))

namespace Markup.Document

variable {d : Document}

theorem count_noContent (hd : d.WellFormed) {entry : Tree} (hentry : entry ∈ d.entries) :
    d.findings.count ⟨.noContent, entry.head.label⟩ =
      if bodyCount entry.below.trees Property.all = 0 then 1 else 0 := by
  have hcount := countP_findings_entry hd hentry .body
    (p := (· == ⟨.noContent, entry.head.label⟩)) fun f hf => by
      obtain rfl := eq_of_beq hf
      exact ⟨rfl, entry, Tree.mem_all.2 (.inl rfl), rfl⟩
  refine hcount.trans ?_
  rw [ruleFindings]
  by_cases hzero : bodyCount entry.below.trees Property.all = 0
  · rw [if_pos (beq_iff_eq.2 hzero), if_pos hzero]
    exact List.count_singleton_self
  · rw [if_neg (mt beq_iff_eq.1 hzero), if_neg hzero]
    rfl

/-- **An entry is reported to have neither content nor summary** when every node below it that is
marked as one of them is a title or lies inside a title, and it is reported once. -/
theorem noContent_reported_iff {text : String} (h : Document.parse text = .ok d) :
    d.journal.pass.findings = d.findings ∧ ∀ c ∈ d.journal.entries,
      (⟨.noContent, c.tree.head.label⟩ ∈ d.findings ↔
        ∀ t ∈ c.tree.below.trees, t.head.isBody →
          ∃ s ∈ c.tree.below.trees, s.head.carries "class" "entry-title" ∧ t ∈ s.all) ∧
      d.findings.count ⟨.noContent, c.tree.head.label⟩ ≤ 1 := by
  have hd := Document.wellFormed_of_parse h
  refine ⟨d.findings_journal, fun c hc => ?_⟩
  have hentry := mem_entries_of_journal hd hc
  rw [← List.count_pos_iff, count_noContent hd hentry, ← bodyCount_eq_zero_iff]
  split
  · next hzero => exact ⟨iff_of_true Nat.one_pos hzero, le_rfl⟩
  · next hzero => exact ⟨iff_of_false (lt_irrefl 0) hzero, Nat.zero_le 1⟩

set_option maxRecDepth 100000 in
/-- An entry whose content lies in its title, and one with a summary beside the title. -/
theorem noContent_reported_beside_title :
    ∃ d, Document.parse ("<p><b class='hentry'><i class='entry-title'><u class='entry-content'/>" ++
        "</i></b><b class='hentry'><i class='entry-title'/><u class='entry-summary'/></b></p>") =
          .ok d ∧
      d.journal.pass.findings = d.findings ∧
      (d.journal.entries.map fun c => d.findings.count ⟨.noContent, c.tree.head.label⟩) = [1, 0] ∧
      ∀ c ∈ d.journal.entries,
        (⟨.noContent, c.tree.head.label⟩ ∈ d.findings ↔
          ∀ t ∈ c.tree.below.trees, t.head.isBody →
            ∃ s ∈ c.tree.below.trees, s.head.carries "class" "entry-title" ∧ t ∈ s.all) ∧
        d.findings.count ⟨.noContent, c.tree.head.label⟩ ≤ 1 := by
  obtain ⟨d, h, hcounts⟩ := Document.exists_of_parse
    ("<p><b class='hentry'><i class='entry-title'><u class='entry-content'/>" ++
      "</i></b><b class='hentry'><i class='entry-title'/><u class='entry-summary'/></b></p>")
    (fun d => (d.journal.entries.map fun c =>
      d.findings.count ⟨.noContent, c.tree.head.label⟩) = [1, 0]) (by decide +kernel)
  obtain ⟨hjournal, hreported⟩ := noContent_reported_iff h
  exact ⟨d, h, hjournal, hcounts, hreported⟩

set_option maxRecDepth 100000 in
/-- Content that is the title itself and a summary inside a title do not count: an entry may be
reported to have neither although a node below it is marked as one. -/
theorem noContent_reported_of_hidden :
    ∃ d, Document.parse ("<p><b class='hentry'><i class='entry-title entry-content'/></b>" ++
        "<b class='hentry'><i class='entry-title'><u class='entry-summary'/></i></b></p>") =
          .ok d ∧
      d.journal.pass.findings = d.findings ∧ d.journal.entries.length = 2 ∧
      ∀ c ∈ d.journal.entries, ¬(⟨.noContent, c.tree.head.label⟩ ∈ d.findings ↔
        ∀ t ∈ c.tree.below.trees, ¬t.head.isBody) :=
  Document.exists_of_parse _ _ (by decide +kernel)

end Markup.Document

end HAtom
