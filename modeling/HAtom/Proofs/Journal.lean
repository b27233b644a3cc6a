import HAtom.Proofs.Misplaced

/-!
# The checks of a pass

Which feeds and entries a pass over a page checks, and what it has claimed when such a check begins.
A `Journal` runs the rules of a page and keeps a list of the checks that it has begun, each with the
pass as it was then; without the lists it is the pass itself (`Journal.pass_checkPage`).

* `Markup.Document.journal` is the journal of a page; `Markup.Document.findings_journal` says that it
  has the findings of the page.
* `Markup.Document.feeds_journal` and `Markup.Document.entries_journal`: the feeds and the entries of
  the page are checked, each once, feed by feed in document order.
* `Markup.Document.clear_journal`: when the check of an entry begins, nothing below the entry is
  claimed. A feed keeps this (`Journal.clear_checkFeed`), and so does a run over all feeds
  (`Journal.clear_foldl_checkFeed`).
-/

namespace HAtom

open Markup

/-! ## Nodes apart from each other -/

/-- None of some nodes occurs twice among them or lies inside another one. -/
def Apart (ts : List Tree) : Prop :=
  ts.Pairwise fun s t => s ≠ t ∧ t ∉ s.below.trees ∧ s ∉ t.below.trees

theorem apart_tops {f : Forest} (hd : f.Distinct) {ts : List Tree} (hts : ts.Sublist f.trees) :
    Apart (tops ts) := by
  have hnodup : (tops ts).Nodup := ((tops_sublist ts).trans hts).nodup hd.trees_nodup
  refine hnodup.imp_of_mem fun {s t} hs ht hne => ?_
  exact ⟨hne, not_mem_below_of_mem_tops s hs t ht, not_mem_below_of_mem_tops t ht s hs⟩

/-- What a rule claims below the first of some nodes leaves in sight what is below the others. -/
theorem Pass.Gains.view_rest {scope t : Tree} {rest : List Tree} {p q : Pass} {e : Effect}
    (h : p.Gains e q) (hd : scope.below.Distinct) (hin : ∀ s ∈ t :: rest, s ∈ scope.below.trees)
    (hapart : Apart (t :: rest)) (he : ∀ l ∈ e.claims, ∃ u ∈ p.view t, u.head.label = l) :
    ∀ s ∈ rest, q.view s = p.view s := by
  intro s hs
  obtain ⟨hne, hst, hts⟩ := (List.pairwise_cons.1 hapart).1 s hs
  refine h.view_apart hd (hin t List.mem_cons_self) (hin s (List.mem_cons_of_mem t hs)) hne hst hts
    fun l hl => ?_
  obtain ⟨u, hu, rfl⟩ := he l hl
  exact Forest.label_mem_labels (Pass.mem_below_of_mem_view hu)

/-- When everything below a node is in sight, nothing there is claimed. -/
theorem Pass.not_claimed_of_view {p : Pass} {t : Tree} (hd : t.below.Distinct)
    (h : p.view t = t.below.trees) : ∀ l ∈ t.below.labels, p.isClaimed l = false := by
  intro l hl
  obtain ⟨s, hs, rfl⟩ := List.mem_map.1 hl
  have hview : s ∈ p.view t := by
    rw [h]
    exact hs
  exact (hd.mem_visible.1 hview).2 s hs (Tree.mem_all.2 (.inl rfl))

/-! ## Journals -/

/-- The check of a feed or of an entry. -/
structure Check where
  tree : Tree
  /-- The pass when the check begins. -/
  pass : Pass

/-- Nothing below the node is claimed when its check begins. -/
def Check.Clear (c : Check) : Prop := ∀ l ∈ c.tree.below.labels, c.pass.isClaimed l = false

/-- A pass with the checks that it has begun, the first one first. -/
structure Journal where
  pass : Pass
  feeds : List Check
  entries : List Check

namespace Journal

/-- Checks an entry. -/
def checkEntry (j : Journal) (entry : Tree) : Journal :=
  { j with pass := j.pass.checkEntry entry, entries := j.entries ++ [⟨entry, j.pass⟩] }

/-- Checks a feed. A page that stands for a feed is not kept among the feeds. -/
def checkFeed (explicit : Bool) (j : Journal) (feed : Tree) : Journal :=
  let (entries, p) := j.pass.collect feed "class" entryKeyword
  let p := p.noteIf (explicit && entries.isEmpty) .emptyFeed feed.head
  let p := p.checkFeedKeys feed
  let feeds := if explicit then j.feeds ++ [⟨feed, j.pass⟩] else j.feeds
  let j := entries.foldl checkEntry { j with pass := p, feeds }
  if explicit then { j with pass := j.pass.scanBelow feed.below entryKeywords } else j

/-- Checks a page from a node of its document on. -/
def checkPage (j : Journal) (d : Document) (root : Tree) : Journal :=
  let (feeds, p) := j.pass.collect root "class" feedKeyword
  if feeds.isEmpty then
    let j := checkFeed false { j with pass := p } root
    { j with pass := j.pass.checkRest d entryKeywords }
  else
    let j := feeds.foldl (checkFeed true) { j with pass := p }
    { j with pass := j.pass.checkRest d allKeywords }

/-! ## Without its lists a journal is the pass -/

theorem pass_foldl_checkEntry (ts : List Tree) (j : Journal) :
    (ts.foldl checkEntry j).pass = ts.foldl Pass.checkEntry j.pass :=
  (List.foldl_hom Journal.pass fun _ _ => rfl).symm

theorem pass_checkFeed (explicit : Bool) (j : Journal) (feed : Tree) :
    (checkFeed explicit j feed).pass = j.pass.checkFeed explicit feed := by
  unfold checkFeed Pass.checkFeed
  cases explicit with
  | false => exact pass_foldl_checkEntry ..
  | true => exact congrArg (Pass.scanBelow · feed.below entryKeywords) (pass_foldl_checkEntry ..)

theorem pass_foldl_checkFeed (explicit : Bool) (ts : List Tree) (j : Journal) :
    (ts.foldl (checkFeed explicit) j).pass = ts.foldl (Pass.checkFeed explicit) j.pass :=
  (List.foldl_hom Journal.pass fun j feed => (pass_checkFeed explicit j feed).symm).symm

/-- **A journal runs the rules of the page.** -/
theorem pass_checkPage (j : Journal) (d : Document) (root : Tree) :
    (j.checkPage d root).pass = j.pass.checkPage d root := by
  unfold checkPage Pass.checkPage
  dsimp only
  split
  · rw [pass_checkFeed]
  · rw [pass_foldl_checkFeed]

/-! ## Entries one after another -/

theorem entries_foldl_checkEntry (ts : List Tree) (j : Journal) :
    (ts.foldl checkEntry j).entries.map Check.tree = j.entries.map Check.tree ++ ts := by
  induction ts generalizing j with
  | nil => exact (List.append_nil _).symm
  | cons t rest ih =>
    rw [List.foldl_cons, ih, checkEntry, List.map_append, List.append_assoc]
    rfl

theorem feeds_foldl_checkEntry (ts : List Tree) (j : Journal) :
    (ts.foldl checkEntry j).feeds = j.feeds := by
  induction ts generalizing j with
  | nil => rfl
  | cons t rest ih => exact ih (j.checkEntry t)

/-- Entries apart from each other, of which all is in sight, have it in sight when their turn
comes. -/
theorem clear_foldl_checkEntry {scope : Tree} (hd : scope.below.Distinct) {ts : List Tree}
    (hin : ∀ t ∈ ts, t ∈ scope.below.trees) (hapart : Apart ts) {j : Journal}
    (hview : ∀ t ∈ ts, j.pass.view t = t.below.trees) (hj : ∀ c ∈ j.entries, c.Clear) :
    ∀ c ∈ (ts.foldl checkEntry j).entries, c.Clear := by
  induction ts generalizing j with
  | nil => exact hj
  | cons t rest ih =>
    have hdt := hd.below (hin t List.mem_cons_self)
    have hrest := (Pass.gains_checkEntry hdt j.pass).view_rest hd hin hapart
      fun _ => claims_entryEffect
    refine ih (fun s hs => hin s (List.mem_cons_of_mem t hs)) (List.pairwise_cons.1 hapart).2
      (fun s hs => ?_) fun c hc => ?_
    · exact (hrest s hs).trans (hview s (List.mem_cons_of_mem t hs))
    · rcases List.mem_append.1 hc with hc | hc
      · exact hj c hc
      · obtain rfl := List.mem_singleton.1 hc
        exact Pass.not_claimed_of_view hdt (hview t List.mem_cons_self)

/-! ## A feed -/

section Feed

variable {feed : Tree}

theorem feeds_checkFeed (explicit : Bool) (j : Journal) (feed : Tree) :
    (checkFeed explicit j feed).feeds =
      if explicit then j.feeds ++ [⟨feed, j.pass⟩] else j.feeds := by
  unfold checkFeed
  cases explicit <;> exact feeds_foldl_checkEntry ..

/-- The checks of entries that a feed adds. -/
theorem entries_checkFeed_eq (hd : feed.below.Distinct) (explicit : Bool) (j : Journal) :
    (checkFeed explicit j feed).entries = ((feedEntries (j.pass.view feed)).foldl checkEntry
      { j with
        pass := (Pass.foundEntries explicit j.pass feed).checkFeedKeys feed
        feeds := if explicit then j.feeds ++ [⟨feed, j.pass⟩] else j.feeds }).entries := by
  have hfirst : (j.pass.collect feed "class" entryKeyword).1 = feedEntries (j.pass.view feed) :=
    j.pass.collect_fst hd ..
  unfold checkFeed Pass.foundEntries
  dsimp only
  rw [hfirst, Pass.noteIf_eq_add]
  cases explicit <;> rfl

theorem entries_checkFeed (hd : feed.below.Distinct) (explicit : Bool) (j : Journal) :
    (checkFeed explicit j feed).entries.map Check.tree =
      j.entries.map Check.tree ++ feedEntries (j.pass.view feed) := by
  rw [entries_checkFeed_eq hd, entries_foldl_checkEntry]

/-- **A feed of which all is in sight** checks its entries while nothing below them is claimed. -/
theorem clear_checkFeed (hd : feed.below.Distinct) (explicit : Bool) {j : Journal}
    (hview : j.pass.view feed = feed.below.trees) (hj : ∀ c ∈ j.entries, c.Clear) :
    ∀ c ∈ (checkFeed explicit j feed).entries, c.Clear := by
  have hsub : (marked "class" entryKeyword (j.pass.view feed)).Sublist feed.below.trees :=
    j.pass.marked_view_sublist ..
  have hin : ∀ t ∈ feedEntries (j.pass.view feed), t ∈ feed.below.trees := fun t ht =>
    Pass.mem_below_of_mem_view (mem_feedEntries ht)
  rw [entries_checkFeed_eq hd]
  refine clear_foldl_checkEntry hd hin (apart_tops hd hsub) (fun t ht => ?_) hj
  -- neither the search for entries nor the keys claim anything below an entry
  have hbefore := Pass.view_entry_before hd explicit j.pass ht
  rw [hview, hd.inside_trees (hin t ht)] at hbefore
  exact hbefore

end Feed

/-! ## Feeds one after another -/

theorem feeds_foldl_checkFeed (ts : List Tree) (j : Journal) :
    (ts.foldl (checkFeed true) j).feeds.map Check.tree = j.feeds.map Check.tree ++ ts := by
  induction ts generalizing j with
  | nil => exact (List.append_nil _).symm
  | cons t rest ih =>
    rw [List.foldl_cons, ih, feeds_checkFeed, if_pos rfl, List.map_append, List.append_assoc]
    rfl

section Feeds

variable {scope : Tree} (hd : scope.below.Distinct)

include hd

/-- What is below the other feeds is still in sight when one has been checked. -/
theorem view_checkFeed_rest {t : Tree} {rest : List Tree}
    (hin : ∀ s ∈ t :: rest, s ∈ scope.below.trees) (hapart : Apart (t :: rest)) {j : Journal}
    (hview : ∀ s ∈ t :: rest, j.pass.view s = s.below.trees) :
    ∀ s ∈ rest, (checkFeed true j t).pass.view s = s.below.trees := by
  intro s hs
  have hgains := Pass.gains_checkFeed (hd.below (hin t List.mem_cons_self)) true j.pass
  rw [pass_checkFeed, hgains.view_rest hd hin hapart (fun _ => claims_feedEffect) s hs]
  exact hview s (List.mem_cons_of_mem t hs)

theorem entries_foldl_checkFeed {ts : List Tree} (hin : ∀ t ∈ ts, t ∈ scope.below.trees)
    (hapart : Apart ts) {j : Journal} (hview : ∀ t ∈ ts, j.pass.view t = t.below.trees) :
    (ts.foldl (checkFeed true) j).entries.map Check.tree =
      j.entries.map Check.tree ++ ts.flatMap fun t => feedEntries t.below.trees := by
  induction ts generalizing j with
  | nil => exact (List.append_nil _).symm
  | cons t rest ih =>
    have hrest := view_checkFeed_rest hd hin hapart hview
    rw [List.foldl_cons, ih (fun s hs => hin s (List.mem_cons_of_mem t hs))
      (List.pairwise_cons.1 hapart).2 hrest, entries_checkFeed (hd.below (hin t List.mem_cons_self)),
      hview t List.mem_cons_self, List.flatMap_cons, List.append_assoc]

/-- **A run over feeds apart from each other** checks entries while nothing below them is
claimed. -/
theorem clear_foldl_checkFeed {ts : List Tree} (hin : ∀ t ∈ ts, t ∈ scope.below.trees)
    (hapart : Apart ts) {j : Journal} (hview : ∀ t ∈ ts, j.pass.view t = t.below.trees)
    (hj : ∀ c ∈ j.entries, c.Clear) : ∀ c ∈ (ts.foldl (checkFeed true) j).entries, c.Clear := by
  induction ts generalizing j with
  | nil => exact hj
  | cons t rest ih =>
    have hrest := view_checkFeed_rest hd hin hapart hview
    have ht := clear_checkFeed (hd.below (hin t List.mem_cons_self)) true
      (hview t List.mem_cons_self) hj
    exact ih (fun s hs => hin s (List.mem_cons_of_mem t hs)) (List.pairwise_cons.1 hapart).2 hrest ht

end Feeds

end Journal

/-! ## Pages -/

namespace Markup.Document

/-- The journal of a pass over a page. -/
def journal (d : Document) : Journal := (⟨Pass.fresh, [], []⟩ : Journal).checkPage d d.root

/-- The journal of a page has the findings of the page. -/
theorem findings_journal (d : Document) : d.journal.pass.findings = d.findings := by
  rw [journal, Journal.pass_checkPage]
  rfl

/-- The journal when the feeds of a page have been found. -/
def journalOfFeeds (d : Document) : Journal := ⟨d.foundFeeds, [], []⟩

variable {d : Document} (hd : d.WellFormed)

include hd

/-- The last scan of a page begins no check. -/
theorem journal_eq : ∃ p : Pass, d.journal =
    { (if d.feeds = [] then Journal.checkFeed false d.journalOfFeeds d.root
      else d.feeds.foldl (Journal.checkFeed true) d.journalOfFeeds) with pass := p } := by
  have hfeeds := collect_feeds_fst hd
  have hjournal : d.journal =
      if (Pass.fresh.collect d.root "class" feedKeyword).1.isEmpty then
        { Journal.checkFeed false d.journalOfFeeds d.root with
          pass := (Journal.checkFeed false d.journalOfFeeds d.root).pass.checkRest d
            entryKeywords }
      else
        let j := (Pass.fresh.collect d.root "class" feedKeyword).1.foldl (Journal.checkFeed true)
          d.journalOfFeeds
        { j with pass := j.pass.checkRest d allKeywords } := rfl
  rw [hjournal, hfeeds]
  by_cases h : d.feeds = []
  · exact ⟨_, by rw [if_pos h, if_pos (List.isEmpty_iff.2 h)]⟩
  · exact ⟨_, by rw [if_neg h, if_neg (mt List.isEmpty_iff.1 h)]⟩

omit hd in
theorem apart_feeds (hd : d.WellFormed) : Apart d.feeds := apart_tops hd.distinct (marked_sublist ..)

/-- **The feeds of a page are checked**, each once and in document order. -/
theorem feeds_journal : d.journal.feeds.map Check.tree = d.feeds := by
  obtain ⟨p, hj⟩ := journal_eq hd
  rw [hj]
  split
  · next h =>
    rw [h]
    exact congrArg (List.map Check.tree) (Journal.feeds_checkFeed false d.journalOfFeeds d.root)
  · exact Journal.feeds_foldl_checkFeed d.feeds d.journalOfFeeds

/-- **The entries of a page are checked**, each once, those of one feed after those of the feed
before. -/
theorem entries_journal : d.journal.entries.map Check.tree = d.entries := by
  obtain ⟨p, hj⟩ := journal_eq hd
  rw [hj, entries]
  split
  · next h =>
    have hentries := Journal.entries_checkFeed hd.distinct false d.journalOfFeeds
    rw [journalOfFeeds, view_root_of_no_feed hd h] at hentries
    exact hentries
  · exact Journal.entries_foldl_checkFeed hd.distinct (fun _ => mem_of_mem_feeds)
      (apart_feeds hd) (j := d.journalOfFeeds) fun feed hfeed => view_feed hd hfeed

/-- **When the check of an entry begins nothing below the entry is claimed.** -/
theorem clear_journal : ∀ c ∈ d.journal.entries, c.Clear := by
  have hnone : ∀ c ∈ d.journalOfFeeds.entries, c.Clear := fun c hc => absurd hc List.not_mem_nil
  obtain ⟨p, hj⟩ := journal_eq hd
  rw [hj]
  split
  · next h => exact Journal.clear_checkFeed hd.distinct false (view_root_of_no_feed hd h) hnone
  · exact Journal.clear_foldl_checkFeed hd.distinct (fun _ => mem_of_mem_feeds) (apart_feeds hd)
      (fun feed hfeed => view_feed hd hfeed) hnone

end Markup.Document

end HAtom
