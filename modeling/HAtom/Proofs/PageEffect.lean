import HAtom.Proofs.EntryEffect
import HAtom.Rules.Page

/-!
# The findings of a page

What `Pass.checkFeed` claims and finds as a function of the nodes in sight below the feed, and from
it all findings of a page as a function of its tree alone: `Markup.Document.findings_eq`.

* `feedEntries` and `feedKeys` are the entries and keys of a feed, `leftover` the nodes that they do
  not cover.
* `Markup.Document.feeds` are the feeds of a page.
-/

namespace HAtom

open Markup

/-! ## Feeds -/

/-- The entries of a feed: the outermost ones in sight. -/
def feedEntries (view : List Tree) : List Tree := tops (marked "class" entryKeyword view)

/-- The nodes in sight that no entry covers. -/
def besideEntries (view : List Tree) : List Tree :=
  uncovered view (marked "class" entryKeyword view)

/-- The keys of a feed: the outermost ones that no entry covers. -/
def feedKeys (view : List Tree) : List Tree :=
  tops (marked "class" feedKeyKeyword (besideEntries view))

/-- The nodes in sight that neither entries nor keys cover. -/
def leftover (view : List Tree) : List Tree :=
  uncovered (besideEntries view) (marked "class" feedKeyKeyword (besideEntries view))

/-- The keywords where they do not belong on some nodes, keyword by keyword. -/
def strayFindings (keywords : List String) (ts : List Tree) : List Finding :=
  keywords.flatMap fun keyword => ts.flatMap fun t => Pass.strays keyword t.head

/-- The effect of checking the keys of a feed among the nodes that no entry covers. -/
def keysEffect (view : List Tree) : Effect :=
  ((Effect.claiming (tops (marked "class" feedKeyKeyword view))).andThen
      (.found (nestedFindings feedKeyKeyword (marked "class" feedKeyKeyword view)))).andThen
    (.found (keyFindings .feed [] (tops (marked "class" feedKeyKeyword view))))

/-- The effect of checking the entries of a feed. -/
def entriesEffect (view : List Tree) : Effect :=
  .all ((feedEntries view).map fun entry => entryEffect (inside entry view) entry)

/-- The effect of checking a feed. -/
def feedEffect (explicit : Bool) (view : List Tree) (feed : Tree) : Effect :=
  ((((Effect.claiming (feedEntries view)).andThen
      (.found (nestedFindings entryKeyword (marked "class" entryKeyword view)))).andThen
        (.found (if explicit && (feedEntries view).isEmpty then
          [⟨.emptyFeed, feed.head.label⟩] else []))).andThen
      (keysEffect (besideEntries view))).andThen
    ((entriesEffect view).andThen
      (.found (if explicit then strayFindings entryKeywords (leftover view) else [])))

theorem findings_keysEffect (view : List Tree) :
    (keysEffect view).findings =
      nestedFindings feedKeyKeyword (marked "class" feedKeyKeyword view) ++
        keyFindings .feed [] (tops (marked "class" feedKeyKeyword view)) := rfl

theorem findings_entriesEffect (view : List Tree) :
    (entriesEffect view).findings =
      (feedEntries view).flatMap fun entry => (entryEffect (inside entry view) entry).findings := by
  rw [entriesEffect, Effect.findings_all, List.flatMap_map]

theorem findings_feedEffect (explicit : Bool) (view : List Tree) (feed : Tree) :
    (feedEffect explicit view feed).findings =
      ((nestedFindings entryKeyword (marked "class" entryKeyword view) ++
          if explicit && (feedEntries view).isEmpty then [⟨.emptyFeed, feed.head.label⟩] else []) ++
        (keysEffect (besideEntries view)).findings) ++
        ((entriesEffect view).findings ++
          if explicit then strayFindings entryKeywords (leftover view) else []) := rfl

theorem mem_feedEntries {view : List Tree} {t : Tree} (h : t ∈ feedEntries view) : t ∈ view :=
  (mem_marked.1 (mem_tops.1 h).1).1

theorem mem_of_mem_feedKeys {view : List Tree} {t : Tree} (h : t ∈ feedKeys view) : t ∈ view :=
  (mem_uncovered.1 (mem_marked.1 (mem_tops.1 h).1).1).1

theorem claims_keysEffect {view : List Tree} {l : Nat} (hl : l ∈ (keysEffect view).claims) :
    ∃ t ∈ view, t.head.label = l := by
  simp only [keysEffect, Effect.claims_andThen, Effect.claims_claiming, Effect.claims_found,
    List.nil_append, List.mem_map] at hl
  obtain ⟨t, ht, rfl⟩ := hl
  exact ⟨t, (mem_marked.1 (mem_tops.1 ht).1).1, rfl⟩

theorem claims_entriesEffect {view : List Tree} {l : Nat} (hl : l ∈ (entriesEffect view).claims) :
    ∃ entry ∈ feedEntries view, ∃ t ∈ inside entry view, t.head.label = l := by
  simp only [entriesEffect, Effect.mem_claims_all, List.mem_map, exists_exists_and_eq_and] at hl
  obtain ⟨entry, hentry, hl⟩ := hl
  exact ⟨entry, hentry, claims_entryEffect hl⟩

theorem claims_feedEffect {explicit : Bool} {view : List Tree} {feed : Tree} {l : Nat}
    (hl : l ∈ (feedEffect explicit view feed).claims) : ∃ t ∈ view, t.head.label = l := by
  simp only [feedEffect, Effect.claims_andThen, Effect.claims_claiming, Effect.claims_found,
    List.nil_append, List.mem_append, List.mem_map] at hl
  rcases hl with hl | hl | ⟨t, ht, rfl⟩
  · obtain ⟨_, -, t, ht, rfl⟩ := claims_entriesEffect hl
    exact ⟨t, (mem_inside.1 ht).1, rfl⟩
  · obtain ⟨t, ht, rfl⟩ := claims_keysEffect hl
    exact ⟨t, (mem_uncovered.1 ht).1, rfl⟩
  · exact ⟨t, mem_feedEntries ht, rfl⟩

namespace Pass

theorem scanNodes_eq (p : Pass) (ts : List Tree) (keywords : List String) :
    p.scanNodes (ts.map (·.head)) keywords = p.add (strayFindings keywords ts) := by
  simp only [scanNodes, strayFindings, List.flatMap_map]

theorem gains_checkFeedKeys (p : Pass) {feed : Tree} (hd : feed.below.Distinct) :
    p.Gains (keysEffect (p.view feed)) (p.checkFeedKeys feed) := by
  have hkeys : p.checkFeedKeys feed =
      ((p.forget "title").collect feed "class" feedKeyKeyword).1.foldl
        (fun p key => p.checkKey .feed key.head)
        ((p.forget "title").collect feed "class" feedKeyKeyword).2 := rfl
  have hview : (p.forget "title").view feed = p.view feed := rfl
  have hcollect := gains_collect (p.forget "title") hd "class" feedKeyKeyword
  have hcheck := gains_checkKeys .feed (tops (marked "class" feedKeyKeyword (p.view feed)))
    ((p.forget "title").collect feed "class" feedKeyKeyword).2
  rw [collect_snd _ hd, seen_add, seen_search, forget, ValueCache.values_reset, if_pos rfl,
    ← forget, ← collect_snd _ hd] at hcheck
  rw [hkeys, collect_fst _ hd]
  exact ((p.gains_forget "title").of_refl hcollect).trans hcheck

/-- The pass when the entries of a feed have been found. -/
def foundEntries (explicit : Bool) (p : Pass) (feed : Tree) : Pass :=
  (p.collect feed "class" entryKeyword).2.add
    (if explicit && (feedEntries (p.view feed)).isEmpty then [⟨.emptyFeed, feed.head.label⟩]
    else [])

variable {feed : Tree} (hd : feed.below.Distinct)

include hd

theorem view_checkFeedKeys (p : Pass) :
    (p.checkFeedKeys feed).view feed =
      uncovered (p.view feed) (marked "class" feedKeyKeyword (p.view feed)) := by
  have hkeys : p.checkFeedKeys feed =
      ((p.forget "title").collect feed "class" feedKeyKeyword).1.foldl
        (fun p key => p.checkKey .feed key.head)
        ((p.forget "title").collect feed "class" feedKeyKeyword).2 := rfl
  rw [hkeys, (gains_checkKeys ..).view_eq hd (fun l hl => by simp at hl), collect_snd _ hd,
    view_add, view_search _ hd]
  rfl

theorem checkFeed_eq (explicit : Bool) (p : Pass) :
    p.checkFeed explicit feed =
      let q := (feedEntries (p.view feed)).foldl checkEntry
        ((foundEntries explicit p feed).checkFeedKeys feed)
      q.add (if explicit then strayFindings entryKeywords (q.view feed) else []) := by
  have hfeed : p.checkFeed explicit feed =
      let q := (p.collect feed "class" entryKeyword).1.foldl checkEntry
        (((p.collect feed "class" entryKeyword).2.noteIf
          (explicit && (p.collect feed "class" entryKeyword).1.isEmpty) .emptyFeed
          feed.head).checkFeedKeys feed)
      if explicit then q.scanNodes ((q.view feed).map (·.head)) entryKeywords else q := rfl
  rw [hfeed, collect_fst p hd, noteIf_eq_add]
  cases explicit
  · exact (add_nil _).symm
  · exact scanNodes_eq ..

theorem view_foundEntries (explicit : Bool) (p : Pass) :
    (foundEntries explicit p feed).view feed = besideEntries (p.view feed) := by
  rw [foundEntries, view_add, collect_snd p hd, view_add, view_search p hd]
  rfl

theorem gains_foundEntries (explicit : Bool) (p : Pass) :
    p.Gains (((Effect.claiming (feedEntries (p.view feed))).andThen
      (.found (nestedFindings entryKeyword (marked "class" entryKeyword (p.view feed))))).andThen
        (.found (if explicit && (feedEntries (p.view feed)).isEmpty then
          [⟨.emptyFeed, feed.head.label⟩] else [])))
      (foundEntries explicit p feed) :=
  (p.gains_collect hd ..).trans (gains_add ..)

/-- The keys of a feed lie outside its entries. -/
theorem view_entry_before (explicit : Bool) (p : Pass) {entry : Tree}
    (hentry : entry ∈ feedEntries (p.view feed)) :
    ((foundEntries explicit p feed).checkFeedKeys feed).view entry =
      inside entry (p.view feed) := by
  have hbelow := mem_below_of_mem_view (mem_feedEntries hentry)
  have hkeys := gains_checkFeedKeys (foundEntries explicit p feed) hd
  rw [view_foundEntries hd] at hkeys
  rw [hkeys.view_eq (hd.below hbelow), foundEntries, view_add, view_collect_found hd p hentry]
  intro l hl hle
  obtain ⟨t, ht, rfl⟩ := claims_keysEffect hl
  have ht' := mem_uncovered.1 ht
  refine ht'.2 entry (mem_tops.1 hentry).1 (Tree.mem_all.2 (.inr ?_))
  exact (hd.label_mem_below_iff (mem_below_of_mem_view ht'.1) hbelow).1 hle

theorem gains_entries (explicit : Bool) (p : Pass) :
    ((foundEntries explicit p feed).checkFeedKeys feed).Gains (entriesEffect (p.view feed))
      ((feedEntries (p.view feed)).foldl checkEntry
        ((foundEntries explicit p feed).checkFeedKeys feed)) :=
  gains_foldl checkEntry entryEffect hd (p.marked_view_sublist ..)
    (fun q _ hentry => gains_checkEntry hentry q) claims_entryEffect _
    fun _ hentry => view_entry_before hd explicit p hentry

/-- What entries claim is out of sight already. -/
theorem view_entries (explicit : Bool) (p : Pass) :
    ((feedEntries (p.view feed)).foldl checkEntry
      ((foundEntries explicit p feed).checkFeedKeys feed)).view feed = leftover (p.view feed) := by
  rw [(gains_entries hd explicit p).view_eq_of_covered hd, view_checkFeedKeys hd,
    view_foundEntries hd]
  · rfl
  · intro l hl
    obtain ⟨entry, hentry, t, ht, rfl⟩ := claims_entriesEffect hl
    refine ⟨entry, mem_below_of_mem_view (mem_feedEntries hentry), ?_,
      Forest.label_mem_labels (mem_inside.1 ht).2⟩
    rw [(gains_checkFeedKeys _ hd).isClaimed, (gains_foundEntries hd explicit p).isClaimed]
    exact .inr (.inl (List.mem_map.2 ⟨entry, hentry, rfl⟩))

/-- **The effect of checking a feed.** -/
theorem gains_checkFeed (explicit : Bool) (p : Pass) :
    p.Gains (feedEffect explicit (p.view feed) feed) (p.checkFeed explicit feed) := by
  rw [checkFeed_eq hd]
  dsimp only
  rw [view_entries hd]
  have hkeys := gains_checkFeedKeys (foundEntries explicit p feed) hd
  rw [view_foundEntries hd] at hkeys
  exact ((gains_foundEntries hd explicit p).trans hkeys).trans
    ((gains_entries hd explicit p).trans (gains_add ..))

theorem view_checkFeed (explicit : Bool) (p : Pass) :
    (p.checkFeed explicit feed).view feed = leftover (p.view feed) := by
  rw [checkFeed_eq hd]
  dsimp only
  rw [view_add, view_entries hd]

end Pass

/-! ## Pages -/

theorem Markup.Node.attributes_of_not_isElement {n : Node} (h : n.isElement = false) :
    n.attributes = [] := by
  unfold Node.isElement at h
  unfold Node.attributes
  split <;> simp_all

namespace Pass

theorem strays_eq_nil {keyword : String} {n : Node} (h : n.attributes = []) :
    strays keyword n = [] := by
  simp [strays, h]

/-- Nodes where no keyword is out of place may be left out. -/
theorem strayFindings_filter {keywords : List String} {P : Tree → Bool} {ts : List Tree}
    (h : ∀ t ∈ ts, P t = false → ∀ keyword ∈ keywords, strays keyword t.head = []) :
    strayFindings keywords (ts.filter P) = strayFindings keywords ts := by
  refine List.flatMap_congr fun keyword hk => ?_
  induction ts with
  | nil => rfl
  | cons t rest ih =>
    have hrest := ih fun s hs => h s (List.mem_cons_of_mem t hs)
    cases hP : P t
    · rw [List.filter_cons_of_neg (by simp [hP]), List.flatMap_cons,
        h t List.mem_cons_self hP keyword hk, hrest]
      rfl
    · rw [List.filter_cons_of_pos hP, List.flatMap_cons, List.flatMap_cons, hrest]

theorem strayFindings_elements (keywords : List String) (ts : List Tree) :
    strayFindings keywords (ts.filter (·.head.isElement)) = strayFindings keywords ts := by
  refine strayFindings_filter fun t _ h keyword _ => strays_eq_nil ?_
  exact Node.attributes_of_not_isElement h

variable (p : Pass)

theorem isHidden_cons (n : Node) (above : List Node) :
    p.isHidden (n :: above) = (p.isClaimed n.label || p.isHidden above) := rfl

/-- Below a hidden node every place is hidden. -/
theorem places_of_hidden (f : Forest) {above : List Node} (h : p.isHidden above) :
    ((f.places above).filter fun place => !p.isHidden place.lineage) = [] := by
  induction f generalizing above with
  | nil => rfl
  | node n below after ihb iha =>
    have hn : p.isHidden (n :: above) := by rw [isHidden_cons, h, Bool.or_true]
    rw [Forest.places, List.filter_cons_of_neg (by simp [Place.lineage, Place.node, hn]),
      List.filter_append, ihb hn, iha h, List.append_nil]

/-- Below nodes that are not hidden the places that are not hidden are the nodes in sight. -/
theorem places_of_not_hidden (f : Forest) {above : List Node} (h : p.isHidden above = false) :
    ((f.places above).filter fun place => !p.isHidden place.lineage).map (·.tree) =
      f.visible p.isClaimed := by
  induction f generalizing above with
  | nil => rfl
  | node n below after ihb iha =>
    rw [Forest.places, Forest.visible]
    by_cases hn : p.isClaimed n.label
    · have hidden : p.isHidden (n :: above) := by rw [isHidden_cons, hn, Bool.true_or]
      rw [if_pos hn, List.filter_cons_of_neg (by simp [Place.lineage, Place.node, hidden]),
        List.filter_append, places_of_hidden p below hidden, List.nil_append, iha h]
    · have hidden : p.isHidden (n :: above) = false := by
        rw [isHidden_cons, h, Bool.or_false]
        exact Bool.eq_false_iff.2 hn
      rw [if_neg hn, List.filter_cons_of_pos (by simp [Place.lineage, Place.node, hidden]),
        List.filter_append, List.map_cons, List.map_append, ihb hidden, iha h]

/-- What is scanned last is what is in sight below the root. -/
theorem checkRest_eq {d : Document} (hd : d.WellFormed) (hroot : d.root.head.label ∉ p.claimed)
    (keywords : List String) :
    p.checkRest d keywords = p.add (strayFindings keywords (p.view d.root)) := by
  have habove : p.isHidden [d.root.head] = false := by
    simpa [isHidden, isClaimed] using hroot
  have hfirst : (⟨d.root, []⟩ : Place).node.isElement = false := by
    simp [Place.node, Node.isElement, hd.content]
  have hnodes : ((d.places.filter fun place =>
      place.node.isElement && !p.isHidden place.lineage).map Place.node) =
      ((p.view d.root).filter (·.head.isElement)).map (·.head) := by
    rw [Document.places, List.filter_cons_of_neg (by simp [hfirst]), ← List.filter_filter, view,
      ← places_of_not_hidden p _ habove, List.filter_map, List.map_map]
    rfl
  have hrest : p.checkRest d keywords = p.scanNodes ((d.places.filter fun place =>
      place.node.isElement && !p.isHidden place.lineage).map Place.node) keywords := rfl
  rw [hrest, hnodes, scanNodes_eq, strayFindings_elements]

end Pass

namespace Markup.Document

/-- The feeds of a page: the outermost nodes that are marked as one. -/
def feeds (d : Document) : List Tree := tops (marked "class" feedKeyword d.root.below.trees)

/-- The nodes of a page that lie outside its feeds. -/
def besideFeeds (d : Document) : List Tree :=
  uncovered d.root.below.trees (marked "class" feedKeyword d.root.below.trees)

variable {d : Document}

theorem mem_of_mem_feeds {feed : Tree} (h : feed ∈ d.feeds) : feed ∈ d.root.below.trees :=
  (mem_marked.1 (mem_tops.1 h).1).1

theorem feeds_nodup (hd : d.WellFormed) : d.feeds.Nodup :=
  ((tops_sublist _).trans (marked_sublist ..)).nodup hd.distinct.trees_nodup

variable (hd : d.WellFormed)

include hd

omit hd in
theorem fresh_view (d : Document) : Pass.fresh.view d.root = d.root.below.trees :=
  Pass.view_of_clear (by simp [Pass.fresh])

theorem collect_feeds_fst : (Pass.fresh.collect d.root "class" feedKeyword).1 = d.feeds := by
  rw [Pass.collect_fst _ hd.distinct, fresh_view d]
  rfl

omit hd in
/-- The pass when the feeds of a page have been found. -/
def foundFeeds (d : Document) : Pass := (Pass.fresh.collect d.root "class" feedKeyword).2

theorem gains_foundFeeds :
    Pass.fresh.Gains ((Effect.claiming d.feeds).andThen
      (.found (nestedFindings feedKeyword (marked "class" feedKeyword d.root.below.trees))))
      d.foundFeeds := by
  have h := Pass.gains_collect Pass.fresh hd.distinct "class" feedKeyword
  rwa [fresh_view] at h

/-- When the feeds of a page have been found, all that is below one of them is in sight of it. -/
theorem view_feed {feed : Tree} (hfeed : feed ∈ d.feeds) :
    d.foundFeeds.view feed = feed.below.trees := by
  rw [foundFeeds, Pass.view_collect_found hd.distinct _ (by rwa [fresh_view d]), fresh_view d,
    hd.distinct.inside_trees (mem_of_mem_feeds hfeed)]

theorem gains_feeds :
    d.foundFeeds.Gains (.all (d.feeds.map fun feed => feedEffect true feed.below.trees feed))
      (d.feeds.foldl (Pass.checkFeed true) d.foundFeeds) :=
  Pass.gains_foldl (Pass.checkFeed true) (feedEffect true) hd.distinct (marked_sublist ..)
    (fun p _ hfeed => Pass.gains_checkFeed hfeed true p) claims_feedEffect _
    fun _ hfeed => view_feed hd hfeed

omit hd in
theorem claims_feeds {l : Nat} (hl : l ∈ (Effect.all (d.feeds.map fun feed =>
    feedEffect true feed.below.trees feed)).claims) :
    ∃ feed ∈ d.feeds, ∃ t ∈ feed.below.trees, t.head.label = l := by
  simp only [Effect.mem_claims_all, List.mem_map, exists_exists_and_eq_and] at hl
  obtain ⟨feed, hfeed, hl⟩ := hl
  exact ⟨feed, hfeed, claims_feedEffect hl⟩

theorem view_root_feeds :
    (d.feeds.foldl (Pass.checkFeed true) d.foundFeeds).view d.root = d.besideFeeds := by
  rw [(gains_feeds hd).view_eq_of_covered hd.distinct, foundFeeds, Pass.collect_snd _ hd.distinct,
    Pass.view_add, Pass.view_search _ hd.distinct, fresh_view]
  · rfl
  · intro l hl
    obtain ⟨feed, hfeed, t, ht, rfl⟩ := claims_feeds hl
    refine ⟨feed, mem_of_mem_feeds hfeed, ?_, Forest.label_mem_labels ht⟩
    rw [(gains_foundFeeds hd).isClaimed]
    exact .inl (List.mem_map.2 ⟨feed, hfeed, rfl⟩)

/-- The root of a document is never claimed. -/
theorem root_not_claimed {p q : Pass} {e : Effect} (h : p.Gains e q)
    (hp : d.root.head.label ∉ p.claimed)
    (he : ∀ l ∈ e.claims, ∃ t ∈ d.root.below.trees, t.head.label = l) :
    d.root.head.label ∉ q.claimed := by
  rw [h.claimed, List.mem_append, not_or]
  refine ⟨fun hl => ?_, hp⟩
  obtain ⟨t, ht, htl⟩ := he _ hl
  exact hd.label (htl ▸ Forest.label_mem_labels ht)

theorem root_not_claimed_foundFeeds : d.root.head.label ∉ d.foundFeeds.claimed := by
  refine root_not_claimed hd (gains_foundFeeds hd) (by simp [Pass.fresh]) fun l hl => ?_
  obtain ⟨t, ht, rfl⟩ := List.mem_map.1 hl
  exact ⟨t, mem_of_mem_feeds ht, rfl⟩

theorem findings_eq_checkRest : d.findings =
    (if d.feeds = [] then (d.foundFeeds.checkFeed false d.root).checkRest d entryKeywords
    else (d.feeds.foldl (Pass.checkFeed true) d.foundFeeds).checkRest d allKeywords).findings := by
  have h : d.findings =
      (if (Pass.fresh.collect d.root "class" feedKeyword).1.isEmpty then
        (d.foundFeeds.checkFeed false d.root).checkRest d entryKeywords
      else ((Pass.fresh.collect d.root "class" feedKeyword).1.foldl (Pass.checkFeed true)
        d.foundFeeds).checkRest d allKeywords).findings := rfl
  rw [h, collect_feeds_fst hd]
  simp only [List.isEmpty_iff]

/-- The search for feeds hides nothing when there are none. -/
theorem view_root_of_no_feed (hfeeds : d.feeds = []) :
    d.foundFeeds.view d.root = d.root.below.trees := by
  refine Pass.view_of_clear fun l _ => ?_
  rw [(gains_foundFeeds hd).claimed, hfeeds]
  simp [Pass.fresh]

/-- Without feeds the page is a feed of which nothing is claimed. -/
theorem findings_of_no_feed (hfeeds : d.feeds = []) : d.findings =
    nestedFindings feedKeyword (marked "class" feedKeyword d.root.below.trees) ++
      ((feedEffect false d.root.below.trees d.root).findings ++
        strayFindings entryKeywords (leftover d.root.below.trees)) := by
  have hview := view_root_of_no_feed hd hfeeds
  have hgains := Pass.gains_checkFeed hd.distinct false d.foundFeeds
  rw [hview] at hgains
  have hroot := root_not_claimed hd hgains (root_not_claimed_foundFeeds hd)
    fun l hl => claims_feedEffect hl
  rw [findings_eq_checkRest hd, if_pos hfeeds, Pass.checkRest_eq _ hd hroot,
    Pass.view_checkFeed hd.distinct, hview]
  change _ ++ _ = _
  rw [hgains.findings, (gains_foundFeeds hd).findings, List.append_assoc]
  rfl

theorem findings_of_feeds (hfeeds : d.feeds ≠ []) : d.findings =
    nestedFindings feedKeyword (marked "class" feedKeyword d.root.below.trees) ++
      ((d.feeds.flatMap fun feed => (feedEffect true feed.below.trees feed).findings) ++
        strayFindings allKeywords d.besideFeeds) := by
  have hgains := gains_feeds hd
  have hroot := root_not_claimed hd hgains (root_not_claimed_foundFeeds hd) fun l hl => by
    obtain ⟨feed, hfeed, t, ht, rfl⟩ := claims_feeds hl
    exact ⟨t, Forest.mem_trees_trans (mem_of_mem_feeds hfeed) ht, rfl⟩
  rw [findings_eq_checkRest hd, if_neg hfeeds, Pass.checkRest_eq _ hd hroot, view_root_feeds hd]
  change _ ++ _ = _
  rw [hgains.findings, (gains_foundFeeds hd).findings, Effect.findings_all, List.flatMap_map,
    List.append_assoc]
  rfl

/-- **The findings of a page as a function of its tree**: what is wrong with the nesting of feeds,
what is wrong in each feed or in the whole page when there is none, and the keywords that are
left. -/
theorem findings_eq : d.findings =
    nestedFindings feedKeyword (marked "class" feedKeyword d.root.below.trees) ++
      if d.feeds = [] then
        (feedEffect false d.root.below.trees d.root).findings ++
          strayFindings entryKeywords (leftover d.root.below.trees)
      else
        (d.feeds.flatMap fun feed => (feedEffect true feed.below.trees feed).findings) ++
          strayFindings allKeywords d.besideFeeds := by
  split
  · next h => exact findings_of_no_feed hd h
  · next h => exact findings_of_feeds hd h

end Markup.Document

end HAtom
