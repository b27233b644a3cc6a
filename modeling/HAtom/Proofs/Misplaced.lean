import HAtom.Proofs.EntryFindings
import HAtom.Session

/-!
# Keywords out of place

Which keywords a pass reports as misplaced. An `Occurrence` is a keyword as a word of an attribute
of a node. The scans inside feeds report the occurrences where `Markup.Document.StrayInFeed` holds,
the last scan those where `Markup.Document.StrayOnPage` holds.

* `Markup.Document.strays_reported_once`: the reports are the occurrences out of place, each once,
  and none at or below an entry that is checked.
* `Markup.Document.stray_property_reported`: what only belongs inside an entry is reported outside
  of all entries, except on an outermost feed and in the keys of a feed
  (`Markup.Document.feed_property_unreported`).
-/

namespace HAtom

open Markup

/-! ## Occurrences of keywords -/

/-- A keyword as a word of an attribute of a node. -/
structure Occurrence where
  tree : Tree
  /-- Which attribute of the node it is, in document order. -/
  index : Nat
  attr : Attribute
  keyword : String

namespace Occurrence

/-- The node has the attribute there, and the keyword is a word of its value. -/
structure Valid (o : Occurrence) : Prop where
  attr : o.tree.head.attributes[o.index]? = some o.attr
  word : Text.hasWord o.attr.value o.keyword

/-- The finding that the keyword is misplaced. -/
def finding (o : Occurrence) : Finding :=
  ⟨.misplaced o.keyword o.attr.name o.attr.value, o.tree.head.label⟩

end Occurrence

/-- The occurrences of a keyword on a node. -/
def occurrencesAt (keyword : String) (t : Tree) : List Occurrence :=
  (t.head.attributes.zipIdx.filter fun a => Text.hasWord a.1.value keyword).map fun a =>
    ⟨t, a.2, a.1, keyword⟩

/-- The occurrences of some keywords on some nodes, keyword by keyword. -/
def occurrences (keywords : List String) (ts : List Tree) : List Occurrence :=
  keywords.flatMap fun keyword => ts.flatMap (occurrencesAt keyword)

theorem mem_occurrencesAt {keyword : String} {t : Tree} {o : Occurrence} :
    o ∈ occurrencesAt keyword t ↔ o.Valid ∧ o.tree = t ∧ o.keyword = keyword := by
  simp only [occurrencesAt, List.mem_map, List.mem_filter, List.mem_zipIdx_iff_getElem?]
  constructor
  · rintro ⟨a, ⟨ha, hw⟩, rfl⟩
    exact ⟨⟨ha, hw⟩, rfl, rfl⟩
  · rintro ⟨⟨ha, hw⟩, rfl, rfl⟩
    exact ⟨(o.attr, o.index), ⟨ha, hw⟩, rfl⟩

theorem mem_occurrences {keywords : List String} {ts : List Tree} {o : Occurrence} :
    o ∈ occurrences keywords ts ↔ o.Valid ∧ o.tree ∈ ts ∧ o.keyword ∈ keywords := by
  simp only [occurrences, List.mem_flatMap, mem_occurrencesAt]
  constructor
  · rintro ⟨k, hk, t, ht, hv, rfl, rfl⟩
    exact ⟨hv, ht, hk⟩
  · rintro ⟨hv, ht, hk⟩
    exact ⟨o.keyword, hk, o.tree, ht, hv, rfl, rfl⟩

theorem occurrencesAt_nodup (keyword : String) (t : Tree) : (occurrencesAt keyword t).Nodup := by
  have h : (t.head.attributes.zipIdx.map Prod.snd).Nodup := by
    rw [List.zipIdx_map_snd]
    exact List.nodup_range'
  refine ((List.Nodup.of_map _ h).filter _).map fun a b hab => ?_
  exact Prod.ext (Occurrence.mk.inj hab).2.2.1 (Occurrence.mk.inj hab).2.1

theorem occurrences_nodup {keywords : List String} {ts : List Tree} (hk : keywords.Nodup)
    (ht : ts.Nodup) : (occurrences keywords ts).Nodup := by
  refine List.nodup_flatMap.2 ⟨fun k _ => List.nodup_flatMap.2
    ⟨fun t _ => occurrencesAt_nodup k t, ?_⟩, ?_⟩
  · refine ht.imp fun hst o hs ht => hst ?_
    rw [← (mem_occurrencesAt.1 hs).2.1, (mem_occurrencesAt.1 ht).2.1]
  · refine hk.imp fun hkl o hk hl => hkl ?_
    obtain ⟨_, _, hk⟩ := List.mem_flatMap.1 hk
    obtain ⟨_, _, hl⟩ := List.mem_flatMap.1 hl
    rw [← (mem_occurrencesAt.1 hk).2.2, (mem_occurrencesAt.1 hl).2.2]

theorem strays_eq_map (keyword : String) (t : Tree) :
    Pass.strays keyword t.head = (occurrencesAt keyword t).map Occurrence.finding := by
  have h := congrArg (List.filter fun a => Text.hasWord a.value keyword)
    (List.zipIdx_map_fst 0 t.head.attributes)
  rw [Pass.strays, ← h, List.filter_map, List.map_map, occurrencesAt, List.map_map]
  rfl

theorem strayFindings_eq_map (keywords : List String) (ts : List Tree) :
    strayFindings keywords ts = (occurrences keywords ts).map Occurrence.finding := by
  simp only [strayFindings, occurrences, strays_eq_map, List.map_flatMap]

/-- Whether a problem is a keyword out of place. -/
def Problem.isMisplaced : Problem → Bool
  | .misplaced _ _ _ => true
  | _ => false

/-- The findings of keywords out of place. -/
def misplaced (fs : List Finding) : List Finding := fs.filter (·.problem.isMisplaced)

@[simp] theorem misplaced_append (fs gs : List Finding) :
    misplaced (fs ++ gs) = misplaced fs ++ misplaced gs := List.filter_append ..

theorem misplaced_flatMap {α : Type} (l : List α) (g : α → List Finding) :
    misplaced (l.flatMap g) = l.flatMap fun a => misplaced (g a) := List.filter_flatMap ..

theorem misplaced_eq_nil {fs : List Finding} (h : ∀ f ∈ fs, f.problem.isMisplaced = false) :
    misplaced fs = [] :=
  List.filter_eq_nil_iff.2 fun f hf => by simp [h f hf]

theorem misplaced_strayFindings (keywords : List String) (ts : List Tree) :
    misplaced (strayFindings keywords ts) = strayFindings keywords ts := by
  rw [strayFindings_eq_map]
  refine List.filter_eq_self.2 fun f hf => ?_
  obtain ⟨o, -, rfl⟩ := List.mem_map.1 hf
  rfl

/-! ## Rules of feeds and entries find nothing misplaced -/

@[simp] theorem misplaced_nestedFindings (keyword : String) (ts : List Tree) :
    misplaced (nestedFindings keyword ts) = [] :=
  misplaced_eq_nil fun f hf => by
    rw [(mem_nestedFindings hf).1]
    rfl

theorem Problem.not_isMisplaced_of_inFeed {problem : Problem} (h : problem.inFeed) :
    problem.isMisplaced = false := by
  cases problem with
  | misplaced keyword name value => exact absurd h Bool.false_ne_true
  | _ => rfl

/-- In a feed only the scan for keywords finds them misplaced. -/
theorem misplaced_feedEffect (explicit : Bool) (view : List Tree) (feed : Tree) :
    misplaced (feedEffect explicit view feed).findings =
      if explicit then strayFindings entryKeywords (leftover view) else [] := by
  have hfilter := filter_feedEffect (fun _ => Problem.not_isMisplaced_of_inFeed) explicit view feed
  rw [← misplaced, ← misplaced, ← misplaced, misplaced_nestedFindings, List.nil_append,
    misplaced_strayFindings] at hfilter
  exact hfilter

/-! ## What is left of a feed -/

/-- What is left of a feed lies neither at nor below its entries and keys. -/
theorem mem_leftover {view : List Tree} {t : Tree} :
    t ∈ leftover view ↔ t ∈ view ∧ (∀ e ∈ feedEntries view, t ∉ e.all) ∧
      ∀ c ∈ feedKeys view, t ∉ c.all := by
  rw [leftover, ← uncovered_tops, mem_uncovered, besideEntries, ← uncovered_tops, mem_uncovered,
    and_assoc, uncovered_tops]
  rfl

theorem leftover_sublist (view : List Tree) : (leftover view).Sublist view :=
  (uncovered_sublist ..).trans (uncovered_sublist ..)

/-- A keyword that a node carries occurs in one of its attributes. -/
theorem Markup.Node.exists_of_carries {n : Node} {name keyword : String}
    (h : n.carries name keyword) :
    ∃ (i : Nat) (a : Attribute), n.attributes[i]? = some a ∧ Text.hasWord a.value keyword := by
  unfold Node.carries Node.attribute? at h
  cases ha : n.attributes.find? fun a => a.space.isNone && a.name == name with
  | none => simp [ha] at h
  | some a =>
    obtain ⟨i, hi⟩ := List.getElem?_of_mem (List.mem_of_find?_eq_some ha)
    exact ⟨i, a, hi, by simpa [ha] using h⟩

namespace Markup.Document

/-- The keyword does not belong at a node of a feed: the node lies inside a feed, but neither at nor
below an entry or a key of that feed, and the keyword belongs inside entries. -/
def StrayInFeed (d : Document) (t : Tree) (keyword : String) : Prop :=
  ∃ feed ∈ d.feeds, t ∈ feed.below.trees ∧ (∀ e ∈ feedEntries feed.below.trees, t ∉ e.all) ∧
    (∀ c ∈ feedKeys feed.below.trees, t ∉ c.all) ∧ keyword ∈ entryKeywords

/-- The keyword does not belong at a node of the page: the node lies outside of all feeds, or, when
there is no feed, outside of all entries and feed keys and the keyword belongs inside entries. -/
def StrayOnPage (d : Document) (t : Tree) (keyword : String) : Prop :=
  t ∈ d.root.below.trees ∧
    if d.feeds = [] then
      (∀ e ∈ feedEntries d.root.below.trees, t ∉ e.all) ∧
        (∀ c ∈ feedKeys d.root.below.trees, t ∉ c.all) ∧ keyword ∈ entryKeywords
    else
      (∀ feed ∈ d.root.below.trees, feed.head.carries "class" feedKeyword → t ∉ feed.all) ∧
        keyword ∈ allKeywords

/-- The entries that a pass over the page checks. -/
def entries (d : Document) : List Tree :=
  if d.feeds = [] then feedEntries d.root.below.trees
  else d.feeds.flatMap fun feed => feedEntries feed.below.trees

/-- The feed keys that a pass over the page checks. -/
def keys (d : Document) : List Tree :=
  if d.feeds = [] then feedKeys d.root.below.trees
  else d.feeds.flatMap fun feed => feedKeys feed.below.trees

/-- The occurrences that the scans inside the feeds report. -/
def straysInFeeds (d : Document) : List Occurrence :=
  d.feeds.flatMap fun feed => occurrences entryKeywords (leftover feed.below.trees)

/-- The occurrences that the last scan reports. -/
def straysOnPage (d : Document) : List Occurrence :=
  if d.feeds = [] then occurrences entryKeywords (leftover d.root.below.trees)
  else occurrences allKeywords d.besideFeeds

variable {d : Document}

theorem mem_straysInFeeds {o : Occurrence} :
    o ∈ d.straysInFeeds ↔ o.Valid ∧ d.StrayInFeed o.tree o.keyword := by
  simp only [straysInFeeds, List.mem_flatMap, mem_occurrences, mem_leftover, StrayInFeed]
  constructor
  · rintro ⟨feed, hfeed, hv, ⟨ht, he, hc⟩, hk⟩
    exact ⟨hv, feed, hfeed, ht, he, hc, hk⟩
  · rintro ⟨hv, feed, hfeed, ht, he, hc, hk⟩
    exact ⟨feed, hfeed, hv, ⟨ht, he, hc⟩, hk⟩

theorem mem_straysOnPage {o : Occurrence} :
    o ∈ d.straysOnPage ↔ o.Valid ∧ d.StrayOnPage o.tree o.keyword := by
  unfold straysOnPage StrayOnPage
  split
  · rw [mem_occurrences, mem_leftover, and_assoc, and_assoc]
  · simp only [mem_occurrences, besideFeeds, mem_uncovered, mem_marked, and_imp, and_assoc]

/-- A node inside one feed is inside no other. -/
theorem feed_unique (hd : d.WellFormed) {feed other t : Tree} (hfeed : feed ∈ d.feeds)
    (hother : other ∈ d.feeds) (ht : t ∈ feed.below.trees) (ht' : t ∈ other.below.trees) :
    feed = other := by
  by_contra hne
  exact hd.distinct.apart (mem_of_mem_feeds hfeed) (mem_of_mem_feeds hother) hne
    (not_mem_below_of_mem_tops _ hfeed _ hother) (not_mem_below_of_mem_tops _ hother _ hfeed) _
    (Forest.label_mem_labels ht) (Forest.label_mem_labels ht')

theorem misplaced_findings (hd : d.WellFormed) :
    misplaced d.findings = (d.straysInFeeds ++ d.straysOnPage).map Occurrence.finding := by
  rw [d.findings_eq hd, misplaced_append, misplaced_nestedFindings, List.nil_append,
    straysInFeeds, straysOnPage]
  split
  · next h =>
    rw [misplaced_append, misplaced_feedEffect, misplaced_strayFindings, strayFindings_eq_map, h]
    rfl
  · simp only [misplaced_append, misplaced_flatMap, misplaced_feedEffect, misplaced_strayFindings,
      if_true]
    simp only [strayFindings_eq_map, List.map_append, List.map_flatMap]

theorem strays_nodup (hd : d.WellFormed) : (d.straysInFeeds ++ d.straysOnPage).Nodup := by
  have hleft : ∀ feed ∈ d.feeds, (leftover feed.below.trees).Nodup := fun feed h =>
    (leftover_sublist _).nodup (hd.distinct.below (mem_of_mem_feeds h)).trees_nodup
  have hpage : d.straysOnPage.Nodup := by
    unfold straysOnPage
    split
    · exact occurrences_nodup (by decide) ((leftover_sublist _).nodup hd.distinct.trees_nodup)
    · exact occurrences_nodup (by decide)
        ((uncovered_sublist ..).nodup hd.distinct.trees_nodup)
  refine List.nodup_append.2 ⟨List.nodup_flatMap.2
    ⟨fun feed h => occurrences_nodup (by decide) (hleft feed h), ?_⟩, hpage, ?_⟩
  · refine (feeds_nodup hd).imp_of_mem fun {feed other} hf ho hne o hof hoo => hne ?_
    exact feed_unique hd hf ho ((leftover_sublist _).subset (mem_occurrences.1 hof).2.1)
      ((leftover_sublist _).subset (mem_occurrences.1 hoo).2.1)
  · -- a node inside a feed is not outside of all feeds
    rintro o ho _ ho' rfl
    obtain ⟨-, feed, hfeed, ht, -⟩ := mem_straysInFeeds.1 ho
    obtain ⟨-, -, hcond⟩ := mem_straysOnPage.1 ho'
    rw [if_neg (List.ne_nil_of_mem hfeed)] at hcond
    exact hcond.1 feed (mem_of_mem_feeds hfeed) (mem_marked.1 (mem_tops.1 hfeed).1).2
      (Tree.mem_all.2 (.inr ht))

/-- A node where a keyword is out of place is a node of the page. -/
theorem mem_of_stray {t : Tree} {keyword : String}
    (h : d.StrayInFeed t keyword ∨ d.StrayOnPage t keyword) : t ∈ d.root.below.trees := by
  rcases h with ⟨feed, hfeed, ht, -⟩ | ⟨ht, -⟩
  · exact Forest.mem_trees_trans (mem_of_mem_feeds hfeed) ht
  · exact ht

theorem mem_of_mem_entry {e t : Tree} (he : e ∈ d.entries) (ht : t ∈ e.all) :
    t ∈ d.root.below.trees := by
  refine Forest.mem_trees_of_mem_all ?_ ht
  unfold entries at he
  split at he
  · exact mem_feedEntries he
  · obtain ⟨feed, hfeed, he⟩ := List.mem_flatMap.1 he
    exact Forest.mem_trees_trans (mem_of_mem_feeds hfeed) (mem_feedEntries he)

/-- What is reported as misplaced is an occurrence out of place. -/
theorem mem_misplaced (hd : d.WellFormed) {f : Finding} (hf : f ∈ misplaced d.findings) :
    ∃ o : Occurrence, (o.Valid ∧ (d.StrayInFeed o.tree o.keyword ∨
      d.StrayOnPage o.tree o.keyword)) ∧ o.finding = f := by
  rw [misplaced_findings hd, List.mem_map] at hf
  obtain ⟨o, ho, rfl⟩ := hf
  refine ⟨o, ?_, rfl⟩
  rcases List.mem_append.1 ho with ho | ho
  · exact (mem_straysInFeeds.1 ho).imp_right .inl
  · exact (mem_straysOnPage.1 ho).imp_right .inr

/-- An occurrence out of place is reported as misplaced. -/
theorem finding_mem_misplaced (hd : d.WellFormed) {o : Occurrence} (hv : o.Valid)
    (h : d.StrayInFeed o.tree o.keyword ∨ d.StrayOnPage o.tree o.keyword) :
    o.finding ∈ misplaced d.findings := by
  rw [misplaced_findings hd]
  refine List.mem_map_of_mem (List.mem_append.2 ?_)
  exact h.imp (fun h => mem_straysInFeeds.2 ⟨hv, h⟩) fun h => mem_straysOnPage.2 ⟨hv, h⟩

/-- What is at or below an entry that is checked is not out of place. -/
theorem not_stray_of_entry (hd : d.WellFormed) {e t : Tree} (he : e ∈ d.entries) (ht : t ∈ e.all)
    (keyword : String) : ¬(d.StrayInFeed t keyword ∨ d.StrayOnPage t keyword) := by
  unfold entries at he
  split at he
  · next h =>
    rintro (⟨feed, hfeed, -⟩ | ⟨-, hcond⟩)
    · simp [h] at hfeed
    · rw [if_pos h] at hcond
      exact hcond.1 e he ht
  · next h =>
    obtain ⟨feed, hfeed, he⟩ := List.mem_flatMap.1 he
    have htf : t ∈ feed.below.trees := Tree.mem_below_of_mem_all (mem_feedEntries he) ht
    rintro (⟨other, hother, hto, hentry, -⟩ | ⟨-, hcond⟩)
    · obtain rfl := feed_unique hd hfeed hother htf hto
      exact hentry e he ht
    · rw [if_neg h] at hcond
      exact hcond.1 feed (mem_of_mem_feeds hfeed) (mem_marked.1 (mem_tops.1 hfeed).1).2
        (Tree.mem_all.2 (.inr htf))

/-! ## Every stray keyword is reported, once -/

/-- **The reports of misplaced keywords are the occurrences out of place, each once**: first those
in the feeds, then those in the rest of the page. Nothing at or below an entry is among them. -/
theorem strays_reported_once {text : String} (h : Document.parse text = .ok d) :
    misplaced d.findings = (d.straysInFeeds ++ d.straysOnPage).map Occurrence.finding ∧
      (d.straysInFeeds ++ d.straysOnPage).Nodup ∧
      (∀ o, o ∈ d.straysInFeeds ↔ o.Valid ∧ d.StrayInFeed o.tree o.keyword) ∧
      (∀ o, o ∈ d.straysOnPage ↔ o.Valid ∧ d.StrayOnPage o.tree o.keyword) ∧
      ∀ e ∈ d.entries, ∀ t ∈ e.all, ∀ f ∈ misplaced d.findings, f.label ≠ t.head.label := by
  have hd := Document.wellFormed_of_parse h
  refine ⟨misplaced_findings hd, strays_nodup hd, fun _ => mem_straysInFeeds,
    fun _ => mem_straysOnPage, fun e he t ht f hf hft => ?_⟩
  obtain ⟨o, ho, rfl⟩ := mem_misplaced hd hf
  obtain rfl := hd.distinct.eq_of_label_eq (mem_of_stray ho.2) (mem_of_mem_entry he ht) hft
  exact not_stray_of_entry hd he ht o.keyword ho.2

set_option maxRecDepth 100000 in
/-- A title outside of the entry of a feed, and a word for a feed outside of it. -/
theorem strays_reported_once_beside_feed :
    ∃ d, Document.parse "<p class='feed-key'><b class='hfeed'><i class='entry-title'/></b></p>" =
        .ok d ∧
      misplaced d.findings = (d.straysInFeeds ++ d.straysOnPage).map Occurrence.finding ∧
      (d.straysInFeeds ++ d.straysOnPage).Nodup ∧
      d.straysInFeeds.length = 1 ∧ d.straysOnPage.length = 1 := by
  obtain ⟨d, h, hlength⟩ := Document.exists_of_parse
    "<p class='feed-key'><b class='hfeed'><i class='entry-title'/></b></p>"
    (fun d => d.straysInFeeds.length = 1 ∧ d.straysOnPage.length = 1) (by decide +kernel)
  obtain ⟨hmap, hnodup, -⟩ := strays_reported_once h
  exact ⟨d, h, hmap, hnodup, hlength⟩

/-! ## Properties outside of entries -/

/-- An outermost feed and what is at or below a key of a feed are nowhere out of place. -/
theorem not_stray_of_feed_or_key (hd : d.WellFormed) {t : Tree} {keyword : String}
    (h : d.StrayInFeed t keyword ∨ d.StrayOnPage t keyword) :
    t ∉ d.feeds ∧ ∀ c ∈ d.keys, t ∉ c.all := by
  unfold keys
  rcases h with ⟨feed, hfeed, ht, -, hkeys, -⟩ | ⟨ht, hcond⟩
  · refine ⟨fun h => not_mem_below_of_mem_tops feed hfeed t h ht, fun c hc htc => ?_⟩
    rw [if_neg (List.ne_nil_of_mem hfeed)] at hc
    obtain ⟨other, hother, hc⟩ := List.mem_flatMap.1 hc
    have hto := Tree.mem_below_of_mem_all (mem_of_mem_feedKeys hc) htc
    obtain rfl := feed_unique hd hfeed hother ht hto
    exact hkeys c hc htc
  · split at hcond
    · next hnone =>
      rw [if_pos hnone, hnone]
      exact ⟨List.not_mem_nil, hcond.2.1⟩
    · next hsome =>
      have hcarries : ∀ feed ∈ d.feeds, feed.head.carries "class" feedKeyword :=
        fun feed h => (mem_marked.1 (mem_tops.1 h).1).2
      refine ⟨fun h => hcond.1 t ht (hcarries t h) (by simp), fun c hc htc => ?_⟩
      rw [if_neg hsome] at hc
      obtain ⟨feed, hfeed, hc⟩ := List.mem_flatMap.1 hc
      exact hcond.1 feed (mem_of_mem_feeds hfeed) (hcarries feed hfeed)
        (Tree.mem_all.2 (.inr (Tree.mem_below_of_mem_all (mem_of_mem_feedKeys hc) htc)))

/-- Outside of all entries, feed keys and outermost feeds no keyword of a property is in place. -/
theorem stray_of_outside {t : Tree} (ht : t ∈ d.root.below.trees) {keyword : String}
    (hk : keyword ∈ entryKeywords)
    (hentry : ∀ e ∈ d.root.below.trees, e.head.carries "class" entryKeyword → t ∉ e.all)
    (hfeed : t ∉ d.feeds) (hkeys : ∀ c ∈ d.keys, t ∉ c.all) :
    d.StrayInFeed t keyword ∨ d.StrayOnPage t keyword := by
  have hentries : ∀ ts : List Tree, (∀ e ∈ ts, e ∈ d.root.below.trees) →
      ∀ e ∈ feedEntries ts, t ∉ e.all := fun ts hts e he =>
    hentry e (hts e (mem_feedEntries he)) (mem_marked.1 (mem_tops.1 he).1).2
  unfold keys at hkeys
  by_cases hnone : d.feeds = []
  · rw [if_pos hnone] at hkeys
    exact .inr ⟨ht, by rw [if_pos hnone]; exact ⟨hentries _ fun _ h => h, hkeys, hk⟩⟩
  rw [if_neg hnone] at hkeys
  by_cases hin : ∃ feed ∈ marked "class" feedKeyword d.root.below.trees, t ∈ feed.all
  · -- the outermost feed above the node is another node
    obtain ⟨other, hother, hto⟩ := hin
    obtain ⟨feed, hf, hof⟩ := exists_mem_tops hother
    rcases Tree.mem_all.1 (Tree.mem_all_trans hof hto) with rfl | htf
    · exact absurd hf hfeed
    · exact .inl ⟨feed, hf, htf, hentries _ fun _ h => Forest.mem_trees_trans
        (mem_of_mem_feeds hf) h, fun c hc => hkeys c (List.mem_flatMap.2 ⟨feed, hf, hc⟩), hk⟩
  · refine .inr ⟨ht, ?_⟩
    rw [if_neg hnone]
    exact ⟨fun feed hf hc htf => hin ⟨feed, mem_marked.2 ⟨hf, hc⟩, htf⟩,
      List.mem_append_left _ hk⟩

/-- **A property outside of all entries is reported as misplaced**, except on an outermost feed and
in the keys of a feed, where nothing is. -/
theorem stray_property_reported {text : String} (h : Document.parse text = .ok d) {t : Tree}
    (ht : t ∈ d.root.below.trees) {keyword : String} (hk : keyword ∈ entryKeywords)
    (hcarries : t.head.carries (attributeOf keyword) keyword)
    (hentry : ∀ e ∈ d.root.below.trees, e.head.carries "class" entryKeyword → t ∉ e.all) :
    (∃ f ∈ misplaced d.findings, f.label = t.head.label) ↔
      t ∉ d.feeds ∧ ∀ c ∈ d.keys, t ∉ c.all := by
  have hd := Document.wellFormed_of_parse h
  constructor
  · rintro ⟨f, hf, hft⟩
    obtain ⟨o, ho, rfl⟩ := mem_misplaced hd hf
    obtain rfl := hd.distinct.eq_of_label_eq (mem_of_stray ho.2) ht hft
    exact not_stray_of_feed_or_key hd ho.2
  · rintro ⟨hfeed, hkeys⟩
    obtain ⟨i, a, ha, hword⟩ := Node.exists_of_carries hcarries
    exact ⟨_, finding_mem_misplaced (o := ⟨t, i, a, keyword⟩) hd ⟨ha, hword⟩
      (stray_of_outside ht hk hentry hfeed hkeys), rfl⟩

set_option maxRecDepth 100000 in
/-- A date in a page without entries. -/
theorem stray_property_reported_on_page :
    ∃ d t, Document.parse "<p><b class='updated'/></p>" = .ok d ∧ t ∈ d.root.below.trees ∧
      "updated" ∈ entryKeywords ∧ t.head.carries (attributeOf "updated") "updated" ∧
      (∀ e ∈ d.root.below.trees, e.head.carries "class" entryKeyword → t ∉ e.all) ∧
      (t ∉ d.feeds ∧ ∀ c ∈ d.keys, t ∉ c.all) ∧
      ∃ f ∈ misplaced d.findings, f.label = t.head.label := by
  obtain ⟨d, h, t, ht, hcarries, hentry, houtside⟩ := Document.exists_of_parse
    "<p><b class='updated'/></p>"
    (fun d => ∃ t ∈ d.root.below.trees, t.head.carries (attributeOf "updated") "updated" ∧
      (∀ e ∈ d.root.below.trees, e.head.carries "class" entryKeyword → t ∉ e.all) ∧
      (t ∉ d.feeds ∧ ∀ c ∈ d.keys, t ∉ c.all)) (by decide +kernel)
  exact ⟨d, t, h, ht, by decide, hcarries, hentry, houtside,
    (stray_property_reported h ht (by decide) hcarries hentry).2 houtside⟩

set_option maxRecDepth 100000 in
/-- On a feed and on its key a property outside of all entries is not reported. -/
theorem feed_property_unreported :
    ∃ d, Document.parse "<p class='hfeed updated'><b class='feed-key updated' title='k'/></p>" =
        .ok d ∧ d.root.below.trees.length = 2 ∧
      (∀ t ∈ d.root.below.trees, t.head.carries (attributeOf "updated") "updated" ∧
        ∀ e ∈ d.root.below.trees, e.head.carries "class" entryKeyword → t ∉ e.all) ∧
      "updated" ∈ entryKeywords ∧
      ∀ t ∈ d.root.below.trees, ¬∃ f ∈ misplaced d.findings, f.label = t.head.label :=
  Document.exists_of_parse _ _ (by decide +kernel)

end Markup.Document

end HAtom
