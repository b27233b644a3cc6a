import HAtom.Proofs.Cutting
import HAtom.Proofs.PageEffect

/-!
# Hiding and cutting find the same

A pass that cuts has the findings of a pass that hides, in the same order. When the nodes `view` are
in sight of a tree and `rest` is what is left of it, `Markup.Tree.Remains`, each rule finds on
`rest` what the effect of the rule finds with `view`: `Pass.cutCard_eq`, `Pass.gains_cutEntry` and
`Pass.cutFeed_eq`. `Markup.Document.findings_eq_cutFindings` is the statement for a whole page.
-/

namespace HAtom

open Markup

/-! ## What a tree that was cut out stands for -/

theorem Markup.Forest.map_tree_places (f : Forest) (above : List Node) :
    (f.places above).map Place.tree = f.trees := by
  induction f generalizing above with
  | nil => rfl
  | node n below after ihb iha =>
    rw [Forest.places, Forest.trees, List.map_cons, List.map_append, ihb, iha]

theorem Markup.Forest.Distinct.find?_label {f : Forest} (hd : f.Distinct) {t : Tree}
    (ht : t ∈ f.trees) : (f.trees.find? fun s => s.head.label == t.head.label) = some t := by
  obtain ⟨s, hs⟩ := Option.isSome_iff_exists.1
    (List.find?_isSome (p := fun s : Tree => s.head.label == t.head.label).2 ⟨t, ht, by simp⟩)
  have hlabel : s.head.label = t.head.label := by simpa using List.find?_some hs
  rw [hs, hd.eq_of_label_eq (List.mem_of_find?_eq_some hs) ht hlabel]

/-- A tree with the node of a tree of the document stands for that one. -/
theorem Markup.Document.original_eq {d : Document} (hd : d.WellFormed) {t rest : Tree}
    (ht : t ∈ d.root.below.trees) (h : rest.head = t.head) : d.original rest = t := by
  have hroot : ¬(d.root.head.label == t.head.label) := fun heq =>
    hd.label (beq_iff_eq.1 heq ▸ Forest.label_mem_labels ht)
  have hplaces : d.place? t.head.label =
      (d.root.below.places [d.root.head]).find? fun p => p.node.label == t.head.label :=
    List.find?_cons_of_neg hroot
  have htree : (d.place? t.head.label).map Place.tree =
      d.root.below.trees.find? fun s => s.head.label == t.head.label := by
    rw [hplaces, ← Forest.map_tree_places _ [d.root.head], List.find?_map]
    rfl
  rw [Document.original, h, htree, hd.distinct.find?_label ht, Option.getD_some]

/-! ## Lists of trees with the same nodes -/

namespace Pass

/-- The trees of two lists have the same nodes, one by one. -/
theorem heads_eq {view ts rests : List Tree}
    (h : List.Forall₂ (fun t rest => t.Remains (inside t view) rest) ts rests) :
    rests.map (·.head) = ts.map (·.head) := by
  induction h with
  | nil => rfl
  | cons h _ ih => rw [List.map_cons, List.map_cons, h.head, ih]

theorem noteEach_congr {ts rests : List Tree} (h : rests.map (·.head) = ts.map (·.head))
    (p : Pass) (problem : Problem) : p.noteEach problem rests = p.noteEach problem ts := by
  have hmap := congrArg (List.map fun n : Node => (⟨problem, n.label⟩ : Finding)) h
  rw [List.map_map, List.map_map] at hmap
  exact congrArg p.add hmap

theorem filter_heads {ts rests : List Tree} (h : rests.map (·.head) = ts.map (·.head))
    (test : Node → Bool) : (rests.filter fun t => test t.head).map (·.head) =
      (ts.filter fun t => test t.head).map (·.head) := by
  have hfilter := congrArg (List.filter test) h
  rwa [List.filter_map, List.filter_map] at hfilter

theorem isEmpty_heads {ts rests : List Tree} (h : rests.map (·.head) = ts.map (·.head)) :
    rests.isEmpty = ts.isEmpty := by
  have hempty := congrArg List.isEmpty h
  rwa [List.isEmpty_map, List.isEmpty_map] at hempty

theorem length_heads {ts rests : List Tree} (h : rests.map (·.head) = ts.map (·.head)) :
    rests.length = ts.length := by
  have hlength := congrArg List.length h
  rwa [List.length_map, List.length_map] at hlength

theorem drop_heads {ts rests : List Tree} (h : rests.map (·.head) = ts.map (·.head)) (n : Nat) :
    (rests.drop n).map (·.head) = (ts.drop n).map (·.head) := by
  rw [List.map_drop, List.map_drop, h]

/-- Rules that only look at nodes do not notice that something was cut out below them. -/
theorem foldl_heads {ts rests : List Tree} (h : rests.map (·.head) = ts.map (·.head))
    (check : Pass → Node → Pass) (p : Pass) :
    rests.foldl (fun p t => check p t.head) p = ts.foldl (fun p t => check p t.head) p := by
  rw [← List.foldl_map, h, List.foldl_map]

/-- Rules that only make findings make those of one tree after those of another. -/
theorem foldl_eq_add {R : Tree → Tree → Prop} {check : Pass → Tree → Pass}
    {findings : Tree → List Finding} {ts rests : List Tree} (h : List.Forall₂ R ts rests)
    (hcheck : ∀ p : Pass, ∀ t ∈ ts, ∀ rest, R t rest → check p rest = p.add (findings t))
    (p : Pass) : rests.foldl check p = p.add (ts.flatMap findings) := by
  induction h generalizing p with
  | nil => exact (add_nil p).symm
  | @cons t rest ts rests ht _ ih =>
    rw [List.foldl_cons, hcheck p t List.mem_cons_self rest ht,
      ih fun q s hs => hcheck q s (List.mem_cons_of_mem t hs), add_add, List.flatMap_cons]

theorem gains_foldl_found {R : Tree → Tree → Prop} {check : Pass → Tree → Pass}
    {findings : Tree → List Finding} {ts rests : List Tree} (h : List.Forall₂ R ts rests)
    (hcheck : ∀ p : Pass, ∀ t ∈ ts, ∀ rest, R t rest →
      p.Gains (.found (findings t)) (check p rest)) (p : Pass) :
    p.Gains (.found (ts.flatMap findings)) (rests.foldl check p) := by
  induction h generalizing p with
  | nil => exact p.gains_refl
  | @cons t rest ts rests ht _ ih =>
    rw [List.flatMap_cons]
    exact (hcheck p t List.mem_cons_self rest ht).append
      (ih (fun q s hs => hcheck q s (List.mem_cons_of_mem t hs)) (check p rest))

/-! ## Searches -/

theorem noteNested_eq (p : Pass) {t rest : Tree} {view : List Tree} (h : t.Remains view rest)
    (name keyword : String) : p.noteNested rest name keyword =
      p.add ((marked name keyword view).map fun s => ⟨.nested keyword, s.head.label⟩) :=
  noteEach_congr (filter_heads h.nodes fun n => n.carries name keyword) p _

/-- **A search that cuts** reports the same nested nodes as one that hides. -/
theorem cutOut_eq (p : Pass) {scope rest : Tree} {view : List Tree} (h : scope.Remains view rest)
    (hd : scope.below.Distinct) (name keyword : String) :
    ∃ found left, p.cutOut rest name keyword =
        (found, left, p.add (nestedFindings keyword (marked name keyword view))) ∧
      List.Forall₂ (fun t rest => t.Remains (inside t view) rest)
        (tops (marked name keyword view)) found ∧
      scope.Remains (uncovered view (marked name keyword view)) left := by
  obtain ⟨hfound, hleft⟩ := h.cut hd name keyword
  refine ⟨_, _, ?_, hfound, hleft⟩
  have hnested := foldl_eq_add hfound (fun q t _ found ht => q.noteNested_eq ht name keyword) p
  rw [cutOut, nestedFindings]
  simp only [inside_marked]
  exact Prod.ext rfl (Prod.ext rfl hnested)

/-! ## Cards and authors -/

section Card

variable {t rest : Tree} {view : List Tree}

theorem cutNames_eq (p : Pass) (h : t.Remains view rest) (hd : t.below.Distinct) :
    p.cutNames rest =
      ((rest.cut "class" "fn").2, p.add (nameFindings view t)) := by
  obtain ⟨hfound, -⟩ := h.cut hd "class" "fn"
  have hnames : (if rest.head.carries "class" "fn" then rest :: (rest.cut "class" "fn").1
      else (rest.cut "class" "fn").1).map (·.head) = (cardNames view t).map (·.head) := by
    rw [cardNames, h.head]
    split
    · rw [List.map_cons, List.map_cons, heads_eq hfound, h.head]
    · exact heads_eq hfound
  unfold cutNames nameFindings
  dsimp only
  rw [isEmpty_heads hnames, noteEach_congr (drop_heads hnames 1), h.head]
  split <;> rfl

theorem cutAddresses_eq (p : Pass) (h : t.Remains view rest) (hd : t.below.Distinct) :
    p.cutAddresses rest = p.add (((tops (marked "class" "email" view)).filter isBadAddress).map
      fun s => ⟨.notMail, s.head.label⟩) := by
  obtain ⟨hfound, -⟩ := h.cut hd "class" "email"
  exact noteEach_congr (filter_heads (heads_eq hfound) fun n =>
    n.isTag "a" && !isMailLink ((n.attribute? "href").getD "")) p _

theorem cutCard_eq (p : Pass) (h : t.Remains view rest) (hd : t.below.Distinct) :
    p.cutCard rest = p.add (cardEffect view t).findings := by
  obtain ⟨-, hleft⟩ := h.cut hd "class" "fn"
  rw [cutCard, p.cutNames_eq h hd]
  dsimp only
  rw [cutAddresses_eq _ hleft hd, add_add]
  rfl

theorem cutAuthor_eq (p : Pass) (h : t.Remains view rest) (hd : t.below.Distinct) :
    p.cutAuthor rest = p.add (authorEffect view t).findings := by
  obtain ⟨hfound, -⟩ := h.cut hd "class" "vcard"
  rw [cutAuthor, findings_authorEffect, h.head]
  split
  · exact p.cutCard_eq h hd
  · have hcards := foldl_eq_add hfound (fun q card hcard left hleft =>
      q.cutCard_eq hleft (hd.below (h.sublist.subset (mem_of_mem_authorCards hcard)))) p
    dsimp only
    rw [hcards, isEmpty_heads (heads_eq hfound), ← authorCards]
    split <;> rfl

end Card

/-! ## Entries -/

section Entry

variable {d : Document} (hwf : d.WellFormed)

include hwf

theorem cutOccurrence_eq (p : Pass) {q : Property} (hq : q ≠ .key) {t rest : Tree}
    {view : List Tree} (h : t.Remains (inside t view) rest) (ht : t ∈ d.root.below.trees) :
    cutOccurrence d q p rest = p.add (occurrenceEffect q (inside t view) t).findings := by
  cases q with
  | date which =>
    simp only [cutOccurrence, occurrenceEffect, Effect.findings_found]
    rw [Document.original_eq hwf ht h.head, checkDate_eq]
  | author => exact p.cutAuthor_eq h (hwf.distinct.below ht)
  | bookmark | tag =>
    simp only [cutOccurrence, occurrenceEffect, Effect.findings_found]
    rw [checkLink_eq, linkFindings, linkFindings, h.head]
  | key => exact absurd rfl hq
  | title | summary | content => exact (add_nil p).symm

omit hwf in
theorem countFindings_heads {entry left : Tree} (h : left.head = entry.head) (q : Property)
    {ts rests : List Tree} (hts : rests.map (·.head) = ts.map (·.head)) :
    countFindings left q rests = countFindings entry q ts := by
  have hdrop : (rests.drop 1).map (fun t => (⟨.repeated q, t.head.label⟩ : Finding)) =
      (ts.drop 1).map fun t => ⟨.repeated q, t.head.label⟩ := by
    have := congrArg (List.map fun n : Node => (⟨.repeated q, n.label⟩ : Finding))
      (drop_heads hts 1)
    rwa [List.map_map, List.map_map] at this
  have hempty := isEmpty_heads hts
  unfold countFindings
  cases q.cardinality <;> cases rests <;> cases ts <;> simp_all

theorem gains_cutContents (p : Pass) {q : Property} {view ts rests : List Tree}
    (h : List.Forall₂ (fun t rest => t.Remains (inside t view) rest) ts rests)
    (hts : ∀ t ∈ ts, t ∈ d.root.below.trees) (hkey : q = .key → p.seen.values "title" = []) :
    p.Gains (.found (contentsEffect q view ts).findings) (rests.foldl (cutOccurrence d q) p) ∧
      (q ≠ .key → (rests.foldl (cutOccurrence d q) p).seen = p.seen) := by
  by_cases hq : q = .key
  · subst hq
    have hkeys : rests.foldl (cutOccurrence d .key) p =
        ts.foldl (fun p t => p.checkKey .entry t.head) p :=
      foldl_heads (heads_eq h) (checkKey · .entry) p
    have hgains := gains_checkKeys .entry ts p
    rw [hkey rfl] at hgains
    rw [contentsEffect, if_pos rfl, hkeys]
    exact ⟨hgains, fun hq => absurd rfl hq⟩
  · have hcontents := foldl_eq_add h
      (fun r t ht rest hrest => r.cutOccurrence_eq hwf hq hrest (hts t ht)) p
    rw [hcontents, findings_contentsEffect hq]
    exact ⟨gains_add .., fun _ => seen_add ..⟩

variable {entry : Tree} (hentry : entry ∈ d.root.below.trees)

include hentry

/-- **A property, on what is left of an entry**: what it finds, and what it leaves. -/
theorem cutProperty_eq (p : Pass) {rest : Tree} {view : List Tree} (h : entry.Remains view rest)
    {q : Property} (hkey : q = .key → p.seen.values "title" = []) :
    ∃ left r, p.cutProperty d rest q = ((tops (having q view)).length, left, r) ∧
      entry.Remains (uncovered view (having q view)) left ∧
      p.Gains (.found (propertyEffect view entry q).findings) r ∧
      (q ≠ .key → r.seen = p.seen) := by
  obtain ⟨found, left, hcut, hfound, hleft⟩ :=
    p.cutOut_eq h (hwf.distinct.below hentry) q.carrier q.keyword
  have hbelow : ∀ t ∈ tops (having q view), t ∈ d.root.below.trees := fun t ht =>
    Forest.mem_trees_trans hentry (h.sublist.subset (mem_having.1 (mem_tops.1 ht).1).1)
  obtain ⟨hgains, hseen⟩ := gains_cutContents hwf (p.add (nestedFindings q.keyword
    (having q view) ++ countFindings entry q (tops (having q view)))) hfound hbelow hkey
  have hproperty := (gains_add p (nestedFindings q.keyword (having q view) ++
    countFindings entry q (tops (having q view)))).append hgains
  rw [List.append_assoc] at hproperty
  refine ⟨left, _, ?_, hleft, hproperty, hseen⟩
  rw [cutProperty, hcut]
  dsimp only
  rw [checkCount_eq, countFindings_heads h.head q (heads_eq hfound), add_add,
    length_heads (heads_eq hfound)]
  rfl

/-- Properties one after another, when those before them have been cut out of the entry. -/
theorem gains_cutProperties (view : List Tree) (rest : List Property) :
    ∀ (done : List Property) (count : Nat) (p : Pass) (left : Tree),
      done.reverse ++ rest = Property.all → entry.Remains (free view done) left →
      (.key ∈ rest → p.seen.values "title" = []) →
      p.Gains (.found (rest.flatMap fun q =>
          (propertyEffect (free view q.before) entry q).findings))
          (cutProperties d left rest count p).2 ∧
        (cutProperties d left rest count p).1 = count + bodyCount view rest := by
  induction rest with
  | nil => exact fun done count p left _ _ _ => ⟨p.gains_refl, rfl⟩
  | cons q rest ih =>
    intro done count p left hall hleft hkey
    have hbefore : q.before = done := Property.before_eq hall
    obtain ⟨left', r, hcut, hleft', hgains, hseen⟩ :=
      cutProperty_eq hwf hentry p hleft fun h => hkey (h ▸ List.mem_cons_self)
    have hkey' : .key ∈ rest → r.seen.values "title" = [] := fun h => by
      rw [hseen (Property.ne_key_of_mem hall h)]
      exact hkey (List.mem_cons_of_mem q h)
    obtain ⟨hrest, hcount⟩ := ih (q :: done)
      (if q == .summary || q == .content then count + (tops (having q (free view done))).length
      else count) r left' (by simpa using hall) hleft' hkey'
    rw [cutProperties, hcut]
    dsimp only
    refine ⟨?_, ?_⟩
    · rw [List.flatMap_cons, hbefore]
      exact hgains.append hrest
    · rw [hcount, bodyCount, members, hbefore]
      split
      · omega
      · rfl

/-- **An entry, on what is left of it.** -/
theorem gains_cutEntry (p : Pass) {rest : Tree} {view : List Tree} (h : entry.Remains view rest) :
    p.Gains (.found (entryEffect view entry).findings) (p.cutEntry d rest) := by
  obtain ⟨hgains, hcount⟩ := gains_cutProperties hwf hentry view Property.all [] 0
    (p.forget "title") rest rfl h fun _ => by simp [forget, ValueCache.values_reset]
  have hbody : (cutProperties d rest Property.all 0 (p.forget "title")).1 =
      bodyCount view Property.all := by
    rw [hcount, Nat.zero_add]
  rw [cutEntry]
  dsimp only
  rw [hbody, noteIf_eq_add, h.head, findings_entryEffect]
  exact ((p.gains_forget "title").of_refl hgains).append (gains_add ..)

end Entry

/-! ## Feeds -/

section Feed

variable {feed rest : Tree} {view : List Tree}

theorem cutFeedKeys_eq (p : Pass) (h : feed.Remains view rest) (hd : feed.below.Distinct) :
    ∃ left r, p.cutFeedKeys rest = (left, r) ∧
      feed.Remains (uncovered view (marked "class" feedKeyKeyword view)) left ∧
      p.Gains (.found (keysEffect view).findings) r := by
  obtain ⟨keys, left, hcut, hkeys, hleft⟩ :=
    (p.forget "title").cutOut_eq h hd "class" feedKeyKeyword
  have hgains := gains_checkKeys .feed (tops (marked "class" feedKeyKeyword view))
    ((p.forget "title").add (nestedFindings feedKeyKeyword (marked "class" feedKeyKeyword view)))
  rw [seen_add, forget, ValueCache.values_reset, if_pos rfl, ← forget] at hgains
  refine ⟨left, _, ?_, hleft, ((p.gains_forget "title").of_refl (gains_add ..)).append hgains⟩
  rw [cutFeedKeys, hcut]
  dsimp only
  rw [foldl_heads (heads_eq hkeys) (checkKey · .feed)]

/-- **A feed, on what is left of it.** -/
theorem cutFeed_eq {d : Document} (hwf : d.WellFormed) (explicit : Bool) (p : Pass)
    (h : feed.Remains view rest) (hd : feed.below.Distinct)
    (hfeed : ∀ t ∈ feed.below.trees, t ∈ d.root.below.trees) :
    ∃ left r, p.cutFeed d explicit rest = (left, r) ∧ feed.Remains (leftover view) left ∧
      p.Gains (.found (feedEffect explicit view feed).findings) r := by
  obtain ⟨entries, left, hcut, hentries, hleft⟩ := p.cutOut_eq h hd "class" entryKeyword
  obtain ⟨left', r, hkeys, hleft', hr⟩ := cutFeedKeys_eq
    ((p.add (nestedFindings entryKeyword (marked "class" entryKeyword view))).add
      (if explicit && (feedEntries view).isEmpty then [⟨.emptyFeed, feed.head.label⟩] else []))
    hleft hd
  have hgains := gains_foldl_found hentries (fun q entry hentry left hleft =>
    gains_cutEntry hwf (hfeed entry (h.sublist.subset (mem_feedEntries hentry))) q hleft) r
  have hempty : entries.isEmpty = (feedEntries view).isEmpty := isEmpty_heads (heads_eq hentries)
  refine ⟨left', (entries.foldl (cutEntry d) r).add
    (if explicit then strayFindings entryKeywords (leftover view) else []), ?_, hleft', ?_⟩
  · rw [cutFeed, hcut]
    dsimp only
    rw [noteIf_eq_add, hempty, h.head, hkeys]
    dsimp only
    cases explicit
    · exact Prod.ext rfl (add_nil _).symm
    · rw [hleft'.nodes, if_pos rfl, scanNodes_eq]
      rfl
  · rw [findings_feedEffect, findings_entriesEffect]
    exact (((gains_add ..).append (gains_add ..)).append hr).append
      (hgains.append (gains_add ..))

/-- The last scan, on what is left of a page. -/
theorem cutRest_eq (p : Pass) (h : feed.Remains view rest) (keywords : List String) :
    p.cutRest rest keywords = p.add (strayFindings keywords view) := by
  rw [cutRest, h.nodes, List.filter_map, scanNodes_eq]
  exact congrArg p.add (strayFindings_elements keywords view)

end Feed

end Pass

/-! ## Pages -/

namespace Markup.Document

variable {d : Document}

/-- A pass that cuts has the findings of a pass that hides. -/
theorem cutFindings_eq (hd : d.WellFormed) : d.cutFindings = d.findings := by
  obtain ⟨feeds, left, hcut, hfeeds, hleft⟩ :=
    Pass.fresh.cutOut_eq (Tree.Remains.refl d.root) hd.distinct "class" feedKeyword
  have hempty : feeds.isEmpty = d.feeds.isEmpty := Pass.isEmpty_heads (Pass.heads_eq hfeeds)
  rw [d.findings_eq hd, cutFindings, Pass.cutPage, hcut]
  dsimp only
  rw [hempty]
  by_cases hnone : d.feeds = []
  · -- without feeds the whole page is left
    have hmarked : marked "class" feedKeyword d.root.below.trees = [] := tops_eq_nil.1 hnone
    rw [hmarked, uncovered_nil] at hleft
    obtain ⟨left', r, hfeed, hleft', hr⟩ := Pass.cutFeed_eq hd false
      (Pass.fresh.add (nestedFindings feedKeyword (marked "class" feedKeyword d.root.below.trees)))
      hleft hd.distinct fun t ht => ht
    rw [hfeed]
    dsimp only
    rw [if_pos (by rw [hnone]; rfl), if_pos hnone, Pass.cutRest_eq r hleft']
    change r.findings ++ _ = _
    rw [hr.findings, List.append_assoc]
    rfl
  · have hfeed : ∀ p : Pass, ∀ feed ∈ d.feeds, ∀ rest,
        feed.Remains (inside feed d.root.below.trees) rest →
        p.Gains (.found (feedEffect true feed.below.trees feed).findings)
          (p.cutFeed d true rest).2 := by
      intro p feed hfeed rest hrest
      have hbelow := mem_of_mem_feeds hfeed
      rw [hd.distinct.inside_trees hbelow] at hrest
      obtain ⟨left, r, hcut, -, hr⟩ := Pass.cutFeed_eq hd true p hrest (hd.distinct.below hbelow)
        fun t => Forest.mem_trees_trans hbelow
      rwa [hcut]
    have hr := Pass.gains_foldl_found hfeeds hfeed
      (Pass.fresh.add (nestedFindings feedKeyword (marked "class" feedKeyword d.root.below.trees)))
    rw [if_neg (mt List.isEmpty_iff.1 hnone), if_neg hnone, Pass.cutRest_eq _ hleft]
    change _ ++ _ = _
    rw [hr.findings, List.append_assoc]
    rfl

end Markup.Document

/-- **Hiding what was found and cutting it out find the same**, in every document and in the same
order. -/
theorem Markup.Document.findings_eq_cutFindings (f : Forest) :
    (Document.ofForest f).findings = (Document.ofForest f).cutFindings :=
  (Document.cutFindings_eq (Document.wellFormed_ofForest f)).symm

end HAtom
