import HAtom.Proofs.Journal

/-!
# Feeds and entries accounted for

What becomes of the nodes that are marked as a feed or as an entry. An `Account` counts how often a
pass checks such a node, how often it reports that the node is nested, and how often that the
keyword is misplaced in the class of the node.

* `nestedIn` are the nodes of a list inside another one, in the order in which they are reported.
* `Markup.Document.scopes` are the nodes below which a pass looks for entries. What a search finds
  inside one of them it finds inside no other (`Markup.Document.mem_flatMap_scopes`).
* `Markup.Document.containers_accounted`: each feed is checked or nested, once, and each entry that
  is no feed itself is checked, nested or misplaced, once.
-/

namespace HAtom

open Markup

/-! ## Nodes inside others -/

/-- The nodes of a list that lie inside another one of it, those inside one outermost node after
those inside the one before. -/
def nestedIn (ts : List Tree) : List Tree := (tops ts).flatMap fun t => inside t ts

theorem nestedFindings_eq_map (keyword : String) (ts : List Tree) :
    nestedFindings keyword ts =
      (nestedIn ts).map fun t => ⟨.nested keyword, t.head.label⟩ := by
  rw [nestedFindings, nestedIn, List.map_flatMap]

theorem mem_nestedIn {ts : List Tree} {t : Tree} :
    t ∈ nestedIn ts ↔ t ∈ ts ∧ ∃ s ∈ ts, t ∈ s.below.trees := by
  simp only [nestedIn, List.mem_flatMap, mem_inside]
  constructor
  · rintro ⟨s, hs, ht, hts⟩
    exact ⟨ht, s, (mem_tops.1 hs).1, hts⟩
  · rintro ⟨ht, s, hs, hts⟩
    obtain ⟨u, hu, hsu⟩ := exists_mem_tops hs
    exact ⟨u, hu, ht, Tree.mem_below_of_all_mem hsu hts⟩

/-- A node of a list is outermost when it is not nested. -/
theorem mem_tops_iff_not_mem_nestedIn {ts : List Tree} {t : Tree} (ht : t ∈ ts) :
    t ∈ tops ts ↔ t ∉ nestedIn ts := by
  rw [mem_tops, mem_nestedIn]
  constructor
  · rintro ⟨-, h⟩ ⟨-, s, hs, hts⟩
    exact h s hs hts
  · intro h
    exact ⟨ht, fun s hs hts => h ⟨ht, s, hs, hts⟩⟩

/-- A node is nested once only. -/
theorem nestedIn_nodup {f : Forest} (hd : f.Distinct) {ts : List Tree}
    (hts : ts.Sublist f.trees) : (nestedIn ts).Nodup := by
  have hin : ∀ t ∈ tops ts, t ∈ f.trees := fun t ht => hts.subset (mem_tops.1 ht).1
  refine List.nodup_flatMap.2 ⟨fun t _ => ?_, (apart_tops hd hts).imp_of_mem ?_⟩
  · exact (inside_sublist t ts).nodup (hts.nodup hd.trees_nodup)
  · rintro s t hs ht ⟨hne, hst, hts'⟩ u hus hut
    have hlabel := Forest.label_mem_labels (mem_inside.1 hus).2
    exact hd.apart (hin s hs) (hin t ht) hne hst hts' _ hlabel
      (Forest.label_mem_labels (mem_inside.1 hut).2)

/-! ## Findings that nodes are nested -/

/-- The findings that a node with the keyword is nested. -/
def nestedAs (keyword : String) (fs : List Finding) : List Finding :=
  fs.filter (·.problem = .nested keyword)

theorem nestedAs_append (keyword : String) (fs gs : List Finding) :
    nestedAs keyword (fs ++ gs) = nestedAs keyword fs ++ nestedAs keyword gs :=
  List.filter_append ..

theorem nestedAs_flatMap {α : Type} (keyword : String) (l : List α) (g : α → List Finding) :
    nestedAs keyword (l.flatMap g) = l.flatMap fun a => nestedAs keyword (g a) :=
  List.filter_flatMap ..

theorem nestedAs_nestedFindings (keyword other : String) (ts : List Tree) :
    nestedAs keyword (nestedFindings other ts) =
      if other = keyword then nestedFindings other ts else [] := by
  split
  · next h =>
    refine List.filter_eq_self.2 fun f hf => decide_eq_true ?_
    rw [(mem_nestedFindings hf).1, h]
  · next h =>
    refine List.filter_eq_nil_iff.2 fun f hf hf' => h ?_
    have hproblem := (mem_nestedFindings hf).1.symm.trans (of_decide_eq_true hf')
    exact Problem.nested.inj hproblem

theorem nestedAs_strayFindings (keyword : String) (keywords : List String) (ts : List Tree) :
    nestedAs keyword (strayFindings keywords ts) = [] := by
  rw [strayFindings_eq_map]
  refine List.filter_eq_nil_iff.2 fun f hf hf' => ?_
  obtain ⟨o, -, rfl⟩ := List.mem_map.1 hf
  exact Problem.noConfusion (of_decide_eq_true hf')

/-- Of the keywords of containers a feed reports only those of entries as nested. -/
theorem nestedAs_feedEffect {keyword : String} (hkeyword : (Problem.nested keyword).inFeed = false)
    (explicit : Bool) (view : List Tree) (feed : Tree) :
    nestedAs keyword (feedEffect explicit view feed).findings =
      if entryKeyword = keyword then
        nestedFindings entryKeyword (marked "class" entryKeyword view)
      else [] := by
  have hP : ∀ problem : Problem, problem.inFeed → decide (problem = .nested keyword) = false := by
    intro problem h
    refine decide_eq_false ?_
    rintro rfl
    rw [hkeyword] at h
    exact Bool.false_ne_true h
  have hstray : (if explicit then nestedAs keyword (strayFindings entryKeywords (leftover view))
      else []) = [] := by
    rw [nestedAs_strayFindings, ite_self]
  have hfilter : nestedAs keyword (feedEffect explicit view feed).findings =
      nestedAs keyword (nestedFindings entryKeyword (marked "class" entryKeyword view)) ++
        if explicit then nestedAs keyword (strayFindings entryKeywords (leftover view)) else [] :=
    filter_feedEffect hP explicit view feed
  rw [hfilter, hstray, List.append_nil, nestedAs_nestedFindings]

/-- When a problem is found at some nodes without repetition, it is found at a node once or
never. -/
theorem Markup.Forest.Distinct.count_findings {f : Forest} (hd : f.Distinct) (problem : Problem)
    {ts : List Tree} (hts : ts.Nodup) (hin : ∀ t ∈ ts, t ∈ f.trees) {t : Tree} (ht : t ∈ f.trees) :
    (ts.map fun s => (⟨problem, s.head.label⟩ : Finding)).count ⟨problem, t.head.label⟩ =
      if t ∈ ts then 1 else 0 := by
  have hnodup : (ts.map fun s => (⟨problem, s.head.label⟩ : Finding)).Nodup :=
    hts.map_on fun s hs u hu h => hd.eq_of_label_eq (hin s hs) (hin u hu) (congrArg Finding.label h)
  rw [hnodup.count]
  refine if_congr ?_ rfl rfl
  rw [List.mem_map]
  constructor
  · rintro ⟨s, hs, h⟩
    exact hd.eq_of_label_eq (hin s hs) ht (congrArg Finding.label h) ▸ hs
  · intro h
    exact ⟨t, h, rfl⟩

/-- When the nodes that are found nested are some nodes without repetition, a node is found nested
once or never. -/
theorem count_nested {f : Forest} (hd : f.Distinct) {keyword : String} {fs : List Finding}
    {ts : List Tree} (hfs : nestedAs keyword fs = ts.map fun t => ⟨.nested keyword, t.head.label⟩)
    (hts : ts.Nodup) (hin : ∀ t ∈ ts, t ∈ f.trees) {t : Tree} (ht : t ∈ f.trees) :
    fs.count ⟨.nested keyword, t.head.label⟩ = if t ∈ ts then 1 else 0 := by
  have hcount : (nestedAs keyword fs).count ⟨.nested keyword, t.head.label⟩ =
      fs.count ⟨.nested keyword, t.head.label⟩ :=
    List.count_filter (p := fun f : Finding => decide (f.problem = .nested keyword))
      (decide_eq_true rfl)
  rw [← hcount, hfs, hd.count_findings _ hts hin ht]

/-! ## Keywords in the class of a node -/

deriving instance DecidableEq for Occurrence

/-- Where among the attributes the one stands that is looked up by a name. -/
def Markup.Node.indexOf (n : Node) (name : String) : Nat :=
  n.attributes.findIdx fun a => a.space.isNone && a.name == name

/-- A keyword that a node carries is a word of the attribute that is looked up. -/
theorem Markup.Node.attribute_indexOf {n : Node} {name keyword : String}
    (h : n.carries name keyword) :
    ∃ a, n.attributes[n.indexOf name]? = some a ∧ Text.hasWord a.value keyword := by
  unfold Node.carries Node.attribute? at h
  rw [List.find?_eq_getElem?_findIdx, ← Node.indexOf] at h
  cases ha : n.attributes[n.indexOf name]? with
  | none => simp [ha] at h
  | some a => exact ⟨a, rfl, by simpa [ha] using h⟩

namespace Markup.Document

/-- How often a keyword is misplaced in the class of a node. -/
def strayCount (d : Document) (keyword : String) (t : Tree) : Nat :=
  (d.straysInFeeds ++ d.straysOnPage).countP fun o =>
    o.tree = t ∧ o.index = t.head.indexOf "class" ∧ o.keyword = keyword

variable {d : Document} {keyword : String} {t : Tree}

theorem mem_strays {o : Occurrence} : o ∈ d.straysInFeeds ++ d.straysOnPage ↔
    o.Valid ∧ (d.StrayInFeed o.tree o.keyword ∨ d.StrayOnPage o.tree o.keyword) := by
  rw [List.mem_append, mem_straysInFeeds, mem_straysOnPage, and_or_left]

theorem strayCount_eq_zero (h : ¬(d.StrayInFeed t keyword ∨ d.StrayOnPage t keyword)) :
    d.strayCount keyword t = 0 := by
  refine List.countP_eq_zero.2 fun o ho hot => h ?_
  obtain ⟨rfl, -, rfl⟩ := of_decide_eq_true hot
  exact (mem_strays.1 ho).2

theorem strayCount_eq_one (hd : d.WellFormed) (hcarries : t.head.carries "class" keyword)
    (h : d.StrayInFeed t keyword ∨ d.StrayOnPage t keyword) : d.strayCount keyword t = 1 := by
  obtain ⟨a, ha, hword⟩ := Node.attribute_indexOf hcarries
  -- the only occurrence that is counted
  have hmem : (⟨t, t.head.indexOf "class", a, keyword⟩ : Occurrence) ∈
      d.straysInFeeds ++ d.straysOnPage := mem_strays.2 ⟨⟨ha, hword⟩, h⟩
  have honly : d.strayCount keyword t = (d.straysInFeeds ++ d.straysOnPage).count
      ⟨t, t.head.indexOf "class", a, keyword⟩ := by
    refine List.countP_congr fun o ho => ?_
    rw [decide_eq_true_iff, beq_iff_eq]
    constructor
    · rintro ⟨rfl, hindex, rfl⟩
      have hattr := (mem_strays.1 ho).1.attr
      rw [hindex, ha] at hattr
      obtain ⟨tree, index, attr, keyword⟩ := o
      obtain rfl := Option.some.inj hattr
      obtain rfl : index = tree.head.indexOf "class" := hindex
      rfl
    · rintro rfl
      exact ⟨rfl, rfl, rfl⟩
  rw [honly, (strays_nodup hd).count, if_pos hmem]

/-! ## Where entries are looked for -/

/-- The nodes below which entries are looked for: the feeds of a page, or the page itself. -/
def scopes (d : Document) : List Tree := if d.feeds = [] then [d.root] else d.feeds

/-- The entries of a page that are reported as nested. -/
def nestedEntries (d : Document) : List Tree :=
  d.scopes.flatMap fun scope => nestedIn (marked "class" entryKeyword scope.below.trees)

theorem entries_eq : d.entries = d.scopes.flatMap fun scope => feedEntries scope.below.trees := by
  unfold entries scopes
  split
  · exact (List.flatMap_singleton ..).symm
  · rfl

theorem below_scope {scope : Tree} (hscope : scope ∈ d.scopes) :
    scope.below.trees.Sublist d.root.below.trees := by
  unfold scopes at hscope
  split at hscope
  · obtain rfl := List.mem_singleton.1 hscope
    exact List.Sublist.refl _
  · exact Forest.trees_below_sublist (mem_of_mem_feeds hscope)

/-- A node is looked for below one node only. -/
theorem scope_unique (hd : d.WellFormed) {scope other : Tree} (hscope : scope ∈ d.scopes)
    (hother : other ∈ d.scopes) (ht : t ∈ scope.below.trees) (ht' : t ∈ other.below.trees) :
    scope = other := by
  unfold scopes at hscope hother
  split at hscope
  · next h =>
    rw [if_pos h] at hother
    exact (List.mem_singleton.1 hscope).trans (List.mem_singleton.1 hother).symm
  · next h =>
    rw [if_neg h] at hother
    exact feed_unique hd hscope hother ht ht'

theorem scopes_nodup (hd : d.WellFormed) : d.scopes.Nodup := by
  unfold scopes
  split
  · exact List.nodup_singleton _
  · exact feeds_nodup hd

section Scopes

variable {found : Tree → List Tree}
  (hfound : ∀ scope ∈ d.scopes, ∀ t ∈ found scope, t ∈ scope.below.trees)

include hfound

/-- What is found inside one of the nodes is found there only. -/
theorem mem_flatMap_scopes (hd : d.WellFormed) {scope : Tree} (hscope : scope ∈ d.scopes)
    (ht : t ∈ scope.below.trees) : t ∈ d.scopes.flatMap found ↔ t ∈ found scope := by
  rw [List.mem_flatMap]
  constructor
  · rintro ⟨other, hother, h⟩
    rwa [scope_unique hd hscope hother ht (hfound other hother t h)]
  · intro h
    exact ⟨scope, hscope, h⟩

theorem not_mem_flatMap_scopes (ht : ∀ scope ∈ d.scopes, t ∉ scope.below.trees) :
    t ∉ d.scopes.flatMap found := by
  rw [List.mem_flatMap]
  rintro ⟨scope, hscope, h⟩
  exact ht scope hscope (hfound scope hscope t h)

theorem flatMap_scopes_nodup (hd : d.WellFormed)
    (hnodup : ∀ scope ∈ d.scopes, (found scope).Nodup) : (d.scopes.flatMap found).Nodup := by
  refine List.nodup_flatMap.2 ⟨hnodup, (scopes_nodup hd).imp_of_mem ?_⟩
  intro s u hs hu hne t hts htu
  exact hne (scope_unique hd hs hu (hfound s hs t hts) (hfound u hu t htu))

end Scopes

theorem mem_marked_scope {scope : Tree} (h : t ∈ marked "class" entryKeyword scope.below.trees) :
    t ∈ scope.below.trees :=
  (mem_marked.1 h).1

theorem marked_scope_sublist {scope : Tree} (hscope : scope ∈ d.scopes) :
    (marked "class" entryKeyword scope.below.trees).Sublist d.root.below.trees :=
  (marked_sublist ..).trans (below_scope hscope)

theorem mem_entries (hd : d.WellFormed) {scope : Tree} (hscope : scope ∈ d.scopes)
    (ht : t ∈ scope.below.trees) : t ∈ d.entries ↔ t ∈ feedEntries scope.below.trees := by
  rw [entries_eq, mem_flatMap_scopes (fun _ _ _ => mem_feedEntries) hd hscope ht]

theorem mem_nestedEntries (hd : d.WellFormed) {scope : Tree} (hscope : scope ∈ d.scopes)
    (ht : t ∈ scope.below.trees) : t ∈ d.nestedEntries ↔
      t ∈ nestedIn (marked "class" entryKeyword scope.below.trees) :=
  mem_flatMap_scopes (fun _ _ _ h => mem_marked_scope (mem_nestedIn.1 h).1) hd hscope ht

theorem mem_of_mem_nestedEntries (h : t ∈ d.nestedEntries) : t ∈ d.root.below.trees := by
  obtain ⟨scope, hscope, h⟩ := List.mem_flatMap.1 h
  exact (below_scope hscope).subset (mem_marked_scope (mem_nestedIn.1 h).1)

theorem entries_nodup (hd : d.WellFormed) : d.entries.Nodup := by
  rw [entries_eq]
  refine flatMap_scopes_nodup (fun _ _ _ => mem_feedEntries) hd fun scope hscope => ?_
  exact (apart_tops hd.distinct (marked_scope_sublist hscope)).imp And.left

theorem nestedEntries_nodup (hd : d.WellFormed) : d.nestedEntries.Nodup :=
  flatMap_scopes_nodup (fun _ _ _ h => mem_marked_scope (mem_nestedIn.1 h).1) hd
    fun _ hscope => nestedIn_nodup hd.distinct (marked_scope_sublist hscope)

/-! ## The findings of a page that nodes are nested -/

/-- Which nodes a page reports as nested with the keyword of a container: the feeds among them when
it looks for feeds, the entries when it looks for entries. -/
theorem nestedAs_findings (hd : d.WellFormed) {keyword : String}
    (hkeyword : (Problem.nested keyword).inFeed = false) : nestedAs keyword d.findings =
      (if feedKeyword = keyword then
        nestedFindings feedKeyword (marked "class" feedKeyword d.root.below.trees) else []) ++
      d.scopes.flatMap fun scope => if entryKeyword = keyword then
        nestedFindings entryKeyword (marked "class" entryKeyword scope.below.trees) else [] := by
  have hfeed := nestedAs_feedEffect hkeyword
  rw [d.findings_eq hd, nestedAs_append, nestedAs_nestedFindings, scopes]
  refine congrArg _ ?_
  split
  · rw [nestedAs_append, hfeed, nestedAs_strayFindings, List.append_nil, List.flatMap_singleton]
  · rw [nestedAs_append, nestedAs_flatMap, nestedAs_strayFindings, List.append_nil]
    exact List.flatMap_congr fun feed _ => hfeed ..

theorem nestedAs_feed_findings (hd : d.WellFormed) : nestedAs feedKeyword d.findings =
    (nestedIn (marked "class" feedKeyword d.root.below.trees)).map fun t =>
      ⟨.nested feedKeyword, t.head.label⟩ := by
  have hne : entryKeyword ≠ feedKeyword := by decide
  have hnone : ∀ scope ∈ d.scopes, (if entryKeyword = feedKeyword then
      nestedFindings entryKeyword (marked "class" entryKeyword scope.below.trees) else []) = [] :=
    fun _ _ => if_neg hne
  rw [nestedAs_findings hd (by decide), if_pos rfl, List.flatMap_eq_nil_iff.2 hnone,
    List.append_nil, nestedFindings_eq_map]

theorem nestedAs_entry_findings (hd : d.WellFormed) : nestedAs entryKeyword d.findings =
    d.nestedEntries.map fun t => ⟨.nested entryKeyword, t.head.label⟩ := by
  have hne : feedKeyword ≠ entryKeyword := by decide
  rw [nestedAs_findings hd (by decide), if_neg hne, List.nil_append, nestedEntries,
    List.map_flatMap]
  refine List.flatMap_congr fun scope _ => ?_
  rw [if_pos rfl, nestedFindings_eq_map]

end Markup.Document

/-! ## Accounts -/

/-- What a pass does about a node that is marked as a feed or as an entry. -/
structure Account where
  /-- How often it checks the node. -/
  checked : Nat
  /-- How often it reports that the node is nested. -/
  nested : Nat
  /-- How often it reports the keyword as misplaced in the class of the node. -/
  stray : Nat
  deriving DecidableEq, Repr

namespace Markup.Document

/-- The account of a node with a keyword, when these are the checks of nodes with it. -/
def account (d : Document) (keyword : String) (checks : List Check) (t : Tree) : Account where
  checked := (checks.map Check.tree).count t
  nested := d.findings.count ⟨.nested keyword, t.head.label⟩
  stray := d.strayCount keyword t

/-- The node lies inside a node that is marked as a feed. -/
def InsideFeed (d : Document) (t : Tree) : Prop :=
  ∃ feed ∈ d.root.below.trees, feed.head.carries "class" feedKeyword ∧ t ∈ feed.below.trees

variable {d : Document} {t : Tree}

/-- A feed of a page is outermost when it lies inside no other one. -/
theorem mem_feeds_iff (ht : t ∈ d.root.below.trees) (h : t.head.carries "class" feedKeyword) :
    t ∈ d.feeds ↔ ¬d.InsideFeed t := by
  have hmarked : t ∈ marked "class" feedKeyword d.root.below.trees := mem_marked.2 ⟨ht, h⟩
  rw [feeds, mem_tops_iff_not_mem_nestedIn hmarked, mem_nestedIn, InsideFeed]
  simp only [mem_marked, ht, h, true_and, and_assoc]

section Account

variable (hd : d.WellFormed) (ht : t ∈ d.root.below.trees)

include hd ht

theorem account_feed (h : t.head.carries "class" feedKeyword) :
    d.account feedKeyword d.journal.feeds t = if t ∈ d.feeds then ⟨1, 0, 0⟩ else ⟨0, 1, 0⟩ := by
  have hmarked : t ∈ marked "class" feedKeyword d.root.below.trees := mem_marked.2 ⟨ht, h⟩
  have htops := mem_tops_iff_not_mem_nestedIn hmarked
  have hchecked : (d.journal.feeds.map Check.tree).count t = if t ∈ d.feeds then 1 else 0 := by
    rw [feeds_journal hd, (feeds_nodup hd).count]
  have hnested := count_nested hd.distinct (nestedAs_feed_findings hd)
    (nestedIn_nodup hd.distinct (marked_sublist ..)) (fun s hs => (mem_marked.1
      (mem_nestedIn.1 hs).1).1) ht
  have hstray : d.strayCount feedKeyword t = 0 := by
    refine strayCount_eq_zero ?_
    rintro (⟨feed, -, -, -, -, hk⟩ | ⟨-, hcond⟩)
    · exact absurd hk (by decide)
    · split at hcond
      · exact absurd hcond.2.2 (by decide)
      · exact hcond.1 t ht h (Tree.mem_all.2 (.inl rfl))
  rw [account, hchecked, hnested, hstray]
  by_cases hfeed : t ∈ d.feeds
  · rw [if_pos hfeed, if_neg (htops.1 hfeed), if_pos hfeed]
  · rw [if_neg hfeed, if_pos (not_not.1 (mt htops.2 hfeed)), if_neg hfeed]

/-- Below a node where entries are looked for an entry is checked or nested. -/
theorem account_entry_of_scope (h : t.head.carries "class" entryKeyword) {scope : Tree}
    (hscope : scope ∈ d.scopes) (hts : t ∈ scope.below.trees) :
    d.account entryKeyword d.journal.entries t =
      if t ∈ d.entries then ⟨1, 0, 0⟩ else ⟨0, 1, 0⟩ := by
  have hmarked : t ∈ marked "class" entryKeyword scope.below.trees := mem_marked.2 ⟨hts, h⟩
  have htops : t ∈ d.entries ↔ t ∉ d.nestedEntries := by
    rw [mem_entries hd hscope hts, mem_nestedEntries hd hscope hts]
    exact mem_tops_iff_not_mem_nestedIn hmarked
  have hchecked : (d.journal.entries.map Check.tree).count t = if t ∈ d.entries then 1 else 0 := by
    rw [entries_journal hd, (entries_nodup hd).count]
  have hnested := count_nested hd.distinct (nestedAs_entry_findings hd) (nestedEntries_nodup hd)
    (fun s hs => mem_of_mem_nestedEntries hs) ht
  have hstray : d.strayCount entryKeyword t = 0 := by
    refine strayCount_eq_zero ?_
    rintro (⟨feed, -, -, -, -, hk⟩ | ⟨-, hcond⟩)
    · exact absurd hk (by decide)
    · unfold scopes at hscope
      split at hcond
      · exact absurd hcond.2.2 (by decide)
      · next hsome =>
        rw [if_neg hsome] at hscope
        exact hcond.1 scope (mem_of_mem_feeds hscope) (mem_marked.1 (mem_tops.1 hscope).1).2
          (Tree.mem_all.2 (.inr hts))
  rw [account, hchecked, hnested, hstray]
  by_cases hentry : t ∈ d.entries
  · rw [if_pos hentry, if_neg (htops.1 hentry), if_pos hentry]
  · rw [if_neg hentry, if_pos (not_not.1 (mt htops.2 hentry)), if_neg hentry]

/-- Outside of all feeds of a page an entry is misplaced. -/
theorem account_entry_of_outside (h : t.head.carries "class" entryKeyword) (hfeeds : d.feeds ≠ [])
    (hout : ∀ feed ∈ d.root.below.trees, feed.head.carries "class" feedKeyword → t ∉ feed.all) :
    d.account entryKeyword d.journal.entries t = ⟨0, 0, 1⟩ := by
  have hscopes : ∀ scope ∈ d.scopes, t ∉ scope.below.trees := by
    intro scope hscope hts
    rw [scopes, if_neg hfeeds] at hscope
    exact hout scope (mem_of_mem_feeds hscope) (mem_marked.1 (mem_tops.1 hscope).1).2
      (Tree.mem_all.2 (.inr hts))
  have hentry : t ∉ d.entries := by
    rw [entries_eq]
    exact not_mem_flatMap_scopes (fun _ _ _ => mem_feedEntries) hscopes
  have hnest : t ∉ d.nestedEntries :=
    not_mem_flatMap_scopes (fun _ _ _ h => mem_marked_scope (mem_nestedIn.1 h).1) hscopes
  have hchecked : (d.journal.entries.map Check.tree).count t = 0 := by
    rw [entries_journal hd]
    exact List.count_eq_zero.2 hentry
  have hnested := count_nested hd.distinct (nestedAs_entry_findings hd) (nestedEntries_nodup hd)
    (fun s hs => mem_of_mem_nestedEntries hs) ht
  have hstray : d.strayCount entryKeyword t = 1 := by
    refine strayCount_eq_one hd h (.inr ⟨ht, ?_⟩)
    rw [if_neg hfeeds]
    exact ⟨hout, by decide⟩
  rw [account, hchecked, hnested, if_neg hnest, hstray]

omit ht in
/-- A nested entry lies inside one that is checked. -/
theorem exists_check_of_not_mem_entries (h : t.head.carries "class" entryKeyword) {scope : Tree}
    (hscope : scope ∈ d.scopes) (hts : t ∈ scope.below.trees) (hentry : t ∉ d.entries) :
    ∃ c ∈ d.journal.entries, t ∈ c.tree.below.trees := by
  obtain ⟨s, hs, hst⟩ := exists_mem_tops (mem_marked.2 ⟨hts, h⟩)
  have hentries : s ∈ d.entries := by
    rw [entries_eq]
    exact List.mem_flatMap.2 ⟨scope, hscope, hs⟩
  have hchecks := hentries
  rw [← entries_journal hd] at hchecks
  obtain ⟨c, hc, rfl⟩ := List.mem_map.1 hchecks
  refine ⟨c, hc, (Tree.mem_all.1 hst).resolve_left ?_⟩
  rintro rfl
  exact hentry hentries

omit hd in
/-- A node of a page that is no feed lies below a node where entries are looked for, or outside of
all feeds. -/
theorem mem_scope_or_outside (hfeed : t ∉ d.feeds) :
    (∃ scope ∈ d.scopes, t ∈ scope.below.trees) ∨ d.feeds ≠ [] ∧
      ∀ feed ∈ d.root.below.trees, feed.head.carries "class" feedKeyword → t ∉ feed.all := by
  unfold scopes
  split
  · exact .inl ⟨d.root, List.mem_singleton_self _, ht⟩
  · next hsome =>
    by_cases hin : ∃ feed ∈ marked "class" feedKeyword d.root.below.trees, t ∈ feed.all
    · obtain ⟨other, hother, hto⟩ := hin
      obtain ⟨feed, hf, hof⟩ := exists_mem_tops hother
      refine .inl ⟨feed, hf, (Tree.mem_all.1 (Tree.mem_all_trans hof hto)).resolve_left ?_⟩
      rintro rfl
      exact hfeed hf
    · refine .inr ⟨hsome, fun feed hf hc htf => hin ⟨feed, mem_marked.2 ⟨hf, hc⟩, htf⟩⟩

end Account

/-- **Each feed and each entry of a page is accounted for once.** A feed is checked when it lies
inside no other one, and is reported as nested otherwise. An entry that is no outermost feed is
checked, or is reported as nested inside an entry that is checked, or is reported as misplaced, and
that only outside of the feeds of a page that has some. -/
theorem containers_accounted {text : String} (h : Document.parse text = .ok d) :
    d.journal.pass.findings = d.findings ∧
      misplaced d.findings = (d.straysInFeeds ++ d.straysOnPage).map Occurrence.finding ∧
      (∀ t ∈ d.root.below.trees, t.head.carries "class" feedKeyword →
        (¬d.InsideFeed t ∧ d.account feedKeyword d.journal.feeds t = ⟨1, 0, 0⟩) ∨
          (d.InsideFeed t ∧ d.account feedKeyword d.journal.feeds t = ⟨0, 1, 0⟩)) ∧
      ∀ t ∈ d.root.below.trees, t.head.carries "class" entryKeyword → t ∉ d.feeds →
        d.account entryKeyword d.journal.entries t = ⟨1, 0, 0⟩ ∨
          (d.account entryKeyword d.journal.entries t = ⟨0, 1, 0⟩ ∧
            ∃ c ∈ d.journal.entries, t ∈ c.tree.below.trees) ∨
          (d.account entryKeyword d.journal.entries t = ⟨0, 0, 1⟩ ∧ d.feeds ≠ [] ∧
            ∀ feed ∈ d.root.below.trees, feed.head.carries "class" feedKeyword →
              t ∉ feed.all) := by
  have hd := Document.wellFormed_of_parse h
  refine ⟨d.findings_journal, misplaced_findings hd, fun t ht hfeed => ?_,
    fun t ht hentry hfeed => ?_⟩
  · rw [account_feed hd ht hfeed]
    by_cases hin : d.InsideFeed t
    · have hnot : t ∉ d.feeds := fun h => (mem_feeds_iff ht hfeed).1 h hin
      exact .inr ⟨hin, if_neg hnot⟩
    · exact .inl ⟨hin, if_pos ((mem_feeds_iff ht hfeed).2 hin)⟩
  · rcases mem_scope_or_outside ht hfeed with ⟨scope, hscope, hts⟩ | ⟨hfeeds, hout⟩
    · rw [account_entry_of_scope hd ht hentry hscope hts]
      by_cases hchecked : t ∈ d.entries
      · exact .inl (if_pos hchecked)
      · refine .inr (.inl ⟨if_neg hchecked, ?_⟩)
        exact exists_check_of_not_mem_entries hd hentry hscope hts hchecked
    · exact .inr (.inr ⟨account_entry_of_outside hd ht hentry hfeeds hout, hfeeds, hout⟩)

set_option maxRecDepth 100000 in
/-- An entry around a feed, with a node inside the entry of the feed that is both once more. -/
theorem containers_accounted_around_feed :
    ∃ d, Document.parse
        "<p class='hentry'><b class='hfeed'><i class='hentry'><u class='hfeed hentry'/></i></b></p>" =
          .ok d ∧
      (d.feeds.length = 1 ∧ d.entries.length = 1 ∧ d.nestedEntries.length = 1) ∧
      (∀ t ∈ d.root.below.trees, t.head.carries "class" feedKeyword →
        (¬d.InsideFeed t ∧ d.account feedKeyword d.journal.feeds t = ⟨1, 0, 0⟩) ∨
          (d.InsideFeed t ∧ d.account feedKeyword d.journal.feeds t = ⟨0, 1, 0⟩)) ∧
      ((d.root.below.trees.filter fun t => t.head.carries "class" entryKeyword).map
        (d.account entryKeyword d.journal.entries)) = [⟨0, 0, 1⟩, ⟨1, 0, 0⟩, ⟨0, 1, 0⟩] := by
  obtain ⟨d, h, hlengths, haccounts⟩ := Document.exists_of_parse
    "<p class='hentry'><b class='hfeed'><i class='hentry'><u class='hfeed hentry'/></i></b></p>"
    (fun d => (d.feeds.length = 1 ∧ d.entries.length = 1 ∧ d.nestedEntries.length = 1) ∧
      ((d.root.below.trees.filter fun t => t.head.carries "class" entryKeyword).map
        (d.account entryKeyword d.journal.entries)) = [⟨0, 0, 1⟩, ⟨1, 0, 0⟩, ⟨0, 1, 0⟩])
    (by decide +kernel)
  obtain ⟨-, -, hfeeds, -⟩ := containers_accounted h
  exact ⟨d, h, hlengths, hfeeds, haccounts⟩

end Markup.Document

end HAtom
