import HAtom.Proofs.PageEffect

/-!
# Pages that match

Two pages have the same findings, at nodes that correspond, when their nodes with attributes match
one by one. What else the pages hold, and how deep, does not matter.

* `Matching ρ R` says that nodes related by `R` have the same content and text, that `ρ` takes the
  label of one to that of the other, and that `R` keeps what lies inside what.
* `Echoes R` relates lists of nodes of which those with attributes match in order.
* For each rule there is a lemma that its findings match, from `Matching.nestedFindings_eq` up to
  `Matching.feedFindings_eq`; `Matching.findings_eq` is the one for pages.
-/

namespace HAtom

open Markup

/-! ## Nodes with attributes -/

/-- Those of some nodes that have attributes. -/
def dressed (ts : List Tree) : List Tree := ts.filter fun t => !t.head.attributes.isEmpty

theorem Markup.Node.attributes_congr {n n' : Node} (h : n'.content = n.content) :
    n'.attributes = n.attributes := by
  unfold Node.attributes
  rw [h]

theorem attributes_ne_nil_of_carries {n : Node} {name keyword : String}
    (h : n.carries name keyword) : (!n.attributes.isEmpty) = true := by
  cases ha : n.attributes with
  | nil => simp [Node.carries, Node.attribute?, ha] at h
  | cons a rest => rfl

theorem mem_dressed {ts : List Tree} {t : Tree} :
    t ∈ dressed ts ↔ t ∈ ts ∧ (!t.head.attributes.isEmpty) = true := List.mem_filter

theorem mem_of_mem_dressed {ts : List Tree} {t : Tree} (h : t ∈ dressed ts) : t ∈ ts :=
  (mem_dressed.1 h).1

theorem dressed_cons_of_nil {n : Node} (h : n.attributes = []) (below : Forest) (ts : List Tree) :
    dressed (⟨n, below⟩ :: ts) = dressed ts :=
  List.filter_cons_of_neg (by simp [h])

theorem dressed_cons_of_ne_nil {n : Node} (h : n.attributes ≠ []) (below : Forest)
    (ts : List Tree) : dressed (⟨n, below⟩ :: ts) = ⟨n, below⟩ :: dressed ts :=
  List.filter_cons_of_pos (by simp [h])

theorem dressed_append (ts us : List Tree) : dressed (ts ++ us) = dressed ts ++ dressed us :=
  List.filter_append ..

/-- A node with a keyword has attributes. -/
theorem marked_dressed (name keyword : String) (ts : List Tree) :
    marked name keyword (dressed ts) = marked name keyword ts := by
  rw [marked, dressed, List.filter_filter]
  refine List.filter_congr fun t _ => ?_
  cases h : t.head.carries name keyword
  · rfl
  · rw [Bool.true_and]
    exact attributes_ne_nil_of_carries h

theorem uncovered_dressed (ts us : List Tree) :
    dressed (uncovered ts us) = uncovered (dressed ts) us := List.filter_comm ..

theorem inside_dressed (a : Tree) (ts : List Tree) :
    dressed (inside a ts) = inside a (dressed ts) := List.filter_comm ..

theorem strayFindings_dressed (keywords : List String) (ts : List Tree) :
    strayFindings keywords (dressed ts) = strayFindings keywords ts := by
  refine Pass.strayFindings_filter fun t _ h keyword _ => Pass.strays_eq_nil ?_
  rwa [Bool.not_eq_false', List.isEmpty_iff] at h

/-! ## Matching nodes -/

/-- The finding at the node that a map of labels takes its node to. -/
def Finding.relabel (ρ : Nat → Nat) (f : Finding) : Finding := ⟨f.problem, ρ f.label⟩

/-- Related nodes are copies of each other, up to the labels, and lie inside each other as their
copies do. -/
structure Matching (ρ : Nat → Nat) (R : Tree → Tree → Prop) : Prop where
  content : ∀ {t t'}, R t t' → t'.head.content = t.head.content
  label : ∀ {t t'}, R t t' → t'.head.label = ρ t.head.label
  text : ∀ {t t'}, R t t' → t'.text = t.text
  below : ∀ {s s' t t'}, R s s' → R t t' → (t ∈ s.below.trees ↔ t' ∈ s'.below.trees)
  eq : ∀ {s s' t t'}, R s s' → R t t' → (t = s ↔ t' = s')

/-- The nodes of two lists that have attributes are related one by one. -/
def Echoes (R : Tree → Tree → Prop) (ts ts' : List Tree) : Prop :=
  List.Forall₂ R (dressed ts) (dressed ts')

/-- Each member of a list is related to one of the other. -/
theorem exists_of_forall₂ {α β : Type} {R : α → β → Prop} {l : List α} {m : List β}
    (h : List.Forall₂ R l m) {a : α} (ha : a ∈ l) : ∃ b ∈ m, R a b := by
  induction h with
  | nil => exact absurd ha List.not_mem_nil
  | @cons c b _ _ hcb _ ih =>
    rcases List.mem_cons.1 ha with rfl | ha
    · exact ⟨b, List.mem_cons_self, hcb⟩
    · obtain ⟨b', hb', hab⟩ := ih ha
      exact ⟨b', List.mem_cons_of_mem b hb', hab⟩

section Lists

variable {R : Tree → Tree → Prop} {ts ts' : List Tree} (h : List.Forall₂ R ts ts')

include h

/-- What holds of each node of a list holds of each node of the other. -/
theorem forall_mem_congr {P P' : Tree → Prop} (hP : ∀ t t', R t t' → (P t ↔ P' t')) :
    (∀ t ∈ ts, P t) ↔ ∀ t' ∈ ts', P' t' := by
  induction h with
  | nil => simp
  | cons h _ ih => rw [List.forall_mem_cons, List.forall_mem_cons, hP _ _ h, ih]

theorem forall₂_filter {P P' : Tree → Bool} (hP : ∀ t t', R t t' → P' t' = P t) :
    List.Forall₂ R (ts.filter P) (ts'.filter P') :=
  List.rel_filter (fun t t' ht => Bool.eq_iff_iff.1 (hP t t' ht).symm) h

theorem forall₂_mem : List.Forall₂ (fun t t' => t ∈ ts ∧ t' ∈ ts' ∧ R t t') ts ts' := by
  induction h with
  | nil => exact .nil
  | cons h _ ih =>
    refine .cons ⟨List.mem_cons_self, List.mem_cons_self, h⟩ (ih.imp fun s s' hs => ?_)
    exact ⟨List.mem_cons_of_mem _ hs.1, List.mem_cons_of_mem _ hs.2.1, hs.2.2⟩

theorem map_congr_of_forall₂ {β : Type} {g g' : Tree → β} (hg : ∀ t t', R t t' → g' t' = g t) :
    ts'.map g' = ts.map g := by
  induction h with
  | nil => rfl
  | cons h _ ih => rw [List.map_cons, List.map_cons, ih, hg _ _ h]

theorem isEmpty_congr : ts'.isEmpty = ts.isEmpty := by
  cases h <;> rfl

/-- Findings at matching nodes that match one by one. -/
theorem flatMap_relabel {ρ : Nat → Nat} {g g' : Tree → List Finding}
    (hg : ∀ t t', R t t' → g' t' = (g t).map (Finding.relabel ρ)) :
    ts'.flatMap g' = (ts.flatMap g).map (Finding.relabel ρ) := by
  induction h with
  | nil => rfl
  | cons h _ ih => rw [List.flatMap_cons, List.flatMap_cons, List.map_append, ih, hg _ _ h]

end Lists

namespace Matching

variable {ρ : Nat → Nat} {R : Tree → Tree → Prop} (hR : Matching ρ R)

include hR

section Node

variable {t t' : Tree} (h : R t t')

include h

theorem attributes_eq : t'.head.attributes = t.head.attributes :=
  Node.attributes_congr (hR.content h)

theorem attribute?_eq (name : String) : t'.head.attribute? name = t.head.attribute? name := by
  unfold Node.attribute?
  rw [hR.attributes_eq h]

theorem carries_eq (name keyword : String) :
    t'.head.carries name keyword = t.head.carries name keyword := by
  unfold Node.carries
  rw [hR.attribute?_eq h]

theorem isTag_eq (name : String) : t'.head.isTag name = t.head.isTag name := by
  unfold Node.isTag
  rw [hR.content h]

theorem mem_all {s s' : Tree} (hs : R s s') : t ∈ s.all ↔ t' ∈ s'.all := by
  rw [Tree.mem_all, Tree.mem_all, hR.eq hs h, hR.below hs h]

theorem finding_eq (problem : Problem) :
    (⟨problem, t'.head.label⟩ : Finding) = Finding.relabel ρ ⟨problem, t.head.label⟩ := by
  rw [Finding.relabel, hR.label h]

end Node

/-! ## Lists of matching nodes -/

variable {ts ts' us us' view view' : List Tree}

theorem forall₂_marked (h : Echoes R view view') (name keyword : String) :
    List.Forall₂ R (marked name keyword view) (marked name keyword view') := by
  rw [← marked_dressed, ← marked_dressed name keyword view']
  exact forall₂_filter h fun t t' ht => hR.carries_eq ht name keyword

theorem forall₂_tops (h : List.Forall₂ R ts ts') : List.Forall₂ R (tops ts) (tops ts') := by
  refine forall₂_filter h fun t t' ht => decide_eq_decide.2 ?_
  exact (forall_mem_congr h fun s s' hs => not_congr (hR.below hs ht)).symm

theorem forall₂_inside {a a' : Tree} (ha : R a a') (h : List.Forall₂ R ts ts') :
    List.Forall₂ R (inside a ts) (inside a' ts') :=
  forall₂_filter h fun _ _ ht => decide_eq_decide.2 (hR.below ha ht).symm

theorem echoes_inside {a a' : Tree} (ha : R a a') (h : Echoes R view view') :
    Echoes R (inside a view) (inside a' view') := by
  rw [Echoes, inside_dressed, inside_dressed]
  exact hR.forall₂_inside ha h

theorem echoes_uncovered (h : Echoes R view view') (hus : List.Forall₂ R us us') :
    Echoes R (uncovered view us) (uncovered view' us') := by
  rw [Echoes, uncovered_dressed, uncovered_dressed]
  refine forall₂_filter h fun t t' ht => decide_eq_decide.2 ?_
  exact (forall_mem_congr hus fun s s' hs => not_congr (hR.mem_all ht hs)).symm

/-! ## Findings at matching nodes -/

theorem map_problem (h : List.Forall₂ R ts ts') (problem : Problem) :
    (ts'.map fun t => (⟨problem, t.head.label⟩ : Finding)) =
      (ts.map fun t => ⟨problem, t.head.label⟩).map (Finding.relabel ρ) := by
  rw [List.map_map]
  exact map_congr_of_forall₂ h fun _ _ ht => hR.finding_eq ht problem

theorem nestedFindings_eq (h : List.Forall₂ R ts ts') (keyword : String) :
    nestedFindings keyword ts' = (nestedFindings keyword ts).map (Finding.relabel ρ) :=
  flatMap_relabel (hR.forall₂_tops h) fun _ _ ht => hR.map_problem (hR.forall₂_inside ht h) _

theorem keyFindings_eq (h : List.Forall₂ R ts ts') (kind : KeyKind) (seen : List String) :
    keyFindings kind seen ts' = (keyFindings kind seen ts).map (Finding.relabel ρ) := by
  induction h generalizing seen with
  | nil => rfl
  | @cons key key' rest rest' h _ ih =>
    have htitle : keyTitle key' = keyTitle key := by rw [keyTitle, keyTitle, hR.attribute?_eq h]
    rw [keyFindings, keyFindings, htitle]
    split
    · rw [List.map_cons, ih, hR.finding_eq h]
    · split
      · rw [List.map_cons, ih, hR.finding_eq h]
      · exact ih _

theorem strayFindings_eq (h : Echoes R view view') (keywords : List String) :
    strayFindings keywords view' = (strayFindings keywords view).map (Finding.relabel ρ) := by
  have hstrays : ∀ keyword t t', R t t' →
      Pass.strays keyword t'.head = (Pass.strays keyword t.head).map (Finding.relabel ρ) := by
    intro keyword t t' ht
    rw [Pass.strays, Pass.strays, hR.attributes_eq ht, List.map_map]
    exact List.map_congr_left fun a _ => hR.finding_eq ht _
  rw [← strayFindings_dressed, ← strayFindings_dressed keywords view, strayFindings, strayFindings,
    List.map_flatMap]
  exact List.flatMap_congr fun keyword _ => flatMap_relabel h (hstrays keyword)

/-! ## Cards and authors -/

section Card

variable {card card' : Tree} (hcard : R card card') (h : Echoes R view view')

include hcard h

theorem forall₂_cardNames : List.Forall₂ R (cardNames view card) (cardNames view' card') := by
  have htops := hR.forall₂_tops (hR.forall₂_marked h "class" "fn")
  rw [cardNames, cardNames, hR.carries_eq hcard]
  split
  · exact .cons hcard htops
  · exact htops

omit hcard in
theorem forall₂_cardAddresses : List.Forall₂ R (cardAddresses view) (cardAddresses view') :=
  hR.forall₂_tops (hR.forall₂_marked (hR.echoes_uncovered h (hR.forall₂_marked h ..)) ..)

omit h in
theorem isBadAddress_eq : isBadAddress card' = isBadAddress card := by
  rw [isBadAddress, isBadAddress, hR.isTag_eq hcard, hR.attribute?_eq hcard]

theorem cardFindings_eq : (cardEffect view' card').findings =
    (cardEffect view card).findings.map (Finding.relabel ρ) := by
  have hnames := hR.forall₂_cardNames hcard h
  have hname : nameFindings view' card' = (nameFindings view card).map (Finding.relabel ρ) := by
    rw [nameFindings, nameFindings, isEmpty_congr hnames]
    split
    · rw [List.map_singleton, hR.finding_eq hcard]
    · exact hR.map_problem (List.forall₂_drop 1 hnames) _
  have hbad : List.Forall₂ R ((cardAddresses view).filter isBadAddress)
      ((cardAddresses view').filter isBadAddress) :=
    forall₂_filter (hR.forall₂_cardAddresses h) fun _ _ ht => hR.isBadAddress_eq ht
  have haddress : addressFindings view' = (addressFindings view).map (Finding.relabel ρ) :=
    hR.map_problem hbad _
  rw [findings_cardEffect, findings_cardEffect, hname, haddress, List.map_append]

theorem authorFindings_eq : (authorEffect view' card').findings =
    (authorEffect view card).findings.map (Finding.relabel ρ) := by
  have hcards : List.Forall₂ R (authorCards view) (authorCards view') :=
    hR.forall₂_tops (hR.forall₂_marked h ..)
  rw [findings_authorEffect, findings_authorEffect, hR.carries_eq hcard, isEmpty_congr hcards]
  split
  · exact hR.cardFindings_eq hcard h
  · split
    · rw [List.map_singleton, hR.finding_eq hcard]
    · exact flatMap_relabel hcards fun t t' ht => hR.cardFindings_eq ht (hR.echoes_inside ht h)

end Card

/-! ## Properties and entries -/

section Occurrence

variable {t t' : Tree} (ht : R t t')

include ht

theorem dateOf_eq : dateOf t' = dateOf t := by
  unfold dateOf
  simp only [hR.isTag_eq ht, hR.attribute?_eq ht, hR.text ht]

theorem dateFindings_eq (which : DateProperty) :
    dateFindings which t' = (dateFindings which t).map (Finding.relabel ρ) := by
  rw [dateFindings, dateFindings, hR.dateOf_eq ht]
  split
  · rw [List.map_singleton, hR.finding_eq ht]
  · split
    · rw [List.map_singleton, hR.finding_eq ht]
    · rfl

theorem linkFindings_eq (keyword : String) :
    linkFindings keyword t' = (linkFindings keyword t).map (Finding.relabel ρ) := by
  rw [linkFindings, linkFindings, hR.attribute?_eq ht]
  split
  · rw [List.map_singleton, hR.finding_eq ht]
  · rfl

theorem occurrenceFindings_eq (h : Echoes R view view') (q : Property) :
    (occurrenceEffect q view' t').findings =
      (occurrenceEffect q view t).findings.map (Finding.relabel ρ) := by
  cases q with
  | date which =>
    rw [occurrenceEffect, occurrenceEffect, Effect.findings_found, Effect.findings_found]
    exact hR.dateFindings_eq ht which
  | author =>
    rw [occurrenceEffect, occurrenceEffect]
    exact hR.authorFindings_eq ht h
  | bookmark | tag => exact hR.linkFindings_eq ht _
  | title | summary | content | key => rfl

end Occurrence

theorem contentsFindings_eq (h : Echoes R view view') (hts : List.Forall₂ R ts ts')
    (q : Property) : (contentsEffect q view' ts').findings =
      (contentsEffect q view ts).findings.map (Finding.relabel ρ) := by
  by_cases hq : q = .key
  · rw [contentsEffect, contentsEffect, if_pos hq, if_pos hq]
    exact hR.keyFindings_eq hts ..
  · rw [findings_contentsEffect hq, findings_contentsEffect hq]
    exact flatMap_relabel hts fun t t' ht =>
      hR.occurrenceFindings_eq ht (hR.echoes_inside ht h) q

section Entry

variable {entry entry' : Tree} (hentry : R entry entry') (h : Echoes R view view')

include hentry

theorem countFindings_eq (hts : List.Forall₂ R ts ts') (q : Property) :
    countFindings entry' q ts' = (countFindings entry q ts).map (Finding.relabel ρ) := by
  have hrepeated := hR.map_problem (List.forall₂_drop 1 hts) (.repeated q)
  unfold countFindings
  cases q.cardinality with
  | any => rfl
  | exactlyOne =>
    cases hts with
    | nil => rw [List.map_singleton, hR.finding_eq hentry]
    | cons _ _ => exact hrepeated
  | atMostOne => cases hts <;> exact hrepeated

include h

theorem propertyFindings_eq (q : Property) : (propertyEffect view' entry' q).findings =
    (propertyEffect view entry q).findings.map (Finding.relabel ρ) := by
  have hhaving : List.Forall₂ R (having q view) (having q view') := hR.forall₂_marked h ..
  have htops := hR.forall₂_tops hhaving
  rw [findings_propertyEffect, findings_propertyEffect, hR.nestedFindings_eq hhaving,
    hR.countFindings_eq hentry htops, hR.contentsFindings_eq h htops, List.map_append,
    List.map_append]

omit hentry

theorem echoes_free (before : List Property) : Echoes R (free view before) (free view' before) := by
  induction before with
  | nil => exact h
  | cons q before ih => exact hR.echoes_uncovered ih (hR.forall₂_marked ih ..)

theorem bodyCount_eq (qs : List Property) : bodyCount view' qs = bodyCount view qs := by
  induction qs with
  | nil => rfl
  | cons q rest ih =>
    have hmembers : List.Forall₂ R (members view q) (members view' q) :=
      hR.forall₂_marked (hR.echoes_free h q.before) ..
    rw [bodyCount, bodyCount, ih, (hR.forall₂_tops hmembers).length_eq]

include hentry

/-- **Entries that match have the same findings.** -/
theorem entryFindings_eq : (entryEffect view' entry').findings =
    (entryEffect view entry).findings.map (Finding.relabel ρ) := by
  have hproperties : (Property.all.flatMap fun q =>
      (propertyEffect (free view' q.before) entry' q).findings) =
      (Property.all.flatMap fun q =>
        (propertyEffect (free view q.before) entry q).findings).map (Finding.relabel ρ) := by
    rw [List.map_flatMap]
    exact List.flatMap_congr fun q _ => hR.propertyFindings_eq hentry (hR.echoes_free h q.before) q
  rw [findings_entryEffect, findings_entryEffect, hproperties, hR.bodyCount_eq h, List.map_append]
  split
  · rw [List.map_singleton, hR.finding_eq hentry]
  · rfl

end Entry

/-! ## Feeds -/

section Feed

variable (h : Echoes R view view')

include h

theorem forall₂_feedEntries : List.Forall₂ R (feedEntries view) (feedEntries view') :=
  hR.forall₂_tops (hR.forall₂_marked h ..)

theorem echoes_besideEntries : Echoes R (besideEntries view) (besideEntries view') :=
  hR.echoes_uncovered h (hR.forall₂_marked h ..)

theorem echoes_leftover : Echoes R (leftover view) (leftover view') := by
  have hbeside := hR.echoes_besideEntries h
  exact hR.echoes_uncovered hbeside (hR.forall₂_marked hbeside ..)

theorem keysFindings_eq : (keysEffect view').findings =
    (keysEffect view).findings.map (Finding.relabel ρ) := by
  have hkeys := hR.forall₂_marked h "class" feedKeyKeyword
  rw [findings_keysEffect, findings_keysEffect, hR.nestedFindings_eq hkeys,
    hR.keyFindings_eq (hR.forall₂_tops hkeys), List.map_append]

theorem entriesFindings_eq : (entriesEffect view').findings =
    (entriesEffect view).findings.map (Finding.relabel ρ) := by
  rw [findings_entriesEffect, findings_entriesEffect]
  exact flatMap_relabel (hR.forall₂_feedEntries h) fun t t' ht =>
    hR.entryFindings_eq ht (hR.echoes_inside ht h)

/-- **Feeds that match have the same findings.** The nodes themselves match when they are marked as
feeds. -/
theorem feedFindings_eq {explicit : Bool} {feed feed' : Tree} (hfeed : explicit → R feed feed') :
    (feedEffect explicit view' feed').findings =
      (feedEffect explicit view feed).findings.map (Finding.relabel ρ) := by
  have hempty : (if explicit && (feedEntries view').isEmpty then
      [⟨.emptyFeed, feed'.head.label⟩] else [] : List Finding) =
      (if explicit && (feedEntries view).isEmpty then
        [⟨.emptyFeed, feed.head.label⟩] else []).map (Finding.relabel ρ) := by
    rw [isEmpty_congr (hR.forall₂_feedEntries h)]
    split
    · next hc => rw [List.map_singleton, hR.finding_eq (hfeed (Bool.and_eq_true_iff.1 hc).1)]
    · rfl
  have hstray : (if explicit then strayFindings entryKeywords (leftover view') else []) =
      (if explicit then strayFindings entryKeywords (leftover view) else []).map
        (Finding.relabel ρ) := by
    split
    · exact hR.strayFindings_eq (hR.echoes_leftover h) _
    · rfl
  simp only [findings_feedEffect, List.map_append, hempty, hstray, hR.entriesFindings_eq h,
    hR.keysFindings_eq (hR.echoes_besideEntries h), hR.nestedFindings_eq (hR.forall₂_marked h ..)]

end Feed

/-! ## Pages -/

section Page

variable {d d' : Document} (hd : d.WellFormed) (hd' : d'.WellFormed)
  (h : Echoes R d.root.below.trees d'.root.below.trees)

include h

theorem forall₂_feeds : List.Forall₂ R d.feeds d'.feeds := hR.forall₂_tops (hR.forall₂_marked h ..)

include hd hd'

theorem echoes_feed {feed feed' : Tree} (hfeed : feed ∈ d.feeds) (hfeed' : feed' ∈ d'.feeds)
    (ht : R feed feed') : Echoes R feed.below.trees feed'.below.trees := by
  have hin := hR.echoes_inside ht h
  rwa [hd.distinct.inside_trees (Document.mem_of_mem_feeds hfeed),
    hd'.distinct.inside_trees (Document.mem_of_mem_feeds hfeed')] at hin

/-- **Pages that match have the same findings.** -/
theorem findings_eq : d'.findings = d.findings.map (Finding.relabel ρ) := by
  have hfeeds := hR.forall₂_feeds h
  have hnone : d'.feeds = [] ↔ d.feeds = [] := by
    rw [← List.isEmpty_iff, ← List.isEmpty_iff, isEmpty_congr hfeeds]
  rw [d.findings_eq hd, d'.findings_eq hd', List.map_append,
    hR.nestedFindings_eq (hR.forall₂_marked h ..)]
  refine congrArg _ ?_
  by_cases hc : d.feeds = []
  · have hpage : (feedEffect false d'.root.below.trees d'.root).findings =
        (feedEffect false d.root.below.trees d.root).findings.map (Finding.relabel ρ) :=
      hR.feedFindings_eq h fun hexplicit => absurd hexplicit Bool.false_ne_true
    rw [if_pos hc, if_pos (hnone.2 hc), List.map_append, hpage,
      hR.strayFindings_eq (hR.echoes_leftover h)]
  · have hbeside : Echoes R d.besideFeeds d'.besideFeeds :=
      hR.echoes_uncovered h (hR.forall₂_marked h ..)
    have hfeed : (d'.feeds.flatMap fun feed => (feedEffect true feed.below.trees feed).findings) =
        (d.feeds.flatMap fun feed => (feedEffect true feed.below.trees feed).findings).map
          (Finding.relabel ρ) :=
      flatMap_relabel (forall₂_mem hfeeds) fun feed feed' ⟨hf, hf', ht⟩ =>
        hR.feedFindings_eq (hR.echoes_feed hd hd' h hf hf' ht) fun _ => ht
    rw [if_neg hc, if_neg (mt hnone.1 hc), List.map_append, hfeed, hR.strayFindings_eq hbeside]

end Page

end Matching

end HAtom
