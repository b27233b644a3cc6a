import HAtom.Proofs.PageEffect
import HAtom.Session

/-!
# Pages without reports

Which pages a check leaves without a report. The rules that such a page obeys are stated on its tree
alone, from the page down to the cards of authors: `Markup.Document.Accepted`, `AcceptedFeed`,
`AcceptedEntry`, `AcceptedAuthor` and `AcceptedCard`. Each rule makes no finding exactly when its
part of them holds, and `Session.reports_eq_nil_iff` is their sum.
-/

namespace HAtom

open Markup

/-! ## What is accepted -/

/-- A keyword is a word of some attribute of the node. -/
def Markup.Node.Mentions (n : Node) (keyword : String) : Prop :=
  ∃ a ∈ n.attributes, Text.hasWord a.value keyword

/-- None of some nodes lies inside another one. -/
def Unnested (ts : List Tree) : Prop := ∀ s ∈ ts, ∀ t ∈ ts, t ∉ s.below.trees

/-- The titles of some keys are not blank, and no two of them are equal. -/
structure DistinctKeys (keys : List Tree) : Prop where
  filled : ∀ key ∈ keys, ¬Text.isBlankText (keyTitle key)
  distinct : (keys.map keyTitle).Nodup

/-- The target of a link is not blank. -/
def HasTarget (t : Tree) : Prop := ¬Text.isBlankText ((t.head.attribute? "href").getD "")

/-- A card with these nodes inside it has one name, counting itself, and each address that is a link
is a mail link. -/
structure AcceptedCard (view : List Tree) (card : Tree) : Prop where
  name : (cardNames view card).length = 1
  addresses : ∀ t ∈ cardAddresses view, t.head.isTag "a" →
    isMailLink ((t.head.attribute? "href").getD "")

/-- An author with these nodes inside it is a card, or there are cards among them. -/
structure AcceptedAuthor (view : List Tree) (author : Tree) : Prop where
  itself : author.head.carries "class" "vcard" → AcceptedCard view author
  inside : ¬author.head.carries "class" "vcard" → authorCards view ≠ [] ∧
    ∀ card ∈ authorCards view, AcceptedCard (inside card view) card

/-- What an entry holds. The nodes that count as a property are `members`: those below the entry
that carry the property and lie neither at nor below one that counts as a property before it. -/
structure AcceptedEntry (entry : Tree) : Prop where
  unnested : ∀ q, Unnested (members entry.below.trees q)
  title : (members entry.below.trees .title).length = 1
  date : ∀ which, (members entry.below.trees (.date which)).length ≤ 1
  bookmark : (members entry.below.trees .bookmark).length ≤ 1
  body : members entry.below.trees .summary ≠ [] ∨ members entry.below.trees .content ≠ []
  valid : ∀ which, ∀ t ∈ members entry.below.trees (.date which), IsoDate.isValid (dateOf t)
  author : ∀ t ∈ members entry.below.trees .author,
    AcceptedAuthor (inside t (free entry.below.trees Property.author.before)) t
  target : ∀ t, t ∈ members entry.below.trees .bookmark ∨ t ∈ members entry.below.trees .tag →
    HasTarget t
  keys : DistinctKeys (members entry.below.trees .key)

/-- What a feed holds: entries, keys outside of them, and outside of both no keyword of a
property. -/
structure AcceptedFeed (feed : Tree) : Prop where
  unnested : Unnested (marked "class" entryKeyword feed.below.trees)
  entry : ∀ entry ∈ feedEntries feed.below.trees, AcceptedEntry entry
  keysUnnested : Unnested (marked "class" feedKeyKeyword (besideEntries feed.below.trees))
  keys : DistinctKeys (marked "class" feedKeyKeyword (besideEntries feed.below.trees))
  rest : ∀ t ∈ leftover feed.below.trees, ∀ keyword ∈ entryKeywords, ¬t.head.Mentions keyword

/-- What a page holds: feeds with entries, and outside of them no keyword; without feeds the page
itself is one, which may be without entries. -/
structure Markup.Document.Accepted (d : Document) : Prop where
  unnested : Unnested (marked "class" feedKeyword d.root.below.trees)
  page : d.feeds = [] → AcceptedFeed d.root
  feed : ∀ feed ∈ d.feeds, feedEntries feed.below.trees ≠ [] ∧ AcceptedFeed feed
  rest : d.feeds ≠ [] → ∀ t ∈ d.besideFeeds, ∀ keyword ∈ allKeywords, ¬t.head.Mentions keyword

/-! ## The nodes that count as a property -/

theorem mem_free {view : List Tree} {t : Tree} {done rest : List Property}
    (h : done.reverse ++ rest = Property.all) :
    t ∈ free view done ↔ t ∈ view ∧ ∀ r ∈ done, ∀ s ∈ members view r, t ∉ s.all := by
  induction done generalizing rest with
  | nil => simp [free]
  | cons q done ih =>
    have hall : done.reverse ++ q :: rest = Property.all := by simpa using h
    rw [free, mem_uncovered, ih hall, List.forall_mem_cons, members, Property.before_eq hall,
      and_assoc, and_comm (a := ∀ s ∈ having q (free view done), t ∉ s.all)]

theorem Property.before_append (q : Property) : ∃ rest, q.before.reverse ++ q :: rest = all := by
  refine ⟨(all.dropWhile (· != q)).tail, ?_⟩
  cases q with
  | date which => cases which <;> decide
  | _ => decide

/-- **The nodes in sight that count as a property**: they carry it, and lie neither at nor below a
node that counts as a property before it. -/
theorem mem_members {view : List Tree} {q : Property} {t : Tree} :
    t ∈ members view q ↔ (t ∈ view ∧ ∀ r ∈ q.before, ∀ s ∈ members view r, t ∉ s.all) ∧
      t.head.carries q.carrier q.keyword := by
  obtain ⟨rest, h⟩ := q.before_append
  rw [members, mem_having, mem_free h]

/-! ## Rules of nesting, keys and cards -/

theorem nestedFindings_eq_nil {keyword : String} {ts : List Tree} :
    nestedFindings keyword ts = [] ↔ Unnested ts := by
  have hiff : nestedFindings keyword ts = [] ↔ ∀ t ∈ tops ts, inside t ts = [] := by
    simp only [nestedFindings, List.flatMap_eq_nil_iff, List.map_eq_nil_iff]
  rw [hiff]
  constructor
  · intro h s hs t ht hts
    obtain ⟨u, hu, hsu⟩ := exists_mem_tops hs
    exact List.eq_nil_iff_forall_not_mem.1 (h u hu) t
      (mem_inside.2 ⟨ht, Tree.mem_below_of_all_mem hsu hts⟩)
  · intro h t ht
    exact List.eq_nil_iff_forall_not_mem.2 fun s hs =>
      h t (mem_tops.1 ht).1 s (mem_inside.1 hs).1 (mem_inside.1 hs).2

theorem Unnested.tops_eq {ts : List Tree} (h : Unnested ts) : tops ts = ts := tops_eq_self h

theorem keyFindings_eq_nil {kind : KeyKind} {seen : List String} {keys : List Tree} :
    keyFindings kind seen keys = [] ↔
      (∀ key ∈ keys, keyTitle key ∉ seen) ∧ DistinctKeys keys := by
  induction keys generalizing seen with
  | nil => exact iff_of_true rfl ⟨by simp, by simp, by simp⟩
  | cons key rest ih =>
    rw [keyFindings]
    by_cases hblank : Text.isBlankText (keyTitle key)
    · rw [if_pos hblank]
      refine iff_of_false (List.cons_ne_nil _ _) fun h => h.2.filled key List.mem_cons_self hblank
    by_cases hseen : keyTitle key ∈ seen
    · rw [if_neg hblank, if_pos (List.contains_iff_mem.2 hseen)]
      refine iff_of_false (List.cons_ne_nil _ _) fun h => h.1 key List.mem_cons_self hseen
    rw [if_neg hblank, if_neg (mt List.contains_iff_mem.1 hseen), ih]
    constructor
    · rintro ⟨hrest, hfilled, hdistinct⟩
      simp only [List.mem_append, List.mem_singleton, not_or] at hrest
      refine ⟨List.forall_mem_cons.2 ⟨hseen, fun k hk => (hrest k hk).1⟩,
        List.forall_mem_cons.2 ⟨hblank, hfilled⟩, ?_⟩
      rw [List.map_cons, List.nodup_cons]
      refine ⟨fun h => ?_, hdistinct⟩
      obtain ⟨k, hk, hkey⟩ := List.mem_map.1 h
      exact (hrest k hk).2 hkey
    · rintro ⟨hrest, hfilled, hdistinct⟩
      rw [List.map_cons, List.nodup_cons] at hdistinct
      refine ⟨fun k hk => ?_, (List.forall_mem_cons.1 hfilled).2, hdistinct.2⟩
      rw [List.mem_append, List.mem_singleton, not_or]
      exact ⟨hrest k (List.mem_cons_of_mem _ hk),
        fun h => hdistinct.1 (List.mem_map.2 ⟨k, hk, h⟩)⟩

theorem nameFindings_eq_nil {view : List Tree} {card : Tree} :
    nameFindings view card = [] ↔ (cardNames view card).length = 1 := by
  unfold nameFindings
  cases cardNames view card with
  | nil => simp
  | cons t rest => simp

theorem addressFindings_eq_nil {view : List Tree} :
    addressFindings view = [] ↔ ∀ t ∈ cardAddresses view, t.head.isTag "a" →
      isMailLink ((t.head.attribute? "href").getD "") := by
  simp [addressFindings, isBadAddress, List.filter_eq_nil_iff]

theorem cardEffect_eq_nil {view : List Tree} {card : Tree} :
    (cardEffect view card).findings = [] ↔ AcceptedCard view card := by
  rw [findings_cardEffect, List.append_eq_nil_iff, nameFindings_eq_nil, addressFindings_eq_nil]
  exact ⟨fun h => ⟨h.1, h.2⟩, fun h => ⟨h.name, h.addresses⟩⟩

theorem authorEffect_eq_nil {view : List Tree} {author : Tree} :
    (authorEffect view author).findings = [] ↔ AcceptedAuthor view author := by
  rw [findings_authorEffect]
  split
  · next h =>
    rw [cardEffect_eq_nil]
    exact ⟨fun hcard => ⟨fun _ => hcard, fun hn => absurd h hn⟩, fun ha => ha.itself h⟩
  · next h =>
    have hiff : AcceptedAuthor view author ↔ authorCards view ≠ [] ∧
        ∀ card ∈ authorCards view, AcceptedCard (inside card view) card :=
      ⟨fun ha => ha.inside h, fun hcards => ⟨fun hc => absurd hc h, fun _ => hcards⟩⟩
    rw [hiff]
    split
    · next hnil => simp [List.isEmpty_iff.1 hnil]
    · next hcards =>
      simp only [List.flatMap_eq_nil_iff, cardEffect_eq_nil]
      exact (and_iff_right (mt List.isEmpty_iff.2 hcards)).symm

/-! ## Rules of properties and entries -/

/-- How often a property may occur. -/
def Cardinality.Allows (c : Cardinality) (count : Nat) : Prop :=
  match c with
  | .exactlyOne => count = 1
  | .atMostOne => count ≤ 1
  | .any => True

/-- What a node that counts as a property holds, with these nodes in sight of the search for it. -/
def Property.Accepts (q : Property) (view : List Tree) (t : Tree) : Prop :=
  match q with
  | date _ => IsoDate.isValid (dateOf t)
  | author => AcceptedAuthor (inside t view) t
  | bookmark => HasTarget t
  | tag => HasTarget t
  | _ => True

theorem countFindings_eq_nil {entry : Tree} {q : Property} {found : List Tree} :
    countFindings entry q found = [] ↔ q.cardinality.Allows found.length := by
  unfold countFindings Cardinality.Allows
  cases q.cardinality <;> cases found <;> simp

theorem dateFindings_eq_nil {which : DateProperty} {t : Tree} :
    dateFindings which t = [] ↔ IsoDate.isValid (dateOf t) := by
  unfold dateFindings
  by_cases hempty : (dateOf t).isEmpty
  · -- an empty date is not valid
    have hdate : dateOf t = "" := by simpa using hempty
    rw [if_pos hempty, hdate]
    exact iff_of_false (List.cons_ne_nil _ _) (by decide)
  · rw [if_neg hempty]
    split <;> simp_all

theorem linkFindings_eq_nil {keyword : String} {t : Tree} :
    linkFindings keyword t = [] ↔ HasTarget t := by
  unfold linkFindings HasTarget
  split <;> simp_all

theorem occurrenceEffect_eq_nil {q : Property} {view : List Tree} {t : Tree} :
    (occurrenceEffect q (inside t view) t).findings = [] ↔ q.Accepts view t := by
  cases q <;> simp only [occurrenceEffect, Property.Accepts, Effect.findings_found,
    dateFindings_eq_nil, authorEffect_eq_nil, linkFindings_eq_nil]

theorem contentsEffect_eq_nil {q : Property} {view found : List Tree} :
    (contentsEffect q view found).findings = [] ↔
      (∀ t ∈ found, q.Accepts view t) ∧ (q = .key → DistinctKeys found) := by
  by_cases h : q = .key
  · subst h
    rw [contentsEffect, if_pos rfl, Effect.findings_found, keyFindings_eq_nil]
    simp [Property.Accepts]
  · rw [findings_contentsEffect h, List.flatMap_eq_nil_iff]
    simp only [occurrenceEffect_eq_nil, h, false_imp_iff, and_true]

theorem propertyEffect_eq_nil {view : List Tree} {entry : Tree} {q : Property} :
    (propertyEffect view entry q).findings = [] ↔ Unnested (having q view) ∧
      q.cardinality.Allows (having q view).length ∧
      (∀ t ∈ having q view, q.Accepts view t) ∧ (q = .key → DistinctKeys (having q view)) := by
  rw [findings_propertyEffect, List.append_eq_nil_iff, List.append_eq_nil_iff,
    nestedFindings_eq_nil, countFindings_eq_nil, contentsEffect_eq_nil]
  refine and_congr_right fun h => ?_
  rw [h.tops_eq]

/-- An entry is accepted when each property is. -/
theorem acceptedEntry_iff {entry : Tree} :
    AcceptedEntry entry ↔
      (∀ q, Unnested (members entry.below.trees q) ∧
        q.cardinality.Allows (members entry.below.trees q).length ∧
        (∀ t ∈ members entry.below.trees q, q.Accepts (free entry.below.trees q.before) t) ∧
        (q = .key → DistinctKeys (members entry.below.trees q))) ∧
      (members entry.below.trees .summary ≠ [] ∨ members entry.below.trees .content ≠ []) := by
  constructor
  · intro h
    refine ⟨fun q => ⟨h.unnested q, ?_, ?_, fun hq => hq ▸ h.keys⟩, h.body⟩
    · cases q with
      | title => exact h.title
      | date which => exact h.date which
      | bookmark => exact h.bookmark
      | summary | content | author | tag | key => trivial
    · cases q with
      | date which => exact h.valid which
      | author => exact h.author
      | bookmark => exact fun t ht => h.target t (.inl ht)
      | tag => exact fun t ht => h.target t (.inr ht)
      | title | summary | content | key => exact fun _ _ => trivial
  · rintro ⟨h, hbody⟩
    exact {
      unnested := fun q => (h q).1
      title := (h .title).2.1
      date := fun which => (h (.date which)).2.1
      bookmark := (h .bookmark).2.1
      body := hbody
      valid := fun which => (h (.date which)).2.2.1
      author := (h .author).2.2.1
      target := fun t ht => ht.elim ((h .bookmark).2.2.1 t) ((h .tag).2.2.1 t)
      keys := (h .key).2.2.2 rfl }

/-- **The rules of an entry find nothing exactly when it is accepted.** -/
theorem entryEffect_eq_nil {entry : Tree} :
    (entryEffect entry.below.trees entry).findings = [] ↔ AcceptedEntry entry := by
  rw [findings_entryEffect, List.append_eq_nil_iff, List.flatMap_eq_nil_iff, acceptedEntry_iff]
  refine and_congr ?_ ?_
  · simp only [propertyEffect_eq_nil, Property.mem_all, true_imp_iff]
    rfl
  · -- nodes count as summary or content when there are outermost ones
    rw [← not_and_or, ← @tops_eq_nil (members _ .summary), ← @tops_eq_nil (members _ .content)]
    simp [bodyCount, Property.all]

/-! ## Rules of feeds and pages -/

theorem strayFindings_eq_nil {keywords : List String} {ts : List Tree} :
    strayFindings keywords ts = [] ↔
      ∀ t ∈ ts, ∀ keyword ∈ keywords, ¬t.head.Mentions keyword := by
  simp only [strayFindings, Pass.strays, List.flatMap_eq_nil_iff, List.map_eq_nil_iff,
    List.filter_eq_nil_iff, Node.Mentions, not_exists, not_and]
  exact ⟨fun h t ht k hk => h k hk t ht, fun h k hk t ht => h t ht k hk⟩

theorem keysEffect_eq_nil {view : List Tree} :
    (keysEffect view).findings = [] ↔ Unnested (marked "class" feedKeyKeyword view) ∧
      DistinctKeys (marked "class" feedKeyKeyword view) := by
  rw [findings_keysEffect, List.append_eq_nil_iff, nestedFindings_eq_nil, keyFindings_eq_nil]
  refine and_congr_right fun h => ?_
  rw [h.tops_eq]
  exact and_iff_right fun _ _ => List.not_mem_nil

theorem entriesEffect_eq_nil {feed : Tree} (hd : feed.below.Distinct) :
    (entriesEffect feed.below.trees).findings = [] ↔
      ∀ entry ∈ feedEntries feed.below.trees, AcceptedEntry entry := by
  rw [findings_entriesEffect, List.flatMap_eq_nil_iff]
  refine forall₂_congr fun entry h => ?_
  rw [hd.inside_trees (mem_feedEntries h), entryEffect_eq_nil]

/-- **The rules of a feed find nothing exactly when the feed is accepted**, if what is left of it is
scanned: a page without feeds leaves that to the last scan. -/
theorem feedEffect_eq_nil (explicit : Bool) {feed : Tree} (hd : feed.below.Distinct) :
    (feedEffect explicit feed.below.trees feed).findings = [] ∧
        (explicit = false → strayFindings entryKeywords (leftover feed.below.trees) = []) ↔
      (explicit → feedEntries feed.below.trees ≠ []) ∧ AcceptedFeed feed := by
  have hempty : (if explicit && (feedEntries feed.below.trees).isEmpty then
      [(⟨.emptyFeed, feed.head.label⟩ : Finding)] else []) = [] ↔
        (explicit → feedEntries feed.below.trees ≠ []) := by
    cases explicit <;> simp
  have hscan : (if explicit then strayFindings entryKeywords (leftover feed.below.trees)
      else []) = [] ∧
        (explicit = false → strayFindings entryKeywords (leftover feed.below.trees) = []) ↔
      ∀ t ∈ leftover feed.below.trees, ∀ keyword ∈ entryKeywords, ¬t.head.Mentions keyword := by
    rw [← strayFindings_eq_nil]
    cases explicit <;> simp
  simp only [findings_feedEffect, List.append_eq_nil_iff, nestedFindings_eq_nil, hempty,
    keysEffect_eq_nil, entriesEffect_eq_nil hd]
  constructor
  · rintro ⟨⟨⟨⟨hunnested, hexplicit⟩, hkeys, hdistinct⟩, hentry, hrest⟩, hrest'⟩
    exact ⟨hexplicit, hunnested, hentry, hkeys, hdistinct, hscan.1 ⟨hrest, hrest'⟩⟩
  · rintro ⟨hexplicit, h⟩
    obtain ⟨hrest, hrest'⟩ := hscan.2 h.rest
    exact ⟨⟨⟨⟨h.unnested, hexplicit⟩, h.keysUnnested, h.keys⟩, h.entry, hrest⟩, hrest'⟩

namespace Markup.Document

variable {d : Document}

/-- **The rules of a page find nothing exactly when it is accepted.** -/
theorem findings_eq_nil (hd : d.WellFormed) : d.findings = [] ↔ d.Accepted := by
  rw [d.findings_eq hd, List.append_eq_nil_iff, nestedFindings_eq_nil]
  have hfeed : ∀ feed ∈ d.feeds, ((feedEffect true feed.below.trees feed).findings = [] ↔
      feedEntries feed.below.trees ≠ [] ∧ AcceptedFeed feed) := fun feed h => by
    simpa using feedEffect_eq_nil true (hd.distinct.below (mem_of_mem_feeds h))
  by_cases hfeeds : d.feeds = []
  · have hpage := feedEffect_eq_nil false hd.distinct
    simp only [true_imp_iff, Bool.false_eq_true, false_imp_iff, true_and] at hpage
    rw [if_pos hfeeds, List.append_eq_nil_iff, hpage]
    exact ⟨fun h => ⟨h.1, fun _ => h.2, by simp [hfeeds], fun h => absurd hfeeds h⟩,
      fun h => ⟨h.unnested, h.page hfeeds⟩⟩
  · rw [if_neg hfeeds, List.append_eq_nil_iff, List.flatMap_eq_nil_iff, strayFindings_eq_nil]
    constructor
    · rintro ⟨hunnested, hfound, hrest⟩
      exact ⟨hunnested, fun h => absurd h hfeeds,
        fun feed hf => (hfeed feed hf).1 (hfound feed hf), fun _ => hrest⟩
    · intro h
      exact ⟨h.unnested, fun feed hf => (hfeed feed hf).2 (h.feed feed hf), h.rest hfeeds⟩

end Markup.Document

/-- **A check leaves no report exactly when the page is accepted.** -/
theorem Session.reports_eq_nil_iff {text : String} {d : Document}
    (h : Document.parse text = .ok d) (document : String) (elapsed : Nat) :
    ((Session.new document).check text elapsed).2.reports = [] ↔ d.Accepted := by
  rw [← Document.findings_eq_nil (Document.wellFormed_of_parse h)]
  simp [Session.check, Session.new, h, Document.reports, Document.reportsOf]

/-- A feed with one entry, whose author is a card. -/
def completePage : String :=
  "<p class='hfeed'><b class='hentry'><i class='entry-title'/><i class='entry-content'/>" ++
    "<i class='author vcard fn'/></b></p>"

set_option maxRecDepth 100000 in
theorem Session.reports_eq_nil_of_completePage :
    ∃ d, Document.parse completePage = .ok d ∧ d.feeds.length = 1 ∧ d.Accepted ∧
      ((Session.new "page").check completePage 0).2.reports = [] := by
  obtain ⟨d, h, hfindings, hfeeds⟩ := Document.exists_of_parse completePage
    (fun d => d.findings = [] ∧ d.feeds.length = 1) (by decide +kernel)
  have hreports : ((Session.new "page").check completePage 0).2.reports = [] := by
    simp [Session.check, Session.new, h, Document.reports, Document.reportsOf, hfindings]
  exact ⟨d, h, hfeeds, (Session.reports_eq_nil_iff h "page" 0).1 hreports, hreports⟩

end HAtom
