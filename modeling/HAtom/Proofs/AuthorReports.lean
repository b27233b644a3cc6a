import HAtom.Proofs.PageReports

/-!
# The reports of an author

What an author gives rise to, whatever was claimed before it is looked at. Its cards, their names
and the links to addresses in them are told by what lies inside what and by what was claimed before:
cards lie apart from each other, so that what is claimed in one of them hides nothing in another.
Within a card the names come first, and they hide the addresses at and below them.

* `Pass.cardsOf` and `Pass.namesOf` are the cards of an author and the names of a card.
* `Pass.findings_checkAuthor`: what is found in an author, card by card.
* `Pass.names_reported`: which cards and names are reported.
* `Pass.mailLinks_reported`: which links to addresses are reported. A link that is a name, or that
  lies in one, is not (`Pass.mailLinks_hidden_by_names`).
-/

namespace HAtom

open Markup

/-! ## Mail links -/

/-- A target is a mail address when it starts with `mailto:` in letters of either case, blanks
before it aside. -/
theorem isMailLink_iff {target : String} : isMailLink target ↔
    ∃ scheme rest, (Text.trim target).toList = scheme ++ rest ∧
      scheme.map Char.toLower = "mailto:".toList := by
  rw [isMailLink, beq_iff_eq]
  constructor
  · intro h
    exact ⟨_, _, (List.take_append_drop 7 _).symm, h⟩
  · rintro ⟨scheme, rest, htarget, hscheme⟩
    have hlength : scheme.length = 7 := by
      rw [← List.length_map (f := Char.toLower), hscheme]
      rfl
    rw [htarget, ← hlength, List.take_left, hscheme]

/-- Whether a node is a link to a mail address. -/
def Markup.Node.MailsTo (n : Node) : Prop :=
  ∃ target scheme rest, n.attribute? "href" = some target ∧
    (Text.trim target).toList = scheme ++ rest ∧ scheme.map Char.toLower = "mailto:".toList

theorem Markup.Node.mailsTo_iff {n : Node} :
    n.MailsTo ↔ isMailLink ((n.attribute? "href").getD "") := by
  rw [isMailLink_iff, MailsTo]
  cases n.attribute? "href" with
  | none =>
    refine iff_of_false ?_ ?_
    · rintro ⟨target, -, -, h, -⟩
      exact absurd h (Option.some_ne_none target).symm
    · rintro ⟨scheme, rest, htarget, hscheme⟩
      obtain ⟨rfl, -⟩ := List.append_eq_nil_iff.1 htarget.symm
      exact absurd hscheme (by decide)
  | some target =>
    constructor
    · rintro ⟨_, scheme, rest, h, htarget⟩
      obtain rfl := Option.some.inj h
      exact ⟨scheme, rest, htarget⟩
    · rintro ⟨scheme, rest, htarget⟩
      exact ⟨target, scheme, rest, rfl, htarget⟩

instance (n : Node) : Decidable n.MailsTo := decidable_of_iff _ Node.mailsTo_iff.symm

theorem isBadAddress_iff {t : Tree} : isBadAddress t ↔ t.head.isTag "a" ∧ ¬t.head.MailsTo := by
  rw [isBadAddress, Node.mailsTo_iff, Bool.and_eq_true, Bool.not_eq_true', Bool.not_eq_true]

namespace Pass

/-! ## Cards and names -/

/-- The cards of an author: the author alone when it is one itself, and the outermost ones in it
when it is none. -/
def cardsOf (p : Pass) (author : Tree) : List Tree :=
  if author.head.carries "class" "vcard" then [author]
  else tops (p.matching author "class" "vcard")

/-- The names of a card: the card itself when it is one, and the outermost ones in it. -/
def namesOf (p : Pass) (card : Tree) : List Tree :=
  (if card.head.carries "class" "fn" then [card] else []) ++ tops (p.matching card "class" "fn")

section Cards

variable (p : Pass) {author card other t : Tree}

theorem cardNames_view (hd : card.below.Distinct) :
    cardNames (p.view card) card = p.namesOf card := by
  rw [cardNames, namesOf, p.matching_eq hd]
  split
  · rfl
  · rfl

variable {p}

theorem cardsOf_eq_nil : p.cardsOf author = [] ↔
    ¬author.head.carries "class" "vcard" ∧ p.matching author "class" "vcard" = [] := by
  rw [cardsOf]
  split
  · next h => exact iff_of_false (List.cons_ne_nil _ _) fun hnone => hnone.1 h
  · next h => rw [tops_eq_nil, and_iff_right h]

theorem mem_of_mem_outermost {scope : Tree} {name keyword : String}
    (h : t ∈ tops (p.matching scope name keyword)) : t ∈ scope.below.trees :=
  (List.mem_filter.1 (mem_tops.1 h).1).1

/-- A card is the author, or lies in it. -/
theorem mem_all_of_mem_cardsOf (h : card ∈ p.cardsOf author) : card ∈ author.all := by
  rw [cardsOf] at h
  split at h
  · exact Tree.mem_all.2 (.inl (List.mem_singleton.1 h))
  · exact Tree.mem_all.2 (.inr (mem_of_mem_outermost h))

theorem mem_below_of_mem_cardsOf (h : card ∈ p.cardsOf author) (ht : t ∈ card.below.trees) :
    t ∈ author.below.trees :=
  Tree.mem_below_of_all_mem (mem_all_of_mem_cardsOf h) ht

variable (hd : author.below.Distinct)

include hd

theorem distinct_of_mem_cardsOf (h : card ∈ p.cardsOf author) : card.below.Distinct := by
  rcases Tree.mem_all.1 (mem_all_of_mem_cardsOf h) with rfl | h
  · exact hd
  · exact hd.below h

theorem cardsOf_nodup : (p.cardsOf author).Nodup := by
  rw [cardsOf]
  split
  · exact List.nodup_singleton _
  · exact ((tops_sublist _).trans List.filter_sublist).nodup hd.trees_nodup

/-- Cards lie apart from each other. -/
theorem card_unique (hcard : card ∈ p.cardsOf author) (hother : other ∈ p.cardsOf author)
    (ht : t ∈ card.below.trees) (ht' : t ∈ other.below.trees) : card = other := by
  rw [cardsOf] at hcard hother
  split at hcard
  · next h =>
    rw [if_pos h] at hother
    exact (List.mem_singleton.1 hcard).trans (List.mem_singleton.1 hother).symm
  · next h =>
    rw [if_neg h] at hother
    by_contra hne
    exact hd.apart (mem_of_mem_outermost hcard) (mem_of_mem_outermost hother) hne
      (not_mem_below_of_mem_tops _ hcard _ hother) (not_mem_below_of_mem_tops _ hother _ hcard)
      _ (Forest.label_mem_labels ht) (Forest.label_mem_labels ht')

/-- **What is found in an author**, card by card: in a card that a search found the same is in sight
as before the search. -/
theorem findings_checkAuthor (p : Pass) :
    (p.checkAuthor author).findings = p.findings ++
      if p.cardsOf author = [] then [⟨.authorWithoutCard, author.head.label⟩]
      else (p.cardsOf author).flatMap fun card =>
        nameFindings (p.view card) card ++ addressFindings (p.view card) := by
  rw [(p.gains_checkAuthor hd).findings, findings_authorEffect, cardsOf, p.matching_eq hd]
  refine congrArg (p.findings ++ ·) ?_
  split
  · rw [if_neg (List.cons_ne_nil _ _), List.flatMap_singleton, findings_cardEffect]
  · refine if_congr List.isEmpty_iff rfl (List.flatMap_congr fun card hcard => ?_)
    have hview : p.view card = inside card (p.view author) :=
      hd.visible_below (mem_of_mem_authorCards hcard)
    rw [findings_cardEffect, hview]

end Cards

/-! ## Reports of cards and names -/

/-- **What an author reports of cards and names.** -/
structure NamesReported (p : Pass) (author : Tree) (findings : List Finding) : Prop where
  /-- Without a card that is all there is to report. -/
  without_card : ¬author.head.carries "class" "vcard" → p.matching author "class" "vcard" = [] →
    findings = [⟨.authorWithoutCard, author.head.label⟩]
  /-- With cards, a card without a name is reported, or each name of it but the first; all else
  that is reported are addresses. -/
  with_card : author.head.carries "class" "vcard" ∨ p.matching author "class" "vcard" ≠ [] →
    findings.filter (·.problem ≠ .notMail) = (p.cardsOf author).flatMap fun card =>
      match p.namesOf card with
      | [] => [⟨.cardWithoutName, card.head.label⟩]
      | _ :: extra => extra.map fun name => ⟨.repeatedName, name.head.label⟩

theorem problem_of_mem_nameFindings {view : List Tree} {card : Tree} {f : Finding}
    (hf : f ∈ nameFindings view card) : f.problem ≠ .notMail := by
  unfold nameFindings at hf
  split at hf
  · obtain rfl := List.mem_singleton.1 hf
    exact Problem.noConfusion
  · obtain ⟨name, -, rfl⟩ := List.mem_map.1 hf
    exact Problem.noConfusion

theorem problem_of_mem_addressFindings {view : List Tree} {f : Finding}
    (hf : f ∈ addressFindings view) : f.problem = .notMail := by
  obtain ⟨t, -, rfl⟩ := List.mem_map.1 hf
  rfl

theorem nameFindings_eq (p : Pass) {card : Tree} (hd : card.below.Distinct) :
    nameFindings (p.view card) card =
      match p.namesOf card with
      | [] => [⟨.cardWithoutName, card.head.label⟩]
      | _ :: extra => extra.map fun name => ⟨.repeatedName, name.head.label⟩ := by
  rw [nameFindings, p.cardNames_view hd]
  cases p.namesOf card with
  | nil => rfl
  | cons first extra => rfl

/-- **Which cards and names of an author are reported**, whatever was claimed before. -/
theorem names_reported {d : Document} (hd : d.WellFormed) (p : Pass) {author : Tree}
    (hauthor : author ∈ d.root.all) :
    ∃ findings, (p.checkAuthor author).findings = p.findings ++ findings ∧
      p.NamesReported author findings := by
  have hbelow := hd.below_distinct hauthor
  refine ⟨_, findings_checkAuthor hbelow p, fun hcarries hnone => ?_, fun hcard => ?_⟩
  · rw [if_pos (cardsOf_eq_nil.2 ⟨hcarries, hnone⟩)]
  · have hne : p.cardsOf author ≠ [] := fun hnil => by
      obtain ⟨hcarries, hnone⟩ := cardsOf_eq_nil.1 hnil
      exact hcard.elim hcarries fun hsome => hsome hnone
    rw [if_neg hne, List.filter_flatMap]
    refine List.flatMap_congr fun card hcard => ?_
    have hnames : (nameFindings (p.view card) card).filter (·.problem ≠ .notMail) =
        nameFindings (p.view card) card :=
      List.filter_eq_self.2 fun f hf => decide_eq_true (problem_of_mem_nameFindings hf)
    have haddresses : (addressFindings (p.view card)).filter (·.problem ≠ .notMail) = [] :=
      List.filter_eq_nil_iff.2 fun f hf => by simp [problem_of_mem_addressFindings hf]
    rw [List.filter_append, hnames, haddresses, List.append_nil,
      p.nameFindings_eq (distinct_of_mem_cardsOf hbelow hcard)]

set_option maxRecDepth 100000 in
/-- Three cards of an author, the first of which was claimed before, as was the name in the last
one. The second one is its own name, and another name lies in it. -/
theorem names_reported_around_claimed :
    ∃ d, Document.parse ("<p class='author'><i class='vcard'/><b class='vcard fn'><u class='fn'/>" ++
        "</b><b class='vcard'><u class='fn'/></b></p>") = .ok d ∧
      ∃ author ∈ d.root.all, ∃ findings,
        ((⟨[2, 6], .empty, []⟩ : Pass).checkAuthor author).findings = findings ∧
        findings = [⟨.repeatedName, 4⟩, ⟨.cardWithoutName, 5⟩] ∧
        (⟨[2, 6], .empty, []⟩ : Pass).NamesReported author findings := by
  obtain ⟨d, h, author, hauthor, hfindings⟩ := Document.exists_of_parse
    ("<p class='author'><i class='vcard'/><b class='vcard fn'><u class='fn'/>" ++
      "</b><b class='vcard'><u class='fn'/></b></p>")
    (fun d => ∃ author ∈ d.root.all,
      ((⟨[2, 6], .empty, []⟩ : Pass).checkAuthor author).findings =
        [⟨.repeatedName, 4⟩, ⟨.cardWithoutName, 5⟩]) (by decide +kernel)
  obtain ⟨findings, hadded, hreported⟩ :=
    names_reported (Document.wellFormed_of_parse h) ⟨[2, 6], .empty, []⟩ hauthor
  rw [List.nil_append] at hadded
  exact ⟨d, h, author, hauthor, findings, hadded, hadded.symm.trans hfindings, hreported⟩

/-! ## Reports of links to addresses -/

/-- A link to an address in a card: it lies inside no other address in the card, and nothing in the
card at or above it was claimed. -/
structure MailLink (p : Pass) (card t : Tree) : Prop where
  mem : t ∈ card.below.trees
  isTag : t.head.isTag "a"
  carries : t.head.carries "class" "email"
  outermost : ∀ s ∈ card.below.trees, s.head.carries "class" "email" → t ∉ s.below.trees
  clear : ∀ s ∈ card.below.trees, t ∈ s.all → p.isClaimed s.head.label = false

instance (p : Pass) (card t : Tree) : Decidable (p.MailLink card t) :=
  decidable_of_iff
    (t ∈ card.below.trees ∧ t.head.isTag "a" ∧ t.head.carries "class" "email" ∧
      (∀ s ∈ card.below.trees, s.head.carries "class" "email" → t ∉ s.below.trees) ∧
      ∀ s ∈ card.below.trees, t ∈ s.all → p.isClaimed s.head.label = false)
    ⟨fun ⟨hmem, htag, hcarries, hout, hclear⟩ => ⟨hmem, htag, hcarries, hout, hclear⟩,
      fun h => ⟨h.mem, h.isTag, h.carries, h.outermost, h.clear⟩⟩

/-- Whether a name in a card hides a node: it is one, or lies in one. -/
def HiddenByName (card t : Tree) : Prop :=
  ∃ s ∈ card.below.trees, s.head.carries "class" "fn" ∧ t ∈ s.all

instance (card t : Tree) : Decidable (HiddenByName card t) :=
  inferInstanceAs (Decidable (∃ s ∈ card.below.trees, s.head.carries "class" "fn" ∧ t ∈ s.all))

/-- **What an author reports of links to addresses.** -/
structure MailLinksReported (p : Pass) (author : Tree) (findings : List Finding) : Prop where
  /-- In each card a link that no name hides is reported once when it is no mail link. -/
  count : ∀ card ∈ p.cardsOf author, ∀ t, p.MailLink card t →
    findings.count ⟨.notMail, t.head.label⟩ =
      if HiddenByName card t ∨ t.head.MailsTo then 0 else 1
  /-- Nothing else is. -/
  mem : ∀ f ∈ findings, f.problem = .notMail →
    ∃ card ∈ p.cardsOf author, ∃ t, p.MailLink card t ∧ t.head.label = f.label

section Addresses

variable (p : Pass) {card t : Tree} (hd : card.below.Distinct)

include hd

/-- What lies above a node in sight is in sight. -/
theorem mem_view_of_above {s : Tree} (ht : t ∈ p.view card) (hs : s ∈ card.below.trees)
    (hts : t ∈ s.all) : s ∈ p.view card := by
  rw [view, hd.mem_visible] at ht ⊢
  exact ⟨hs, fun a ha hsa => ht.2 a ha (Tree.mem_all_trans hsa hts)⟩

/-- **The addresses of a card that are bad** are the links in sight that no name hides and that are
no mail links. -/
theorem mem_badAddresses_iff : t ∈ (cardAddresses (p.view card)).filter isBadAddress ↔
    p.MailLink card t ∧ ¬HiddenByName card t ∧ ¬t.head.MailsTo := by
  rw [List.mem_filter, isBadAddress_iff, cardAddresses, mem_tops]
  constructor
  · rintro ⟨⟨ht, hout⟩, htag, hbad⟩
    obtain ⟨hun, hcarries⟩ := mem_marked.1 ht
    obtain ⟨hview, hfree⟩ := mem_uncovered.1 hun
    obtain ⟨hmem, hclear⟩ := hd.mem_visible.1 hview
    refine ⟨⟨hmem, htag, hcarries, fun s hs hemail hts => ?_, hclear⟩, ?_, hbad⟩
    · -- what hides the other address hides this one too
      have hsview := p.mem_view_of_above hd hview hs (Tree.mem_all.2 (.inr hts))
      have hsun : s ∈ uncovered (p.view card) (marked "class" "fn" (p.view card)) :=
        mem_uncovered.2 ⟨hsview, fun u hu hsu =>
          hfree u hu (Tree.mem_all_trans hsu (Tree.mem_all.2 (.inr hts)))⟩
      exact hout s (mem_marked.2 ⟨hsun, hemail⟩) hts
    · rintro ⟨s, hs, hname, hts⟩
      exact hfree s (mem_marked.2 ⟨p.mem_view_of_above hd hview hs hts, hname⟩) hts
  · rintro ⟨hlink, hhidden, hbad⟩
    have hview : t ∈ p.view card := hd.mem_visible.2 ⟨hlink.mem, hlink.clear⟩
    have hun : t ∈ uncovered (p.view card) (marked "class" "fn" (p.view card)) := by
      refine mem_uncovered.2 ⟨hview, fun s hs hts => hhidden ?_⟩
      obtain ⟨hs, hname⟩ := mem_marked.1 hs
      exact ⟨s, mem_below_of_mem_view hs, hname, hts⟩
    refine ⟨⟨mem_marked.2 ⟨hun, hlink.carries⟩, fun s hs => ?_⟩, hlink.isTag, hbad⟩
    obtain ⟨hs, hemail⟩ := mem_marked.1 hs
    exact hlink.outermost s (mem_below_of_mem_view (mem_uncovered.1 hs).1) hemail

/-- In its card a link is reported once or never. -/
theorem count_addressFindings (ht : p.MailLink card t) :
    (addressFindings (p.view card)).count ⟨.notMail, t.head.label⟩ =
      if HiddenByName card t ∨ t.head.MailsTo then 0 else 1 := by
  have hsub : ((cardAddresses (p.view card)).filter isBadAddress).Sublist card.below.trees :=
    ((List.filter_sublist.trans (tops_sublist _)).trans
      ((marked_sublist ..).trans (uncovered_sublist ..))).trans (p.view_sublist card)
  have hbad : t ∈ (cardAddresses (p.view card)).filter isBadAddress ↔
      ¬(HiddenByName card t ∨ t.head.MailsTo) := by
    rw [p.mem_badAddresses_iff hd, and_iff_right ht, not_or]
  rw [addressFindings, hd.count_findings .notMail (hsub.nodup hd.trees_nodup)
    (fun _ hs => hsub.subset hs) ht.mem, if_congr hbad rfl rfl, ite_not]

theorem mailLink_of_mem_addressFindings {f : Finding} (hf : f ∈ addressFindings (p.view card)) :
    ∃ t, p.MailLink card t ∧ t.head.label = f.label := by
  obtain ⟨t, ht, rfl⟩ := List.mem_map.1 hf
  exact ⟨t, ((p.mem_badAddresses_iff hd).1 ht).1, rfl⟩

end Addresses

/-- **Which links to addresses an author reports**, whatever was claimed before. -/
theorem mailLinks_reported {d : Document} (hd : d.WellFormed) (p : Pass) {author : Tree}
    (hauthor : author ∈ d.root.all) :
    ∃ findings, (p.checkAuthor author).findings = p.findings ++ findings ∧
      p.MailLinksReported author findings := by
  have hbelow := hd.below_distinct hauthor
  refine ⟨_, findings_checkAuthor hbelow p, fun card hcard t ht => ?_, fun f hf hproblem => ?_⟩
  · have hothers : ∀ other ∈ p.cardsOf author, other ≠ card →
        ∀ f ∈ nameFindings (p.view other) other ++ addressFindings (p.view other),
          ¬f == ⟨.notMail, t.head.label⟩ := by
      intro other hother hne f hf hft
      obtain rfl := eq_of_beq hft
      rcases List.mem_append.1 hf with hf | hf
      · exact problem_of_mem_nameFindings hf rfl
      · obtain ⟨s, hs, hst⟩ :=
          p.mailLink_of_mem_addressFindings (distinct_of_mem_cardsOf hbelow hother) hf
        obtain rfl := hbelow.eq_of_label_eq (mem_below_of_mem_cardsOf hother hs.mem)
          (mem_below_of_mem_cardsOf hcard ht.mem) hst
        exact hne (card_unique hbelow hother hcard hs.mem ht.mem)
    have hnames : (nameFindings (p.view card) card).count ⟨.notMail, t.head.label⟩ = 0 :=
      List.count_eq_zero.2 fun hmem => problem_of_mem_nameFindings hmem rfl
    rw [if_neg (List.ne_nil_of_mem hcard), List.count,
      countP_flatMap_of_unique (cardsOf_nodup hbelow) hcard hothers, ← List.count,
      List.count_append, hnames, Nat.zero_add,
      p.count_addressFindings (distinct_of_mem_cardsOf hbelow hcard) ht]
  · split at hf
    · obtain rfl := List.mem_singleton.1 hf
      exact Problem.noConfusion hproblem
    · obtain ⟨card, hcard, hf⟩ := List.mem_flatMap.1 hf
      rcases List.mem_append.1 hf with hf | hf
      · exact absurd hproblem (problem_of_mem_nameFindings hf)
      · exact ⟨card, hcard,
          p.mailLink_of_mem_addressFindings (distinct_of_mem_cardsOf hbelow hcard) hf⟩

set_option maxRecDepth 100000 in
/-- Links to addresses in a card: one that is no mail link, one that is, one inside another address,
and one that was claimed before. -/
theorem mailLinks_reported_beside_claimed :
    ∃ d, Document.parse ("<p class='vcard fn'><a class='email' href='x'/>" ++
        "<a class='email' href=' MailTo:y'/><i class='email'><a class='email'/></i>" ++
        "<a class='email'/></p>") = .ok d ∧
      ∃ author ∈ d.root.all, ∃ findings,
        ((⟨[6], .empty, []⟩ : Pass).checkAuthor author).findings = findings ∧
        findings = [⟨.notMail, 2⟩] ∧
        (⟨[6], .empty, []⟩ : Pass).MailLinksReported author findings := by
  obtain ⟨d, h, author, hauthor, hfindings⟩ := Document.exists_of_parse
    ("<p class='vcard fn'><a class='email' href='x'/>" ++
      "<a class='email' href=' MailTo:y'/><i class='email'><a class='email'/></i>" ++
      "<a class='email'/></p>")
    (fun d => ∃ author ∈ d.root.all,
      ((⟨[6], .empty, []⟩ : Pass).checkAuthor author).findings = [⟨.notMail, 2⟩])
    (by decide +kernel)
  obtain ⟨findings, hadded, hreported⟩ :=
    mailLinks_reported (Document.wellFormed_of_parse h) ⟨[6], .empty, []⟩ hauthor
  rw [List.nil_append] at hadded
  exact ⟨d, h, author, hauthor, findings, hadded, hadded.symm.trans hfindings, hreported⟩

set_option maxRecDepth 100000 in
/-- Names hide addresses: of a link that is a name itself and of one in a name neither is reported,
though none is a mail link and nothing was claimed before. -/
theorem mailLinks_hidden_by_names :
    ∃ d, Document.parse ("<p><u class='vcard'><a class='fn email' href='x'/></u>" ++
        "<u class='vcard'><b class='fn'><a class='email' href='x'/></b></u></p>") = .ok d ∧
      ∃ author ∈ d.root.all, (fresh.cardsOf author).length = 2 ∧
        ∀ card ∈ fresh.cardsOf author, ∃ t ∈ card.below.trees, fresh.MailLink card t ∧
          ¬t.head.MailsTo ∧ ⟨.notMail, t.head.label⟩ ∉ (fresh.checkAuthor author).findings :=
  Document.exists_of_parse _ _ (by decide +kernel)

end Pass

end HAtom
