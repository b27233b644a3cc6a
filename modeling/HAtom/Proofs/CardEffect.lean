import HAtom.Proofs.Effect
import HAtom.Rules.Card

/-!
# The effect of the rules of a card

What `Pass.checkCard` and `Pass.checkAuthor` claim and find, as functions of the nodes in sight.

* `cardNames` and `cardAddresses` are the names of a card and the addresses in it.
* `cardEffect` and `authorEffect` are the effects, `Pass.gains_checkCard` and
  `Pass.gains_checkAuthor` say so.
-/

namespace HAtom

open Markup

/-! ## Cards -/

/-- The names of a card: the card itself if it is one, and the outermost ones in sight. -/
def cardNames (view : List Tree) (card : Tree) : List Tree :=
  if card.head.carries "class" "fn" then card :: tops (marked "class" "fn" view)
  else tops (marked "class" "fn" view)

/-- The addresses in a card: the outermost ones that no name in it covers. -/
def cardAddresses (view : List Tree) : List Tree :=
  tops (marked "class" "email" (uncovered view (marked "class" "fn" view)))

/-- Whether an address is a link, but no mail link. -/
def isBadAddress (t : Tree) : Bool :=
  t.head.isTag "a" && !isMailLink ((t.head.attribute? "href").getD "")

/-- What is wrong with the names of a card. -/
def nameFindings (view : List Tree) (card : Tree) : List Finding :=
  if (cardNames view card).isEmpty then [⟨.cardWithoutName, card.head.label⟩]
  else ((cardNames view card).drop 1).map fun t => ⟨.repeatedName, t.head.label⟩

/-- What is wrong with the addresses in a card. -/
def addressFindings (view : List Tree) : List Finding :=
  ((cardAddresses view).filter isBadAddress).map fun t => ⟨.notMail, t.head.label⟩

/-- The effect of checking a card. -/
def cardEffect (view : List Tree) (card : Tree) : Effect :=
  ((Effect.claiming (tops (marked "class" "fn" view))).andThen
      (.found (nameFindings view card))).andThen
    ((Effect.claiming (cardAddresses view)).andThen (.found (addressFindings view)))

/-- The cards of an author that is none itself. -/
def authorCards (view : List Tree) : List Tree := tops (marked "class" "vcard" view)

/-- The effect of checking an author. -/
def authorEffect (view : List Tree) (author : Tree) : Effect :=
  if author.head.carries "class" "vcard" then cardEffect view author
  else
    (Effect.claiming (authorCards view)).andThen
      (if (authorCards view).isEmpty then .found [⟨.authorWithoutCard, author.head.label⟩]
      else .all ((authorCards view).map fun card => cardEffect (inside card view) card))

/-! ## What they find -/

theorem findings_cardEffect (view : List Tree) (card : Tree) :
    (cardEffect view card).findings = nameFindings view card ++ addressFindings view := rfl

theorem findings_authorEffect (view : List Tree) (author : Tree) :
    (authorEffect view author).findings =
      if author.head.carries "class" "vcard" then (cardEffect view author).findings
      else if (authorCards view).isEmpty then [⟨.authorWithoutCard, author.head.label⟩]
      else (authorCards view).flatMap fun card =>
        (cardEffect (inside card view) card).findings := by
  unfold authorEffect
  split
  · rfl
  · rw [Effect.findings_andThen, Effect.findings_claiming, List.nil_append]
    split
    · rfl
    · rw [Effect.findings_all, List.flatMap_map]

/-! ## What they claim lies in sight -/

theorem mem_of_mem_cardAddresses {view : List Tree} {t : Tree} (h : t ∈ cardAddresses view) :
    t ∈ view :=
  (mem_uncovered.1 (mem_marked.1 (mem_tops.1 h).1).1).1

theorem mem_of_mem_authorCards {view : List Tree} {t : Tree} (h : t ∈ authorCards view) :
    t ∈ view :=
  (mem_marked.1 (mem_tops.1 h).1).1

theorem claims_cardEffect {view : List Tree} {card : Tree} {l : Nat}
    (hl : l ∈ (cardEffect view card).claims) : ∃ t ∈ view, t.head.label = l := by
  simp only [cardEffect, Effect.claims_andThen, Effect.claims_claiming, Effect.claims_found,
    List.nil_append, List.mem_append, List.mem_map] at hl
  rcases hl with ⟨t, ht, rfl⟩ | ⟨t, ht, rfl⟩
  · exact ⟨t, mem_of_mem_cardAddresses ht, rfl⟩
  · exact ⟨t, (mem_marked.1 (mem_tops.1 ht).1).1, rfl⟩

theorem claims_authorEffect {view : List Tree} {author : Tree} {l : Nat}
    (hl : l ∈ (authorEffect view author).claims) : ∃ t ∈ view, t.head.label = l := by
  unfold authorEffect at hl
  split at hl
  · exact claims_cardEffect hl
  · simp only [Effect.claims_andThen, Effect.claims_claiming, List.mem_append, List.mem_map] at hl
    rcases hl with hl | ⟨t, ht, rfl⟩
    · split at hl
      · simp at hl
      · simp only [Effect.mem_claims_all, List.mem_map, exists_exists_and_eq_and] at hl
        obtain ⟨card, -, hl⟩ := hl
        obtain ⟨t, ht, rfl⟩ := claims_cardEffect hl
        exact ⟨t, (mem_inside.1 ht).1, rfl⟩
    · exact ⟨t, mem_of_mem_authorCards ht, rfl⟩

/-! ## The rules have these effects -/

namespace Pass

theorem checkNames_eq (p : Pass) {card : Tree} (hd : card.below.Distinct) :
    p.checkNames card =
      (p.search card "class" "fn").2.add (nameFindings (p.view card) card) := by
  unfold checkNames nameFindings cardNames
  rw [← p.search_fst hd, apply_ite (p.search card "class" "fn").2.add]
  rfl

theorem checkAddresses_eq (p : Pass) {card : Tree} :
    p.checkAddresses card = (p.search card "class" "email").2.add
      (((p.search card "class" "email").1.filter isBadAddress).map fun t =>
        ⟨.notMail, t.head.label⟩) := rfl

theorem gains_checkCard (p : Pass) {card : Tree} (hd : card.below.Distinct) :
    p.Gains (cardEffect (p.view card) card) (p.checkCard card) := by
  rw [checkCard, p.checkNames_eq hd, checkAddresses_eq]
  have haddresses := search_fst ((p.search card "class" "fn").2.add
    (nameFindings (p.view card) card)) hd "class" "email"
  rw [view_add, p.view_search hd] at haddresses
  rw [haddresses]
  refine ((p.gains_search hd ..).trans (gains_add ..)).trans (Gains.trans ?_ (gains_add ..))
  have h := gains_search ((p.search card "class" "fn").2.add
    (nameFindings (p.view card) card)) hd "class" "email"
  rwa [view_add, p.view_search hd] at h

theorem gains_checkAuthor (p : Pass) {author : Tree} (hd : author.below.Distinct) :
    p.Gains (authorEffect (p.view author) author) (p.checkAuthor author) := by
  unfold checkAuthor authorEffect
  split
  · exact p.gains_checkCard hd
  · have hfst : (p.search author "class" "vcard").1 = authorCards (p.view author) :=
      p.search_fst hd ..
    refine (p.gains_search hd "class" "vcard").trans ?_
    simp only [hfst]
    split
    · exact gains_add ..
    · exact gains_foldl checkCard cardEffect hd (p.marked_view_sublist ..)
        (fun q _ hcard => q.gains_checkCard hcard) claims_cardEffect _
        fun _ hcard => p.view_found hd hcard

/-! ## The values of keys are left alone -/

@[simp] theorem seen_checkCard (p : Pass) (card : Tree) : (p.checkCard card).seen = p.seen := by
  simp only [checkCard, checkAddresses_eq, checkNames, note, noteEach, apply_ite Pass.seen,
    seen_add, seen_search, ite_self]

@[simp] theorem seen_checkAuthor (p : Pass) (author : Tree) :
    (p.checkAuthor author).seen = p.seen := by
  unfold checkAuthor
  split
  · exact p.seen_checkCard author
  · dsimp only
    split
    · rfl
    · rw [seen_foldl seen_checkCard]
      rfl

end Pass

end HAtom
