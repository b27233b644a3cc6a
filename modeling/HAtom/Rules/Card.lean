import HAtom.Pass

/-!
# Authors

An author is given by a card: the author itself is one, or cards lie inside it. A card has exactly
one name, and a link to an address in it is a mail link.

* `Pass.checkAuthor` checks an author and its cards, `Pass.checkCard` one card.
-/

namespace HAtom

open Markup

/-- Whether the target of a link is a mail address, in letters of either case. -/
def isMailLink (target : String) : Bool :=
  let start := (Text.trim target).toList.take 7
  start.map Char.toLower == "mailto:".toList

namespace Pass

/-- Checks that a card has one name. -/
def checkNames (p : Pass) (card : Tree) : Pass :=
  let (inside, p) := p.search card "class" "fn"
  let names := if card.head.carries "class" "fn" then card :: inside else inside
  if names.isEmpty then p.note .cardWithoutName card.head
  else p.noteEach .repeatedName (names.drop 1)

/-- Checks that the links to addresses in a card are mail links. -/
def checkAddresses (p : Pass) (card : Tree) : Pass :=
  let (addresses, p) := p.search card "class" "email"
  p.noteEach .notMail
    (addresses.filter fun t =>
      t.head.isTag "a" && !isMailLink ((t.head.attribute? "href").getD ""))

/-- Checks a card. -/
def checkCard (p : Pass) (card : Tree) : Pass := (p.checkNames card).checkAddresses card

/-- Checks an author: its cards are the author itself or the outermost ones inside it. -/
def checkAuthor (p : Pass) (author : Tree) : Pass :=
  if author.head.carries "class" "vcard" then p.checkCard author
  else
    let (cards, p) := p.search author "class" "vcard"
    if cards.isEmpty then p.note .authorWithoutCard author.head
    else cards.foldl checkCard p

end Pass

end HAtom
