import HAtom.Proofs.CardEffect
import HAtom.Proofs.Pruned
import HAtom.Rules.Page

/-!
# A pass that cuts

The rules of a page once more, for a pass that does not hide the nodes that it finds but cuts them
out of the tree. The rules for a node that was cut out run on the tree that was cut out, and later
searches, checks for nested nodes and scans run on what is left. Attributes and dates are those of
the document as it was read, `Markup.Document.original`. Such a pass claims nothing.

* `Pass.cutOut` is a search, `Pass.cutEntry`, `Pass.cutFeed` and the others are the rules.
* `Markup.Document.cutFindings` are the findings of a page.
-/

namespace HAtom

open Markup

/-! ## The rules of a pass that cuts -/

/-- The tree of the document that a tree was cut out of, as it was before any cut. -/
def Markup.Document.original (d : Document) (t : Tree) : Tree :=
  ((d.place? t.head.label).map Place.tree).getD t

namespace Pass

/-- Finds every node of a tree below its own that carries a keyword, which its own carries. -/
def noteNested (p : Pass) (t : Tree) (name keyword : String) : Pass :=
  p.noteEach (.nested keyword) (t.below.trees.filter fun d => d.head.carries name keyword)

/-- Cuts out the outermost nodes with a keyword, and reports those nested inside them; answers what
was cut out and what is left. -/
def cutOut (p : Pass) (scope : Tree) (name keyword : String) : List Tree × Tree × Pass :=
  let (found, rest) := scope.cut name keyword
  (found, rest, found.foldl (fun p t => p.noteNested t name keyword) p)

/-- Checks that a card has one name; answers what is left of it. -/
def cutNames (p : Pass) (card : Tree) : Tree × Pass :=
  let (inside, rest) := card.cut "class" "fn"
  let names := if card.head.carries "class" "fn" then card :: inside else inside
  (rest, if names.isEmpty then p.note .cardWithoutName card.head
    else p.noteEach .repeatedName (names.drop 1))

/-- Checks that the links to addresses in a card are mail links. -/
def cutAddresses (p : Pass) (card : Tree) : Pass :=
  let (addresses, _) := card.cut "class" "email"
  p.noteEach .notMail (addresses.filter isBadAddress)

/-- Checks a card. -/
def cutCard (p : Pass) (card : Tree) : Pass :=
  let (rest, p) := p.cutNames card
  p.cutAddresses rest

/-- Checks an author. -/
def cutAuthor (p : Pass) (author : Tree) : Pass :=
  if author.head.carries "class" "vcard" then p.cutCard author
  else
    let (cards, _) := author.cut "class" "vcard"
    if cards.isEmpty then p.note .authorWithoutCard author.head else cards.foldl cutCard p

/-- Checks what a property holds, at a node cut out as that property. -/
def cutOccurrence (d : Document) (property : Property) (p : Pass) (t : Tree) : Pass :=
  match property with
  | .date which => p.checkDate which (d.original t)
  | .author => p.cutAuthor t
  | .bookmark => p.checkLink property.keyword t
  | .tag => p.checkLink property.keyword t
  | .key => p.checkKey .entry t.head
  | .title => p
  | .summary => p
  | .content => p

/-- Checks one property of an entry; answers how often it was found and what is left of the
entry. -/
def cutProperty (d : Document) (p : Pass) (entry : Tree) (property : Property) :
    Nat × Tree × Pass :=
  let (found, rest, p) := p.cutOut entry property.carrier property.keyword
  let p := p.checkCount entry property found
  (found.length, rest, found.foldl (cutOccurrence d property) p)

/-- Checks properties of an entry one after another, on what those before have left of it; answers
how many nodes were found as content or summary, `before` of them earlier. -/
def cutProperties (d : Document) : Tree → List Property → Nat → Pass → Nat × Pass
  | _, [], before, p => (before, p)
  | entry, property :: rest, before, p =>
    let (count, entry, p) := p.cutProperty d entry property
    let before := if property == .summary || property == .content then before + count else before
    cutProperties d entry rest before p

/-- Checks an entry. -/
def cutEntry (d : Document) (p : Pass) (entry : Tree) : Pass :=
  let (contents, p) := cutProperties d entry Property.all 0 (p.forget "title")
  p.noteIf (contents == 0) .noContent entry.head

/-- Checks the keys of a feed; answers what is left of it. -/
def cutFeedKeys (p : Pass) (feed : Tree) : Tree × Pass :=
  let (keys, rest, p) := (p.forget "title").cutOut feed "class" feedKeyKeyword
  (rest, keys.foldl (fun p key => p.checkKey .feed key.head) p)

/-- Checks a feed; answers what is left of it. -/
def cutFeed (d : Document) (explicit : Bool) (p : Pass) (feed : Tree) : Tree × Pass :=
  let (entries, rest, p) := p.cutOut feed "class" entryKeyword
  let p := p.noteIf (explicit && entries.isEmpty) .emptyFeed feed.head
  let (rest, p) := p.cutFeedKeys rest
  let p := entries.foldl (cutEntry d) p
  (rest, if explicit then p.scanNodes rest.below.nodes entryKeywords else p)

/-- Reports keywords on the elements that are left of a page. -/
def cutRest (p : Pass) (root : Tree) (keywords : List String) : Pass :=
  p.scanNodes (root.below.nodes.filter Node.isElement) keywords

/-- Checks a page. -/
def cutPage (d : Document) (p : Pass) (root : Tree) : Pass :=
  let (feeds, rest, p) := p.cutOut root "class" feedKeyword
  if feeds.isEmpty then
    let (rest, p) := p.cutFeed d false rest
    p.cutRest rest entryKeywords
  else (feeds.foldl (fun p feed => (p.cutFeed d true feed).2) p).cutRest rest allKeywords

end Pass

/-- The findings of a pass that cuts, in the order in which they are made. -/
def Markup.Document.cutFindings (d : Document) : List Finding :=
  (Pass.fresh.cutPage d d.root).findings

end HAtom
