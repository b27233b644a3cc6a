import HAtom.Rules.Entry

/-!
# Feeds and pages

A page holds feeds, or is one feed itself. A feed has at least one entry, keys with different
values, and no keyword of an entry outside its entries. Keywords outside every container are
reported last.

* `Pass.checkFeed` checks one feed, `Pass.checkPage` the whole page.
* `Markup.Document.findings` are the findings of a page.
-/

namespace HAtom

open Markup

namespace Pass

/-- Checks the keys of a feed. -/
def checkFeedKeys (p : Pass) (feed : Tree) : Pass :=
  let (keys, p) := (p.forget "title").collect feed "class" feedKeyKeyword
  keys.foldl (fun p key => p.checkKey .feed key.head) p

/-- Checks a feed. A feed that is not `explicit` stands for a page without feeds: it needs no entry,
and keywords outside its entries are looked for elsewhere. -/
def checkFeed (explicit : Bool) (p : Pass) (feed : Tree) : Pass :=
  let (entries, p) := p.collect feed "class" entryKeyword
  let p := p.noteIf (explicit && entries.isEmpty) .emptyFeed feed.head
  let p := p.checkFeedKeys feed
  let p := entries.foldl checkEntry p
  if explicit then p.scanBelow feed.below entryKeywords else p

/-- Reports keywords on the elements of a document that are not hidden. -/
def checkRest (p : Pass) (d : Document) (keywords : List String) : Pass :=
  let outside := d.places.filter fun place => place.node.isElement && !p.isHidden place.lineage
  p.scanNodes (outside.map Place.node) keywords

/-- Checks a page from a node of its document on. -/
def checkPage (p : Pass) (d : Document) (root : Tree) : Pass :=
  let (feeds, p) := p.collect root "class" feedKeyword
  if feeds.isEmpty then (checkFeed false p root).checkRest d entryKeywords
  else (feeds.foldl (checkFeed true) p).checkRest d allKeywords

end Pass

/-- The findings of a page, in the order in which they are made. -/
def Markup.Document.findings (d : Document) : List Finding :=
  (Pass.fresh.checkPage d d.root).findings

end HAtom
