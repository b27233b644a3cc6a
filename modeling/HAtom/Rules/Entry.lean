import HAtom.IsoDate
import HAtom.Rules.Card

/-!
# Entries

The properties of an entry are looked for one after another, and a node that is found as one
property hides what lies below it from the search for the next. An entry has exactly one title, one
date of each kind and one bookmark at most, and content or a summary.

* `Pass.checkProperty` checks one property of an entry and counts its occurrences.
* `Pass.checkEntry` checks all of them.
-/

namespace HAtom

open Markup

/-- The date that a node holds: an abbreviation or a time may give it in an attribute, otherwise it
is the text. -/
def dateOf (t : Tree) : String :=
  let given :=
    if t.head.isTag "abbr" then t.head.attribute? "title"
    else if t.head.isTag "time" then t.head.attribute? "datetime"
    else none
  Text.trim (given.getD t.text)

namespace Pass

/-- Checks that a node holds a date. -/
def checkDate (p : Pass) (which : DateProperty) (t : Tree) : Pass :=
  let value := dateOf t
  if value.isEmpty then p.note (.emptyDate which) t.head
  else p.noteIf (!IsoDate.isValid value) (.badDate which value) t.head

/-- Checks that a link has a target. -/
def checkLink (p : Pass) (keyword : String) (t : Tree) : Pass :=
  p.noteIf (Text.isBlankText ((t.head.attribute? "href").getD "")) (.blankLink keyword) t.head

/-- Checks what a property holds, at a node found as that property. -/
def checkOccurrence (property : Property) (p : Pass) (t : Tree) : Pass :=
  match property with
  | .date which => p.checkDate which t
  | .author => p.checkAuthor t
  | .bookmark => p.checkLink property.keyword t
  | .tag => p.checkLink property.keyword t
  | .key => p.checkKey .entry t.head
  | .title => p
  | .summary => p
  | .content => p

/-- Checks how often a property occurs in an entry. -/
def checkCount (p : Pass) (entry : Tree) (property : Property) (found : List Tree) : Pass :=
  match property.cardinality, found with
  | .any, _ => p
  | .exactlyOne, [] => p.note (.missing property) entry.head
  | _, found => p.noteEach (.repeated property) (found.drop 1)

/-- Checks one property of an entry; answers how often it was found. -/
def checkProperty (p : Pass) (entry : Tree) (property : Property) : Nat × Pass :=
  let (found, p) := p.collect entry property.carrier property.keyword
  let p := p.checkCount entry property found
  (found.length, found.foldl (checkOccurrence property) p)

/-- Checks properties of an entry one after another; answers how many nodes were found as content or
summary, `before` of them earlier. -/
def checkProperties (entry : Tree) : List Property → Nat → Pass → Nat × Pass
  | [], before, p => (before, p)
  | property :: rest, before, p =>
    let (count, p) := p.checkProperty entry property
    let before := if property == .summary || property == .content then before + count else before
    checkProperties entry rest before p

/-- Checks an entry. -/
def checkEntry (p : Pass) (entry : Tree) : Pass :=
  let (contents, p) := checkProperties entry Property.all 0 (p.forget "title")
  p.noteIf (contents == 0) .noContent entry.head

end Pass

end HAtom
