import HAtom.Markup.Source

/-!
# Events of a document

A document read from left to right is a sequence of events: tags opened and closed, attributes,
text, comments, instructions and declared entities. Text and attribute values are still as they are
written, with their references.

* `Event` is one event, with the places that faults and nodes need.
* `Name` is a qualified name.
-/

namespace HAtom.Markup

/-- A name with an optional qualifier before a colon; no qualifier is the empty text. -/
structure Name where
  qualifier : String
  base : String
  deriving DecidableEq, Repr

/-- The name as it is written. -/
def Name.text (n : Name) : String :=
  if n.qualifier.isEmpty then n.base else n.qualifier ++ ":" ++ n.base

/-- What is read from a document, in order. -/
inductive Event
  /-- A tag opens here; its attributes follow. -/
  | tag (name : Name) (start : Position)
  | attr (name : Name) (start : Position) (value : Source)
  /-- The tag that was opened last is complete, and content follows. -/
  | opened
  /-- The tag that was opened last is complete and has no content. -/
  | empty
  | closed (name : Name) (start : Position)
  | text (value : Source) (start : Position)
  /-- Text in which nothing is a reference. -/
  | verbatim (value : Source) (start : Position)
  | comment (start : Position)
  | instruction (target : String) (start : Position)
  /-- An entity with its replacement text. -/
  | entity (name : String) (value : Source)
  deriving DecidableEq, Repr

end HAtom.Markup
