import HAtom.Markup.Fault

/-!
# Placed text

Text whose characters know where they stand in the document. A part of a text that is read later,
such as the value of an entity, keeps the places of its characters, so that whatever is read from
it is reported where it was written.

* `Source` is a text to be read: its characters and the place after the last one.
* `Source.ofString` places the characters of a document.
-/

namespace HAtom.Markup

/-- A character and its place. -/
structure Glyph where
  char : Char
  position : Position
  deriving DecidableEq, Repr, Inhabited

/-- A text to be read. -/
structure Source where
  rest : List Glyph
  /-- The place after the last character. -/
  stop : Position
  deriving DecidableEq, Repr, Inhabited

/-- The place after a character: a line feed ends a line. -/
def Position.next (p : Position) (c : Char) : Position :=
  if c == '\n' then ⟨p.line + 1, 1⟩ else ⟨p.line, p.column + 1⟩

namespace Source

/-- Places characters from `here` on; `done` holds those placed before, the last one first. -/
def placeFrom (here : Position) (done : List Glyph) : List Char → Source
  | [] => ⟨done.reverse, here⟩
  | c :: rest => placeFrom (here.next c) (⟨c, here⟩ :: done) rest

/-- The characters of a document in their places. -/
def ofString (s : String) : Source := placeFrom ⟨1, 1⟩ [] s.toList

/-- The place of the next character, or the end. -/
def position (s : Source) : Position :=
  match s.rest with
  | [] => s.stop
  | g :: _ => g.position

/-- Whether the text goes on with these characters. -/
def startsWith (s : Source) (start : String) : Bool :=
  start.toList.isPrefixOf ((s.rest.take start.length).map (·.char))

end Source

/-- The characters of placed text. -/
def glyphText (glyphs : List Glyph) : String := String.ofList (glyphs.map (·.char))

end HAtom.Markup
