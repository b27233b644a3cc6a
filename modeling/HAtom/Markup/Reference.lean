import HAtom.Markup.Character
import HAtom.Markup.Source

/-!
# References

An ampersand starts a reference, to a character by its number, to one of the five characters that
have a name of their own, or to a declared entity. `Piece.ofGlyphs` cuts text into characters and
references.
-/

namespace HAtom.Markup

/-- What a reference stands for. -/
inductive Referent
  | char (c : Char)
  | entity (name : String)
  deriving DecidableEq, Repr

/-- A piece of text or of an attribute value. -/
inductive Piece
  /-- A character that stands for itself. -/
  | plain (c : Char)
  /-- A reference that starts here to a character. -/
  | char (c : Char) (start : Position)
  /-- A reference to an entity, from its start to the place after it. -/
  | entity (name : String) (start after : Position)
  /-- An ampersand that starts no reference. -/
  | broken (start : Position)
  deriving DecidableEq, Repr

namespace Referent

/-- The character with a number; what is no character becomes the replacement character. A number
beyond 32 bits, or that of a character no document may hold, refers to nothing. -/
def ofNumber (n : Nat) : Option Referent :=
  if n ≤ 0xFFFFFFFF then
    let c := if n.isValidChar then Char.ofNat n else Char.ofNat 0xFFFD
    if isDocumentChar c then some (char c) else none
  else none

/-- The referent with a name. -/
def ofName : String → Referent
  | "quot" => char '"'
  | "amp" => char '&'
  | "apos" => char '\''
  | "lt" => char '<'
  | "gt" => char '>'
  | name => entity name

/-- The number that digits write in a base. -/
def foldBase (base : Nat) (digit? : Char → Option Nat) (s : List Char) : Nat :=
  s.foldl (fun n c => base * n + (digit? c).getD 0) 0

/-- Reads a reference after its ampersand: what it stands for and the number of characters up to
and including the semicolon. -/
def read? (s : List Char) : Option (Referent × Nat) :=
  match s with
  | '#' :: 'x' :: rest => number 16 hexDigit? 3 rest
  | '#' :: rest => number 10 (fun c => if c.isDigit then some (c.toNat - 48) else none) 2 rest
  | c :: rest =>
    if isNameStart c then
      let more := rest.takeWhile isNameChar
      match rest.drop more.length with
      | ';' :: _ => some (ofName (String.ofList (c :: more)), more.length + 2)
      | _ => none
    else none
  | [] => none
where
  /-- Reads the digits of a number and the semicolon after `before` characters, the semicolon
  counted. -/
  number (base : Nat) (digit? : Char → Option Nat) (before : Nat) (s : List Char) :
      Option (Referent × Nat) :=
    let digits := s.takeWhile fun c => (digit? c).isSome
    match digits, s.drop digits.length with
    | [], _ => none
    | digits, ';' :: _ =>
      (ofNumber (foldBase base digit? digits)).map fun r => (r, digits.length + before)
    | _, _ => none

end Referent

namespace Piece

/-- The pieces of text of which the first `skip` characters belong to a reference before; `stop` is
the place after the text. -/
def cut (stop : Position) : Nat → List Glyph → List Piece
  | _, [] => []
  | skip + 1, _ :: rest => cut stop skip rest
  | 0, g :: rest =>
    if g.char == '&' then
      let tail := rest.map (·.char)
      match Referent.read? tail with
      | some (.char c, width) => char c g.position :: cut stop width rest
      | some (.entity name, width) =>
        let after := (Source.mk (rest.drop width) stop).position
        entity name g.position after :: cut stop width rest
      | none => [broken g.position]
    else plain g.char :: cut stop 0 rest

/-- The pieces of a text. They end with the first ampersand that starts no reference. -/
def ofSource (s : Source) : List Piece := cut s.stop 0 s.rest

end Piece

end HAtom.Markup
