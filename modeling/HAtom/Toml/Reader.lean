import HAtom.Toml.Scalar
import HAtom.Toml.Table

/-!
# Reading TOML

Reads a text of TOML, version 1.1, as the value of its outermost table. Each line is blank, a
header, or a key with a value; lists and inline tables may go over several lines.

* `parse?` reads a whole text.
* `readValue` reads one value, in which lists and inline tables may be nested to a bound.
-/

namespace HAtom.Toml

/-! ## Values -/

/-- The greatest depth to which lists and inline tables are nested. -/
def maxDepth : Nat := 80

/-- Splits the last part off a key. -/
def splitPath : List String → Option (List String × String)
  | [] => none
  | [name] => some ([], name)
  | first :: path => (splitPath path).map fun (before, name) => (first :: before, name)

/-- Reads a key and the value after its sign. -/
def readAssignment (one : List Char → Option (Json × List Char)) (s : List Char) :
    Option ((List String × String × Json) × List Char) := do
  let (path, rest) ← readPath s
  let (before, name) ← splitPath path
  match rest with
  | '=' :: rest =>
    let (v, rest) ← one (skipGaps rest)
    some ((before, name, v), rest)
  | _ => none

/-- Reads the parts of a bracketed value up to its closing bracket. There may be a comma after the
last part. The number bounds the count of parts. -/
def readUntil {α : Type} (close : Char) (one : List Char → Option (α × List Char)) :
    Nat → List Char → Option (List α × List Char)
  | 0, _ => none
  | fuel + 1, s =>
    match skipFiller false s with
    | [] => none
    | c :: rest =>
      if c == close then some ([], rest)
      else
        match one (c :: rest) with
        | none => none
        | some (a, rest) =>
          match skipFiller false rest with
          | ',' :: rest => (readUntil close one fuel rest).map fun (more, rest) => (a :: more, rest)
          | c :: rest => if c == close then some ([a], rest) else none
          | [] => none

/-- The value of an inline table with these keys and values. -/
def inlineTable? (entries : List (List String × String × Json)) : Option Json :=
  (entries.foldlM (fun (t : Table) (path, name, v) => t.set path name v) []).map Table.toJson

/-- Reads a value. The number bounds the depth. -/
def readValue : Nat → List Char → Option (Json × List Char)
  | 0, _ => none
  | depth + 1, s =>
    match s with
    | '"' :: _ => (readString s).map fun (text, rest) => (.string text, rest)
    | '\'' :: _ => (readString s).map fun (text, rest) => (.string text, rest)
    | '[' :: rest =>
      (readUntil ']' (readValue depth) s.length rest).map fun (items, rest) => (.array items, rest)
    | '{' :: rest =>
      match readUntil '}' (readAssignment (readValue depth)) s.length rest with
      | some (entries, rest) => (inlineTable? entries).map fun v => (v, rest)
      | none => none
    | _ => readScalar s

/-! ## Lines -/

/-- Reads a header up to its closing brackets; the opening ones have been read. -/
def readHeader (close : List Char) (s : List Char) :
    Option ((List String × String) × List Char) := do
  let (path, rest) ← readPath s
  let named ← splitPath path
  if close.isPrefixOf rest then some (named, ← readLineEnd (rest.drop close.length)) else none

/-- Reads the lines below a header into the table of a whole text. The number bounds their
count. -/
def readLines : Nat → List String → Table → List Char → Option Table
  | 0, _, _, _ => none
  | fuel + 1, header, t, s =>
    match skipFiller false s with
    | [] => some t
    | '[' :: '[' :: rest => do
      let ((path, name), rest) ← readHeader [']', ']'] rest
      readLines fuel (path ++ [name]) (← t.push path name) rest
    | '[' :: rest => do
      let ((path, name), rest) ← readHeader [']'] rest
      readLines fuel (path ++ [name]) (← t.start path name) rest
    | s => do
      let ((path, name, v), rest) ← readAssignment (readValue maxDepth.succ) s
      readLines fuel header (← t.setBelow header path name v) (← readLineEnd rest)

/-- Reads a whole text, which may begin with the mark of its encoding. -/
def parse? (text : String) : Option Json :=
  let s :=
    match text.toList with
    | c :: rest => if c.toNat == 0xFEFF then rest else c :: rest
    | [] => []
  (readLines (s.length + 1) [] [] s).map Table.toJson

end HAtom.Toml
