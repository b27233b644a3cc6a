import HAtom.DataFormat
import HAtom.Failure
import HAtom.FileTree

/-!
# Vocabularies

The keywords of the format and the names of elements, with a text that explains each keyword. A
vocabulary comes from a file, in which names may be blank or occur again.

* `Vocabulary.unique` are the names that count.
* `Vocabulary.load` reads a file, `Vocabulary.loadOr` falls back.
* `Vocabulary.listing` shows the keywords with their explanations.
-/

namespace HAtom

/-- Keywords, elements, and explanations. -/
structure Vocabulary where
  keywords : List String
  elements : List String
  /-- Explanations by keyword, in the order of the keywords. -/
  documentation : List (String × String)
  deriving DecidableEq, Repr

namespace Vocabulary

/-- A vocabulary without words. -/
def empty : Vocabulary := ⟨[], [], []⟩

/-- The explanation of a keyword. -/
def explanation? (v : Vocabulary) (keyword : String) : Option String :=
  v.documentation.lookup keyword

/-- The keywords with a given start. -/
def startingWith (v : Vocabulary) (start : String) : List String :=
  v.keywords.filter fun keyword => Text.startsWith keyword start

/-! ## Names -/

/-- Those of some names that are not among the ones before, each once. -/
def uniqueAfter (before : List String) : List String → List String
  | [] => []
  | name :: rest =>
    if before.contains name then uniqueAfter before rest
    else name :: uniqueAfter (name :: before) rest

/-- The names without the blanks around them: those that are not empty, each where it occurs first. -/
def unique (names : List String) : List String :=
  uniqueAfter [] ((names.map Text.trim).filter fun name => !name.isEmpty)

/-- Puts an explanation in its place by its keyword, instead of an older one. -/
def explain (keyword text : String) : List (String × String) → List (String × String)
  | [] => [(keyword, text)]
  | entry :: rest =>
    if keyword == entry.1 then (keyword, text) :: rest
    else if keyword < entry.1 then (keyword, text) :: entry :: rest
    else entry :: explain keyword text rest

/-- Explanations in the order of their keywords; of several for a keyword the last one counts. -/
def ordered (entries : List (String × String)) : List (String × String) :=
  entries.foldl (fun done entry => explain entry.1 entry.2 done) []

/-! ## Reading -/

/-- Reads explanations. -/
def documentation? : Json → Option (List (String × String))
  | .object fields => do
    return ordered (← fields.mapM fun field => (field.2.string?).map fun text => (field.1, text))
  | _ => none

/-- Reads a vocabulary; each part may be missing. -/
def ofJson? (format : DataFormat) (v : Json) : Option Vocabulary :=
  match format.record? ["hatom_keywords", "xhtml_elements", "documentation"] v with
  | some [keywords, elements, documentation] => do
    return {
      keywords := unique (← Json.fieldOr [] Json.strings? keywords)
      elements := unique (← Json.fieldOr [] Json.strings? elements)
      documentation := ← Json.fieldOr [] documentation? documentation }
  | _ => none

/-- What is said about a text that writes no vocabulary. -/
def notVocabulary : String := "not a text with a vocabulary"

/-- Reads the vocabulary in a file: JSON if the extension of its name says so, and otherwise TOML. -/
def load (files : FileTree) (path : String) : Except VocabularyFault Vocabulary :=
  if !files.has path then .error (.missing path)
  else
    match files.readText path with
    | .error fault => .error (.unreadable path fault)
    | .ok text =>
      let format := if PathText.extension? path == some "json" then DataFormat.json else .toml
      match (format.parse? text).bind (ofJson? format) with
      | some v => .ok v
      | none => .error (.malformed notVocabulary)

/-- The vocabulary in a file, if there is one, and otherwise the usual one. A file that cannot be read
gives no words. -/
def loadOr (usual : Vocabulary) (files : FileTree) (path : Option String) : Vocabulary :=
  match path with
  | none => usual
  | some path =>
    match load files path with
    | .ok v => v
    | .error _ => empty

/-! ## Showing -/

/-- A line of the listing. Keywords with an explanation are filled up with blanks to a width. -/
def line (v : Vocabulary) (width : Nat) (keyword : String) : String :=
  match v.explanation? keyword with
  | some text =>
    keyword ++ String.ofList (List.replicate (width - keyword.length) ' ') ++ "  " ++ text ++ "\n"
  | none => keyword ++ "\n"

/-- The keywords with a given start and their explanations. The column of keywords has as many
characters as the longest of them has bytes. -/
def listing (v : Vocabulary) (start : String) : String :=
  let keywords := v.startingWith start
  let width := (keywords.map String.utf8ByteSize).foldl max 0
  String.join (keywords.map (v.line width))

/-- The value for a vocabulary. -/
def toJson (v : Vocabulary) : Json :=
  .object [
    ("hatom_keywords", .array (v.keywords.map .string)),
    ("xhtml_elements", .array (v.elements.map .string)),
    ("documentation", .object (v.documentation.map fun entry => (entry.1, .string entry.2)))]

end Vocabulary

end HAtom
