import HAtom.Json.Reader
import HAtom.Toml.Reader

/-!
# Formats of files with data

Settings and vocabularies come in JSON or in TOML. Both write the same kind of values, so what is
read from either is a value of JSON. The two differ in what may stand for a record or a choice.

* `DataFormat.parse?` reads a text.
* `DataFormat.record?` takes a record apart, `DataFormat.choice?` finds the name of a choice.
* `fieldOr` reads a field that may be missing.
-/

namespace HAtom

/-- The formats of files with data. -/
inductive DataFormat
  | json
  | toml
  deriving DecidableEq, Repr

namespace DataFormat

/-- The value that a text writes. -/
def parse? : DataFormat → String → Option Json
  | json, text => Json.parse? text
  | toml, text => Toml.parse? text

/-- The values of named fields, each `none` when it is missing. A list gives the fields in order;
TOML passes over what a list holds beyond them. -/
def record? (format : DataFormat) (names : List String) (v : Json) : Option (List (Option Json)) :=
  match format, v with
  | toml, .array items => (Json.array (items.take names.length)).record? names
  | _, v => v.record? names

/-- Whether a value says nothing about a choice but that it was made. -/
def isMark (format : DataFormat) (v : Json) : Bool :=
  match format, v with
  | json, .null => true
  | toml, .array [] => true
  | toml, .object [] => true
  | _, _ => false

/-- The name of a choice: a text, or a table in which the name has a mark. -/
def choice? (format : DataFormat) : Json → Option String
  | .string name => some name
  | .object [(name, mark)] => if format.isMark mark then some name else none
  | _ => none

end DataFormat

namespace Json

/-- Reads a field that has a value of its own when it is missing. -/
def fieldOr {α : Type} (missing : α) (read : Json → Option α) : Option Json → Option α
  | none => some missing
  | some v => read v

/-- Reads a value that may be null. -/
def nullOr {α : Type} (read : Json → Option α) : Json → Option (Option α)
  | null => some none
  | v => (read v).map some

/-- Reads a list of texts. -/
def strings? : Json → Option (List String)
  | array items => items.mapM string?
  | _ => none

end Json

end HAtom
