import HAtom.Json.Value

/-!
# Tables of TOML under construction

A text of TOML builds its tables line by line, and a table must not be defined twice. So a table
remembers how it came to be: a header names it, a header names something inside it, or the dots of a
key do. A list of tables grows by headers of its own.

* `Table.set` enters a value, `Table.start` a table, `Table.push` the next table of a list; each
  answers nothing when the text defines something twice.
* `Table.toJson` is the finished table as a value.
-/

namespace HAtom.Toml

/-- How a table came to be. -/
inductive Origin
  /-- By a header of its own, or as the whole text. -/
  | header
  /-- By the header of something inside it. -/
  | implied
  /-- By the dots of a key. -/
  | dots
  deriving DecidableEq, Repr

/-- What a name stands for. -/
inductive Item
  /-- A value that is complete. -/
  | value (v : Json)
  | table (origin : Origin) (entries : List (String × Item))
  /-- A list of tables, of which only the last can still grow. -/
  | tables (earlier : List Json) (last : List (String × Item))

mutual

/-- The value that an item stands for. -/
def Item.toJson : Item → Json
  | .value v => v
  | .table _ entries => .object (entriesJson entries)
  | .tables earlier last => .array (earlier ++ [.object (entriesJson last)])

/-- The fields for the entries of a table. -/
def entriesJson : List (String × Item) → List (String × Json)
  | [] => []
  | (name, item) :: rest => (name, item.toJson) :: entriesJson rest

end

/-- The entries of a table, in the order of their definition. -/
abbrev Table := List (String × Item)

namespace Table

/-- The table as a value. -/
def toJson (t : Table) : Json := .object (entriesJson t)

/-- What a name stands for. -/
def item? (t : Table) (name : String) : Option Item := t.lookup name

/-- Puts an item in the place of the one with its name, or after all others. -/
def replace (t : Table) (name : String) (item : Item) : Table :=
  match t with
  | [] => [(name, item)]
  | entry :: rest =>
    if entry.1 == name then (name, item) :: rest else entry :: replace rest name item

/-- Changes the table that a path leads to from a table of a given origin. Tables on the way that
do not exist yet are made. A header may lead through every table and into the last one of a list; the
dots of a key do not lead into a table that has a header. -/
def alter (byDots : Bool) (change : Origin → Table → Option Table) :
    List String → Origin → Table → Option Table
  | [], origin, t => change origin t
  | name :: path, _, t =>
    match t.item? name with
    | none =>
      let origin := if byDots then Origin.dots else .implied
      (alter byDots change path origin []).map fun inner => t.replace name (.table origin inner)
    | some (.value _) => none
    | some (.table origin inner) =>
      if byDots && origin == .header then none
      else (alter byDots change path origin inner).map fun inner =>
        t.replace name (.table origin inner)
    | some (.tables earlier last) =>
      (alter byDots change path .header last).map fun last =>
        t.replace name (.tables earlier last)

/-- Enters a value under a key with dots. The last table on the way has to be the first one or one
that dots made, and the name has to be new. -/
def set (t : Table) (path : List String) (name : String) (v : Json) : Option Table :=
  t.alter true (fun origin inner =>
    if (path.isEmpty || origin == .dots) && (inner.item? name).isNone then
      some (inner.replace name (.value v))
    else none) path .header

/-- Enters a value under a key with dots into the table of a header. -/
def setBelow (t : Table) (header path : List String) (name : String) (v : Json) : Option Table :=
  t.alter false (fun _ inner => inner.set path name v) header .header

/-- Begins the table of a header. So far it may exist by the headers of what is inside it. -/
def start (t : Table) (path : List String) (name : String) : Option Table :=
  t.alter false (fun _ inner =>
    match inner.item? name with
    | none => some (inner.replace name (.table .header []))
    | some (.table .implied entries) => some (inner.replace name (.table .header entries))
    | some _ => none) path .header

/-- Begins the next table of a list, the first one if there is no list yet. -/
def push (t : Table) (path : List String) (name : String) : Option Table :=
  t.alter false (fun _ inner =>
    match inner.item? name with
    | none => some (inner.replace name (.tables [] []))
    | some (.tables earlier last) =>
      some (inner.replace name (.tables (earlier ++ [.object (entriesJson last)]) []))
    | some _ => none) path .header

end Table

end HAtom.Toml
