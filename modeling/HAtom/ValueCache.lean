/-!
# Values seen

The values that an attribute has had so far, by the name of the attribute and in the order in which
they were seen. It serves to find keys that occur twice.

* `ValueCache.push` adds a value, `ValueCache.reset` forgets those of one attribute.
* `ValueCache.values` lists the values of an attribute.
-/

namespace HAtom

/-- The values seen, by the name of the attribute. -/
structure ValueCache where
  /-- Each name at most once. -/
  entries : List (String × List String)
  deriving DecidableEq, Repr

namespace ValueCache

/-- No values. -/
def empty : ValueCache := ⟨[]⟩

/-- The values of an attribute among these entries. -/
def valuesIn (name : String) : List (String × List String) → List String
  | [] => []
  | (key, values) :: rest => if key == name then values else valuesIn name rest

/-- The values of an attribute, the first one seen first. -/
def values (c : ValueCache) (name : String) : List String := valuesIn name c.entries

/-- Changes the values of an attribute among these entries. -/
def update (name : String) (change : List String → List String) :
    List (String × List String) → List (String × List String)
  | [] => [(name, change [])]
  | (key, values) :: rest =>
    if key == name then (key, change values) :: rest else (key, values) :: update name change rest

/-- Adds a value after those seen before. -/
def push (c : ValueCache) (name value : String) : ValueCache :=
  ⟨update name (· ++ [value]) c.entries⟩

/-- Whether a value was seen. -/
def contains (c : ValueCache) (name value : String) : Bool := (c.values name).contains value

/-- Forgets the values of an attribute. -/
def reset (c : ValueCache) (name : String) : ValueCache := ⟨update name (fun _ => []) c.entries⟩

end ValueCache

end HAtom
