/-!
# Values of JSON

The values that a JSON text writes. The fields of an object keep their order, and a name may occur
twice: what that means is for the reader of the value to say.

* `Json` is the type of values, `Json.Number` that of numbers.
* `Json.record?` takes a value apart that has known fields.
-/

namespace HAtom

/-- A number as it is written. -/
inductive Json.Number
  /-- A number without fraction and exponent. -/
  | whole (n : Int)
  /-- The number `mantissa * 10 ^ exponent`. -/
  | decimal (mantissa exponent : Int)
  deriving DecidableEq, Repr

/-- A value of JSON. -/
inductive Json
  | null
  | bool (b : Bool)
  | number (n : Json.Number)
  | string (s : String)
  | array (items : List Json)
  | object (fields : List (String × Json))
  deriving Repr

namespace Json

/-- A natural number as a value. -/
def nat (n : Nat) : Json := number (.whole n)

/-- A value, or null. -/
def optional : Option Json → Json
  | some v => v
  | none => null

/-- The values of all fields of a list with this name. -/
def named (name : String) (fields : List (String × Json)) : List Json :=
  fields.filterMap fun field => if field.1 == name then some field.2 else none

/-- The values of named fields, each `none` when it is missing. An object gives its fields by name,
none of these twice, and a list gives them in order, with nothing after the last. -/
def record? (names : List String) : Json → Option (List (Option Json))
  | object fields =>
    names.mapM fun name =>
      match Json.named name fields with
      | [] => some none
      | [v] => some (some v)
      | _ => none
  | array items =>
    if items.length ≤ names.length then
      some (items.map some ++ List.replicate (names.length - items.length) none)
    else none
  | _ => none

/-- Whether a value is a list. -/
def isArray : Json → Bool
  | array _ => true
  | _ => false

/-- The natural number that a value is, if it is at most `bound`. -/
def nat? (bound : Nat) : Json → Option Nat
  | number (.whole (.ofNat n)) => if n ≤ bound then some n else none
  | _ => none

/-- The text that a value is. -/
def string? : Json → Option String
  | string s => some s
  | _ => none

/-- The truth value that a value is. -/
def bool? : Json → Option Bool
  | bool b => some b
  | _ => none

end Json

end HAtom
