import HAtom.Json.Value
import HAtom.Text.Words

/-!
# Writing JSON

Values as text, in two layouts: `Json.compact` writes no blank that it need not, `Json.pretty`
puts every item on a line of its own, indented by two spaces for each level around it. Texts are
quoted in one way in both: a backslash before a quote and a backslash, short names for five
controls, four hexadecimal digits for the other controls, and every other character as it is.
-/

namespace HAtom.Json

/-- The digits of a number below sixteen in base sixteen. -/
def hexDigit (n : Nat) : Char := if n < 10 then Char.ofNat (48 + n) else Char.ofNat (87 + n)

/-- The form of one character inside quotes. -/
def escape (c : Char) : List Char :=
  if c == '"' then ['\\', '"']
  else if c == '\\' then ['\\', '\\']
  else if c.toNat == 8 then ['\\', 'b']
  else if c.toNat == 12 then ['\\', 'f']
  else if c == '\n' then ['\\', 'n']
  else if c == '\r' then ['\\', 'r']
  else if c == '\t' then ['\\', 't']
  else if c.toNat < 32 then ['\\', 'u', '0', '0', hexDigit (c.toNat / 16), hexDigit (c.toNat % 16)]
  else [c]

/-- A text between quotes. -/
def quote (s : String) : String :=
  String.ofList ('"' :: (s.toList.flatMap escape ++ ['"']))

/-- A number; one with a fraction or an exponent is written with an exponent. -/
def Number.text : Number → String
  | .whole n => toString n
  | .decimal mantissa exponent => toString mantissa ++ "e" ++ toString exponent

mutual

/-- A value without blanks. -/
def compact : Json → String
  | null => "null"
  | bool true => "true"
  | bool false => "false"
  | number n => n.text
  | string s => quote s
  | array items => "[" ++ Text.join "," (compactItems items) ++ "]"
  | object fields => "\x7b" ++ Text.join "," (compactFields fields) ++ "\x7d"

/-- The items of a list without blanks. -/
def compactItems : List Json → List String
  | [] => []
  | v :: rest => compact v :: compactItems rest

/-- The fields of an object without blanks. -/
def compactFields : List (String × Json) → List String
  | [] => []
  | (name, v) :: rest => (quote name ++ ":" ++ compact v) :: compactFields rest

end

/-- A new line indented by a number of levels. -/
def newLine (level : Nat) : String := String.ofList ('\n' :: List.replicate (2 * level) ' ')

/-- Items on lines of their own between brackets; no items leave the brackets empty. -/
def bracketed (left right : String) (level : Nat) (items : List String) : String :=
  if items.isEmpty then left ++ right
  else
    left ++ newLine (level + 1) ++ Text.join ("," ++ newLine (level + 1)) items ++ newLine level ++
      right

mutual

/-- A value with every item on a line of its own, inside `level` brackets. -/
def prettyAt (level : Nat) : Json → String
  | null => "null"
  | bool true => "true"
  | bool false => "false"
  | number n => n.text
  | string s => quote s
  | array items => bracketed "[" "]" level (prettyItems (level + 1) items)
  | object fields => bracketed "\x7b" "\x7d" level (prettyFields (level + 1) fields)

/-- The items of a list, inside `level` brackets. -/
def prettyItems (level : Nat) : List Json → List String
  | [] => []
  | v :: rest => prettyAt level v :: prettyItems level rest

/-- The fields of an object, inside `level` brackets. -/
def prettyFields (level : Nat) : List (String × Json) → List String
  | [] => []
  | (name, v) :: rest => (quote name ++ ": " ++ prettyAt level v) :: prettyFields level rest

end

/-- A value with every item on a line of its own. -/
def pretty (v : Json) : String := prettyAt 0 v

end HAtom.Json
