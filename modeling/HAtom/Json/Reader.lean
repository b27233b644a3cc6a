import HAtom.Json.Value

/-!
# Reading JSON

Reads the value that a text writes, with blanks around every part and nothing else around the
whole. A lone half of a surrogate pair is refused, and so is an unescaped control.

* `Json.parse?` reads a whole text; every other reader answers what it read and the rest.
-/

namespace HAtom.Json

/-- The rest of a text after its blanks. -/
def skipSpaces : List Char → List Char
  | c :: rest => if c == ' ' || c == '\n' || c == '\t' || c == '\r' then skipSpaces rest else c :: rest
  | [] => []

theorem skipSpaces_nil : skipSpaces [] = [] := by rw [skipSpaces]

/-- The value of a digit in base sixteen. -/
def hexValue? (c : Char) : Option Nat :=
  if c.isDigit then some (c.toNat - 48)
  else if 'a' ≤ c && c ≤ 'f' then some (c.toNat - 87)
  else if 'A' ≤ c && c ≤ 'F' then some (c.toNat - 55)
  else none

/-- The number that four digits in base sixteen write. -/
def hex4? (a b c d : Char) : Option Nat := do
  return (← hexValue? a) * 4096 + (← hexValue? b) * 256 + (← hexValue? c) * 16 + (← hexValue? d)

/-- Whether a code unit is the first half of a pair. -/
def isHigh (n : Nat) : Bool := 0xD800 ≤ n && n < 0xDC00

/-- Whether a code unit is the second half of a pair. -/
def isLow (n : Nat) : Bool := 0xDC00 ≤ n && n < 0xE000

/-- The character that a pair of halves stands for. -/
def joinPair (high low : Nat) : Char :=
  Char.ofNat (0x10000 + (high - 0xD800) * 0x400 + (low - 0xDC00))

/-- The character that stands after a backslash for one that has a short name. -/
def unescape? (c : Char) : Option Char :=
  if c == '"' || c == '\\' || c == '/' then some c
  else if c == 'b' then some (Char.ofNat 8)
  else if c == 'f' then some (Char.ofNat 12)
  else if c == 'n' then some '\n'
  else if c == 'r' then some '\r'
  else if c == 't' then some '\t'
  else none

/-- Puts a character in front of what was read. -/
def prepend (c : Char) (read : Option (List Char × List Char)) : Option (List Char × List Char) :=
  read.map fun (s, rest) => (c :: s, rest)

/-- Reads characters up to the quote that ends a text. -/
def readString : List Char → Option (List Char × List Char)
  | [] => none
  | '"' :: rest => some ([], rest)
  | '\\' :: 'u' :: a :: b :: c :: d :: rest =>
    match hex4? a b c d with
    | none => none
    | some n =>
      if isLow n then none
      else if isHigh n then
        match rest with
        | '\\' :: 'u' :: e :: f :: g :: h :: rest =>
          match hex4? e f g h with
          | some low => if isLow low then prepend (joinPair n low) (readString rest) else none
          | none => none
        | _ => none
      else prepend (Char.ofNat n) (readString rest)
  | '\\' :: c :: rest =>
    match unescape? c with
    | some c => prepend c (readString rest)
    | none => none
  | c :: rest => if c.toNat < 32 then none else prepend c (readString rest)

theorem readString_end (rest : List Char) : readString ('"' :: rest) = some ([], rest) := by
  rw [readString]

/-- The number that digits write. -/
def digitsValue (digits : List Char) : Nat :=
  digits.foldl (fun n c => 10 * n + (c.toNat - 48)) 0

/-- Splits a text after its leading digits, of which there must be one at least. -/
def readDigits (s : List Char) : Option (List Char × List Char) :=
  match s.takeWhile Char.isDigit with
  | [] => none
  | digits => some (digits, s.dropWhile Char.isDigit)

/-- Reads the digits before a fraction; only zero itself starts with a zero. -/
def readWhole (s : List Char) : Option (List Char × List Char) :=
  match readDigits s with
  | some ('0' :: _ :: _, _) => none
  | read => read

/-- Reads the exponent of a number, if there is one. -/
def readExponent (s : List Char) : Option (Option Int × List Char) :=
  match s with
  | c :: rest =>
    if c == 'e' || c == 'E' then
      match rest with
      | '-' :: rest => (readDigits rest).map fun (d, rest) => (some (-(digitsValue d : Int)), rest)
      | '+' :: rest => (readDigits rest).map fun (d, rest) => (some (digitsValue d : Int), rest)
      | rest => (readDigits rest).map fun (d, rest) => (some (digitsValue d : Int), rest)
    else some (none, s)
  | [] => some (none, [])

/-- Reads a number without its sign. -/
def readMagnitude (negative : Bool) (s : List Char) : Option (Number × List Char) := do
  let (whole, rest) ← readWhole s
  let (fraction, rest) ←
    match rest with
    | '.' :: rest => (readDigits rest).map fun (d, rest) => (some d, rest)
    | rest => some (none, rest)
  let (exponent, rest) ← readExponent rest
  let signed (n : Nat) : Int := if negative then -(n : Int) else n
  match fraction, exponent with
  | none, none =>
    if negative && digitsValue whole == 0 then some (.decimal 0 0, rest)
    else some (.whole (signed (digitsValue whole)), rest)
  | _, _ =>
    let digits := whole ++ fraction.getD []
    let shift : Int := exponent.getD 0 - (fraction.getD []).length
    some (.decimal (signed (digitsValue digits)) shift, rest)

/-- Reads a number. -/
def readNumber : List Char → Option (Number × List Char)
  | '-' :: rest => readMagnitude true rest
  | s => readMagnitude false s

mutual

/-- Reads a value. The first argument bounds the depth and the number of items. -/
def readValue : Nat → List Char → Option (Json × List Char)
  | 0, _ => none
  | fuel + 1, s =>
    match skipSpaces s with
    | 'n' :: 'u' :: 'l' :: 'l' :: rest => some (null, rest)
    | 't' :: 'r' :: 'u' :: 'e' :: rest => some (bool true, rest)
    | 'f' :: 'a' :: 'l' :: 's' :: 'e' :: rest => some (bool false, rest)
    | '"' :: rest => (readString rest).map fun (s, rest) => (string (String.ofList s), rest)
    | '[' :: rest =>
      match skipSpaces rest with
      | ']' :: rest => some (array [], rest)
      | rest => (readItems fuel rest).map fun (items, rest) => (array items, rest)
    | '{' :: rest =>
      match skipSpaces rest with
      | '}' :: rest => some (object [], rest)
      | rest => (readFields fuel rest).map fun (fields, rest) => (object fields, rest)
    | rest => (readNumber rest).map fun (n, rest) => (number n, rest)

/-- Reads the items of a list up to its end. -/
def readItems : Nat → List Char → Option (List Json × List Char)
  | 0, _ => none
  | fuel + 1, s =>
    match readValue fuel s with
    | none => none
    | some (v, rest) =>
      match skipSpaces rest with
      | ',' :: rest => (readItems fuel rest).map fun (items, rest) => (v :: items, rest)
      | ']' :: rest => some ([v], rest)
      | _ => none

/-- Reads the fields of an object up to its end. -/
def readFields : Nat → List Char → Option (List (String × Json) × List Char)
  | 0, _ => none
  | fuel + 1, s =>
    match skipSpaces s with
    | '"' :: rest =>
      match readString rest with
      | none => none
      | some (name, rest) =>
        match skipSpaces rest with
        | ':' :: rest =>
          match readValue fuel rest with
          | none => none
          | some (v, rest) =>
            let field := (String.ofList name, v)
            match skipSpaces rest with
            | ',' :: rest => (readFields fuel rest).map fun (more, rest) => (field :: more, rest)
            | '}' :: rest => some ([field], rest)
            | _ => none
        | _ => none
    | _ => none

end

theorem readValue_zero (s : List Char) : readValue 0 s = none := by rw [readValue]

theorem readItems_zero (s : List Char) : readItems 0 s = none := by rw [readItems]

theorem readFields_zero (s : List Char) : readFields 0 s = none := by rw [readFields]

/-- Reads the value that a whole text writes. -/
def parse? (text : String) : Option Json :=
  let s := text.toList
  match readValue (2 * s.length + 2) s with
  | some (v, rest) => if (skipSpaces rest).isEmpty then some v else none
  | none => none

end HAtom.Json
