import HAtom.Toml.Text
import HAtom.Text.Words

/-!
# Numbers, truth values and points in time in TOML

The values that TOML writes without quotes or brackets. A whole number is signed and has at most
128 bits; between its digits there may be single low lines. A point in time stands for a table with
one reserved name, as which a setting that wants anything else refuses it.

* `scalar?` tells the value that a word writes, `readScalar` reads such a word.
-/

namespace HAtom.Toml

/-! ## Numbers -/

/-- The value of a digit in a base. -/
def digit? (base : Nat) (c : Char) : Option Nat :=
  (Json.hexValue? c).bind fun d => if d < base then some d else none

/-- The digits of a text in which single low lines may stand between digits. -/
def digits? (base : Nat) (s : List Char) : Option (List Nat) :=
  let groups := Text.pieces (· == '_') s
  if groups.any List.isEmpty then none else groups.flatten.mapM (digit? base)

/-- The number that digits write in a base. -/
def ofDigits (base : Nat) (digits : List Nat) : Nat := digits.foldl (fun n d => n * base + d) 0

/-- The decimal digits of a number without a zero in front. -/
def decimalDigits? (s : List Char) : Option (List Nat) :=
  match s with
  | '0' :: _ :: _ => none
  | _ => digits? 10 s

/-- Splits off a sign; answers whether it is a minus. -/
def splitSign : List Char → Bool × List Char
  | '-' :: rest => (true, rest)
  | '+' :: rest => (false, rest)
  | s => (false, s)

/-- A number with its sign. -/
def signed (negative : Bool) (n : Nat) : Int := if negative then -(n : Int) else n

/-- A whole number, if it has at most 128 bits. -/
def wide? (n : Int) : Option Json :=
  let bound : Int := Nat.pow 2 127
  if -bound ≤ n && n < 2 * bound then some (.number (.whole n)) else none

/-- The whole number that a word writes. A base other than ten allows no sign. -/
def whole? (s : List Char) : Option Json :=
  match s with
  | '0' :: 'x' :: rest => (digits? 16 rest).bind fun ds => wide? (ofDigits 16 ds)
  | '0' :: 'o' :: rest => (digits? 8 rest).bind fun ds => wide? (ofDigits 8 ds)
  | '0' :: 'b' :: rest => (digits? 2 rest).bind fun ds => wide? (ofDigits 2 ds)
  | _ =>
    let (negative, s) := splitSign s
    (decimalDigits? s).bind fun ds => wide? (signed negative (ofDigits 10 ds))

/-- The exponent that a word writes, zero for a word that writes none. -/
def exponent? : List Char → Option Int
  | [] => some 0
  | _ :: s =>
    let (negative, s) := splitSign s
    (digits? 10 s).map fun ds => signed negative (ofDigits 10 ds)

/-- The digits after the point that a word begins with, none for an empty word. -/
def fraction? : List Char → Option (List Nat)
  | [] => some []
  | '.' :: s => digits? 10 s
  | _ => none

/-- Whether a number of this many digits and this exponent is too large to be measured: beyond
three hundred and nine digits before its point. -/
def isHuge (digits : List Nat) (exponent : Int) : Bool :=
  let digits := digits.dropWhile (· == 0)
  !digits.isEmpty && 309 < (digits.length : Int) + exponent

/-- The fractional number that a word writes; it has a point or an exponent. An infinite number and
one that is none have words of their own; that they are not whole is all that is kept of them. -/
def fractional? (s : List Char) : Option Json :=
  let (negative, s) := splitSign s
  if s == "inf".toList || s == "nan".toList then some (.number (.decimal 0 0))
  else
    let isMark (c : Char) : Bool := c == 'e' || c == 'E'
    let body := s.takeWhile fun c => !isMark c
    let tail := s.dropWhile fun c => !isMark c
    let whole := body.takeWhile (· != '.')
    let rest := body.dropWhile (· != '.')
    if rest.isEmpty && tail.isEmpty then none
    else do
      let before ← decimalDigits? whole
      let after ← fraction? rest
      let shift ← exponent? tail
      let digits := before ++ after
      let exponent := shift - after.length
      if isHuge digits exponent then none
      else some (.number (.decimal (signed negative (ofDigits 10 digits)) exponent))

/-! ## Points in time -/

/-- The number that exactly `count` decimal digits write. -/
def field? (count : Nat) (s : List Char) : Option Nat :=
  if s.length == count then (s.mapM (digit? 10)).map (ofDigits 10) else none

/-- Whether a year has a day more than others. -/
def isLeap (year : Nat) : Bool := year % 4 == 0 && (year % 100 != 0 || year % 400 == 0)

/-- The number of days of a month. -/
def daysIn (year month : Nat) : Nat :=
  if month == 2 then (if isLeap year then 29 else 28)
  else if month == 4 || month == 6 || month == 9 || month == 11 then 30
  else 31

/-- Whether a word is a date. -/
def isDate (s : List Char) : Bool :=
  match Text.pieces (· == '-') s with
  | [y, m, d] =>
    match field? 4 y, field? 2 m, field? 2 d with
    | some y, some m, some d => 1 ≤ m && m ≤ 12 && 1 ≤ d && d ≤ daysIn y m
    | _, _, _ => false
  | _ => false

/-- Whether a word is a number of seconds, perhaps with a fraction; a minute can have one more. -/
def isSeconds (s : List Char) : Bool :=
  match Text.pieces (· == '.') s with
  | [whole] => (field? 2 whole).any (· ≤ 60)
  | [whole, fraction] =>
    (field? 2 whole).any (· ≤ 60) && !fraction.isEmpty && fraction.all Char.isDigit
  | _ => false

/-- Whether words are hours and minutes. -/
def isClock (hours minutes : List Char) : Bool :=
  (field? 2 hours).any (· ≤ 23) && (field? 2 minutes).any (· ≤ 59)

/-- Whether a word is a time of the day. -/
def isTime (s : List Char) : Bool :=
  match Text.pieces (· == ':') s with
  | [hours, minutes] => isClock hours minutes
  | [hours, minutes, seconds] => isClock hours minutes && isSeconds seconds
  | _ => false

/-- Whether a word is a distance from the time of the prime meridian. -/
def isOffset (s : List Char) : Bool :=
  match Text.pieces (· == ':') s with
  | [hours, minutes] => isClock hours minutes
  | _ => false

/-- Whether a word is a time of the day, perhaps with a distance from the prime meridian. -/
def isZonedTime (s : List Char) : Bool :=
  let isMark (c : Char) : Bool := c == 'Z' || c == 'z' || c == '+' || c == '-'
  match s.dropWhile fun c => !isMark c with
  | [] => isTime s
  | c :: rest =>
    isTime (s.takeWhile fun c => !isMark c) &&
      (if c == 'Z' || c == 'z' then rest.isEmpty else isOffset rest)

/-- Whether a word is a date, a time of the day, or a date with a time. -/
def isMoment (s : List Char) : Bool :=
  isDate s || isTime s ||
    (isDate (s.take 10) &&
      match s.drop 10 with
      | c :: rest => (c == 'T' || c == 't' || c == ' ') && isZonedTime rest
      | [] => false)

/-- The name in the table that a point in time stands for. -/
def momentName : String := "$__toml_private_datetime"

/-! ## Words -/

/-- The value that a word writes. -/
def scalar? (word : List Char) : Option Json :=
  if word == "true".toList then some (.bool true)
  else if word == "false".toList then some (.bool false)
  else if isMoment word then some (.object [(momentName, .string (String.ofList word))])
  else (whole? word).or (fractional? word)

/-- Whether a character may stand in a word. -/
def isWordPart (c : Char) : Bool :=
  c.isAlphanum || c == '_' || c == '-' || c == '+' || c == '.' || c == ':'

/-- Splits a text after the word at its start. A date and a time with one space between them are
one word. -/
def splitWord (s : List Char) : List Char × List Char :=
  let word := s.takeWhile isWordPart
  let rest := s.dropWhile isWordPart
  match rest with
  | ' ' :: c :: more =>
    if isDate word && c.isDigit then
      (word ++ ' ' :: (c :: more).takeWhile isWordPart, (c :: more).dropWhile isWordPart)
    else (word, rest)
  | _ => (word, rest)

/-- Reads the value of a word. -/
def readScalar (s : List Char) : Option (Json × List Char) :=
  let (word, rest) := splitWord s
  (scalar? word).map fun v => (v, rest)

end HAtom.Toml
