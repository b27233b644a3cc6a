import HAtom.Text.Digit

/-!
# Dates

Dates and times in the two formats of ISO 8601 that pages use: extended, with marks between the
fields (`2008-10-21T10:30:00.5+02:00`), and basic, without them (`20081021T103000Z`).

A text is first cut into fields by its shape, in which any decimal digit may stand. Then the fields
are read as numbers, which only the digits of ASCII write: a year, month or day that is no number
makes no date, a time whose hour is no number is not looked at any further, a minute or second that
is no number counts as zero, and of an offset only the digits of ASCII count.

* `IsoDate.Fields` are the fields of a text, `IsoDate.fields?` cuts a text into them.
* `IsoDate.isValid` says whether a text is a date, with or without a time and an offset.
-/

namespace HAtom.IsoDate

open Text

/-- A time of day as it is written. -/
structure TimeFields where
  hour : List Char
  minute : List Char
  second : Option (List Char)
  /-- The letter `Z`, or a sign and what follows it. -/
  offset : Option (List Char)
  deriving DecidableEq, Repr

/-- A date as it is written. -/
structure Fields where
  year : List Char
  month : List Char
  day : List Char
  time : Option TimeFields
  deriving DecidableEq, Repr

/-! ## Shape -/

/-- The marks between the fields of a date and of a time. -/
structure Style where
  dateMark : List Char
  timeMark : List Char

/-- The format with marks. -/
def extended : Style := ⟨['-'], [':']⟩

/-- The format without marks. -/
def basic : Style := ⟨[], []⟩

/-- Takes a number of decimal digits from the front. -/
def takeDigits : Nat → List Char → Option (List Char × List Char)
  | 0, s => some ([], s)
  | _ + 1, [] => none
  | n + 1, c :: rest =>
    if isDecimal c then (takeDigits n rest).map fun (ds, rest) => (c :: ds, rest) else none

/-- Takes a mark from the front. -/
def takeMark : List Char → List Char → Option (List Char)
  | [], s => some s
  | _ :: _, [] => none
  | m :: mark, c :: rest => if m == c then takeMark mark rest else none

/-- Whether a text is two digits, or a colon and two digits. -/
def isOffsetMinute (s : List Char) : Bool :=
  match s with
  | [':', a, b] => isDecimal a && isDecimal b
  | [a, b] => isDecimal a && isDecimal b
  | _ => false

/-- Whether a text is an offset: the letter `Z`, or a sign, two digits and perhaps two more, with or
without a colon between. -/
def isOffset (s : List Char) : Bool :=
  match s with
  | ['Z'] => true
  | sign :: a :: b :: rest =>
    (sign == '+' || sign == '-') && isDecimal a && isDecimal b &&
      (rest.isEmpty || isOffsetMinute rest)
  | _ => false

/-- Passes over a fraction of a second, if there is one: a point or comma and digits. -/
def skipFraction (s : List Char) : List Char :=
  match s with
  | mark :: d :: rest =>
    if (mark == '.' || mark == ',') && isDecimal d then rest.dropWhile isDecimal else s
  | _ => s

/-- Takes the seconds and their fraction from the front, if they are there. -/
def takeSecond (style : Style) (s : List Char) : Option (List Char) × List Char :=
  match (takeMark style.timeMark s).bind (takeDigits 2) with
  | some (second, rest) => (some second, skipFraction rest)
  | none => (none, s)

/-- Cuts a text into the fields of a time. -/
def timeFields? (style : Style) (s : List Char) : Option TimeFields := do
  let (hour, rest) ← takeDigits 2 s
  let rest ← takeMark style.timeMark rest
  let (minute, rest) ← takeDigits 2 rest
  let (second, rest) := takeSecond style rest
  if rest.isEmpty then some ⟨hour, minute, second, none⟩
  else if isOffset rest then some ⟨hour, minute, second, some rest⟩
  else none

/-- Cuts a text into the fields of a date in one format. -/
def fieldsIn? (style : Style) (s : List Char) : Option Fields := do
  let (year, rest) ← takeDigits 4 s
  let rest ← takeMark style.dateMark rest
  let (month, rest) ← takeDigits 2 rest
  let rest ← takeMark style.dateMark rest
  let (day, rest) ← takeDigits 2 rest
  match rest with
  | [] => some ⟨year, month, day, none⟩
  | 'T' :: rest => (timeFields? style rest).map fun time => ⟨year, month, day, some time⟩
  | _ => none

/-- Cuts a text into the fields of a date. -/
def fields? (s : List Char) : Option Fields := (fieldsIn? extended s).or (fieldsIn? basic s)

/-! ## Ranges -/

/-- The number that a field writes. -/
def number? (s : List Char) : Option Nat := digitsToNat? 0xFFFFFFFF s

/-- Whether a year has a leap day; the year zero has. -/
def isLeap (year : Nat) : Bool := year % 4 == 0 && (year % 100 != 0 || year % 400 == 0)

/-- The number of days of a month; none for a number that is no month. -/
def daysIn (year month : Nat) : Nat :=
  match month with
  | 1 | 3 | 5 | 7 | 8 | 10 | 12 => 31
  | 4 | 6 | 9 | 11 => 30
  | 2 => if isLeap year then 29 else 28
  | _ => 0

/-- Whether the calendar has a date. -/
def dateExists (year month day : Nat) : Bool := 1 ≤ day && day ≤ daysIn year month

/-- Whether the fields of a date write one that the calendar has. -/
def dateOk (f : Fields) : Bool :=
  match number? f.year, number? f.month, number? f.day with
  | some year, some month, some day => dateExists year month day
  | _, _, _ => false

/-- Whether a time is in range; it is not looked at when its hour is no number. -/
def timeOk (t : TimeFields) : Bool :=
  match number? t.hour with
  | none => true
  | some hour =>
    hour ≤ 23 && (number? t.minute).getD 0 ≤ 59 && ((t.second.bind number?).getD 0) ≤ 59

/-- Whether an offset is in range: of its digits of ASCII the first two are hours and the rest
minutes. -/
def offsetOk (offset : List Char) : Bool :=
  if offset == ['Z'] then true
  else
    match (offset.drop 1).filter Char.isDigit with
    | a :: b :: minutes =>
      (number? [a, b]).getD 0 ≤ 23 && (number? minutes).getD 0 ≤ 59
    | _ => false

/-- Whether a text is a date, perhaps with a time and an offset. -/
def isValid (s : String) : Bool :=
  match fields? s.toList with
  | none => false
  | some f =>
    dateOk f &&
      match f.time with
      | none => true
      | some t =>
        timeOk t &&
          match t.offset with
          | none => true
          | some offset => offsetOk offset

end HAtom.IsoDate
