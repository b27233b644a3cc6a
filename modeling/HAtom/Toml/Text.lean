import HAtom.Json.Reader

/-!
# Lines, keys and texts of TOML

The smallest parts of a TOML text: blanks and comments, the ends of lines, texts in their four
forms, and keys with dots. A reader answers what it read and the rest of the text.

* `skipFiller` passes over blanks, comments and ends of lines.
* `readString` reads a text, `readPath` a key with dots.
-/

namespace HAtom.Toml

/-! ## Blanks and comments -/

/-- Whether a character is a blank within a line. -/
def isGap (c : Char) : Bool := c == ' ' || c == '\t'

/-- Whether a character may stand in a comment, or in a text as itself: no control but a tab. -/
def isText (c : Char) : Bool := c == '\t' || (0x20 ≤ c.toNat && c.toNat != 0x7F)

/-- The rest of a text after its blanks. -/
def skipGaps (s : List Char) : List Char := s.dropWhile isGap

/-- The rest of a text after blanks, ends of lines and comments, which begins with anything else,
or with a character that may not stand in a comment. -/
def skipFiller (inComment : Bool) : List Char → List Char
  | [] => []
  | '\n' :: rest => skipFiller false rest
  | '\r' :: '\n' :: rest => skipFiller false rest
  | c :: rest =>
    if inComment then
      if isText c then skipFiller true rest else c :: rest
    else if c == '#' then skipFiller true rest
    else if isGap c then skipFiller false rest
    else c :: rest

/-- The rest of a text after the end of a line, before which there may be blanks and a comment. -/
def readLineEnd (s : List Char) : Option (List Char) :=
  let s :=
    match skipGaps s with
    | '#' :: rest => rest.dropWhile isText
    | rest => rest
  match s with
  | [] => some []
  | '\n' :: rest => some rest
  | '\r' :: '\n' :: rest => some rest
  | _ => none

/-! ## Texts -/

/-- The number that digits in base sixteen write. -/
def hex? (digits : List Char) : Option Nat :=
  digits.foldlM (fun n c => (Json.hexValue? c).map (n * 16 + ·)) 0

/-- The character with a code point, which no half of a surrogate pair has. -/
def character? (n : Nat) : Option Char := if n.isValidChar then some (Char.ofNat n) else none

/-- The character that a number of digits in base sixteen at the start of a text stand for. -/
def readCodePoint (count : Nat) (s : List Char) : Option (Char × List Char) :=
  if s.length < count then none
  else ((hex? (s.take count)).bind character?).map fun c => (c, s.drop count)

/-- Reads what stands after a backslash for one character. -/
def readEscape : List Char → Option (Char × List Char)
  | [] => none
  | c :: rest =>
    if c == '"' || c == '\\' then some (c, rest)
    else if c == 'b' then some (Char.ofNat 8, rest)
    else if c == 't' then some ('\t', rest)
    else if c == 'n' then some ('\n', rest)
    else if c == 'f' then some (Char.ofNat 12, rest)
    else if c == 'r' then some ('\r', rest)
    else if c == 'e' then some (Char.ofNat 27, rest)
    else if c == 'x' then readCodePoint 2 rest
    else if c == 'u' then readCodePoint 4 rest
    else if c == 'U' then readCodePoint 8 rest
    else none

/-- The rest of a text after a backslash that ends its line, with all blanks and ends of lines that
follow. -/
def readFold (s : List Char) : Option (List Char) :=
  match skipGaps s with
  | '\n' :: rest => some (blanks rest)
  | '\r' :: '\n' :: rest => some (blanks rest)
  | _ => none
where
  /-- The rest of a text after blanks and ends of lines. -/
  blanks : List Char → List Char
    | '\r' :: '\n' :: rest => blanks rest
    | c :: rest => if isGap c || c == '\n' then blanks rest else c :: rest
    | [] => []

/-- Puts characters in front of what was read. -/
def prepend (cs : List Char) (read : Option (List Char × List Char)) :
    Option (List Char × List Char) :=
  read.map fun (s, rest) => (cs ++ s, rest)

/-- Reads a text on one line up to its closing quote. A backslash means something between double
quotes only. The first argument bounds the number of characters. -/
def readLine (quote : Char) : Nat → List Char → Option (List Char × List Char)
  | fuel + 1, c :: rest =>
    if c == quote then some ([], rest)
    else if c == '\\' && quote == '"' then
      match readEscape rest with
      | some (c, rest) => prepend [c] (readLine quote fuel rest)
      | none => none
    else if isText c then prepend [c] (readLine quote fuel rest)
    else none
  | _, _ => none

/-- Reads a text of many lines up to its three closing quotes, before which it may end in two more.
The first argument bounds the number of characters. -/
def readBlock (quote : Char) : Nat → List Char → Option (List Char × List Char)
  | fuel + 1, c :: rest =>
    if c == quote then
      let run := ((c :: rest).takeWhile (· == quote)).length
      if 3 ≤ run then
        some (List.replicate (min run 5 - 3) quote, (c :: rest).drop (min run 5))
      else prepend [c] (readBlock quote fuel rest)
    else if c == '\\' && quote == '"' then
      match readEscape rest with
      | some (c, rest) => prepend [c] (readBlock quote fuel rest)
      | none =>
        match readFold rest with
        | some rest => readBlock quote fuel rest
        | none => none
    else if isText c || c == '\n' then prepend [c] (readBlock quote fuel rest)
    else
      match c, rest with
      | '\r', '\n' :: rest => prepend ['\r', '\n'] (readBlock quote fuel rest)
      | _, _ => none
  | _, _ => none

/-- The rest of a text after the end of a line right at its start. -/
def dropLineEnd : List Char → List Char
  | '\n' :: rest => rest
  | '\r' :: '\n' :: rest => rest
  | s => s

/-- Reads a text between quotes. Three quotes open one of many lines, and the end of the first line
does not belong to it. -/
def readString : List Char → Option (String × List Char)
  | a :: b :: c :: rest =>
    let read :=
      if a == b && b == c then readBlock a rest.length.succ (dropLineEnd rest)
      else readLine a rest.length.succ.succ.succ (b :: c :: rest)
    read.map fun (s, rest) => (String.ofList s, rest)
  | a :: rest => (readLine a rest.length.succ rest).map fun (s, rest) => (String.ofList s, rest)
  | [] => none

/-! ## Keys -/

/-- Whether a character may stand in a key without quotes. -/
def isBare (c : Char) : Bool := c.isAlphanum || c == '_' || c == '-'

/-- Reads one part of a key. -/
def readKey (s : List Char) : Option (String × List Char) :=
  match s with
  | c :: rest =>
    if c == '"' || c == '\'' then
      (readLine c s.length rest).map fun (k, rest) => (String.ofList k, rest)
    else
      match s.takeWhile isBare with
      | [] => none
      | k => some (String.ofList k, s.dropWhile isBare)
  | [] => none

/-- Reads the parts of a key, with dots between them and blanks around those. The first argument
bounds the number of parts. -/
def readParts : Nat → List Char → Option (List String × List Char)
  | 0, _ => none
  | fuel + 1, s =>
    match readKey (skipGaps s) with
    | none => none
    | some (key, rest) =>
      match skipGaps rest with
      | '.' :: rest => (readParts fuel rest).map fun (path, rest) => (key :: path, rest)
      | rest => some ([key], rest)

/-- Reads a key with dots and the blanks after it. -/
def readPath (s : List Char) : Option (List String × List Char) := readParts s.length.succ s

end HAtom.Toml
