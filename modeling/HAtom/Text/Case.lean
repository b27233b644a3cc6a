import HAtom.Text.LetterTable

/-!
# Lower case

The lower-case form of a text, letter by letter, with the two exceptions of the character
standard: a dotted capital I becomes two characters, and a capital sigma that ends a word becomes
a final sigma.

* `lowerChar` is the lower-case form of one letter, `lower` that of a text.
-/

namespace HAtom.Text

open LetterTable

/-- Whether a code point lies in one of the inclusive ranges. -/
def inRanges (ranges : List (Nat × Nat)) (n : Nat) : Bool :=
  ranges.any fun range => range.1 ≤ n && n ≤ range.2

/-- Whether a letter has case. -/
def isCased (c : Char) : Bool := inRanges cased c.toNat

/-- Whether the end of a word is looked for beyond this character. -/
def isCaseIgnorable (c : Char) : Bool := inRanges caseIgnorable c.toNat

/-- The lower-case form of one letter, itself when it has none. -/
def lowerChar (c : Char) : Char :=
  let n := c.toNat
  if n < 128 then c.toLower
  else
    match lowerRuns.find? fun run =>
        run.1 ≤ n && n ≤ run.2.1 && (n - run.1) % run.2.2.1 == 0 with
    | some run => Char.ofNat (n + run.2.2.2).toNat
    | none => c

/-- Whether the first character that is not passed over has case. -/
def meetsCased (s : List Char) : Bool :=
  match s.dropWhile isCaseIgnorable with
  | [] => false
  | c :: _ => isCased c

/-- The lower-case form of the characters after `before`, which is given last character first. -/
def lowerAfter (before : List Char) : List Char → List Char
  | [] => []
  | c :: rest =>
    let here :=
      if c == 'Σ' then
        if meetsCased before && !meetsCased rest then ['ς'] else ['σ']
      else if c == 'İ' then ['i', Char.ofNat 0x307]
      else [lowerChar c]
    here ++ lowerAfter (c :: before) rest

/-- The lower-case form of a text. -/
def lower (s : String) : String := String.ofList (lowerAfter [] s.toList)

end HAtom.Text
