import HAtom.Text.Case
import HAtom.Text.VisibleTable

/-!
# Quoted text

How a text or a character is shown so that every character of it can be told apart: between
quotes, with a backslash before the quote and the backslash, short names for the usual controls,
and the code point in braces for whatever would not be visible.

* `quoted` is the form of a text, `quotedPath` that of a path, `quotedChar` that of a character.
-/

namespace HAtom.Text

open VisibleTable

/-- The digits of a number in base sixteen, in lower case. -/
def hexDigits (n : Nat) : String := String.ofList (Nat.toDigits 16 n)

/-- The code point of a character in braces after `\u`. -/
def codePoint (c : Char) : String := "\\u" ++ "\x7b" ++ hexDigits c.toNat ++ "\x7d"

/-- Whether a character shows itself when it is printed. -/
def isVisible (c : Char) : Bool :=
  let n := c.toNat
  if n < 128 then 32 ≤ n && n < 127
  else !inRanges blankOrUnassigned n && !inRanges extending n

/-- The form of one character between quotes, of which those in `quotes` need a backslash. -/
def escaped (quotes : List Char) (c : Char) : String :=
  if c == Char.ofNat 0 then "\\0"
  else if c == '\t' then "\\t"
  else if c == '\r' then "\\r"
  else if c == '\n' then "\\n"
  else if c == '\\' then "\\\\"
  else if quotes.contains c then String.ofList ['\\', c]
  else if isVisible c then String.singleton c
  else codePoint c

/-- A text between double quotes. -/
def quoted (s : String) : String :=
  "\"" ++ s.toList.foldl (fun out c => out ++ escaped ['"'] c) "" ++ "\""

/-- A path between double quotes; in it single quotes have a backslash, too. -/
def quotedPath (s : String) : String :=
  "\"" ++ s.toList.foldl (fun out c => out ++ escaped ['"', '\''] c) "" ++ "\""

/-- A character between single quotes. -/
def quotedChar (c : Char) : String := "'" ++ escaped ['\''] c ++ "'"

end HAtom.Text
