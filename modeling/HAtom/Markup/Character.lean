/-!
# Characters of markup

The character classes that the grammar of a document is written in. The names are those of the
fifth edition of the XML recommendation; the four blanks of markup are fewer than the blanks of the
character standard, which separate words.
-/

namespace HAtom.Markup

/-- The blanks of markup: space, tabulator, line feed and carriage return. -/
def isSpace (c : Char) : Bool := c == ' ' || c == '\t' || c == '\n' || c == '\r'

/-- Characters that a document may hold. -/
def isDocumentChar (c : Char) : Bool :=
  if c.toNat < 0x20 then isSpace c else c.toNat != 0xFFFE && c.toNat != 0xFFFF

/-- Characters outside ASCII that a name may start with, as inclusive ranges. -/
def nameStartRanges : List (Nat × Nat) :=
  [(0xC0, 0xD6), (0xD8, 0xF6), (0xF8, 0x2FF), (0x370, 0x37D), (0x37F, 0x1FFF), (0x200C, 0x200D),
   (0x2070, 0x218F), (0x2C00, 0x2FEF), (0x3001, 0xD7FF), (0xF900, 0xFDCF), (0xFDF0, 0xFFFD),
   (0x10000, 0xEFFFF)]

/-- Further characters outside ASCII that a name may go on with, as inclusive ranges. -/
def nameMoreRanges : List (Nat × Nat) := [(0xB7, 0xB7), (0x300, 0x36F), (0x203F, 0x2040)]

/-- Characters that a name may start with. -/
def isNameStart (c : Char) : Bool :=
  if c.toNat < 128 then c.isAlpha || c == ':' || c == '_'
  else nameStartRanges.any fun range => range.1 ≤ c.toNat && c.toNat ≤ range.2

/-- Characters that a name is made of. -/
def isNameChar (c : Char) : Bool :=
  if c.toNat < 128 then c.isAlphanum || c == ':' || c == '_' || c == '-' || c == '.'
  else
    (nameStartRanges ++ nameMoreRanges).any fun range => range.1 ≤ c.toNat && c.toNat ≤ range.2

/-- The value of a digit in base sixteen. -/
def hexDigit? (c : Char) : Option Nat :=
  if c.isDigit then some (c.toNat - 48)
  else if 'a' ≤ c && c ≤ 'f' then some (c.toNat - 87)
  else if 'A' ≤ c && c ≤ 'F' then some (c.toNat - 55)
  else none

/-- The first byte of the encoding of a character. -/
def leadByte (c : Char) : Nat :=
  let n := c.toNat
  if n < 0x80 then n
  else if n < 0x800 then 0xC0 + n / 0x40
  else if n < 0x10000 then 0xE0 + n / 0x1000
  else 0xF0 + n / 0x40000

end HAtom.Markup
