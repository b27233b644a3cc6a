/-!
# Reading bytes as text

A document is a sequence of bytes in UTF-8. Reading stops at the first byte that cannot be part of
a character and says where that is and how many bytes are at fault.

* `Utf8.Fault` is the place of the first bad sequence and its width, when it is not merely cut off.
* `Utf8.decode` reads bytes as text.
-/

namespace HAtom.Text.Utf8

/-- Why bytes are not text: the number of good bytes before the fault, and the number of bad bytes
there, or `none` when the bytes end inside a character. -/
structure Fault where
  validUpTo : Nat
  width : Option Nat
  deriving DecidableEq, Repr

/-- The sentence that describes the fault. -/
def Fault.message (fault : Fault) : String :=
  match fault.width with
  | some width =>
    "invalid utf-8 sequence of " ++ toString width ++ " bytes from index " ++
      toString fault.validUpTo
  | none => "incomplete utf-8 byte sequence from index " ++ toString fault.validUpTo

/-- Whether a byte continues a character. -/
def isContinuation (b : UInt8) : Bool := 0x80 ≤ b && b ≤ 0xBF

/-- Whether `second` may follow the first byte `lead` of a character of two to four bytes. Apart
from continuation in general this excludes overlong forms, surrogates and values that are too
large. -/
def mayFollow (lead second : UInt8) : Bool :=
  if lead == 0xE0 then 0xA0 ≤ second && second ≤ 0xBF
  else if lead == 0xED then 0x80 ≤ second && second ≤ 0x9F
  else if lead == 0xF0 then 0x90 ≤ second && second ≤ 0xBF
  else if lead == 0xF4 then 0x80 ≤ second && second ≤ 0x8F
  else isContinuation second

/-- The character with the given number made of the low bits of a lead byte and of the bytes that
continue it. -/
def assemble (leadBits : UInt8) (more : List UInt8) : Char :=
  Char.ofNat (more.foldl (fun n b => n * 64 + (b &&& 0x3F).toNat) leadBits.toNat)

/-- Reads bytes after `index` bytes have been read as `done`, the last character first. -/
def decodeFrom (index : Nat) (done : List Char) : List UInt8 → Except Fault (List Char)
  | [] => .ok done.reverse
  | b :: rest =>
    if b < 0x80 then decodeFrom (index + 1) (assemble b [] :: done) rest
    else if 0xC2 ≤ b && b ≤ 0xDF then
      match rest with
      | [] => .error ⟨index, none⟩
      | b₁ :: rest =>
        if !mayFollow b b₁ then .error ⟨index, some 1⟩
        else decodeFrom (index + 2) (assemble (b &&& 0x1F) [b₁] :: done) rest
    else if 0xE0 ≤ b && b ≤ 0xEF then
      match rest with
      | [] => .error ⟨index, none⟩
      | b₁ :: rest =>
        if !mayFollow b b₁ then .error ⟨index, some 1⟩
        else
          match rest with
          | [] => .error ⟨index, none⟩
          | b₂ :: rest =>
            if !isContinuation b₂ then .error ⟨index, some 2⟩
            else decodeFrom (index + 3) (assemble (b &&& 0x0F) [b₁, b₂] :: done) rest
    else if 0xF0 ≤ b && b ≤ 0xF4 then
      match rest with
      | [] => .error ⟨index, none⟩
      | b₁ :: rest =>
        if !mayFollow b b₁ then .error ⟨index, some 1⟩
        else
          match rest with
          | [] => .error ⟨index, none⟩
          | b₂ :: rest =>
            if !isContinuation b₂ then .error ⟨index, some 2⟩
            else
              match rest with
              | [] => .error ⟨index, none⟩
              | b₃ :: rest =>
                if !isContinuation b₃ then .error ⟨index, some 3⟩
                else decodeFrom (index + 4) (assemble (b &&& 0x07) [b₁, b₂, b₃] :: done) rest
    else .error ⟨index, some 1⟩

/-- Reads bytes as text. -/
def decode (bytes : List UInt8) : Except Fault String :=
  (decodeFrom 0 [] bytes).map String.ofList

/-- The bytes that write a text. -/
def encode (s : String) : List UInt8 := s.toUTF8.toList

end HAtom.Text.Utf8
