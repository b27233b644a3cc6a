import HAtom.Json.Printer
import HAtom.Json.Reader
import Mathlib.Data.List.Forall2
import Mathlib.Tactic.Common
import Mathlib.Tactic.SplitIfs

/-!
# Quoted texts and numbers read back

What is written for a text or a number is read as that text or number, whatever follows. A text ends
with its quote, because no quote inside is written without a backslash before it; a number ends where
its digits and marks do, so what follows a number must not go on with one.

* `Json.readString_escape`: the form of one character is read as that character.
* `Json.readString_quote`: the form of a text up to its closing quote.
* `Json.Ends`: what may follow a number.
* `Json.readNumber_text`: the form of a number.
-/

namespace HAtom.Json

/-! ## Quoted texts -/

theorem hexValue?_hexDigit : ∀ n < 16, hexValue? (hexDigit n) = some n := by decide

/-- The four digits of a control. -/
theorem hex4?_hexDigit {n : Nat} (h : n < 32) :
    hex4? '0' '0' (hexDigit (n / 16)) (hexDigit (n % 16)) = some n := by
  have hzero : hexValue? '0' = some 0 := by decide
  have hhigh := hexValue?_hexDigit (n / 16) (by omega)
  have hlow := hexValue?_hexDigit (n % 16) (by omega)
  have hvalue : 0 * 4096 + 0 * 256 + n / 16 * 16 + n % 16 = n := by omega
  simp only [hex4?, hzero, hhigh, hlow, Option.bind_eq_bind, Option.bind_some, hvalue]
  rfl

theorem eq_ofNat_of_toNat {c : Char} {n : Nat} (h : c.toNat = n) : c = Char.ofNat n := by
  rw [← h, Char.ofNat_toNat]

/-- **The form of a character is read as that character.** -/
theorem readString_escape (c : Char) (rest : List Char) :
    readString (escape c ++ rest) = prepend c (readString rest) := by
  unfold escape
  simp only [beq_iff_eq]
  split_ifs with hquote hback hb hf hn hr ht hcontrol
  · subst hquote
    simp [readString, unescape?]
  · subst hback
    simp [readString, unescape?]
  · obtain rfl := eq_ofNat_of_toNat hb
    simp [readString, unescape?]
  · obtain rfl := eq_ofNat_of_toNat hf
    simp [readString, unescape?]
  · subst hn
    simp [readString, unescape?]
  · subst hr
    simp [readString, unescape?]
  · subst ht
    simp [readString, unescape?]
  · -- the digits of a control are those of no half of a pair
    have hlow : isLow c.toNat = false := by simp [isLow]; omega
    have hhigh : isHigh c.toNat = false := by simp [isHigh]; omega
    simp only [List.cons_append, List.nil_append, readString, hex4?_hexDigit hcontrol, hlow, hhigh]
    simp [Char.ofNat_toNat]
  · simp only [List.cons_append, List.nil_append]
    rw [readString.eq_def]
    split
    · simp at *
    · simp_all
    · simp_all
    · simp_all
    · next heq =>
      obtain ⟨rfl, rfl⟩ := List.cons.inj heq
      rw [if_neg hcontrol]

/-- **The form of a text is read as that text**, up to its closing quote. -/
theorem readString_quote (s rest : List Char) :
    readString (s.flatMap escape ++ '"' :: rest) = some (s, rest) := by
  induction s with
  | nil => exact readString_end rest
  | cons c s ih =>
    rw [List.flatMap_cons, List.append_assoc, readString_escape, ih]
    rfl

/-! ## Digits -/

/-- No digit follows. -/
def NoDigit (rest : List Char) : Prop := ∀ c ∈ rest.head?, c.isDigit = false

theorem isDigit_of_mem_toDigits {n : Nat} : ∀ c ∈ Nat.toDigits 10 n, c.isDigit = true :=
  fun _ hc => Nat.isDigit_of_mem_toDigits (by decide) (by decide) hc

theorem digitsValue_toDigits (n : Nat) : digitsValue (Nat.toDigits 10 n) = n :=
  Nat.ofDigitChars_toDigits (by decide) (by decide)

/-- The number zero alone begins with a zero. -/
theorem toDigits_ne_zero_cons (n : Nat) (c : Char) (more : List Char) :
    Nat.toDigits 10 n ≠ '0' :: c :: more := by
  have hhead : ∀ n, 0 < n → (Nat.toDigits 10 n).head? ≠ some '0' := by
    intro n
    induction n using Nat.strongRecOn with
    | _ n ih =>
      intro hn
      rw [Nat.toDigits_eq_if (by decide)]
      split
      · next hlt =>
        have hdigit : ∀ d < 10, 0 < d → some (Nat.digitChar d) ≠ some '0' := by decide
        exact hdigit n hlt hn
      · rw [List.head?_append_of_ne_nil _ Nat.toDigits_ne_nil]
        exact ih (n / 10) (by omega) (by omega)
  intro heq
  obtain rfl | hn := Nat.eq_zero_or_pos n
  · simp at heq
  · exact hhead n hn (by rw [heq]; rfl)

theorem readDigits_append {digits rest : List Char} (hdigits : ∀ c ∈ digits, c.isDigit = true)
    (hne : digits ≠ []) (hrest : NoDigit rest) :
    readDigits (digits ++ rest) = some (digits, rest) := by
  have hstop : rest.takeWhile Char.isDigit = [] ∧ rest.dropWhile Char.isDigit = rest := by
    cases rest with
    | nil => simp
    | cons c rest => simp [hrest c rfl]
  rw [readDigits, List.takeWhile_append_of_pos hdigits, List.dropWhile_append_of_pos hdigits,
    hstop.1, hstop.2, List.append_nil]
  cases digits with
  | nil => exact absurd rfl hne
  | cons d digits => rfl

theorem readDigits_toDigits (n : Nat) {rest : List Char} (hrest : NoDigit rest) :
    readDigits (Nat.toDigits 10 n ++ rest) = some (Nat.toDigits 10 n, rest) :=
  readDigits_append isDigit_of_mem_toDigits Nat.toDigits_ne_nil hrest

theorem readWhole_toDigits (n : Nat) {rest : List Char} (hrest : NoDigit rest) :
    readWhole (Nat.toDigits 10 n ++ rest) = some (Nat.toDigits 10 n, rest) := by
  rw [readWhole, readDigits_toDigits n hrest]
  split
  · next heq =>
    obtain ⟨heq, -⟩ := Prod.mk.inj (Option.some.inj heq)
    exact absurd heq (toDigits_ne_zero_cons n _ _)
  · rfl

/-! ## Numbers -/

theorem toList_toString_nat (n : Nat) : (toString n).toList = Nat.toDigits 10 n := by
  rw [show toString n = n.repr from rfl, Nat.repr_eq_ofList_toDigits, String.toList_ofList]

theorem toList_toString_ofNat (n : Nat) : (toString (Int.ofNat n)).toList = Nat.toDigits 10 n :=
  toList_toString_nat n

theorem toList_toString_negSucc (n : Nat) :
    (toString (Int.negSucc n)).toList = '-' :: Nat.toDigits 10 (n + 1) := by
  rw [show toString (Int.negSucc n) = "-" ++ toString (n + 1) from rfl, String.toList_append,
    toList_toString_nat]
  rfl

/-- The first character of a number of digits is a digit. -/
theorem exists_toDigits (n : Nat) : ∃ d more, Nat.toDigits 10 n = d :: more ∧ d.isDigit = true := by
  obtain ⟨d, more, heq⟩ := List.exists_cons_of_ne_nil (@Nat.toDigits_ne_nil n 10)
  exact ⟨d, more, heq, isDigit_of_mem_toDigits d (heq ▸ List.mem_cons_self)⟩

theorem ne_of_isDigit {c d : Char} (hc : c.isDigit = true) (hd : d.isDigit = false) : c ≠ d := by
  rintro rfl
  rw [hc] at hd
  cases hd

/-- What may follow a number: nothing that would go on with it. -/
def Ends (rest : List Char) : Prop :=
  ∀ c ∈ rest.head?, c.isDigit = false ∧ c ≠ '.' ∧ c ≠ 'e' ∧ c ≠ 'E'

theorem Ends.noDigit {rest : List Char} (h : Ends rest) : NoDigit rest := fun c hc => (h c hc).1

theorem readExponent_of_ends {rest : List Char} (h : Ends rest) :
    readExponent rest = some (none, rest) := by
  cases rest with
  | nil => rfl
  | cons c rest =>
    obtain ⟨-, -, he, hE⟩ := h c rfl
    simp [readExponent, he, hE]

theorem readExponent_toString (e : Int) {rest : List Char} (hrest : NoDigit rest) :
    readExponent ('e' :: ((toString e).toList ++ rest)) = some (some e, rest) := by
  cases e with
  | ofNat n =>
    obtain ⟨d, more, heq, hd⟩ := exists_toDigits n
    have hread := readDigits_toDigits n hrest
    have hvalue := digitsValue_toDigits n
    have hminus : d ≠ '-' := ne_of_isDigit hd (by decide)
    have hplus : d ≠ '+' := ne_of_isDigit hd (by decide)
    rw [toList_toString_ofNat]
    rw [heq] at hread hvalue ⊢
    rw [List.cons_append] at hread ⊢
    rw [readExponent]
    · simp [hread, hvalue]
    · rintro _ ⟨⟩
      exact hminus rfl
    · rintro _ ⟨⟩
      exact hplus rfl
  | negSucc n =>
    rw [toList_toString_negSucc]
    simp [readExponent, readDigits_toDigits _ hrest, digitsValue_toDigits, Int.negSucc_eq]

/-- Digits alone. A zero with a sign is no whole number. -/
theorem readMagnitude_whole (negative : Bool) (n : Nat) {rest : List Char} (hrest : Ends rest) :
    readMagnitude negative (Nat.toDigits 10 n ++ rest) =
      some (if negative && n == 0 then .decimal 0 0
        else .whole (if negative then -(n : Int) else n), rest) := by
  rw [readMagnitude, readWhole_toDigits n hrest.noDigit]
  simp only [Option.bind_eq_bind, Option.bind_some]
  split
  · next rest =>
    have hpoint := (hrest '.' rfl).2.1
    exact absurd rfl hpoint
  · rw [readExponent_of_ends hrest]
    simp only [Option.bind_some, digitsValue_toDigits]
    split <;> rfl

/-- Digits with an exponent. -/
theorem readMagnitude_decimal (negative : Bool) (n : Nat) (e : Int) {rest : List Char}
    (hrest : NoDigit rest) :
    readMagnitude negative (Nat.toDigits 10 n ++ 'e' :: ((toString e).toList ++ rest)) =
      some (.decimal (if negative then -(n : Int) else n) e, rest) := by
  have hnext : NoDigit ('e' :: ((toString e).toList ++ rest)) := by
    rintro _ ⟨⟩
    decide
  rw [readMagnitude, readWhole_toDigits n hnext]
  change ((readExponent ('e' :: ((toString e).toList ++ rest))).bind fun _ => _) = _
  rw [readExponent_toString e hrest]
  simp [digitsValue_toDigits]

/-- **The form of a number is read as that number**, if nothing that follows goes on with it. -/
theorem readNumber_text (n : Number) {rest : List Char} (hrest : Ends rest) :
    readNumber (n.text.toList ++ rest) = some (n, rest) := by
  have hunsigned (m : Nat) (more : List Char) : readNumber (Nat.toDigits 10 m ++ more) =
      readMagnitude false (Nat.toDigits 10 m ++ more) := by
    obtain ⟨d, digits, heq, hd⟩ := exists_toDigits m
    have hminus : d ≠ '-' := ne_of_isDigit hd (by decide)
    rw [heq, List.cons_append, readNumber]
    rintro _ ⟨⟩
    exact hminus rfl
  cases n with
  | whole n =>
    cases n with
    | ofNat m =>
      rw [Number.text, toList_toString_ofNat, hunsigned, readMagnitude_whole false m hrest]
      rfl
    | negSucc m =>
      rw [Number.text, toList_toString_negSucc, List.cons_append, readNumber,
        readMagnitude_whole true (m + 1) hrest]
      rfl
  | decimal mantissa e =>
    have htext : (Number.decimal mantissa e).text.toList ++ rest =
        (toString mantissa).toList ++ 'e' :: ((toString e).toList ++ rest) := by
      simp [Number.text, String.toList_append]
    rw [htext]
    cases mantissa with
    | ofNat m =>
      rw [toList_toString_ofNat, hunsigned, readMagnitude_decimal false m e hrest.noDigit]
      rfl
    | negSucc m =>
      rw [toList_toString_negSucc, List.cons_append, readNumber,
        readMagnitude_decimal true (m + 1) e hrest.noDigit]
      rfl

/-- The form of a number begins with a digit or a sign. -/
theorem exists_text (n : Number) :
    ∃ c more, n.text.toList = c :: more ∧ (c.isDigit = true ∨ c = '-') := by
  have hsigned (i : Int) :
      ∃ c more, (toString i).toList = c :: more ∧ (c.isDigit = true ∨ c = '-') := by
    cases i with
    | ofNat m =>
      obtain ⟨d, digits, heq, hd⟩ := exists_toDigits m
      exact ⟨d, digits, by rw [toList_toString_ofNat, heq], .inl hd⟩
    | negSucc m => exact ⟨'-', _, toList_toString_negSucc m, .inr rfl⟩
  cases n with
  | whole n => exact hsigned n
  | decimal mantissa e =>
    obtain ⟨c, more, heq, hc⟩ := hsigned mantissa
    refine ⟨c, more ++ ("e" ++ toString e).toList, ?_, hc⟩
    rw [Number.text, String.append_assoc, String.toList_append, heq, List.cons_append]

end HAtom.Json
