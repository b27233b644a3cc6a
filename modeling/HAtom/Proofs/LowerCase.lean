import HAtom.Text.Case
import HAtom.Text.Words
import Mathlib.Tactic.Common

/-!
# What lower case leaves

A letter that has a lower-case form is called a capital here, and the letters of those forms small.
The table of forms has some fourteen hundred letters, too many to compare each with each. So a set
of code points is written as the bits of one number, and that two sets have nothing in common is one
computation with two numbers: no small letter is a capital, and no blank and no mark of ASCII is
either.

* `bits` is a set of numbers as the bits of one, and `not_mem_of_bits` what a common bit would mean.
* `IsCapital`, `IsSmall` and `IsMark` are the classes, disjoint by `not_isCapital_of_isSmall`,
  `not_isMark_of_isCapital` and `not_isMark_of_isSmall`.
* `Lowers c d`: the character `d` stands in the lower-case form where `c` stood.
* `lowerAfter_cons`: each character gives way to one or more that stand for it, hence
  `mem_lowerAfter`, `head_lowerAfter` and `getLast_lowerAfter`.
* `lowerAfter_eq_self`: a text without capitals is left as it is. `lower_singleton_eq_iff`: the
  capitals are the characters that are not their own lower-case form.
-/

namespace HAtom.Text

open LetterTable

/-! ## Sets of numbers as bits -/

/-- Some numbers as the bits of one. -/
def bits : List Nat → Nat
  | [] => 0
  | n :: ns => 1 <<< n ||| bits ns

/-- All numbers of some lists as the bits of one. -/
def bitsOfAll : List (List Nat) → Nat
  | [] => 0
  | ns :: more => bits ns ||| bitsOfAll more

theorem testBit_bits (ns : List Nat) (n : Nat) : (bits ns).testBit n = true ↔ n ∈ ns := by
  induction ns with
  | nil => simp [bits]
  | cons m ns ih =>
    rw [bits, Nat.testBit_or, Bool.or_eq_true, ih, List.mem_cons, Nat.one_shiftLeft,
      Nat.testBit_two_pow, decide_eq_true_eq, eq_comm]

theorem testBit_bitsOfAll (lists : List (List Nat)) (n : Nat) :
    (bitsOfAll lists).testBit n = true ↔ ∃ ns ∈ lists, n ∈ ns := by
  induction lists with
  | nil => simp [bitsOfAll]
  | cons ns lists ih => simp [bitsOfAll, Nat.testBit_or, testBit_bits, ih]

/-- Sets without a common bit have no number in common. -/
theorem not_mem_of_bits {lists lists' : List (List Nat)}
    (h : bitsOfAll lists &&& bitsOfAll lists' = 0) {n : Nat} (hn : ∃ ns ∈ lists, n ∈ ns) :
    ¬ ∃ ns ∈ lists', n ∈ ns := by
  intro hn'
  have hbit : (bitsOfAll lists &&& bitsOfAll lists').testBit n = true := by
    rw [Nat.testBit_and, (testBit_bitsOfAll ..).2 hn, (testBit_bitsOfAll ..).2 hn']
    rfl
  simp [h] at hbit

/-! ## Capitals, small letters and marks -/

/-- The code points of the letters of a run. -/
def codes (run : Nat × Nat × Nat × Int) : List Nat :=
  (List.range ((run.2.1 - run.1) / run.2.2.1 + 1)).map fun k => run.1 + k * run.2.2.1

/-- The code points of the lower-case forms of the letters of a run. -/
def formCodes (run : Nat × Nat × Nat × Int) : List Nat :=
  (codes run).map fun n : Nat => (n + run.2.2.2).toNat

/-- The code points of the letters that have a lower-case form: those of ASCII, the dotted capital
I, which has two letters as its form, and those of the runs. -/
def capitalCodes : List (List Nat) := List.range' 65 26 :: [0x130] :: lowerRuns.map codes

/-- The code points of letters in lower-case forms: those of ASCII, the two of the dotted I, the two
sigmas, and those of the runs. -/
def smallCodes : List (List Nat) :=
  List.range' 97 26 :: [0x69, 0x307, 0x3C2, 0x3C3] :: lowerRuns.map formCodes

/-- The code points of blanks, and of the characters of ASCII that are not letters. -/
def markCodes : List (List Nat) :=
  [List.range 65, List.range' 91 6, List.range' 123 5,
    [0x85, 0xA0, 0x1680, 0x2028, 0x2029, 0x202F, 0x205F, 0x3000], List.range' 0x2000 11]

/-- The character has a lower-case form other than itself. -/
def IsCapital (c : Char) : Prop := ∃ ns ∈ capitalCodes, c.toNat ∈ ns

/-- The character is one of those in lower-case forms. -/
def IsSmall (c : Char) : Prop := ∃ ns ∈ smallCodes, c.toNat ∈ ns

/-- The character is a blank, or one of ASCII that is not a letter. -/
def IsMark (c : Char) : Prop := ∃ ns ∈ markCodes, c.toNat ∈ ns

instance : DecidablePred IsMark :=
  fun c => inferInstanceAs (Decidable (∃ ns ∈ markCodes, c.toNat ∈ ns))

theorem not_isCapital_of_isSmall {c : Char} : IsSmall c → ¬ IsCapital c :=
  not_mem_of_bits (by decide +kernel)

theorem not_isMark_of_isCapital {c : Char} : IsCapital c → ¬ IsMark c :=
  not_mem_of_bits (by decide +kernel)

theorem not_isMark_of_isSmall {c : Char} : IsSmall c → ¬ IsMark c :=
  not_mem_of_bits (by decide +kernel)

theorem isMark_of_isBlank {c : Char} (h : isBlank c = true) : IsMark c := by
  simp only [isBlank, Bool.or_eq_true, Bool.and_eq_true, decide_eq_true_eq, beq_iff_eq] at h
  simp only [IsMark, markCodes, List.mem_cons, exists_eq_or_imp, List.not_mem_nil, or_false,
    exists_eq_left, List.mem_range, List.mem_range'_1]
  omega

/-! ## Single letters -/

theorem isCapital_iff {c : Char} :
    IsCapital c ↔ c.toNat ∈ List.range' 65 26 ∨ c.toNat = 0x130 ∨
      ∃ run ∈ lowerRuns, c.toNat ∈ codes run := by
  simp [IsCapital, capitalCodes]

theorem isSmall_iff {c : Char} :
    IsSmall c ↔ c.toNat ∈ List.range' 97 26 ∨ c.toNat ∈ [0x69, 0x307, 0x3C2, 0x3C3] ∨
      ∃ run ∈ lowerRuns, c.toNat ∈ formCodes run := by
  simp [IsSmall, smallCodes]

/-- A run lies outside ASCII, is not empty, and the forms of its letters are code points of
characters. -/
theorem run_bounds : ∀ run ∈ lowerRuns, 128 ≤ run.1 ∧ run.1 ≤ run.2.1 ∧ 0 < run.2.2.1 ∧
    0 ≤ run.1 + run.2.2.2 ∧ (run.2.1 + run.2.2.2 < 0xD800 ∨
      0xDFFF < run.1 + run.2.2.2 ∧ run.2.1 + run.2.2.2 < 0x110000) := by
  decide +kernel

theorem mem_codes {run : Nat × Nat × Nat × Int} (hrun : run ∈ lowerRuns) {n : Nat} :
    n ∈ codes run ↔ run.1 ≤ n ∧ n ≤ run.2.1 ∧ (n - run.1) % run.2.2.1 = 0 := by
  obtain ⟨-, hle, hstep, -⟩ := run_bounds run hrun
  simp only [codes, List.mem_map, List.mem_range, Nat.lt_succ_iff]
  constructor
  · rintro ⟨k, hk, rfl⟩
    have hlast : k * run.2.2.1 ≤ run.2.1 - run.1 := (Nat.le_div_iff_mul_le hstep).1 hk
    exact ⟨by omega, by omega, by simp⟩
  · rintro ⟨hfirst, hlast, hmod⟩
    refine ⟨(n - run.1) / run.2.2.1, Nat.div_le_div_right (by omega), ?_⟩
    have hmul := Nat.div_mul_cancel (Nat.dvd_of_mod_eq_zero hmod)
    omega

/-- In ASCII the capitals are changed to small letters, and nothing else is. -/
theorem toLower_cases : ∀ n < 128,
    ((Char.ofNat n).toLower = Char.ofNat n ∧ n ∉ List.range' 65 26) ∨
      (n ∈ List.range' 65 26 ∧ (Char.ofNat n).toLower.toNat ∈ List.range' 97 26) := by
  decide

theorem toNat_ofNat {n : Nat} (h : n.isValidChar) : (Char.ofNat n).toNat = n := by
  unfold Char.ofNat
  rw [dif_pos h]
  rfl

/-- Outside ASCII a letter of a run has the form the run gives; other characters have none. -/
theorem run_cases {c : Char} (h : 128 ≤ c.toNat) :
    (lowerChar c = c ∧ ∀ run ∈ lowerRuns, c.toNat ∉ codes run) ∨
      ∃ run ∈ lowerRuns, c.toNat ∈ codes run ∧ (lowerChar c).toNat ∈ formCodes run := by
  rw [lowerChar, if_neg (Nat.not_lt.2 h)]
  generalize hfind : lowerRuns.find? _ = found
  cases found with
  | none =>
    refine .inl ⟨rfl, fun run hrun hmem => ?_⟩
    have hout := List.find?_eq_none.1 hfind run hrun
    obtain ⟨hfirst, hlast, hmod⟩ := (mem_codes hrun).1 hmem
    simp [hfirst, hlast, hmod] at hout
  | some run =>
    have hrun := List.mem_of_find?_eq_some hfind
    have hin := List.find?_some hfind
    simp only [Bool.and_eq_true, decide_eq_true_eq, beq_iff_eq, and_assoc] at hin
    have hmem := (mem_codes hrun).2 hin
    refine .inr ⟨run, hrun, hmem, List.mem_map.2 ⟨c.toNat, hmem, ?_⟩⟩
    -- the form is a character, so that its code point is the number computed
    obtain ⟨-, -, -, hzero, hvalid⟩ := run_bounds run hrun
    have hchar : Nat.isValidChar ((c.toNat : Int) + run.2.2.2).toNat := by
      unfold Nat.isValidChar
      omega
    exact (toNat_ofNat hchar).symm

/-- **One letter**: a capital has a small letter as its form, the dotted one excepted, and any other
character is left as it is. -/
theorem lowerChar_cases (c : Char) :
    (lowerChar c = c ∧ (IsCapital c → c = 'İ')) ∨ (IsCapital c ∧ IsSmall (lowerChar c)) := by
  rcases Nat.lt_or_ge c.toNat 128 with hascii | hwide
  · have hlower : lowerChar c = c.toLower := if_pos hascii
    have hcases := toLower_cases c.toNat hascii
    rw [Char.ofNat_toNat] at hcases
    rw [hlower]
    rcases hcases with ⟨hself, hnot⟩ | ⟨hcapital, hsmall⟩
    · refine .inl ⟨hself, fun hcapital => ?_⟩
      rcases isCapital_iff.1 hcapital with hmem | hdotted | ⟨run, hrun, hmem⟩
      · exact absurd hmem hnot
      · omega
      · have hfirst := (run_bounds run hrun).1
        have hle := ((mem_codes hrun).1 hmem).1
        omega
    · exact .inr ⟨isCapital_iff.2 (.inl hcapital), isSmall_iff.2 (.inl hsmall)⟩
  · rcases run_cases hwide with ⟨hself, hnot⟩ | ⟨run, hrun, hmem, hform⟩
    · refine .inl ⟨hself, fun hcapital => ?_⟩
      rcases isCapital_iff.1 hcapital with hmem | hdotted | ⟨run, hrun, hmem⟩
      · rw [List.mem_range'_1] at hmem
        omega
      · exact Char.toNat_inj.1 hdotted
      · exact absurd hmem (hnot run hrun)
    · exact .inr ⟨isCapital_iff.2 (.inr (.inr ⟨run, hrun, hmem⟩)),
        isSmall_iff.2 (.inr (.inr ⟨run, hrun, hform⟩))⟩

/-! ## Texts -/

/-- The second character stands in a lower-case form where the first one stood: the same one, unless
that is a capital, or a small letter for a capital. -/
inductive Lowers : Char → Char → Prop
  | same {c : Char} : ¬ IsCapital c → Lowers c c
  | small {c d : Char} : IsCapital c → IsSmall d → Lowers c d

theorem Lowers.not_isCapital {c d : Char} (h : Lowers c d) : ¬ IsCapital d := by
  cases h with
  | same hc => exact hc
  | small _ hd => exact not_isCapital_of_isSmall hd

/-- A mark stands for itself, and nothing else does. -/
theorem Lowers.eq_of_isMark {c d : Char} (h : Lowers c d) (hmark : IsMark c ∨ IsMark d) :
    d = c := by
  cases h with
  | same _ => rfl
  | small hc hd =>
    rcases hmark with hmark | hmark
    · exact absurd hmark (not_isMark_of_isCapital hc)
    · exact absurd hmark (not_isMark_of_isSmall hd)

theorem isCapital_sigma : IsCapital 'Σ' :=
  isCapital_iff.2 (.inr (.inr ⟨(0x3A3, 0x3AB, 1, 32), by decide, by decide⟩))

theorem isCapital_dottedI : IsCapital 'İ' := isCapital_iff.2 (.inr (.inl rfl))

/-- One or more characters stand for the first character of a text. -/
theorem lowerAfter_cons (before : List Char) (c : Char) (rest : List Char) :
    ∃ d ds, lowerAfter before (c :: rest) = d :: ds ++ lowerAfter (c :: before) rest ∧
      ∀ x ∈ d :: ds, Lowers c x := by
  have hsmall {x : Char} (hx : x.toNat ∈ [0x69, 0x307, 0x3C2, 0x3C3]) : IsSmall x :=
    isSmall_iff.2 (.inr (.inl hx))
  rw [lowerAfter]
  by_cases hsigma : c = 'Σ'
  · subst hsigma
    rw [if_pos (beq_self_eq_true 'Σ')]
    split
    · exact ⟨'ς', [], rfl, by simpa using .small isCapital_sigma (hsmall (by decide))⟩
    · exact ⟨'σ', [], rfl, by simpa using .small isCapital_sigma (hsmall (by decide))⟩
  · rw [if_neg (by simpa using hsigma)]
    by_cases hdotted : c = 'İ'
    · subst hdotted
      refine ⟨'i', [Char.ofNat 0x307], rfl, ?_⟩
      rw [List.forall_mem_cons, List.forall_mem_singleton]
      exact ⟨.small isCapital_dottedI (hsmall (by decide)),
        .small isCapital_dottedI (hsmall (by decide))⟩
    · rw [if_neg (by simpa using hdotted)]
      refine ⟨lowerChar c, [], rfl, ?_⟩
      rw [List.forall_mem_singleton]
      rcases lowerChar_cases c with ⟨hself, hnot⟩ | ⟨hcapital, hform⟩
      · rw [hself]
        exact .same fun hcapital => hdotted (hnot hcapital)
      · exact .small hcapital hform

theorem mem_lowerAfter {before s : List Char} :
    ∀ d ∈ lowerAfter before s, ∃ c ∈ s, Lowers c d := by
  induction s generalizing before with
  | nil => exact fun d hd => nomatch hd
  | cons c rest ih =>
    intro d hd
    obtain ⟨x, xs, hcons, hlowers⟩ := lowerAfter_cons before c rest
    rw [hcons, List.mem_append] at hd
    rcases hd with hd | hd
    · exact ⟨c, List.mem_cons_self, hlowers d hd⟩
    · obtain ⟨e, he, hlower⟩ := ih d hd
      exact ⟨e, List.mem_cons_of_mem _ he, hlower⟩

theorem head_lowerAfter {before s : List Char} :
    ∀ d ∈ (lowerAfter before s).head?, ∃ c ∈ s.head?, Lowers c d := by
  intro d hd
  cases s with
  | nil => exact nomatch hd
  | cons c rest =>
    obtain ⟨x, xs, hcons, hlowers⟩ := lowerAfter_cons before c rest
    rw [hcons] at hd
    obtain rfl : x = d := Option.some.inj hd
    exact ⟨c, rfl, hlowers x List.mem_cons_self⟩

theorem getLast_lowerAfter {before s : List Char} :
    ∀ d ∈ (lowerAfter before s).getLast?, ∃ c ∈ s.getLast?, Lowers c d := by
  induction s generalizing before with
  | nil => exact fun d hd => nomatch hd
  | cons c rest ih =>
    intro d hd
    obtain ⟨x, xs, hcons, hlowers⟩ := lowerAfter_cons before c rest
    rw [hcons, List.getLast?_append] at hd
    cases hrest : (lowerAfter (c :: before) rest).getLast? with
    | some y =>
      rw [hrest] at hd
      obtain rfl : y = d := by simpa using hd
      obtain ⟨e, he, hlower⟩ := ih y hrest
      refine ⟨e, ?_, hlower⟩
      rw [List.getLast?_cons, Option.mem_def.1 he]
      rfl
    | none =>
      -- nothing is left after the first character
      have hnil : rest = [] := by
        cases rest with
        | nil => rfl
        | cons e rest =>
          obtain ⟨y, ys, hcons', -⟩ := lowerAfter_cons (c :: before) e rest
          simp [hcons'] at hrest
      subst hnil
      rw [hrest] at hd
      exact ⟨c, rfl, hlowers d (List.mem_of_getLast? (by simpa using hd))⟩

theorem lowerAfter_eq_self {before s : List Char} (h : ∀ c ∈ s, ¬ IsCapital c) :
    lowerAfter before s = s := by
  induction s generalizing before with
  | nil => rfl
  | cons c rest ih =>
    rw [List.forall_mem_cons] at h
    have hsigma : c ≠ 'Σ' := by
      rintro rfl
      exact h.1 isCapital_sigma
    have hdotted : c ≠ 'İ' := by
      rintro rfl
      exact h.1 isCapital_dottedI
    have hself : lowerChar c = c := by
      rcases lowerChar_cases c with ⟨hself, -⟩ | ⟨hcapital, -⟩
      · exact hself
      · exact absurd hcapital h.1
    rw [lowerAfter, if_neg (by simpa using hsigma), if_neg (by simpa using hdotted), hself, ih h.2]
    rfl

/-- **The capitals are the characters that are not their own lower-case form.** -/
theorem lower_singleton_eq_iff {c : Char} :
    lower (String.singleton c) = String.singleton c ↔ ¬ IsCapital c := by
  have hlower : lower (String.singleton c) = String.singleton c ↔ lowerAfter [] [c] = [c] := by
    rw [lower, String.toList_singleton, ← String.toList_inj, String.toList_ofList,
      String.toList_singleton]
  rw [hlower]
  refine ⟨fun h => ?_, fun h => lowerAfter_eq_self (by simpa using h)⟩
  have hmem : c ∈ lowerAfter [] [c] := by simp [h]
  obtain ⟨d, -, hlowers⟩ := mem_lowerAfter c hmem
  exact hlowers.not_isCapital

end HAtom.Text
