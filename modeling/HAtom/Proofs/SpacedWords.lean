import HAtom.Text.Words
import Mathlib.Data.String.Basic
import Mathlib.Logic.ExistsUnique
import Mathlib.Tactic.Common

/-!
# Words with blanks between them

The words of a value are found by cutting it at every blank and dropping the empty pieces. The same
words can be said without cutting: a value is words one after another with blanks around them and
between any two, and a word stands in a value wherever blanks or the ends of the value enclose it.

* `IsWord`: a word is not empty and holds no blank.
* `Spaced ws s`: the text `s` is made of the words `ws` and of blanks. Each text is made so of one
  list of words, those that are found (`spaced_iff`).
* `mem_wordsOf_iff`: the words of a text by the places where they stand.
* `hasWord_iff_enclosed`: both for a keyword and a value. What a value answers depends on which
  words it is made of, and on nothing else.
-/

namespace HAtom.Text

/-! ## Texts made of words and blanks -/

/-- A word is not empty and holds no blank. -/
structure IsWord (w : List Char) : Prop where
  ne_nil : w ≠ []
  noBlank : ∀ c ∈ w, isBlank c = false

/-- The text is empty or ends with a blank. -/
def BlankAtEnd (s : List Char) : Prop := ∀ c ∈ s.getLast?, isBlank c = true

/-- The text is empty or starts with a blank. -/
def BlankAtStart (s : List Char) : Prop := ∀ c ∈ s.head?, isBlank c = true

/-- The text is made of these words, one after another, with blanks around them and between any
two. -/
inductive Spaced : List (List Char) → List Char → Prop
  | blanks {s : List Char} : (∀ c ∈ s, isBlank c = true) → Spaced [] s
  | word {before w rest : List Char} {ws : List (List Char)} :
    (∀ c ∈ before, isBlank c = true) → IsWord w → BlankAtStart rest → Spaced ws rest →
      Spaced (w :: ws) (before ++ w ++ rest)

theorem blankAtEnd_of_forall {s : List Char} (h : ∀ c ∈ s, isBlank c = true) : BlankAtEnd s :=
  fun c hc => h c (List.mem_of_getLast? hc)

theorem blankAtStart_of_forall {s : List Char} (h : ∀ c ∈ s, isBlank c = true) : BlankAtStart s :=
  fun c hc => h c (List.mem_of_head? hc)

/-! ## Cutting at blanks -/

@[simp] theorem wordsOf_nil : wordsOf [] = [] := rfl

theorem wordsOf_append_cons {c : Char} (hc : isBlank c = true) (s t : List Char) :
    wordsOf (s ++ c :: t) = wordsOf s ++ wordsOf t := by
  rw [wordsOf, pieces_append hc, List.filter_append, wordsOf, wordsOf]

theorem wordsOf_cons_of_blank {c : Char} (hc : isBlank c = true) (s : List Char) :
    wordsOf (c :: s) = wordsOf s := wordsOf_append_cons hc [] s

/-- The words before a blank, or before the end, are words of the text, and the rest has the
others. -/
theorem wordsOf_append_of_start (s : List Char) {t : List Char} (ht : BlankAtStart t) :
    wordsOf (s ++ t) = wordsOf s ++ wordsOf t := by
  cases t with
  | nil => simp
  | cons c t => rw [wordsOf_append_cons (ht c rfl), wordsOf_cons_of_blank (ht c rfl)]

theorem wordsOf_append_of_end {s : List Char} (hs : BlankAtEnd s) (t : List Char) :
    wordsOf (s ++ t) = wordsOf s ++ wordsOf t := by
  rcases List.eq_nil_or_concat' s with rfl | ⟨s, c, rfl⟩
  · simp
  · have hc : isBlank c = true := hs c (by simp)
    rw [List.append_assoc, List.singleton_append, wordsOf_append_cons hc, wordsOf_append_cons hc,
      wordsOf_nil, List.append_nil]

theorem wordsOf_of_blanks {s : List Char} (h : ∀ c ∈ s, isBlank c = true) : wordsOf s = [] := by
  induction s with
  | nil => rfl
  | cons c s ih =>
    rw [List.forall_mem_cons] at h
    rw [wordsOf_cons_of_blank h.1, ih h.2]

theorem IsWord.wordsOf_eq {w : List Char} (h : IsWord w) : wordsOf w = [w] := by
  rw [wordsOf, pieces_of_forall h.noBlank]
  simp [h.ne_nil]

/-! ## The words a text is made of -/

theorem Spaced.wordsOf_eq {ws : List (List Char)} {s : List Char} (h : Spaced ws s) :
    wordsOf s = ws := by
  induction h with
  | blanks h => exact wordsOf_of_blanks h
  | word hbefore hword hrest _ ih =>
    rw [wordsOf_append_of_start _ hrest, wordsOf_append_of_end (blankAtEnd_of_forall hbefore),
      wordsOf_of_blanks hbefore, hword.wordsOf_eq, ih]
    rfl

theorem isWord_singleton {c : Char} (hc : isBlank c = false) : IsWord [c] :=
  ⟨List.cons_ne_nil _ _, by simpa using hc⟩

theorem Spaced.exists_cons {ws : List (List Char)} {s : List Char} (h : Spaced ws s) (c : Char) :
    ∃ ws', Spaced ws' (c :: s) := by
  cases hc : isBlank c with
  | true =>
    -- one more blank in front
    cases h with
    | blanks h => exact ⟨[], .blanks (List.forall_mem_cons.2 ⟨hc, h⟩)⟩
    | @word before w rest ws hbefore hword hrest hspaced =>
      have hbefore' : ∀ d ∈ c :: before, isBlank d = true := List.forall_mem_cons.2 ⟨hc, hbefore⟩
      exact ⟨w :: ws, .word hbefore' hword hrest hspaced⟩
  | false =>
    have hnone : ∀ d ∈ ([] : List Char), isBlank d = true := fun _ h => nomatch h
    cases h with
    | blanks h =>
      exact ⟨[[c]], .word hnone (isWord_singleton hc) (blankAtStart_of_forall h) (.blanks h)⟩
    | @word before w rest ws hbefore hword hrest hspaced =>
      cases before with
      | nil =>
        -- the character belongs to the first word
        have hlonger : IsWord (c :: w) :=
          ⟨List.cons_ne_nil _ _, List.forall_mem_cons.2 ⟨hc, hword.noBlank⟩⟩
        exact ⟨(c :: w) :: ws, .word hnone hlonger hrest hspaced⟩
      | cons b before =>
        have hstart : BlankAtStart (b :: before ++ w ++ rest) := by
          rintro d ⟨⟩
          exact hbefore b List.mem_cons_self
        exact ⟨[c] :: w :: ws, .word hnone (isWord_singleton hc) hstart
          (.word hbefore hword hrest hspaced)⟩

theorem exists_spaced (s : List Char) : ∃ ws, Spaced ws s := by
  induction s with
  | nil => exact ⟨[], .blanks fun _ h => nomatch h⟩
  | cons c s ih =>
    obtain ⟨ws, hws⟩ := ih
    exact hws.exists_cons c

/-- **A text is made of the words that are found in it**, and of no others. -/
theorem spaced_iff {ws : List (List Char)} {s : List Char} : Spaced ws s ↔ wordsOf s = ws := by
  refine ⟨Spaced.wordsOf_eq, ?_⟩
  rintro rfl
  obtain ⟨ws, hws⟩ := exists_spaced s
  rwa [hws.wordsOf_eq]

instance (ws : List (List Char)) (s : List Char) : Decidable (Spaced ws s) :=
  decidable_of_iff _ spaced_iff.symm

/-! ## Where a word stands -/

theorem Spaced.enclosed {ws : List (List Char)} {s k : List Char} (h : Spaced ws s) (hk : k ∈ ws) :
    IsWord k ∧ ∃ before after,
      s = before ++ k ++ after ∧ BlankAtEnd before ∧ BlankAtStart after := by
  induction h with
  | blanks _ => cases hk
  | @word before w rest ws hbefore hword hrest hspaced ih =>
    rcases List.mem_cons.1 hk with rfl | hk
    · exact ⟨hword, before, rest, rfl, blankAtEnd_of_forall hbefore, hrest⟩
    · -- a later word: the first one and the blanks around it come before
      obtain ⟨hkword, before', after, rfl, hbefore', hafter⟩ := ih hk
      refine ⟨hkword, before ++ w ++ before', after, by simp, ?_, hafter⟩
      cases before' with
      | nil =>
        -- no blank between the two words would make them one
        obtain ⟨c, k', rfl⟩ := List.exists_cons_of_ne_nil hkword.ne_nil
        have hblank : isBlank c = true := hrest c rfl
        exact absurd (hkword.noBlank c List.mem_cons_self) (by simp [hblank])
      | cons b before' =>
        intro c hc
        refine hbefore' c ?_
        rwa [List.getLast?_append_of_ne_nil _ (List.cons_ne_nil _ _)] at hc

/-- **The words of a text are the blank-free parts of it that blanks or its ends enclose.** -/
theorem mem_wordsOf_iff {s k : List Char} :
    k ∈ wordsOf s ↔ IsWord k ∧
      ∃ before after, s = before ++ k ++ after ∧ BlankAtEnd before ∧ BlankAtStart after := by
  refine ⟨fun h => (spaced_iff.2 rfl : Spaced (wordsOf s) s).enclosed h, ?_⟩
  rintro ⟨hword, before, after, rfl, hbefore, hafter⟩
  rw [wordsOf_append_of_start _ hafter, wordsOf_append_of_end hbefore, hword.wordsOf_eq]
  simp

/-! ## Keywords -/

theorem hasWord_eq_true_iff {v k : String} : hasWord v k = true ↔ k.toList ∈ wordsOf v.toList := by
  have hwords : k ∈ words v ↔ k.toList ∈ wordsOf v.toList := by
    constructor
    · intro h
      obtain ⟨w, hw, rfl⟩ := List.mem_map.1 h
      simpa using hw
    · exact fun h => List.mem_map.2 ⟨k.toList, h, String.ofList_toList⟩
  have hne : k.toList ∈ wordsOf v.toList → k ≠ "" := by
    rintro h rfl
    exact (mem_wordsOf_iff.1 h).1.ne_nil rfl
  rw [hasWord, Bool.and_eq_true, List.contains_iff_mem, hwords]
  exact and_iff_right_of_imp fun h => by simpa using hne h

/-- **A value has a keyword when the keyword stands in it as a word**: it is not empty and holds no
blank, before it there is nothing or a blank, and so there is after it. A value is made of one list
of words with blanks between them; two values made of the same words have the same keywords, in
whatever order the words come, however often, and whatever the blanks. -/
theorem hasWord_iff_enclosed :
    (∀ v k : String, hasWord v k = true ↔
      k ≠ "" ∧ (∀ c ∈ k.toList, isBlank c = false) ∧
        ∃ before after : String, v = before ++ k ++ after ∧
          BlankAtEnd before.toList ∧ BlankAtStart after.toList) ∧
      (∀ v : String, ∃! ws : List String, Spaced (ws.map String.toList) v.toList) ∧
      ∀ {v v' : String} {ws ws' : List String}, Spaced (ws.map String.toList) v.toList →
        Spaced (ws'.map String.toList) v'.toList → (∀ w, w ∈ ws ↔ w ∈ ws') →
          ∀ k, hasWord v k = hasWord v' k := by
  refine ⟨fun v k => ?_, fun v => ?_, fun {v v' ws ws'} hv hv' hsame k => ?_⟩
  · rw [hasWord_eq_true_iff, mem_wordsOf_iff]
    constructor
    · rintro ⟨⟨hne, hblank⟩, before, after, hsplit, hbefore, hafter⟩
      refine ⟨by simpa using hne, hblank, String.ofList before, String.ofList after, ?_, ?_, ?_⟩
      · apply String.toList_injective
        simpa [String.toList_append] using hsplit
      · simpa using hbefore
      · simpa using hafter
    · rintro ⟨hne, hblank, before, after, rfl, hbefore, hafter⟩
      refine ⟨⟨by simpa using hne, hblank⟩, before.toList, after.toList, ?_, hbefore, hafter⟩
      simp [String.toList_append]
  · refine ⟨words v, ?_, fun ws hws => ?_⟩
    · refine spaced_iff.2 ?_
      simp [words, Function.comp_def]
    · rw [words, hws.wordsOf_eq]
      simp [Function.comp_def]
  · rw [Bool.eq_iff_iff, hasWord_eq_true_iff, hasWord_eq_true_iff, hv.wordsOf_eq, hv'.wordsOf_eq]
    have hmem (us : List String) : k.toList ∈ us.map String.toList ↔ k ∈ us :=
      List.mem_map_of_injective fun _ _ h => String.toList_injective h
    rw [hmem, hmem, hsame]

/-- Two values made of the words `a` and `b`, in another order and with other blanks. -/
theorem hasWord_iff_enclosed_reordered :
    Spaced (["b", "a", "b"].map String.toList) "b  a\tb".toList ∧
      Spaced (["a", "b"].map String.toList) " a\u3000b".toList ∧
      ∀ k, hasWord "b  a\tb" k = hasWord " a\u3000b" k := by
  have hv : Spaced (["b", "a", "b"].map String.toList) "b  a\tb".toList := by decide
  have hv' : Spaced (["a", "b"].map String.toList) " a\u3000b".toList := by decide
  refine ⟨hv, hv', hasWord_iff_enclosed.2.2 hv hv' fun w => ?_⟩
  simp only [List.mem_cons, List.not_mem_nil, or_false]
  tauto

end HAtom.Text
