import HAtom.Arguments
import HAtom.Proofs.LowerCase
import Mathlib.Data.List.TakeWhile
import Mathlib.Data.String.Basic

/-!
# The forms of extensions

A list of extensions, as it stands after an option, is cut at its commas. Each piece loses the
blanks around it, then the points in front, and is put into lower case; what is empty then is left
out. The forms that come of this are nearly what a second reading would leave as it is. Only a blank
can be left at the start of a form, since points are dropped after the blanks: it is one that stood
behind points.

* `IsForm`: what is true of every form of an extension.
* `StartsBlank` says that a form starts with a blank, and `HidesBlank` that a piece has points in
  front of a blank.
* `extensionForms_join_iff`: which forms are the same when they are read again.
* `extensionForms_settled`: all that is true of the forms, whatever the list.
-/

namespace HAtom.Text

theorem splitOn_join {mark : Char} {texts : List String} (hne : texts ≠ [])
    (h : ∀ s ∈ texts, mark ∉ s.toList) :
    splitOn mark (join (String.singleton mark) texts) = texts := by
  have hpiece {s : String} (hs : mark ∉ s.toList) : pieces (· == mark) s.toList = [s.toList] := by
    refine pieces_of_forall fun c hc => ?_
    have hne : c ≠ mark := fun heq => hs (heq ▸ hc)
    simpa using hne
  induction texts with
  | nil => exact absurd rfl hne
  | cons s rest ih =>
    rw [List.forall_mem_cons] at h
    cases rest with
    | nil => simp [join, splitOn, hpiece h.1]
    | cons t rest =>
      have hjoin : (join (String.singleton mark) (s :: t :: rest)).toList =
          s.toList ++ mark :: (join (String.singleton mark) (t :: rest)).toList := by
        simp [join, String.toList_append]
      have hlater := ih (List.cons_ne_nil _ _) h.2
      rw [splitOn] at hlater
      rw [splitOn, hjoin, pieces_append (by simp), hpiece h.1, List.map_append, hlater]
      simp

end HAtom.Text

namespace HAtom.Arguments

open Text

/-- What is true of every form of an extension. -/
structure IsForm (x : String) : Prop where
  ne_empty : x ≠ ""
  /-- It does not end with a blank. -/
  last : ∀ c ∈ x.toList.getLast?, isBlank c = false
  /-- It does not start with a point. -/
  head : ∀ c ∈ x.toList.head?, c ≠ '.'
  no_comma : ',' ∉ x.toList
  /-- No letter of it has a lower-case form but itself. -/
  low : ∀ c ∈ x.toList, lower (String.singleton c) = String.singleton c

/-- The text starts with a blank. -/
def StartsBlank (x : String) : Prop := ∃ c ∈ x.toList.head?, isBlank c = true

instance : DecidablePred StartsBlank := fun x =>
  decidable_of_iff (x.toList.head?.any isBlank = true) (by simp [StartsBlank, Option.any_eq_true])

/-- Without the blanks around it, the text has points at the start and a blank behind them. -/
def HidesBlank (piece : String) : Prop :=
  ∃ points b rest, trimChars piece.toList = points ++ b :: rest ∧ (∀ c ∈ points, c = '.') ∧
    isBlank b = true

/-! ## What is left of a piece -/

/-- What is left of a piece before it is put into lower case. -/
def stripped (piece : List Char) : List Char := (trimChars piece).dropWhile (· == '.')

theorem toList_extensionForm (piece : String) :
    (extensionForm piece).toList = lowerAfter [] (stripped piece.toList) := by
  rw [extensionForm, lower, String.toList_ofList, String.toList_ofList, stripped]

theorem head_stripped (piece : List Char) : ∀ c ∈ (stripped piece).head?, c ≠ '.' := by
  intro c hc
  simpa using head_dropWhile (· == '.') (trimChars piece) c hc

theorem stripped_suffix (piece : List Char) : stripped piece <:+ trimChars piece :=
  List.dropWhile_suffix _

theorem getLast_stripped (piece : List Char) :
    ∀ c ∈ (stripped piece).getLast?, isBlank c = false := by
  intro c hc
  refine getLast_trimChars piece c ?_
  obtain ⟨points, hpoints⟩ := stripped_suffix piece
  rw [← hpoints, List.getLast?_append, Option.mem_def.1 hc]
  rfl

theorem trimChars_sublist (s : List Char) : (trimChars s).Sublist s := by
  have hdrop := (List.dropWhile_sublist (l := (s.dropWhile isBlank).reverse) isBlank).reverse
  rw [List.reverse_reverse] at hdrop
  exact hdrop.trans (List.dropWhile_sublist _)

theorem mem_of_mem_stripped {piece : List Char} {c : Char} (h : c ∈ stripped piece) : c ∈ piece :=
  (trimChars_sublist piece).mem ((stripped_suffix piece).subset h)

/-- What is left of a piece starts with a blank when the piece has points in front of one. -/
theorem hidesBlank_iff (piece : String) :
    HidesBlank piece ↔ ∃ c ∈ (stripped piece.toList).head?, isBlank c = true := by
  constructor
  · rintro ⟨points, b, rest, htrim, hpoints, hblank⟩
    have hdrop : stripped piece.toList = b :: rest := by
      have hb : b ≠ '.' := by
        rintro rfl
        exact absurd hblank (by decide)
      rw [stripped, htrim, List.dropWhile_append_of_pos (by simpa using hpoints),
        List.dropWhile_cons_of_neg (by simpa using hb)]
    exact ⟨b, by simp [hdrop], hblank⟩
  · rintro ⟨b, hb, hblank⟩
    obtain ⟨rest, hrest⟩ := List.head?_eq_some_iff.1 hb
    refine ⟨(trimChars piece.toList).takeWhile (· == '.'), b, rest, ?_, ?_, hblank⟩
    · rw [← hrest, stripped, List.takeWhile_append_dropWhile]
    · intro c hc
      simpa using List.mem_takeWhile_imp hc

theorem startsBlank_extensionForm (piece : String) :
    StartsBlank (extensionForm piece) ↔ HidesBlank piece := by
  rw [hidesBlank_iff, StartsBlank, toList_extensionForm]
  constructor
  · rintro ⟨d, hd, hblank⟩
    obtain ⟨c, hc, hlowers⟩ := head_lowerAfter d hd
    obtain rfl := hlowers.eq_of_isMark (.inr (isMark_of_isBlank hblank))
    exact ⟨d, hc, hblank⟩
  · rintro ⟨c, hc, hblank⟩
    obtain ⟨rest, hrest⟩ := List.head?_eq_some_iff.1 hc
    obtain ⟨d, ds, hcons, hlowers⟩ := lowerAfter_cons [] c rest
    have hself := (hlowers d List.mem_cons_self).eq_of_isMark (.inl (isMark_of_isBlank hblank))
    rw [hrest, hcons]
    exact ⟨d, rfl, hself ▸ hblank⟩

theorem isForm_extensionForm {piece : String} (hne : extensionForm piece ≠ "")
    (hcomma : ',' ∉ piece.toList) : IsForm (extensionForm piece) where
  ne_empty := hne
  last d hd := by
    rw [toList_extensionForm] at hd
    obtain ⟨c, hc, hlowers⟩ := getLast_lowerAfter d hd
    have hnot := getLast_stripped _ c hc
    refine Bool.eq_false_iff.2 fun hblank => ?_
    obtain rfl := hlowers.eq_of_isMark (.inr (isMark_of_isBlank hblank))
    rw [hblank] at hnot
    cases hnot
  head d hd := by
    rintro rfl
    rw [toList_extensionForm] at hd
    obtain ⟨c, hc, hlowers⟩ := head_lowerAfter _ hd
    have hself := hlowers.eq_of_isMark (.inr (by decide))
    exact head_stripped _ c hc hself.symm
  no_comma hmem := by
    rw [toList_extensionForm] at hmem
    obtain ⟨c, hc, hlowers⟩ := mem_lowerAfter _ hmem
    have hself := hlowers.eq_of_isMark (.inr (by decide))
    exact hcomma (mem_of_mem_stripped (hself ▸ hc))
  low d hd := by
    rw [toList_extensionForm] at hd
    obtain ⟨c, -, hlowers⟩ := mem_lowerAfter d hd
    exact lower_singleton_eq_iff.2 hlowers.not_isCapital

/-! ## The forms of a list -/

theorem mem_extensionForms {e x : String} :
    x ∈ extensionForms e ↔ x ≠ "" ∧ ∃ piece ∈ splitOn ',' e, extensionForm piece = x := by
  simp [extensionForms, and_comm]

theorem isForm_of_mem {e x : String} (h : x ∈ extensionForms e) : IsForm x := by
  obtain ⟨hne, piece, hpiece, rfl⟩ := mem_extensionForms.1 h
  refine isForm_extensionForm hne fun hcomma => ?_
  obtain ⟨cs, hcs, rfl⟩ := List.mem_map.1 hpiece
  have hcut := eq_false_of_mem_pieces hcs ',' (by simpa using hcomma)
  simp at hcut

/-- A form is its own form, unless it starts with a blank. -/
theorem IsForm.extensionForm_eq_iff {x : String} (h : IsForm x) :
    extensionForm x = x ↔ ¬ StartsBlank x := by
  have hlow : ∀ c ∈ x.toList, ¬ IsCapital c := fun c hc => lower_singleton_eq_iff.1 (h.low c hc)
  have hform : (extensionForm x).toList = stripped x.toList := by
    rw [toList_extensionForm, lowerAfter_eq_self fun c hc => hlow c (mem_of_mem_stripped hc)]
  rw [← String.toList_inj, hform]
  constructor
  · -- all of the text is left, so that no blank was dropped in front of it
    rintro heq ⟨b, hb, hblank⟩
    have hall : stripped x.toList = trimChars x.toList := by
      refine (stripped_suffix _).eq_of_length (Nat.le_antisymm (stripped_suffix _).length_le ?_)
      rw [heq]
      exact (trimChars_sublist _).length_le
    have hhead := head_trimChars x.toList b (by rwa [← hall, heq])
    rw [hblank] at hhead
    cases hhead
  · intro hblank
    have htrim : trimChars x.toList = x.toList := by
      refine trimChars_eq_self (fun c hc => Bool.eq_false_iff.2 fun hc' => ?_) h.last
      exact hblank ⟨c, hc, hc'⟩
    rw [stripped, htrim]
    refine dropWhile_eq_self fun c hc => ?_
    simpa using h.head c hc

/-- A list of texts that are forms of extensions is cut into them again. -/
theorem splitOn_join_forms {xs : List String} (h : ∀ x ∈ xs, IsForm x) (hne : xs ≠ []) :
    splitOn ',' (join "," xs) = xs := splitOn_join hne fun x hx => (h x hx).no_comma

theorem filter_map_eq_self_iff {f : String → String} {p : String → Bool} {xs : List String}
    (hp : ∀ x ∈ xs, p x = true) : (xs.map f).filter p = xs ↔ ∀ x ∈ xs, f x = x := by
  constructor
  · intro heq
    have hlength : ((xs.map f).filter p).length = (xs.map f).length := by
      rw [heq, List.length_map]
    rw [List.filter_eq_self.2 (List.length_filter_eq_length_iff.1 hlength)] at heq
    exact List.map_inj_left.1 (heq.trans (List.map_id' xs).symm)
  · intro hself
    rw [List.map_congr_left hself, List.map_id', List.filter_eq_self.2 hp]

/-- **The forms that are the same when they are read again** are those that do not start with a
blank. -/
theorem extensionForms_join_iff {xs : List String} (h : ∀ x ∈ xs, IsForm x) :
    extensionForms (join "," xs) = xs ↔ ∀ x ∈ xs, ¬ StartsBlank x := by
  rcases eq_or_ne xs [] with rfl | hne
  · have hnone : extensionForms (join "," []) = [] := by decide
    simp [hnone]
  · rw [extensionForms, splitOn_join_forms h hne,
      filter_map_eq_self_iff fun x hx => by simpa using (h x hx).ne_empty]
    exact forall₂_congr fun x hx => (h x hx).extensionForm_eq_iff

/-- **The forms of a list of extensions**, whatever the list: each is in lower case, has no comma,
no point in front and no blank at its end. Read again they are the same exactly if none of them
starts with a blank, which is to say that no piece of the list has points in front of a blank. -/
theorem extensionForms_settled (e : String) :
    (∀ x ∈ extensionForms e, IsForm x) ∧
      (extensionForms (join "," (extensionForms e)) = extensionForms e ↔
        ∀ x ∈ extensionForms e, ¬ StartsBlank x) ∧
      ((∀ x ∈ extensionForms e, ¬ StartsBlank x) ↔
        ∀ piece ∈ splitOn ',' e, ¬ HidesBlank piece) := by
  have hforms : ∀ x ∈ extensionForms e, IsForm x := fun x hx => isForm_of_mem hx
  refine ⟨hforms, extensionForms_join_iff hforms, fun h piece hpiece hhides => ?_,
    fun h x hx hblank => ?_⟩
  · have hblank := (startsBlank_extensionForm piece).2 hhides
    refine h _ (mem_extensionForms.2 ⟨fun hempty => ?_, piece, hpiece, rfl⟩) hblank
    rw [hempty] at hblank
    obtain ⟨c, hc, -⟩ := hblank
    cases hc
  · obtain ⟨-, piece, hpiece, rfl⟩ := mem_extensionForms.1 hx
    exact h piece hpiece ((startsBlank_extensionForm piece).1 hblank)

/-- A list with capitals, points, blanks and an empty piece. -/
theorem extensionForms_settled_of_four :
    extensionForms "HTML, .xhtml,,\u3000..ΟΔΟΣ " = ["html", "xhtml", "οδος"] ∧
      IsForm "οδος" ∧
      extensionForms (join "," (extensionForms "HTML, .xhtml,,\u3000..ΟΔΟΣ ")) =
        ["html", "xhtml", "οδος"] := by
  have hforms : extensionForms "HTML, .xhtml,,\u3000..ΟΔΟΣ " = ["html", "xhtml", "οδος"] := by
    decide +kernel
  obtain ⟨hform, hagain, -⟩ := extensionForms_settled "HTML, .xhtml,,\u3000..ΟΔΟΣ "
  rw [hforms] at hform hagain
  rw [hforms]
  exact ⟨rfl, hform "οδος" (by decide +kernel), hagain.2 (by decide +kernel)⟩

/-- A blank behind a point is left at the start of a form and lost when the form is read again. -/
theorem extensionForms_of_hidden_blank :
    extensionForms ". html" = [" html"] ∧ StartsBlank " html" ∧
      extensionForms (join "," (extensionForms ". html")) = ["html"] := by
  decide +kernel

end HAtom.Arguments
