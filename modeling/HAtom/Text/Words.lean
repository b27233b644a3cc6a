/-!
# Blank characters and words

What counts as blank in a document, and the words that blank characters separate. An attribute
such as `class` holds a list of words; a keyword is present when it is one of them.

* `isBlank` is the white-space property of the character standard, larger than the blanks of XML.
* `trim` drops blanks from both ends of a text.
* `splitOn` cuts a text at every occurrence of a character, `words` at every blank.
* `hasWord v k` says that the keyword `k` is a word of the value `v`.
-/

namespace HAtom.Text

/-! ## Blanks -/

/-- Whether a character is white space by the character standard. -/
def isBlank (c : Char) : Bool :=
  let n := c.toNat
  (9 ≤ n && n ≤ 13) || n == 0x20 || n == 0x85 || n == 0xA0 || n == 0x1680 ||
    (0x2000 ≤ n && n ≤ 0x200A) || n == 0x2028 || n == 0x2029 || n == 0x202F || n == 0x205F ||
    n == 0x3000

/-- The characters left when the blanks at both ends are dropped. -/
def trimChars (s : List Char) : List Char :=
  ((s.dropWhile isBlank).reverse.dropWhile isBlank).reverse

/-- Nothing is dropped from the front of a text that does not start with what is dropped. -/
theorem dropWhile_eq_self {p : Char → Bool} {s : List Char} (h : ∀ c ∈ s.head?, p c = false) :
    s.dropWhile p = s := by
  cases s with
  | nil => rfl
  | cons c s => simp [h c rfl]

theorem head_dropWhile (p : Char → Bool) (s : List Char) :
    ∀ c ∈ (s.dropWhile p).head?, p c = false := by
  intro c hc
  have h := List.head?_dropWhile_not p s
  rw [Option.mem_def.1 hc] at h
  exact h

theorem getLast_trimChars (s : List Char) : ∀ c ∈ (trimChars s).getLast?, isBlank c = false := by
  rw [trimChars, List.getLast?_reverse]
  exact head_dropWhile isBlank _

theorem head_trimChars (s : List Char) : ∀ c ∈ (trimChars s).head?, isBlank c = false := by
  -- what is left after the second drop is the front of what was left after the first one
  have hfront : trimChars s <+: s.dropWhile isBlank := by
    rw [trimChars, ← List.reverse_suffix, List.reverse_reverse]
    exact List.dropWhile_suffix _
  intro c hc
  refine head_dropWhile isBlank s c ?_
  obtain ⟨back, hback⟩ := hfront
  rw [← hback, List.head?_append, Option.mem_def.1 hc]
  rfl

/-- A text with no blank at either end is left as it is. -/
theorem trimChars_eq_self {s : List Char} (hhead : ∀ c ∈ s.head?, isBlank c = false)
    (hlast : ∀ c ∈ s.getLast?, isBlank c = false) : trimChars s = s := by
  rw [trimChars, dropWhile_eq_self hhead, dropWhile_eq_self, List.reverse_reverse]
  rwa [List.head?_reverse]

/-- The text without the blanks at both ends. -/
def trim (s : String) : String := String.ofList (trimChars s.toList)

/-- Whether a text holds nothing but blanks. -/
def isBlankText (s : String) : Bool := s.toList.all isBlank

/-! ## Pieces and words -/

/-- The pieces between the characters that `cut` accepts; one more piece than such characters. -/
def pieces (cut : Char → Bool) : List Char → List (List Char)
  | [] => [[]]
  | c :: rest =>
    if cut c then [] :: pieces cut rest
    else
      match pieces cut rest with
      | [] => [[c]]
      | piece :: more => (c :: piece) :: more

theorem pieces_ne_nil (cut : Char → Bool) (s : List Char) : pieces cut s ≠ [] := by
  cases s with
  | nil => simp [pieces]
  | cons c s =>
    rw [pieces]
    split
    · simp
    · split <;> simp

/-- A mark ends the last piece before it, and the first piece after it begins anew. -/
theorem pieces_append {cut : Char → Bool} {mark : Char} (hmark : cut mark = true)
    (s t : List Char) : pieces cut (s ++ mark :: t) = pieces cut s ++ pieces cut t := by
  induction s with
  | nil => simp [pieces, hmark]
  | cons c s ih =>
    obtain ⟨piece, more, hpieces⟩ := List.exists_cons_of_ne_nil (pieces_ne_nil cut s)
    rw [hpieces] at ih
    by_cases hc : cut c = true <;> simp [pieces, hc, ih, hpieces]

/-- A text without marks is one piece. -/
theorem pieces_of_forall {cut : Char → Bool} {s : List Char} (h : ∀ c ∈ s, cut c = false) :
    pieces cut s = [s] := by
  induction s with
  | nil => rfl
  | cons c s ih =>
    rw [List.forall_mem_cons] at h
    simp [pieces, h.1, ih h.2]

/-- No piece holds a mark. -/
theorem eq_false_of_mem_pieces {cut : Char → Bool} {s piece : List Char}
    (h : piece ∈ pieces cut s) : ∀ c ∈ piece, cut c = false := by
  induction s generalizing piece with
  | nil =>
    obtain rfl : piece = [] := by simpa [pieces] using h
    exact fun c hc => nomatch hc
  | cons d s ih =>
    obtain ⟨first, more, hpieces⟩ := List.exists_cons_of_ne_nil (pieces_ne_nil cut s)
    have hfirst := ih (hpieces ▸ List.mem_cons_self : first ∈ pieces cut s)
    have hmore {p} (hp : p ∈ more) := ih (hpieces ▸ List.mem_cons_of_mem first hp : p ∈ pieces cut s)
    rw [pieces] at h
    split at h
    · rcases List.mem_cons.1 h with rfl | h
      · exact fun c hc => nomatch hc
      · exact ih h
    · next hd =>
      rw [hpieces] at h
      rcases List.mem_cons.1 h with rfl | h
      · exact List.forall_mem_cons.2 ⟨Bool.eq_false_iff.2 hd, hfirst⟩
      · exact hmore h

/-- The pieces of a text between the occurrences of a character. -/
def splitOn (mark : Char) (s : String) : List String :=
  (pieces (· == mark) s.toList).map String.ofList

/-- The non-empty pieces between blanks. -/
def wordsOf (s : List Char) : List (List Char) :=
  (pieces isBlank s).filter (fun w => !w.isEmpty)

/-- The words of a text, in order. -/
def words (s : String) : List String := (wordsOf s.toList).map String.ofList

/-- Whether the keyword is a word of the value. The empty keyword is a word of nothing. -/
def hasWord (value keyword : String) : Bool :=
  !keyword.isEmpty && (words value).contains keyword

/-! ## Joining and prefixes -/

/-- The texts one after another with a separator between neighbours. -/
def join (separator : String) : List String → String
  | [] => ""
  | [s] => s
  | s :: rest => s ++ separator ++ join separator rest

/-- Whether a text starts with another. -/
def startsWith (s start : String) : Bool := start.toList.isPrefixOf s.toList

end HAtom.Text
