import HAtom.Proofs.JsonScalars

/-!
# Both layouts of a value read back

A reader takes as much as one value writes and leaves what follows. That is what it means here for a
text to be read as a value, and it is kept by brackets: a list of texts that are read as values, with
commas between them and blanks around them, is read as the list of these values. Both layouts are put
together in this way, and they differ only in their blanks.

* `Json.Blank`: the texts that a reader passes over.
* `Json.Reads`: a text is read as a value.
* `Json.reads_array` and `Json.reads_object`: what brackets are read as.
* `Json.reads_compact` and `Json.reads_prettyAt`: the two layouts.
* `Json.parse?_of_reads`: a whole text, with blanks after it.
-/

namespace HAtom.Json

variable {fuel : Nat} {rest : List Char} {v : Json} {text gap before after : String}

/-! ## Blanks -/

/-- A text of blanks, which no reader looks at. -/
def Blank (s : String) : Prop := ∀ c ∈ s.toList, c = ' ' ∨ c = '\n' ∨ c = '\t' ∨ c = '\r'

theorem blank_empty : Blank "" := by
  intro c hc
  simp at hc

theorem blank_newLine (level : Nat) : Blank (newLine level) := by
  intro c hc
  rw [newLine, String.toList_ofList, List.mem_cons, List.mem_replicate] at hc
  obtain rfl | ⟨-, rfl⟩ := hc
  · simp
  · simp

theorem skipSpaces_blank (h : Blank gap) (s : List Char) :
    skipSpaces (gap.toList ++ s) = skipSpaces s := by
  unfold Blank at h
  generalize gap.toList = cs at h ⊢
  induction cs with
  | nil => rfl
  | cons c cs ih =>
    obtain ⟨hc, hcs⟩ := List.forall_mem_cons.1 h
    rw [List.cons_append, skipSpaces, if_pos (by simpa [or_assoc] using hc)]
    exact ih hcs

theorem skipSpaces_skipSpaces (s : List Char) : skipSpaces (skipSpaces s) = skipSpaces s := by
  induction s with
  | nil => rw [skipSpaces_nil, skipSpaces_nil]
  | cons c s ih =>
    rw [skipSpaces]
    split
    · exact ih
    · next h => rw [skipSpaces, if_neg h]

/-- What is no blank is not passed over. -/
theorem skipSpaces_cons {c : Char} (h : c ≠ ' ' ∧ c ≠ '\n' ∧ c ≠ '\t' ∧ c ≠ '\r') (s : List Char) :
    skipSpaces (c :: s) = c :: s := by
  simp [skipSpaces, h]

theorem ends_cons {c : Char} (h : c.isDigit = false ∧ c ≠ '.' ∧ c ≠ 'e' ∧ c ≠ 'E') (s : List Char) :
    Ends (c :: s) := by
  rintro _ ⟨⟩
  exact h

/-- A number ends before blanks. -/
theorem ends_blank (h : Blank gap) (hrest : Ends rest) : Ends (gap.toList ++ rest) := by
  unfold Blank at h
  generalize gap.toList = cs at h ⊢
  cases cs with
  | nil => exact hrest
  | cons c cs =>
    apply ends_cons
    obtain rfl | rfl | rfl | rfl := h c List.mem_cons_self <;> decide

theorem readValue_skipSpaces (fuel : Nat) (s : List Char) :
    readValue fuel (skipSpaces s) = readValue fuel s := by
  cases fuel with
  | zero => rw [readValue_zero, readValue_zero]
  | succ fuel => rw [readValue, readValue, skipSpaces_skipSpaces]

theorem readItems_skipSpaces (fuel : Nat) (s : List Char) :
    readItems fuel (skipSpaces s) = readItems fuel s := by
  cases fuel with
  | zero => rw [readItems_zero, readItems_zero]
  | succ fuel => rw [readItems, readItems, readValue_skipSpaces]

theorem readFields_skipSpaces (fuel : Nat) (s : List Char) :
    readFields fuel (skipSpaces s) = readFields fuel s := by
  cases fuel with
  | zero => rw [readFields_zero, readFields_zero]
  | succ fuel => rw [readFields, readFields, skipSpaces_skipSpaces]

theorem readValue_blank (h : Blank gap) (s : List Char) :
    readValue fuel (gap.toList ++ s) = readValue fuel s := by
  rw [← readValue_skipSpaces, skipSpaces_blank h, readValue_skipSpaces]

theorem readItems_blank (h : Blank gap) (s : List Char) :
    readItems fuel (gap.toList ++ s) = readItems fuel s := by
  rw [← readItems_skipSpaces, skipSpaces_blank h, readItems_skipSpaces]

theorem readFields_blank (h : Blank gap) (s : List Char) :
    readFields fuel (gap.toList ++ s) = readFields fuel s := by
  rw [← readFields_skipSpaces, skipSpaces_blank h, readFields_skipSpaces]

/-! ## Texts that are read -/

/-- A text is read as a value, whatever follows that does not go on with a number. Every call of a
reader takes a character at least, so that the length of the text bounds the calls. -/
def Reads (v : Json) (text : String) : Prop :=
  ∀ fuel rest, text.toList.length ≤ fuel → Ends rest →
    readValue fuel (text.toList ++ rest) = some (v, rest)

/-- What is read without looking into brackets takes one call. -/
theorem reads_of_step (hne : text.toList ≠ [])
    (h : ∀ fuel rest, Ends rest → readValue (fuel + 1) (text.toList ++ rest) = some (v, rest)) :
    Reads v text := by
  intro fuel rest hfuel hrest
  have hpos := List.length_pos_of_ne_nil hne
  obtain ⟨fuel, rfl⟩ := Nat.exists_eq_add_of_le' (Nat.le_trans hpos hfuel)
  exact h fuel rest hrest

theorem reads_null : Reads null "null" := by
  apply reads_of_step (by simp)
  intro fuel rest _
  simp [readValue, skipSpaces]

theorem reads_bool (b : Bool) : Reads (bool b) (if b then "true" else "false") := by
  cases b with
  | false =>
    apply reads_of_step (by simp)
    intro fuel rest _
    simp [readValue, skipSpaces]
  | true =>
    apply reads_of_step (by simp)
    intro fuel rest _
    simp [readValue, skipSpaces]

theorem toList_quote (s : String) : (quote s).toList = '"' :: (s.toList.flatMap escape ++ ['"']) :=
  String.toList_ofList

theorem reads_string (s : String) : Reads (string s) (quote s) := by
  apply reads_of_step (by simp [toList_quote])
  intro fuel rest _
  rw [toList_quote, List.cons_append, List.append_assoc, readValue, skipSpaces_cons (by decide)]
  simp [readString_quote]

/-- What begins with a digit or a sign is read as a number. -/
theorem readValue_digit {c : Char} (hc : c.isDigit = true ∨ c = '-') (s : List Char) :
    readValue (fuel + 1) (c :: s) =
      (readNumber (c :: s)).map fun (n, rest) => (number n, rest) := by
  have hne {d : Char} (hd : d.isDigit = false ∧ d ≠ '-') : c ≠ d := by
    rintro rfl
    exact hc.elim (fun h => by simp [hd.1] at h) hd.2
  have hspaces : skipSpaces (c :: s) = c :: s :=
    skipSpaces_cons ⟨hne (by decide), hne (by decide), hne (by decide), hne (by decide)⟩ s
  rw [readValue, hspaces]
  split
  case h_7 => rfl
  all_goals
    next heq => exact absurd (List.cons.inj heq).1 (hne (by decide))

theorem reads_number (n : Number) : Reads (number n) n.text := by
  obtain ⟨c, more, heq, hc⟩ := exists_text n
  apply reads_of_step (by simp [heq])
  intro fuel rest hrest
  have hread := readNumber_text n hrest
  rw [heq, List.cons_append] at hread ⊢
  rw [readValue_digit hc, hread]
  rfl

/-! ## Brackets -/

/-- The texts of a list, with a comma and blanks between them. -/
def joined (gap : String) (texts : List String) : List Char :=
  (Text.join ("," ++ gap) texts).toList

theorem joined_single (gap s : String) : joined gap [s] = s.toList := rfl

theorem joined_cons (gap s t : String) (texts : List String) :
    joined gap (s :: t :: texts) = s.toList ++ ',' :: (gap.toList ++ joined gap (t :: texts)) := by
  simp [joined, Text.join]

/-- The texts of items are read up to the closing bracket. Every item takes a call for itself, which
its comma pays for. -/
theorem readItems_joined (hgap : Blank gap) (hafter : Blank after) {items : List Json}
    {texts : List String} (h : List.Forall₂ Reads items texts) (hne : items ≠ [])
    (hfuel : (joined gap texts).length < fuel) :
    readItems fuel (joined gap texts ++ (after.toList ++ ']' :: rest)) = some (items, rest) := by
  induction h generalizing fuel with
  | nil => exact absurd rfl hne
  | @cons v text items texts hv hitems ih =>
    obtain ⟨fuel, rfl⟩ := Nat.exists_eq_add_of_le' (Nat.one_le_of_lt hfuel)
    cases hitems with
    | nil =>
      have hends : Ends (after.toList ++ ']' :: rest) :=
        ends_blank hafter (ends_cons (by decide) rest)
      rw [joined_single] at hfuel ⊢
      rw [readItems, hv fuel _ (by omega) hends]
      simp [skipSpaces_blank hafter, skipSpaces]
    | @cons w next items texts hw hitems =>
      have hends (s : List Char) : Ends (',' :: s) := ends_cons (by decide) s
      rw [joined_cons, List.length_append, List.length_cons, List.length_append] at hfuel
      have hnext := @ih fuel (by simp) (by omega)
      rw [joined_cons, List.append_assoc, List.cons_append, List.append_assoc, readItems,
        hv fuel _ (by omega) (hends _)]
      simp [skipSpaces, readItems_blank hgap, hnext]

/-- No item begins with a closing bracket. -/
theorem readItems_bracket (fuel : Nat) (s : List Char) : readItems fuel (']' :: s) = none := by
  match fuel with
  | 0 => exact readItems_zero _
  | 1 => rw [readItems, readValue_zero]
  | fuel + 2 =>
    have hnumber : readNumber (']' :: s) = none := by
      simp [readNumber, readMagnitude, readWhole, readDigits]
    rw [readItems, readValue, skipSpaces_cons (by decide)]
    simp [hnumber]

/-- A list that has items is read up to its end. -/
theorem readValue_array {items : List Json} {s : List Char}
    (h : readItems fuel s = some (items, rest)) :
    readValue (fuel + 1) ('[' :: s) = some (array items, rest) := by
  rw [readValue, skipSpaces_cons (by decide)]
  rw [← readItems_skipSpaces] at h
  simp only
  split
  · next heq =>
    rw [heq, readItems_bracket] at h
    cases h
  · rw [h]
    rfl

theorem readValue_array_nil {s : List Char} (h : skipSpaces s = ']' :: rest) :
    readValue (fuel + 1) ('[' :: s) = some (array [], rest) := by
  rw [readValue, skipSpaces_cons (by decide)]
  simp only [h]

/-- **Brackets around texts of values are read as the list of the values.** -/
theorem reads_array (hbefore : Blank before) (hgap : Blank gap) (hafter : Blank after)
    {items : List Json} {texts : List String} (h : List.Forall₂ Reads items texts) :
    Reads (array items) ("[" ++ before ++ Text.join ("," ++ gap) texts ++ after ++ "]") := by
  have htext : ("[" ++ before ++ Text.join ("," ++ gap) texts ++ after ++ "]").toList =
      '[' :: (before.toList ++ (joined gap texts ++ (after.toList ++ [']']))) := by
    simp [joined]
  intro fuel rest hfuel hrest
  rw [htext] at hfuel ⊢
  obtain ⟨fuel, rfl⟩ := Nat.exists_eq_add_of_le' (Nat.one_le_of_lt hfuel)
  simp only [List.length_cons, List.length_append] at hfuel
  simp only [List.cons_append, List.append_assoc, List.nil_append]
  cases h with
  | nil =>
    apply readValue_array_nil
    simp [joined, Text.join, skipSpaces_blank hbefore, skipSpaces_blank hafter, skipSpaces]
  | cons hv hitems =>
    apply readValue_array
    rw [readItems_blank hbefore]
    exact readItems_joined hgap hafter (.cons hv hitems) (by simp) (by omega)

/-- A text is read as a field when it is a quoted name, a colon, blanks and a text that is read as
the value. -/
def ReadsField (gap : String) (field : String × Json) (text : String) : Prop :=
  ∃ value, Reads field.2 value ∧ text = quote field.1 ++ ":" ++ gap ++ value

theorem readFields_joined {colon : String} (hcolon : Blank colon) (hgap : Blank gap)
    (hafter : Blank after) {fields : List (String × Json)} {texts : List String}
    (h : List.Forall₂ (ReadsField colon) fields texts) (hne : fields ≠ [])
    (hfuel : (joined gap texts).length < fuel) :
    readFields fuel (joined gap texts ++ (after.toList ++ '}' :: rest)) = some (fields, rest) := by
  induction h generalizing fuel with
  | nil => exact absurd rfl hne
  | @cons field text fields texts hfield hfields ih =>
    obtain ⟨fuel, rfl⟩ := Nat.exists_eq_add_of_le' (Nat.one_le_of_lt hfuel)
    obtain ⟨value, hvalue, rfl⟩ := hfield
    have htext : (quote field.1 ++ ":" ++ colon ++ value).toList = '"' ::
        (field.1.toList.flatMap escape ++ '"' :: ':' :: (colon.toList ++ value.toList)) := by
      simp [toList_quote]
    cases hfields with
    | nil =>
      have hends : Ends (after.toList ++ '}' :: rest) :=
        ends_blank hafter (ends_cons (by decide) rest)
      rw [joined_single, htext] at hfuel ⊢
      simp only [List.length_cons, List.length_append] at hfuel
      have hread := hvalue fuel _ (by omega) hends
      simp only [List.cons_append, List.append_assoc]
      rw [readFields, skipSpaces_cons (by decide)]
      simp [readString_quote, skipSpaces, readValue_blank hcolon, hread, skipSpaces_blank hafter]
    | @cons next other fields texts hother hfields =>
      rw [joined_cons, htext] at hfuel ⊢
      simp only [List.length_cons, List.length_append] at hfuel
      have hnext := @ih fuel (by simp) (by omega)
      have hread (s : List Char) : readValue fuel (value.toList ++ ',' :: s) =
          some (field.2, ',' :: s) := hvalue fuel _ (by omega) (ends_cons (by decide) s)
      simp only [List.cons_append, List.append_assoc]
      rw [readFields, skipSpaces_cons (by decide)]
      simp [readString_quote, skipSpaces, readValue_blank hcolon, hread, readFields_blank hgap,
        hnext]

theorem readFields_bracket (fuel : Nat) (s : List Char) : readFields fuel ('}' :: s) = none := by
  cases fuel with
  | zero => exact readFields_zero _
  | succ fuel => rw [readFields, skipSpaces_cons (by decide)]; simp

theorem readValue_object {fields : List (String × Json)} {s : List Char}
    (h : readFields fuel s = some (fields, rest)) :
    readValue (fuel + 1) ('{' :: s) = some (object fields, rest) := by
  rw [readValue, skipSpaces_cons (by decide)]
  rw [← readFields_skipSpaces] at h
  simp only
  split
  · next heq =>
    rw [heq, readFields_bracket] at h
    cases h
  · rw [h]
    rfl

theorem readValue_object_nil {s : List Char} (h : skipSpaces s = '}' :: rest) :
    readValue (fuel + 1) ('{' :: s) = some (object [], rest) := by
  rw [readValue, skipSpaces_cons (by decide)]
  simp only [h]

/-- **Brackets around texts of fields are read as the object with these fields.** -/
theorem reads_object {colon : String} (hcolon : Blank colon) (hbefore : Blank before)
    (hgap : Blank gap) (hafter : Blank after) {fields : List (String × Json)} {texts : List String}
    (h : List.Forall₂ (ReadsField colon) fields texts) :
    Reads (object fields)
      ("\x7b" ++ before ++ Text.join ("," ++ gap) texts ++ after ++ "\x7d") := by
  have htext : ("\x7b" ++ before ++ Text.join ("," ++ gap) texts ++ after ++ "\x7d").toList =
      '{' :: (before.toList ++ (joined gap texts ++ (after.toList ++ ['}']))) := by
    simp [joined]
  intro fuel rest hfuel hrest
  rw [htext] at hfuel ⊢
  obtain ⟨fuel, rfl⟩ := Nat.exists_eq_add_of_le' (Nat.one_le_of_lt hfuel)
  simp only [List.length_cons, List.length_append] at hfuel
  simp only [List.cons_append, List.append_assoc, List.nil_append]
  cases h with
  | nil =>
    apply readValue_object_nil
    simp [joined, Text.join, skipSpaces_blank hbefore, skipSpaces_blank hafter, skipSpaces]
  | cons hfield hfields =>
    apply readValue_object
    rw [readFields_blank hbefore]
    exact readFields_joined hcolon hgap hafter (.cons hfield hfields) (by simp) (by omega)

/-! ## Layouts -/

mutual

/-- **A value without blanks is read as that value.** -/
theorem reads_compact : ∀ v : Json, Reads v v.compact
  | null => reads_null
  | bool true => reads_bool true
  | bool false => reads_bool false
  | number n => reads_number n
  | string s => reads_string s
  | array items => by
    have h := reads_array blank_empty blank_empty blank_empty (reads_compactItems items)
    simpa [compact] using h
  | object fields => by
    have h := reads_object blank_empty blank_empty blank_empty blank_empty
      (reads_compactFields fields)
    simpa [compact] using h

theorem reads_compactItems : ∀ items : List Json, List.Forall₂ Reads items (compactItems items)
  | [] => .nil
  | v :: items => .cons (reads_compact v) (reads_compactItems items)

theorem reads_compactFields :
    ∀ fields : List (String × Json), List.Forall₂ (ReadsField "") fields (compactFields fields)
  | [] => .nil
  | (name, v) :: fields => by
    refine .cons ⟨v.compact, reads_compact v, ?_⟩ (reads_compactFields fields)
    simp

end

theorem reads_bracketed_array (level : Nat) {items : List Json} {texts : List String}
    (h : List.Forall₂ Reads items texts) : Reads (array items) (bracketed "[" "]" level texts) := by
  cases h with
  | nil =>
    have hempty := reads_array blank_empty blank_empty blank_empty .nil
    simpa [bracketed, Text.join] using hempty
  | cons hv hitems =>
    rw [bracketed, if_neg (by simp)]
    exact reads_array (blank_newLine _) (blank_newLine _) (blank_newLine _) (.cons hv hitems)

theorem blank_space : Blank " " := by
  intro c hc
  simp_all

theorem reads_bracketed_object (level : Nat) {fields : List (String × Json)} {texts : List String}
    (h : List.Forall₂ (ReadsField " ") fields texts) :
    Reads (object fields) (bracketed "\x7b" "\x7d" level texts) := by
  cases h with
  | nil =>
    have hempty := reads_object blank_empty blank_empty blank_empty blank_empty .nil
    simpa [bracketed, Text.join] using hempty
  | cons hfield hfields =>
    rw [bracketed, if_neg (by simp)]
    exact reads_object blank_space (blank_newLine _) (blank_newLine _) (blank_newLine _)
      (.cons hfield hfields)

mutual

/-- **A value on lines of their own is read as that value.** -/
theorem reads_prettyAt : ∀ (level : Nat) (v : Json), Reads v (v.prettyAt level)
  | _, null => reads_null
  | _, bool true => reads_bool true
  | _, bool false => reads_bool false
  | _, number n => reads_number n
  | _, string s => reads_string s
  | level, array items => reads_bracketed_array level (reads_prettyItems (level + 1) items)
  | level, object fields => reads_bracketed_object level (reads_prettyFields (level + 1) fields)

theorem reads_prettyItems : ∀ (level : Nat) (items : List Json),
    List.Forall₂ Reads items (prettyItems level items)
  | _, [] => .nil
  | level, v :: items => .cons (reads_prettyAt level v) (reads_prettyItems level items)

theorem reads_prettyFields : ∀ (level : Nat) (fields : List (String × Json)),
    List.Forall₂ (ReadsField " ") fields (prettyFields level fields)
  | _, [] => .nil
  | level, (name, v) :: fields => by
    refine .cons ⟨v.prettyAt level, reads_prettyAt level v, ?_⟩ (reads_prettyFields level fields)
    simp [String.append_assoc]

end

/-! ## Whole texts -/

/-- A whole text is read, with blanks after it. -/
theorem parse?_of_reads (h : Reads v text) (hafter : Blank after) :
    parse? (text ++ after) = some v := by
  have hends : Ends after.toList := by
    have hnothing : Ends [] := by simp [Ends]
    simpa using ends_blank hafter hnothing
  have hblank : skipSpaces after.toList = [] := by
    simpa [skipSpaces_nil] using skipSpaces_blank hafter []
  have hread := h (2 * (text ++ after).toList.length + 2) after.toList (by simp; omega) hends
  rw [← String.toList_append] at hread
  simp only [parse?, hread, hblank]
  rfl

/-- **Both layouts are read as the value that they write.** -/
theorem parse?_compact (v : Json) : parse? v.compact = some v := by
  simpa using parse?_of_reads (reads_compact v) blank_empty

theorem parse?_pretty (v : Json) : parse? v.pretty = some v := by
  simpa [pretty] using parse?_of_reads (reads_prettyAt 0 v) blank_empty

end HAtom.Json
