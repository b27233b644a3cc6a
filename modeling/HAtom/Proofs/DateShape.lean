import HAtom.IsoDate
import Mathlib.Data.List.Basic
import Mathlib.Data.List.TakeWhile
import Mathlib.Tactic.Common

/-!
# The shape of a date

A text is cut into the fields of a date from the front, mark by mark and digit by digit. What comes
of it can be said without the cutting: the fields, with marks between them, spell the text. In this
module a digit is a decimal digit of any script.

* `Fields.Spells` and `TimeFields.Spells` say how fields spell a text in one of the two formats.
* `timeFields?_eq_some_iff`, `fieldsIn?_eq_some_iff` and `fields?_eq_some_iff`: a text is cut into
  the fields that spell it.
* `isValid_iff_spells`: a date is spelled by fields that pass the checks of their numbers.
-/

namespace HAtom.IsoDate

open Text

/-! ## Parts of a text -/

/-- The text consists of `n` decimal digits. -/
def AreDigits (n : Nat) (s : List Char) : Prop := s.length = n ∧ ∀ c ∈ s, isDecimal c

/-- A fraction of a second: nothing, or a point or a comma and at least one digit. -/
inductive IsFraction : List Char → Prop
  | absent : IsFraction []
  | present {mark d : Char} {digits : List Char} : mark = '.' ∨ mark = ',' → isDecimal d →
    (∀ c ∈ digits, isDecimal c) → IsFraction (mark :: d :: digits)

/-- The minutes of an offset: nothing, or two digits, with or without a colon before them. -/
inductive IsShiftMinute : List Char → Prop
  | absent : IsShiftMinute []
  | plain {minute : List Char} : AreDigits 2 minute → IsShiftMinute minute
  | marked {minute : List Char} : AreDigits 2 minute → IsShiftMinute (':' :: minute)

/-- An offset: the letter `Z`, or a sign, the digits of the hours and perhaps minutes. -/
inductive IsOffset : List Char → Prop
  | utc : IsOffset ['Z']
  | shift {sign : Char} {hour minute : List Char} : sign = '+' ∨ sign = '-' → AreDigits 2 hour →
    IsShiftMinute minute → IsOffset (sign :: (hour ++ minute))

/-- The seconds of a time with the mark before them and their fraction. -/
inductive SpellsSecond (style : Style) : Option (List Char) → List Char → Prop
  | absent : SpellsSecond style none []
  | present {second fraction : List Char} : AreDigits 2 second → IsFraction fraction →
    SpellsSecond style (some second) (style.timeMark ++ (second ++ fraction))

/-- The offset of a time. -/
inductive SpellsOffset : Option (List Char) → List Char → Prop
  | absent : SpellsOffset none []
  | present {offset : List Char} : IsOffset offset → SpellsOffset (some offset) offset

/-- The fields of a time spell the text. -/
inductive TimeFields.Spells (style : Style) (t : TimeFields) : List Char → Prop
  | parts {second offset : List Char} : AreDigits 2 t.hour → AreDigits 2 t.minute →
    SpellsSecond style t.second second → SpellsOffset t.offset offset →
    Spells style t (t.hour ++ (style.timeMark ++ (t.minute ++ (second ++ offset))))

/-- The time after a date, with the letter `T` before it. -/
inductive SpellsTime (style : Style) : Option TimeFields → List Char → Prop
  | absent : SpellsTime style none []
  | present {t : TimeFields} {s : List Char} : t.Spells style s →
    SpellsTime style (some t) ('T' :: s)

/-- The fields of a date spell the text. -/
inductive Fields.Spells (style : Style) (f : Fields) : List Char → Prop
  | parts {time : List Char} : AreDigits 4 f.year → AreDigits 2 f.month → AreDigits 2 f.day →
    SpellsTime style f.time time →
    Spells style f (f.year ++ (style.dateMark ++ (f.month ++ (style.dateMark ++ (f.day ++ time)))))

/-! ## Taking parts from the front -/

theorem areDigits_succ {n : Nat} {c : Char} {s : List Char} :
    AreDigits (n + 1) (c :: s) ↔ isDecimal c ∧ AreDigits n s := by
  simp only [AreDigits, List.length_cons, Nat.add_right_cancel_iff, List.forall_mem_cons]
  exact and_left_comm

theorem takeDigits_eq_some_iff {n : Nat} {s ds rest : List Char} :
    takeDigits n s = some (ds, rest) ↔ s = ds ++ rest ∧ AreDigits n ds := by
  induction n generalizing s ds with
  | zero =>
    rw [takeDigits, AreDigits, List.length_eq_zero_iff]
    constructor
    · rintro ⟨⟩
      simp
    · rintro ⟨rfl, rfl, -⟩
      rfl
  | succ n ih =>
    cases ds with
    | nil => cases s <;> simp [takeDigits, AreDigits]
    | cons d ds =>
      cases s with
      | nil => simp [takeDigits]
      | cons c s =>
        rw [areDigits_succ, takeDigits]
        split
        · next hc =>
          constructor
          · intro h
            obtain ⟨⟨ds', rest'⟩, htake, heq⟩ := Option.map_eq_some_iff.1 h
            simp only [Prod.mk.injEq, List.cons.injEq] at heq
            obtain ⟨⟨rfl, rfl⟩, rfl⟩ := heq
            obtain ⟨rfl, hds⟩ := ih.1 htake
            exact ⟨rfl, hc, hds⟩
          · rintro ⟨heq, -, hds⟩
            obtain ⟨rfl, hs⟩ := List.cons.inj heq
            rw [ih.2 ⟨hs, hds⟩]
            rfl
        · next hc =>
          simp only [reduceCtorEq, List.cons_append, List.cons.injEq, false_iff]
          rintro ⟨⟨rfl, -⟩, hd, -⟩
          exact hc hd

theorem takeMark_eq_some_iff {mark s rest : List Char} :
    takeMark mark s = some rest ↔ s = mark ++ rest := by
  induction mark generalizing s with
  | nil => simp [takeMark]
  | cons m mark ih =>
    cases s with
    | nil => simp [takeMark]
    | cons c s =>
      rw [takeMark, List.cons_append, List.cons.injEq, eq_comm (a := c)]
      by_cases h : m = c <;> simp [h, ih]

/-- The text does not go on with a digit or with the mark of a fraction. -/
def Ends (rest : List Char) : Prop := ∀ c ∈ rest.head?, ¬ isDecimal c ∧ c ≠ '.' ∧ c ≠ ','

theorem exists_fraction (s : List Char) : ∃ fraction, IsFraction fraction ∧
    s = fraction ++ skipFraction s := by
  unfold skipFraction
  split
  · next mark d rest =>
    split
    · next h =>
      simp only [Bool.and_eq_true, Bool.or_eq_true, beq_iff_eq] at h
      refine ⟨mark :: d :: rest.takeWhile isDecimal, .present h.1 h.2 ?_, ?_⟩
      · exact fun c hc => List.mem_takeWhile_imp hc
      · rw [List.cons_append, List.cons_append, List.takeWhile_append_dropWhile]
    · exact ⟨[], .absent, rfl⟩
  · exact ⟨[], .absent, rfl⟩

theorem skipFraction_append {fraction rest : List Char} (h : IsFraction fraction)
    (hrest : Ends rest) : skipFraction (fraction ++ rest) = rest := by
  cases h with
  | absent =>
    cases rest with
    | nil => rfl
    | cons c rest =>
      obtain ⟨-, hpoint, hcomma⟩ := hrest c rfl
      cases rest <;> simp [skipFraction, hpoint, hcomma]
  | @present mark d digits hmark hd hdigits =>
    have hmark' : (mark == '.' || mark == ',') = true := by simpa using hmark
    have hdrop : (digits ++ rest).dropWhile isDecimal = rest := by
      rw [List.dropWhile_append_of_pos hdigits]
      cases rest with
      | nil => rfl
      | cons c rest => exact List.dropWhile_cons_of_neg (hrest c rfl).1
    rw [List.cons_append, List.cons_append, skipFraction, hmark', hd]
    exact hdrop

/-! ## Offsets -/

theorem areDigits_two {s : List Char} :
    AreDigits 2 s ↔ ∃ a b, s = [a, b] ∧ isDecimal a ∧ isDecimal b := by
  constructor
  · rintro ⟨hlength, hs⟩
    obtain ⟨a, b, rfl⟩ := List.length_eq_two.1 hlength
    exact ⟨a, b, rfl, hs a (by simp), hs b (by simp)⟩
  · rintro ⟨a, b, rfl, ha, hb⟩
    exact ⟨rfl, by simp [ha, hb]⟩

theorem isShiftMinute_iff {s : List Char} :
    IsShiftMinute s ↔ s = [] ∨ isOffsetMinute s = true := by
  constructor
  · rintro (_ | hs | hs)
    · exact .inl rfl
    · right
      obtain ⟨a, b, rfl, ha, hb⟩ := areDigits_two.1 hs
      simp [isOffsetMinute, ha, hb]
    · right
      obtain ⟨a, b, rfl, ha, hb⟩ := areDigits_two.1 hs
      simp [isOffsetMinute, ha, hb]
  · rintro (rfl | h)
    · exact .absent
    · unfold isOffsetMinute at h
      split at h
      · next a b => exact .marked (areDigits_two.2 ⟨a, b, rfl, by simpa using h⟩)
      · next a b => exact .plain (areDigits_two.2 ⟨a, b, rfl, by simpa using h⟩)
      · cases h

theorem isOffset_iff {s : List Char} : isOffset s = true ↔ IsOffset s := by
  constructor
  · intro h
    unfold isOffset at h
    split at h
    · exact .utc
    · next sign a b rest =>
      simp only [Bool.and_eq_true, Bool.or_eq_true, beq_iff_eq, List.isEmpty_iff] at h
      obtain ⟨⟨⟨hsign, ha⟩, hb⟩, hrest⟩ := h
      have hhour : AreDigits 2 [a, b] := areDigits_two.2 ⟨a, b, rfl, ha, hb⟩
      exact .shift hsign hhour (isShiftMinute_iff.2 hrest)
    · cases h
  · rintro (_ | ⟨hsign, hhour, hminute⟩)
    · rfl
    · obtain ⟨a, b, rfl, ha, hb⟩ := areDigits_two.1 hhour
      have hrest := isShiftMinute_iff.1 hminute
      simp only [isOffset, List.cons_append, List.nil_append, Bool.and_eq_true, Bool.or_eq_true,
        beq_iff_eq, List.isEmpty_iff]
      exact ⟨⟨⟨hsign, ha⟩, hb⟩, hrest⟩

/-- An offset goes on neither with a digit nor with the mark of a fraction or of a field. -/
theorem SpellsOffset.head {offset : Option (List Char)} {rest : List Char}
    (h : SpellsOffset offset rest) : ∀ c ∈ rest.head?, c = 'Z' ∨ c = '+' ∨ c = '-' := by
  intro c hc
  cases h with
  | absent => cases hc
  | present h =>
    cases h with
    | utc =>
      cases hc
      exact .inl rfl
    | shift hsign _ _ =>
      cases hc
      exact .inr hsign

theorem SpellsOffset.ends {offset : Option (List Char)} {rest : List Char}
    (h : SpellsOffset offset rest) : Ends rest := by
  intro c hc
  rcases h.head c hc with rfl | rfl | rfl <;> decide

/-- The last part of a time: nothing or an offset. -/
theorem timeEnd_eq_some_iff {hour minute rest : List Char} {second : Option (List Char)}
    {t : TimeFields} :
    (if rest.isEmpty then some ⟨hour, minute, second, none⟩
      else if isOffset rest then some ⟨hour, minute, second, some rest⟩ else none) = some t ↔
      ∃ offset, SpellsOffset offset rest ∧ t = ⟨hour, minute, second, offset⟩ := by
  constructor
  · intro h
    split at h
    · next hrest =>
      obtain rfl := List.isEmpty_iff.1 hrest
      exact ⟨none, .absent, (Option.some.inj h).symm⟩
    · split at h
      · next hoffset =>
        exact ⟨some rest, .present (isOffset_iff.1 hoffset), (Option.some.inj h).symm⟩
      · cases h
  · rintro ⟨offset, hoffset, rfl⟩
    cases hoffset with
    | absent => rfl
    | present h =>
      have hne : rest.isEmpty = false := by cases h <;> rfl
      rw [hne, isOffset_iff.2 h]
      rfl

/-! ## Times -/

section Styles

variable {style : Style}

theorem exists_second (style : Style) (s : List Char) :
    ∃ text, SpellsSecond style (takeSecond style s).1 text ∧
      s = text ++ (takeSecond style s).2 := by
  unfold takeSecond
  split
  · next digits after htake =>
    obtain ⟨s', hmark, hs'⟩ := Option.bind_eq_some_iff.1 htake
    obtain rfl := takeMark_eq_some_iff.1 hmark
    obtain ⟨rfl, hdigits⟩ := takeDigits_eq_some_iff.1 hs'
    obtain ⟨fraction, hfraction, hafter⟩ := exists_fraction after
    refine ⟨_, .present hdigits hfraction, ?_⟩
    rw [List.append_assoc, List.append_assoc, ← hafter]
  · exact ⟨[], .absent, rfl⟩

/-- In both formats the seconds begin with a mark or a digit, which no offset does. -/
theorem takeSecond_offset (hstyle : style ∈ [extended, basic]) {offset : Option (List Char)}
    {rest : List Char} (h : SpellsOffset offset rest) : takeSecond style rest = (none, rest) := by
  have htake : (takeMark style.timeMark rest).bind (takeDigits 2) = none := by
    cases rest with
    | nil =>
      simp only [List.mem_cons, List.not_mem_nil, or_false] at hstyle
      rcases hstyle with rfl | rfl <;> rfl
    | cons c rest =>
      simp only [List.mem_cons, List.not_mem_nil, or_false] at hstyle
      rcases hstyle with rfl | rfl <;> rcases h.head c rfl with rfl | rfl | rfl <;> rfl
  rw [takeSecond, htake]

theorem takeSecond_append (hstyle : style ∈ [extended, basic]) {second offset : Option (List Char)}
    {text rest : List Char} (h : SpellsSecond style second text)
    (hrest : SpellsOffset offset rest) : takeSecond style (text ++ rest) = (second, rest) := by
  cases h with
  | absent => exact takeSecond_offset hstyle hrest
  | @present digits fraction hdigits hfraction =>
    have htake : (takeMark style.timeMark (style.timeMark ++ (digits ++ fraction) ++ rest)).bind
        (takeDigits 2) = some (digits, fraction ++ rest) := by
      rw [List.append_assoc, List.append_assoc, takeMark_eq_some_iff.2 rfl, Option.bind_some]
      exact takeDigits_eq_some_iff.2 ⟨rfl, hdigits⟩
    rw [takeSecond, htake]
    dsimp only
    rw [skipFraction_append hfraction hrest.ends]

/-- **A text is cut into the fields of a time that spell it.** -/
theorem timeFields?_eq_some_iff (hstyle : style ∈ [extended, basic]) {s : List Char}
    {t : TimeFields} : timeFields? style s = some t ↔ t.Spells style s := by
  simp only [timeFields?, Option.bind_eq_bind, Option.bind_eq_some_iff, Prod.exists,
    takeDigits_eq_some_iff, takeMark_eq_some_iff, timeEnd_eq_some_iff]
  constructor
  · rintro ⟨hour, s₁, ⟨rfl, hhour⟩, s₂, rfl, minute, s₃, ⟨rfl, hminute⟩, offset, hoffset, rfl⟩
    obtain ⟨text, hsecond, hs₃⟩ := exists_second style s₃
    generalize takeSecond style s₃ = parts at hsecond hoffset hs₃ ⊢
    rw [hs₃]
    exact .parts hhour hminute hsecond hoffset
  · rintro ⟨hhour, hminute, hsecond, hoffset⟩
    refine ⟨_, _, ⟨rfl, hhour⟩, _, rfl, _, _, ⟨rfl, hminute⟩, t.offset, ?_⟩
    rw [takeSecond_append hstyle hsecond hoffset]
    exact ⟨hoffset, rfl⟩

/-! ## Dates -/

theorem dateEnd_eq_some_iff (hstyle : style ∈ [extended, basic]) {year month day rest : List Char}
    {f : Fields} :
    (match rest with
      | [] => some ⟨year, month, day, none⟩
      | 'T' :: rest => (timeFields? style rest).map fun time => ⟨year, month, day, some time⟩
      | _ => none) = some f ↔
      ∃ time, SpellsTime style time rest ∧ f = ⟨year, month, day, time⟩ := by
  constructor
  · intro h
    split at h
    · exact ⟨none, .absent, (Option.some.inj h).symm⟩
    · obtain ⟨t, ht, rfl⟩ := Option.map_eq_some_iff.1 h
      exact ⟨some t, .present ((timeFields?_eq_some_iff hstyle).1 ht), rfl⟩
    · cases h
  · rintro ⟨time, htime, rfl⟩
    cases htime with
    | absent => rfl
    | @present t s ht =>
      show (timeFields? style s).map _ = _
      rw [(timeFields?_eq_some_iff hstyle).2 ht]
      rfl

/-- **A text is cut into the fields of a date that spell it.** -/
theorem fieldsIn?_eq_some_iff (hstyle : style ∈ [extended, basic]) {s : List Char} {f : Fields} :
    fieldsIn? style s = some f ↔ f.Spells style s := by
  simp only [fieldsIn?, Option.bind_eq_bind, Option.bind_eq_some_iff, Prod.exists,
    takeDigits_eq_some_iff, takeMark_eq_some_iff]
  constructor
  · rintro ⟨year, s₁, ⟨rfl, hyear⟩, s₂, rfl, month, s₃, ⟨rfl, hmonth⟩, s₄, rfl, day, s₅,
      ⟨rfl, hday⟩, hend⟩
    obtain ⟨time, htime, rfl⟩ := (dateEnd_eq_some_iff hstyle).1 hend
    exact .parts hyear hmonth hday htime
  · rintro ⟨hyear, hmonth, hday, htime⟩
    refine ⟨_, _, ⟨rfl, hyear⟩, _, rfl, _, _, ⟨rfl, hmonth⟩, _, rfl, _, _, ⟨rfl, hday⟩, ?_⟩
    exact (dateEnd_eq_some_iff hstyle).2 ⟨f.time, htime, rfl⟩

end Styles

/-- No text is a date in both formats: after the year one has a mark where the other has a digit. -/
theorem Fields.Spells.not_basic {f g : Fields} {s : List Char} (h : f.Spells extended s) :
    ¬ g.Spells basic s := by
  intro hg
  obtain ⟨hyear, -, -, -⟩ := h
  generalize hs : f.year ++ (extended.dateMark ++ _) = s at hg
  obtain ⟨hyear', hmonth', -, -⟩ := hg
  obtain ⟨a, b, hab, ha, -⟩ := areDigits_two.1 hmonth'
  have hrest := (List.append_inj hs (hyear.1.trans hyear'.1.symm)).2
  rw [hab] at hrest
  obtain rfl : '-' = a := (List.cons.inj hrest).1
  exact absurd ha (by decide)

/-- **A text is cut into the fields that spell it** in one of the formats. -/
theorem fields?_eq_some_iff {s : List Char} {f : Fields} :
    fields? s = some f ↔ ∃ style ∈ [extended, basic], f.Spells style s := by
  have hextended : fieldsIn? extended s = some f ↔ f.Spells extended s :=
    fieldsIn?_eq_some_iff (by simp)
  have hbasic : fieldsIn? basic s = some f ↔ f.Spells basic s := fieldsIn?_eq_some_iff (by simp)
  rw [fields?, Option.or_eq_some_iff, hextended, hbasic]
  constructor
  · rintro (h | ⟨-, h⟩)
    · exact ⟨extended, by simp, h⟩
    · exact ⟨basic, by simp, h⟩
  · rintro ⟨style, hstyle, h⟩
    simp only [List.mem_cons, List.not_mem_nil, or_false] at hstyle
    rcases hstyle with rfl | rfl
    · exact .inl h
    · refine .inr ⟨Option.eq_none_iff_forall_ne_some.2 fun g hg => ?_, h⟩
      exact ((fieldsIn?_eq_some_iff (by simp)).1 hg).not_basic h

/-- The fields pass the checks of their numbers. -/
structure Fields.Passes (f : Fields) : Prop where
  date : dateOk f = true
  time : ∀ t ∈ f.time, timeOk t = true
  offset : ∀ t ∈ f.time, ∀ offset ∈ t.offset, offsetOk offset = true

theorem fields_passes_iff {f : Fields} : f.Passes ↔ dateOk f = true ∧
    (∀ t ∈ f.time, timeOk t = true) ∧ ∀ t ∈ f.time, ∀ offset ∈ t.offset, offsetOk offset = true :=
  ⟨fun h => ⟨h.date, h.time, h.offset⟩, fun h => ⟨h.1, h.2.1, h.2.2⟩⟩

theorem isValid_of_fields {s : String} {f : Fields} (h : fields? s.toList = some f) :
    isValid s = true ↔ f.Passes := by
  unfold isValid
  rw [h]
  obtain ⟨year, month, day, _ | ⟨hour, minute, second, _ | offset⟩⟩ := f <;>
    simp [fields_passes_iff]

/-- **A date is spelled by fields that pass the checks.** -/
theorem isValid_iff_spells (s : String) : isValid s = true ↔
    ∃ style ∈ [extended, basic], ∃ f : Fields, f.Spells style s.toList ∧ f.Passes := by
  constructor
  · intro h
    cases hfields : fields? s.toList with
    | none =>
      rw [isValid, hfields] at h
      cases h
    | some f =>
      obtain ⟨style, hstyle, hspells⟩ := fields?_eq_some_iff.1 hfields
      exact ⟨style, hstyle, f, hspells, (isValid_of_fields hfields).1 h⟩
  · rintro ⟨style, hstyle, f, hspells, hpasses⟩
    exact (isValid_of_fields (fields?_eq_some_iff.2 ⟨style, hstyle, hspells⟩)).2 hpasses

end HAtom.IsoDate
