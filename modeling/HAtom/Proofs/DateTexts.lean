import HAtom.Proofs.DateRanges

/-!
# Dates as they are written

A `Moment` is a day of the calendar, perhaps with a time of day and its offset from universal time,
each of them in range by its type, together with the choices that are left in writing it down. In a
text of ASCII the dates are the texts of moments in one of the two formats, and nothing else.

* `Moment.text` writes a moment.
* `spells_inRange_iff`: the fields that spell a text are in range when a moment is written so.
* `isValid_iff_exists_moment`: a text of ASCII is a date when it is the text of a moment.
-/

namespace HAtom.IsoDate

open Text

/-! ## Moments and their texts -/

/-- A day of the calendar in a year of four digits. -/
structure Day where
  year : Nat
  month : Nat
  day : Nat
  year_lt : year < 10000
  onCalendar : OnCalendar year month day

/-- The fraction of a second: a point or a comma and at least one digit. -/
structure Fraction where
  mark : Char
  first : Fin 10
  others : List (Fin 10)
  mark_eq : mark = '.' ∨ mark = ','

/-- A time of day, perhaps with a second, and that perhaps with a fraction. -/
structure Clock where
  hour : Fin 24
  minute : Fin 60
  second : Option (Fin 60 × Option Fraction)

/-- The minutes of an offset, with a colon before them or not. -/
structure ShiftMinute where
  marked : Bool
  minute : Fin 60

/-- The offset of a time from universal time. -/
inductive Offset
  | utc
  | shift (ahead : Bool) (hour : Fin 24) (minute : Option ShiftMinute)

/-- A day, perhaps with a time, and that perhaps with an offset. -/
structure Moment where
  day : Day
  time : Option (Clock × Option Offset)

def Day.text (style : Style) (d : Day) : List Char :=
  numeral 4 d.year ++ (style.dateMark ++ (numeral 2 d.month ++ (style.dateMark ++ numeral 2 d.day)))

def Fraction.text (f : Fraction) : List Char :=
  f.mark :: Nat.digitChar f.first :: f.others.map fun (d : Fin 10) => Nat.digitChar d.val

def secondText (style : Style) : Option (Fin 60 × Option Fraction) → List Char
  | none => []
  | some (second, fraction) =>
    style.timeMark ++ (numeral 2 second ++ fraction.elim [] Fraction.text)

def Clock.text (style : Style) (c : Clock) : List Char :=
  numeral 2 c.hour ++ (style.timeMark ++ (numeral 2 c.minute ++ secondText style c.second))

def ShiftMinute.text (m : ShiftMinute) : List Char :=
  if m.marked then ':' :: numeral 2 m.minute else numeral 2 m.minute

def Offset.text : Offset → List Char
  | .utc => ['Z']
  | .shift ahead hour minute =>
    (if ahead then '+' else '-') :: (numeral 2 hour ++ minute.elim [] ShiftMinute.text)

def timeText (style : Style) : Option (Clock × Option Offset) → List Char
  | none => []
  | some (clock, offset) => 'T' :: (clock.text style ++ offset.elim [] Offset.text)

/-- A moment written in one of the formats. -/
def Moment.text (style : Style) (m : Moment) : List Char :=
  m.day.text style ++ timeText style m.time

/-! ## Numbers -/

theorem isDecimal_of_isDigit {c : Char} (h : c.isDigit = true) : isDecimal c = true := by
  have := (isDigit_iff.1 h).2
  rw [isDecimal, if_pos (by omega), h]

theorem areDigits_numeral (width n : Nat) : AreDigits width (numeral width n) :=
  ⟨length_numeral width n, fun c hc => isDecimal_of_isDigit (isNumeral_numeral width n c hc)⟩

/-- The two digits of a number below a bound. -/
theorem within_iff (bound : Nat) {s : List Char} (hbound : bound < 100) :
    s.length = 2 ∧ Within bound s ↔ ∃ n : Fin (bound + 1), s = numeral 2 n := by
  constructor
  · rintro ⟨hlength, n, hn, hs, -⟩
    rw [hlength] at hs
    exact ⟨⟨n, by omega⟩, hs⟩
  · rintro ⟨n, rfl⟩
    have := n.isLt
    exact ⟨length_numeral 2 n, n, by omega, writes_numeral (by omega)⟩

/-! ## Offsets and fractions -/

theorem shiftMinuteInRange_iff {s : List Char} :
    ShiftMinuteInRange s ↔ ∃ minute : Option ShiftMinute, s = minute.elim [] ShiftMinute.text := by
  constructor
  · rintro (_ | ⟨hlength, hminute⟩ | ⟨hlength, hminute⟩)
    · exact ⟨none, rfl⟩
    · obtain ⟨n, rfl⟩ := (within_iff 59 (by decide)).1 ⟨hlength, hminute⟩
      exact ⟨some ⟨false, n⟩, rfl⟩
    · obtain ⟨n, rfl⟩ := (within_iff 59 (by decide)).1 ⟨hlength, hminute⟩
      exact ⟨some ⟨true, n⟩, rfl⟩
  · rintro ⟨_ | ⟨_ | _, n⟩, rfl⟩
    · exact .absent
    · obtain ⟨hlength, hminute⟩ := (within_iff 59 (by decide)).2 ⟨n, rfl⟩
      exact .plain hlength hminute
    · obtain ⟨hlength, hminute⟩ := (within_iff 59 (by decide)).2 ⟨n, rfl⟩
      exact .marked hlength hminute

theorem offsetInRange_iff {s : List Char} :
    OffsetInRange s ↔ ∃ offset : Offset, s = offset.text := by
  constructor
  · rintro (_ | ⟨hsign, hlength, hhour, hminute⟩)
    · exact ⟨.utc, rfl⟩
    · obtain ⟨hour, rfl⟩ := (within_iff 23 (by decide)).1 ⟨hlength, hhour⟩
      obtain ⟨minute, rfl⟩ := shiftMinuteInRange_iff.1 hminute
      rcases hsign with rfl | rfl
      · exact ⟨.shift true hour minute, rfl⟩
      · exact ⟨.shift false hour minute, rfl⟩
  · rintro ⟨_ | ⟨ahead, hour, minute⟩, rfl⟩
    · exact .utc
    · obtain ⟨hlength, hhour⟩ := (within_iff 23 (by decide)).2 ⟨hour, rfl⟩
      refine .shift ?_ hlength hhour (shiftMinuteInRange_iff.2 ⟨minute, rfl⟩)
      cases ahead <;> simp

theorem Offset.isOffset : ∀ offset : Offset, IsOffset offset.text
  | .utc => .utc
  | .shift ahead hour minute => by
    refine .shift ?_ (areDigits_numeral 2 hour) ?_
    · cases ahead <;> simp
    · rcases minute with _ | ⟨_ | _, minute⟩
      · exact .absent
      · exact .plain (areDigits_numeral 2 minute)
      · exact .marked (areDigits_numeral 2 minute)

/-- A decimal digit of ASCII is the digit of a number below ten. -/
theorem exists_digitChar {c : Char} (h : c.isDigit = true) : ∃ d : Fin 10, c = Nat.digitChar d := by
  obtain ⟨hd, hc⟩ := digit?_eq_some_iff.1 (show digit? c = some _ from if_pos h)
  exact ⟨⟨_, hd⟩, hc⟩

theorem exists_digits {s : List Char} (h : IsNumeral s) :
    ∃ digits : List (Fin 10), s = digits.map fun (d : Fin 10) => Nat.digitChar d.val := by
  induction s with
  | nil => exact ⟨[], rfl⟩
  | cons c s ih =>
    obtain ⟨hc, hs⟩ := List.forall_mem_cons.1 h
    obtain ⟨d, rfl⟩ := exists_digitChar hc
    obtain ⟨digits, rfl⟩ := ih hs
    exact ⟨d :: digits, rfl⟩

theorem isFraction_iff {s : List Char} (hs : PlainDigits s) :
    IsFraction s ↔ ∃ fraction : Option Fraction, s = fraction.elim [] Fraction.text := by
  constructor
  · rintro (_ | ⟨hmark, hd, hdigits⟩)
    · exact ⟨none, rfl⟩
    · rw [plainDigits_cons, plainDigits_cons] at hs
      obtain ⟨first, rfl⟩ := exists_digitChar (hs.2.1 hd)
      obtain ⟨others, rfl⟩ := exists_digits fun c hc => hs.2.2 c hc (hdigits c hc)
      exact ⟨some ⟨_, first, others, hmark⟩, rfl⟩
  · -- a fraction that was written needs no condition on its digits
    have hdigit (d : Fin 10) : isDecimal (Nat.digitChar d) = true :=
      isDecimal_of_isDigit (by simp [Nat.isDigit_digitChar])
    rintro ⟨_ | fraction, rfl⟩
    · exact .absent
    · refine .present fraction.mark_eq (hdigit _) fun c hc => ?_
      obtain ⟨d, -, rfl⟩ := List.mem_map.1 hc
      exact hdigit d

/-! ## Times and days -/

section Styles

variable {style : Style}

theorem spellsSecond_iff {s : List Char} (hs : PlainDigits s) :
    (∃ second, SpellsSecond style second s ∧ ∀ digits ∈ second, Within 59 digits) ↔
      ∃ second, s = secondText style second := by
  constructor
  · rintro ⟨_, _ | ⟨hdigits, hfraction⟩, hwithin⟩
    · exact ⟨none, rfl⟩
    · simp only [plainDigits_append] at hs
      obtain ⟨second, rfl⟩ := (within_iff 59 (by decide)).1 ⟨hdigits.1, hwithin _ rfl⟩
      obtain ⟨fraction, rfl⟩ := (isFraction_iff hs.2.2).1 hfraction
      exact ⟨some (second, fraction), rfl⟩
  · rintro ⟨_ | ⟨second, fraction⟩, rfl⟩
    · exact ⟨none, .absent, by simp⟩
    · simp only [secondText, plainDigits_append] at hs
      have hfraction := (isFraction_iff hs.2.2).2 ⟨fraction, rfl⟩
      refine ⟨_, .present (areDigits_numeral 2 second) hfraction, ?_⟩
      rintro _ ⟨⟩
      exact ((within_iff 59 (by decide)).2 ⟨second, rfl⟩).2

theorem spellsOffset_iff {s : List Char} :
    (∃ offset, SpellsOffset offset s ∧ ∀ text ∈ offset, OffsetInRange text) ↔
      ∃ offset : Option Offset, s = offset.elim [] Offset.text := by
  constructor
  · rintro ⟨_, _ | ⟨-⟩, hrange⟩
    · exact ⟨none, rfl⟩
    · obtain ⟨offset, rfl⟩ := offsetInRange_iff.1 (hrange _ rfl)
      exact ⟨some offset, rfl⟩
  · rintro ⟨_ | offset, rfl⟩
    · exact ⟨none, .absent, by simp⟩
    · refine ⟨_, .present offset.isOffset, ?_⟩
      rintro _ ⟨⟩
      exact offsetInRange_iff.2 ⟨offset, rfl⟩

theorem spellsTime_iff {s : List Char} (hs : PlainDigits s) :
    (∃ time, SpellsTime style time s ∧ ∀ t ∈ time, t.InRange ∧
      ∀ offset ∈ t.offset, OffsetInRange offset) ↔ ∃ time, s = timeText style time := by
  constructor
  · rintro ⟨_, _ | ⟨hhour, hminute, hsecond, hoffset⟩, htime⟩
    · exact ⟨none, rfl⟩
    · obtain ⟨hrange, hoffsets⟩ := htime _ rfl
      simp only [plainDigits_cons, plainDigits_append] at hs
      obtain ⟨hour, hhour'⟩ := (within_iff 23 (by decide)).1 ⟨hhour.1, hrange.hour⟩
      obtain ⟨minute, hminute'⟩ := (within_iff 59 (by decide)).1 ⟨hminute.1, hrange.minute⟩
      obtain ⟨second, rfl⟩ := (spellsSecond_iff hs.2.2.2.2.1).1 ⟨_, hsecond, hrange.second⟩
      obtain ⟨offset, rfl⟩ := spellsOffset_iff.1 ⟨_, hoffset, hoffsets⟩
      refine ⟨some (⟨hour, minute, second⟩, offset), ?_⟩
      simp only [timeText, Clock.text, hhour', hminute', List.append_assoc]
  · rintro ⟨_ | ⟨⟨hour, minute, second⟩, offset⟩, rfl⟩
    · exact ⟨none, .absent, by simp⟩
    · simp only [timeText, Clock.text, List.append_assoc, plainDigits_cons,
        plainDigits_append] at hs ⊢
      obtain ⟨digits, hsecond, hwithin⟩ := (spellsSecond_iff hs.2.2.2.2.1).2 ⟨second, rfl⟩
      obtain ⟨text, hoffset, hrange⟩ := spellsOffset_iff.2 ⟨offset, rfl⟩
      refine ⟨some ⟨numeral 2 hour, numeral 2 minute, digits, text⟩, .present
        (.parts (areDigits_numeral 2 hour) (areDigits_numeral 2 minute) hsecond hoffset), ?_⟩
      rintro _ ⟨⟩
      exact ⟨⟨((within_iff 23 (by decide)).2 ⟨hour, rfl⟩).2,
        ((within_iff 59 (by decide)).2 ⟨minute, rfl⟩).2, hwithin⟩, hrange⟩

theorem isDay_iff {f : Fields} (hyear : AreDigits 4 f.year) (hmonth : AreDigits 2 f.month)
    (hday : AreDigits 2 f.day) : f.IsDay ↔ ∃ d : Day,
      f.year = numeral 4 d.year ∧ f.month = numeral 2 d.month ∧ f.day = numeral 2 d.day := by
  rw [Fields.IsDay]
  simp only [Writes, hyear.1, hmonth.1, hday.1]
  constructor
  · rintro ⟨year, month, day, ⟨hy, hlt⟩, ⟨hm, -⟩, ⟨hd, -⟩, hcalendar⟩
    exact ⟨⟨year, month, day, hlt, hcalendar⟩, hy, hm, hd⟩
  · rintro ⟨d, hy, hm, hd⟩
    have hmonth_le := d.onCalendar.month_le
    have hday_le := d.onCalendar.day_le
    exact ⟨d.year, d.month, d.day, ⟨hy, d.year_lt⟩, ⟨hm, by omega⟩, ⟨hd, by omega⟩, d.onCalendar⟩

/-- **The fields that spell a text are in range when it is the text of a moment.** -/
theorem spells_inRange_iff {s : List Char} (hs : PlainDigits s) :
    (∃ f : Fields, f.Spells style s ∧ f.InRange) ↔ ∃ m : Moment, s = m.text style := by
  constructor
  · rintro ⟨f, ⟨hyear, hmonth, hday, htime⟩, hrange⟩
    simp only [plainDigits_append] at hs
    obtain ⟨d, hy, hm, hd⟩ := (isDay_iff hyear hmonth hday).1 hrange.day
    obtain ⟨time, rfl⟩ := (spellsTime_iff hs.2.2.2.2.2).1
      ⟨_, htime, fun t ht => ⟨hrange.time t ht, hrange.offset t ht⟩⟩
    refine ⟨⟨d, time⟩, ?_⟩
    simp only [Moment.text, Day.text, hy, hm, hd, List.append_assoc]
  · rintro ⟨⟨d, time⟩, rfl⟩
    simp only [Moment.text, Day.text, List.append_assoc, plainDigits_append] at hs ⊢
    obtain ⟨fields, htime, hfields⟩ := (spellsTime_iff hs.2.2.2.2.2).2 ⟨time, rfl⟩
    have hyear := areDigits_numeral 4 d.year
    have hmonth := areDigits_numeral 2 d.month
    have hday := areDigits_numeral 2 d.day
    exact ⟨⟨_, _, _, fields⟩, .parts hyear hmonth hday htime,
      (isDay_iff hyear hmonth hday).2 ⟨d, rfl, rfl, rfl⟩, fun t ht => (hfields t ht).1,
      fun t ht => (hfields t ht).2⟩

end Styles

theorem plainDigits_of_ascii {s : List Char} (h : ∀ c ∈ s, c.toNat < 128) : PlainDigits s := by
  intro c hc hdecimal
  rwa [isDecimal, if_pos (h c hc)] at hdecimal

/-- **A text of ASCII is a date when it is the text of a moment** in one of the formats. -/
theorem isValid_iff_exists_moment (s : String) (h : ∀ c ∈ s.toList, c.toNat < 128) :
    isValid s = true ↔ ∃ style ∈ [extended, basic], ∃ m : Moment, s.toList = m.text style := by
  have hplain := plainDigits_of_ascii h
  simp only [isValid_iff_inRange hplain, spells_inRange_iff hplain]

theorem isValid_iff_exists_moment_on_leap_day :
    (∀ c ∈ "20000229T235959,5-0030".toList, c.toNat < 128) ∧
      ∃ style ∈ [extended, basic], ∃ m : Moment,
        "20000229T235959,5-0030".toList = m.text style := by
  have hall : "20000229T235959,5-0030".toList.all (·.toNat < 128) = true := by decide +kernel
  have hascii : ∀ c ∈ "20000229T235959,5-0030".toList, c.toNat < 128 := by
    intro c hc
    simpa using List.all_eq_true.1 hall c hc
  exact ⟨hascii, (isValid_iff_exists_moment _ hascii).1 (by decide +kernel)⟩

end HAtom.IsoDate
