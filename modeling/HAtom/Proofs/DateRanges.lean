import HAtom.Proofs.DateShape
import Mathlib.Algebra.Order.Group.Nat
import Mathlib.Data.Nat.Basic

/-!
# The ranges of a date

The fields of a date have digits of any script, and only digits of ASCII are read as numbers. A
year, month or day has to be a number, so these are always written in ASCII. The other fields are
in range as far as they are numbers.

* `OnCalendar` is the calendar: which numbers of year, month and day are a date.
* `Fields.Tolerated` is what the fields of a date have to be, `Fields.InRange` what they ought to
  be: all of them numbers in range.
* `isValid_iff_inRange`: where no digit of another script stands, the two agree.
* `isValid_iff_tolerated`: the dates, and how far their fields are in range.
-/

namespace HAtom.IsoDate

open Text

/-! ## Numerals -/

/-- The last digits of a number, as many as the width says, with zeros in front if it has fewer. -/
def numeral : Nat → Nat → List Char
  | 0, _ => []
  | width + 1, n => Nat.digitChar (n / 10 ^ width % 10) :: numeral width n

/-- The text consists of digits of ASCII. -/
def IsNumeral (s : List Char) : Prop := ∀ c ∈ s, c.isDigit

/-- The text writes the number in digits of ASCII. -/
def Writes (s : List Char) (n : Nat) : Prop := s = numeral s.length n ∧ n < 10 ^ s.length

/-- The text writes a number up to the bound. -/
def Within (bound : Nat) (s : List Char) : Prop := ∃ n ≤ bound, Writes s n

@[simp] theorem length_numeral (width n : Nat) : (numeral width n).length = width := by
  induction width with
  | zero => rfl
  | succ width ih => rw [numeral, List.length_cons, ih]

theorem isNumeral_numeral (width n : Nat) : IsNumeral (numeral width n) := by
  induction width with
  | zero => simp [IsNumeral, numeral]
  | succ width ih =>
    rw [numeral, IsNumeral, List.forall_mem_cons]
    exact ⟨by simp [Nat.isDigit_digitChar, Nat.mod_lt], ih⟩

theorem writes_numeral {width n : Nat} (h : n < 10 ^ width) : Writes (numeral width n) n := by
  simpa [Writes] using h

theorem Writes.isNumeral {s : List Char} {n : Nat} (h : Writes s n) : IsNumeral s :=
  h.1 ▸ isNumeral_numeral _ n

theorem isDigit_iff {c : Char} : c.isDigit = true ↔ 48 ≤ c.toNat ∧ c.toNat ≤ 57 := by
  rw [Char.isDigit, Bool.and_eq_true, decide_eq_true_iff, decide_eq_true_iff, ge_iff_le,
    UInt32.le_iff_toNat_le, UInt32.le_iff_toNat_le]
  rfl

theorem digit?_eq_some_iff {c : Char} {d : Nat} :
    digit? c = some d ↔ d < 10 ∧ c = Nat.digitChar d := by
  unfold digit?
  constructor
  · intro h
    split at h
    · next hc =>
      obtain ⟨hlow, hhigh⟩ := isDigit_iff.1 hc
      obtain rfl := Option.some.inj h
      have hd : c.toNat - 48 < 10 := by omega
      refine ⟨hd, Char.toNat_inj.1 ?_⟩
      rw [Nat.toNat_digitChar_of_lt_ten hd]
      omega
    · cases h
  · rintro ⟨hd, rfl⟩
    rw [if_pos (by simp [Nat.isDigit_digitChar, hd]), Nat.toNat_digitChar_of_lt_ten hd]
    simp

/-- Reading on from `start` puts the digits of `start` in front of those that are read. -/
theorem foldDigits?_eq_some_iff {start n : Nat} {s : List Char} :
    foldDigits? start s = some n ↔ s = numeral s.length n ∧ n / 10 ^ s.length = start := by
  induction s generalizing start with
  | nil => simp [foldDigits?, numeral, eq_comm]
  | cons c s ih =>
    have hstep : foldDigits? start (c :: s) = some n ↔
        ∃ d, digit? c = some d ∧ foldDigits? (10 * start + d) s = some n := by
      rw [foldDigits?]
      cases digit? c <;> simp
    -- what is in front of a digit and the digit itself are one quotient divided by ten
    have hpow : n / 10 ^ (s.length + 1) = n / 10 ^ s.length / 10 := by
      rw [Nat.pow_succ, Nat.div_div_eq_div_mul]
    rw [hstep, List.length_cons, numeral, List.cons.injEq, hpow]
    constructor
    · rintro ⟨d, hd, hs⟩
      obtain ⟨hten, rfl⟩ := digit?_eq_some_iff.1 hd
      obtain ⟨hnumeral, hstart⟩ := ih.1 hs
      have hlast : n / 10 ^ s.length % 10 = d := by omega
      exact ⟨⟨by rw [hlast], hnumeral⟩, by omega⟩
    · rintro ⟨⟨hc, hnumeral⟩, hstart⟩
      refine ⟨n / 10 ^ s.length % 10, digit?_eq_some_iff.2 ⟨Nat.mod_lt _ (by decide), hc⟩, ?_⟩
      exact ih.2 ⟨hnumeral, by omega⟩

theorem exists_foldDigits? {s : List Char} (h : IsNumeral s) (start : Nat) :
    ∃ n, foldDigits? start s = some n := by
  induction s generalizing start with
  | nil => exact ⟨start, rfl⟩
  | cons c s ih =>
    obtain ⟨hc, hs⟩ := List.forall_mem_cons.1 h
    simpa [foldDigits?, digit?, hc] using ih hs _

theorem foldDigits?_zero {s : List Char} {n : Nat} : foldDigits? 0 s = some n ↔ Writes s n := by
  rw [foldDigits?_eq_some_iff, Writes, Nat.div_eq_zero_iff_lt (Nat.pow_pos (by decide))]

theorem exists_writes {s : List Char} (h : IsNumeral s) : ∃ n, Writes s n := by
  obtain ⟨n, hn⟩ := exists_foldDigits? h 0
  exact ⟨n, foldDigits?_zero.1 hn⟩

/-- What a field of a date writes is read: its fields have at most four digits. -/
theorem number?_eq_some_iff {s : List Char} {n : Nat} (hs : s ≠ []) (hlength : s.length ≤ 9) :
    number? s = some n ↔ Writes s n := by
  have hbound : Writes s n → n ≤ 0xFFFFFFFF := by
    intro h
    have hpow : 10 ^ s.length ≤ 10 ^ 9 := Nat.pow_le_pow_right (by decide) hlength
    have := h.2
    omega
  rw [← foldDigits?_zero] at hbound ⊢
  obtain ⟨c, rest, rfl⟩ := List.exists_cons_of_ne_nil hs
  rw [number?, digitsToNat?]
  · cases hfold : foldDigits? 0 (c :: rest) with
    | none => simp
    | some m =>
      rw [Option.ite_none_right_eq_some]
      constructor
      · exact fun h => h.2
      · intro h
        obtain rfl := Option.some.inj h
        exact ⟨hbound hfold, h⟩
  · simp

theorem number?_eq_none_iff {s : List Char} (hs : s ≠ []) (hlength : s.length ≤ 9) :
    number? s = none ↔ ¬ IsNumeral s := by
  rw [Option.eq_none_iff_forall_ne_some]
  simp only [ne_eq, number?_eq_some_iff hs hlength]
  constructor
  · intro h hs'
    obtain ⟨n, hn⟩ := exists_writes hs'
    exact h n hn
  · exact fun h n hn => h hn.isNumeral

/-- Where a text that is no number counts as zero, a bound is one on the numbers. -/
theorem getD_number?_le_iff (bound : Nat) {s : List Char} (hlength : s.length ≤ 9) :
    (number? s).getD 0 ≤ bound ↔ (IsNumeral s → Within bound s) := by
  by_cases hs : s = []
  · subst hs
    exact iff_of_true (Nat.zero_le _) fun _ => ⟨0, Nat.zero_le _, rfl, Nat.one_pos⟩
  · cases h : number? s with
    | none => simp [(number?_eq_none_iff hs hlength).1 h]
    | some n =>
      have hn := (number?_eq_some_iff hs hlength).1 h
      constructor
      · exact fun hle _ => ⟨n, hle, hn⟩
      · intro hwithin
        obtain ⟨m, hm, hwrites⟩ := hwithin hn.isNumeral
        obtain rfl := Option.some.inj (h.symm.trans ((number?_eq_some_iff hs hlength).2 hwrites))
        exact hm

/-! ## The calendar -/

/-- The calendar has the date: April, June, September and November have thirty days, and February
has 29 in the years divisible by 400, or by 4 and not by 100, and 28 in the others. -/
structure OnCalendar (year month day : Nat) : Prop where
  month_pos : 1 ≤ month
  month_le : month ≤ 12
  day_pos : 1 ≤ day
  day_le : day ≤ 31
  thirty : month ∈ [4, 6, 9, 11] → day ≤ 30
  february : month = 2 → day ≤ 29
  leap : month = 2 → day = 29 → 400 ∣ year ∨ 4 ∣ year ∧ ¬ 100 ∣ year

theorem isLeap_iff {year : Nat} : isLeap year = true ↔ 400 ∣ year ∨ 4 ∣ year ∧ ¬ 100 ∣ year := by
  simp only [isLeap, Bool.and_eq_true, Bool.or_eq_true, beq_iff_eq, bne_iff_ne, ne_eq]
  omega

theorem daysIn_cases (year month : Nat) :
    (month ∈ [1, 3, 5, 7, 8, 10, 12] ∧ daysIn year month = 31) ∨
    (month ∈ [4, 6, 9, 11] ∧ daysIn year month = 30) ∨
    (month = 2 ∧ daysIn year month = if isLeap year then 29 else 28) ∨
    (¬ (1 ≤ month ∧ month ≤ 12) ∧ daysIn year month = 0) := by
  unfold daysIn
  split
  case h_13 => exact .inr (.inr (.inr ⟨by grind, rfl⟩))
  all_goals simp

/-- A day of February: the 29th is one only in a leap year. -/
theorem le_februaryDays_iff {year day : Nat} : day ≤ (if isLeap year then 29 else 28) ↔
    day ≤ 29 ∧ (day = 29 → 400 ∣ year ∨ 4 ∣ year ∧ ¬ 100 ∣ year) := by
  rw [← isLeap_iff]
  split
  · next h => simp [h]
  · next h =>
    simp only [h, imp_false, Bool.false_eq_true]
    omega

theorem dateExists_iff {year month day : Nat} :
    dateExists year month day = true ↔ OnCalendar year month day := by
  rw [dateExists, Bool.and_eq_true, decide_eq_true_iff, decide_eq_true_iff]
  rcases daysIn_cases year month with ⟨hmonth, hdays⟩ | ⟨hmonth, hdays⟩ | ⟨rfl, hdays⟩ |
    ⟨hmonth, hdays⟩ <;> rw [hdays]
  · have hthirty : ¬ month ∈ [4, 6, 9, 11] := by
      intro h
      simp only [List.mem_cons, List.not_mem_nil, or_false] at hmonth h
      omega
    simp only [List.mem_cons, List.not_mem_nil, or_false] at hmonth
    constructor
    · rintro ⟨hday, hle⟩
      refine ⟨?_, ?_, hday, hle, fun h => absurd h hthirty, ?_, ?_⟩ <;> omega
    · exact fun h => ⟨h.day_pos, h.day_le⟩
  · constructor
    · rintro ⟨hday, hle⟩
      simp only [List.mem_cons, List.not_mem_nil, or_false] at hmonth
      refine ⟨?_, ?_, hday, ?_, fun _ => hle, ?_, ?_⟩ <;> omega
    · exact fun h => ⟨h.day_pos, h.thirty hmonth⟩
  · rw [le_februaryDays_iff]
    constructor
    · rintro ⟨hday, hle, hleap⟩
      exact ⟨by decide, by decide, hday, by omega, by simp, fun _ => hle, fun _ => hleap⟩
    · exact fun h => ⟨h.day_pos, h.february rfl, h.leap rfl⟩
  · constructor
    · omega
    · exact fun h => absurd ⟨h.month_pos, h.month_le⟩ hmonth

/-! ## Fields in range -/

/-- The minutes of an offset are in range. -/
inductive ShiftMinuteInRange : List Char → Prop
  | absent : ShiftMinuteInRange []
  | plain {minute : List Char} : minute.length = 2 → Within 59 minute → ShiftMinuteInRange minute
  | marked {minute : List Char} : minute.length = 2 → Within 59 minute →
    ShiftMinuteInRange (':' :: minute)

/-- An offset is in range. -/
inductive OffsetInRange : List Char → Prop
  | utc : OffsetInRange ['Z']
  | shift {sign : Char} {hour minute : List Char} : sign = '+' ∨ sign = '-' → hour.length = 2 →
    Within 23 hour → ShiftMinuteInRange minute → OffsetInRange (sign :: (hour ++ minute))

/-- The hour, the minute and the second of a time are in range. -/
structure TimeFields.InRange (t : TimeFields) : Prop where
  hour : Within 23 t.hour
  minute : Within 59 t.minute
  second : ∀ second ∈ t.second, Within 59 second

/-- The year, the month and the day are numbers, and the calendar has their date. -/
def Fields.IsDay (f : Fields) : Prop :=
  ∃ year month day, Writes f.year year ∧ Writes f.month month ∧ Writes f.day day ∧
    OnCalendar year month day

/-- All fields are numbers in range. -/
structure Fields.InRange (f : Fields) : Prop where
  day : f.IsDay
  time : ∀ t ∈ f.time, t.InRange
  offset : ∀ t ∈ f.time, ∀ offset ∈ t.offset, OffsetInRange offset

/-! ## Fields that are tolerated -/

/-- Of the digits of ASCII in an offset the first two are hours and the others minutes. -/
def OffsetTolerated (offset : List Char) : Prop :=
  offset = ['Z'] ∨ ∃ hour minute, offset.filter Char.isDigit = hour ++ minute ∧ hour.length = 2 ∧
    Within 23 hour ∧ Within 59 minute

/-- A time whose hour is no number is not looked at; otherwise its minute and its second are in
range if they are numbers. -/
structure TimeFields.Tolerated (t : TimeFields) : Prop where
  hour : IsNumeral t.hour → Within 23 t.hour
  minute : IsNumeral t.hour → IsNumeral t.minute → Within 59 t.minute
  second : IsNumeral t.hour → ∀ second ∈ t.second, IsNumeral second → Within 59 second

/-- The fields of a date are tolerated. -/
structure Fields.Tolerated (f : Fields) : Prop where
  day : f.IsDay
  time : ∀ t ∈ f.time, t.Tolerated
  offset : ∀ t ∈ f.time, ∀ offset ∈ t.offset, OffsetTolerated offset

theorem AreDigits.ne_nil {n : Nat} {s : List Char} (h : AreDigits (n + 1) s) : s ≠ [] :=
  List.ne_nil_of_length_eq_add_one h.1

theorem AreDigits.number?_iff {n m : Nat} {s : List Char} (h : AreDigits (n + 1) s)
    (hn : n ≤ 8) : number? s = some m ↔ Writes s m :=
  number?_eq_some_iff h.ne_nil (by rw [h.1]; omega)

theorem dateOk_iff {f : Fields} (hyear : AreDigits 4 f.year) (hmonth : AreDigits 2 f.month)
    (hday : AreDigits 2 f.day) : dateOk f = true ↔ f.IsDay := by
  simp only [Fields.IsDay, ← hyear.number?_iff (by decide), ← hmonth.number?_iff (by decide),
    ← hday.number?_iff (by decide), ← dateExists_iff]
  unfold dateOk
  cases number? f.year <;> cases number? f.month <;> cases number? f.day <;> simp

theorem timeOk_iff {t : TimeFields} (hhour : AreDigits 2 t.hour) (hminute : AreDigits 2 t.minute)
    (hsecond : ∀ second ∈ t.second, AreDigits 2 second) : timeOk t = true ↔ t.Tolerated := by
  have hle : ∀ {s : List Char}, AreDigits 2 s → s.length ≤ 9 := by
    intro s hs
    rw [hs.1]
    decide
  have hseconds : (t.second.bind number?).getD 0 ≤ 59 ↔
      ∀ second ∈ t.second, IsNumeral second → Within 59 second := by
    cases h : t.second with
    | none => simp
    | some second =>
      simpa using getD_number?_le_iff 59 (hle (hsecond second h))
  have hminutes := getD_number?_le_iff 59 (hle hminute)
  unfold timeOk
  cases hread : number? t.hour with
  | none =>
    have hnone := (number?_eq_none_iff hhour.ne_nil (hle hhour)).1 hread
    exact iff_of_true rfl ⟨fun h => absurd h hnone, fun h => absurd h hnone,
      fun h => absurd h hnone⟩
  | some hour =>
    have hwrites := (hhour.number?_iff (by decide)).1 hread
    have hhours := getD_number?_le_iff 23 (hle hhour)
    rw [hread, Option.getD_some] at hhours
    simp only [Bool.and_eq_true, decide_eq_true_iff, hhours, hminutes, hseconds]
    constructor
    · rintro ⟨⟨hin, hmin⟩, hsec⟩
      exact ⟨hin, fun _ => hmin, fun _ => hsec⟩
    · exact fun h => ⟨⟨h.hour, h.minute hwrites.isNumeral⟩, h.second hwrites.isNumeral⟩

theorem isNumeral_filter (s : List Char) : IsNumeral (s.filter Char.isDigit) :=
  fun _ hc => (List.mem_filter.1 hc).2

theorem IsShiftMinute.length_le {minute : List Char} (h : IsShiftMinute minute) :
    minute.length ≤ 3 := by
  cases h with
  | absent => simp
  | plain h => simp [h.1]
  | marked h => simp [h.1]

theorem filter_sign {sign : Char} (hsign : sign = '+' ∨ sign = '-') (s : List Char) :
    (sign :: s).filter Char.isDigit = s.filter Char.isDigit := by
  rcases hsign with rfl | rfl <;> rfl

/-- The check of an offset, with its digits of ASCII split after the first two. -/
theorem offsetOk_iff_split {offset : List Char} (hZ : offset ≠ ['Z']) : offsetOk offset = true ↔
    ∃ hour minute, (offset.drop 1).filter Char.isDigit = hour ++ minute ∧ hour.length = 2 ∧
      (number? hour).getD 0 ≤ 23 ∧ (number? minute).getD 0 ≤ 59 := by
  rw [offsetOk, if_neg (by simpa using hZ)]
  generalize (offset.drop 1).filter Char.isDigit = digits
  constructor
  · intro h
    split at h
    · next a b rest =>
      rw [Bool.and_eq_true, decide_eq_true_iff, decide_eq_true_iff] at h
      exact ⟨[a, b], rest, rfl, rfl, h⟩
    · cases h
  · rintro ⟨hour, minute, rfl, htwo, hhour, hminute⟩
    obtain ⟨a, b, rfl⟩ := List.length_eq_two.1 htwo
    show (decide _ && decide _) = true
    rw [Bool.and_eq_true, decide_eq_true_iff, decide_eq_true_iff]
    exact ⟨hhour, hminute⟩

theorem offsetOk_iff {offset : List Char} (h : IsOffset offset) :
    offsetOk offset = true ↔ OffsetTolerated offset := by
  cases h with
  | utc => exact iff_of_true rfl (.inl rfl)
  | @shift sign hour minute hsign hhour hminute =>
    have hZ : sign :: (hour ++ minute) ≠ ['Z'] := by
      rcases hsign with rfl | rfl <;> simp
    -- few enough digits that every number they write is read
    have hlength : ((hour ++ minute).filter Char.isDigit).length ≤ 9 :=
      calc ((hour ++ minute).filter Char.isDigit).length
          ≤ (hour ++ minute).length := List.length_filter_le _ _
        _ ≤ 9 := by
          have := hminute.length_le
          rw [List.length_append, hhour.1]
          omega
    rw [OffsetTolerated, or_iff_right hZ, filter_sign hsign, offsetOk_iff_split hZ, List.drop_one,
      List.tail_cons]
    refine exists_congr fun hours => exists_congr fun minutes => and_congr_right fun hdigits =>
      and_congr_right fun _ => ?_
    have hnumeral := isNumeral_filter (hour ++ minute)
    rw [hdigits, IsNumeral, List.forall_mem_append] at hnumeral
    rw [hdigits, List.length_append] at hlength
    rw [getD_number?_le_iff 23 (by omega), getD_number?_le_iff 59 (by omega)]
    exact and_congr (forall_prop_of_true hnumeral.1) (forall_prop_of_true hnumeral.2)

theorem SpellsSecond.areDigits {style : Style} {second : Option (List Char)} {s : List Char}
    (h : SpellsSecond style second s) : ∀ digits ∈ second, AreDigits 2 digits := by
  intro digits hdigits
  cases h with
  | absent => cases hdigits
  | present h =>
    cases hdigits
    exact h

theorem SpellsOffset.isOffset {offset : Option (List Char)} {s : List Char}
    (h : SpellsOffset offset s) : ∀ text ∈ offset, IsOffset text := by
  intro text htext
  cases h with
  | absent => cases htext
  | present h =>
    cases htext
    exact h

/-- Fields that spell a text pass the checks when they are tolerated. -/
theorem Fields.Spells.passes_iff {style : Style} {f : Fields} {s : List Char}
    (h : f.Spells style s) : f.Passes ↔ f.Tolerated := by
  obtain ⟨hyear, hmonth, hday, htime⟩ := h
  have hclock : ∀ t ∈ f.time, (timeOk t = true ↔ t.Tolerated) ∧
      ∀ offset ∈ t.offset, offsetOk offset = true ↔ OffsetTolerated offset := by
    intro t ht
    rw [ht] at htime
    obtain ⟨-⟩ | ⟨hhour, hminute, hsecond, hoffset⟩ := htime
    exact ⟨timeOk_iff hhour hminute hsecond.areDigits,
      fun offset ho => offsetOk_iff (hoffset.isOffset offset ho)⟩
  have hdate := dateOk_iff hyear hmonth hday
  constructor
  · intro hp
    exact ⟨hdate.1 hp.date, fun t ht => (hclock t ht).1.1 (hp.time t ht),
      fun t ht offset ho => ((hclock t ht).2 offset ho).1 (hp.offset t ht offset ho)⟩
  · intro hf
    exact ⟨hdate.2 hf.day, fun t ht => (hclock t ht).1.2 (hf.time t ht),
      fun t ht offset ho => ((hclock t ht).2 offset ho).2 (hf.offset t ht offset ho)⟩

/-! ## Texts without digits of other scripts -/

/-- Every decimal digit in the text is one of ASCII. -/
def PlainDigits (s : List Char) : Prop := ∀ c ∈ s, isDecimal c → c.isDigit

@[simp] theorem plainDigits_append {s t : List Char} :
    PlainDigits (s ++ t) ↔ PlainDigits s ∧ PlainDigits t := List.forall_mem_append

@[simp] theorem plainDigits_cons {c : Char} {s : List Char} :
    PlainDigits (c :: s) ↔ (isDecimal c → c.isDigit) ∧ PlainDigits s := List.forall_mem_cons

theorem AreDigits.isNumeral {n : Nat} {s : List Char} (h : AreDigits n s) (hs : PlainDigits s) :
    IsNumeral s := fun c hc => hs c hc (h.2 c hc)

theorem IsNumeral.filter_eq {s : List Char} (h : IsNumeral s) : s.filter Char.isDigit = s :=
  List.filter_eq_self.2 h

theorem Within.isNumeral {bound : Nat} {s : List Char} (h : Within bound s) : IsNumeral s := by
  obtain ⟨n, -, hn⟩ := h
  exact hn.isNumeral

/-- The digits of a sign, of hours and of minutes are the hours and the digits of the minutes. -/
theorem filter_shift {sign : Char} {hour minute : List Char} (hsign : sign = '+' ∨ sign = '-')
    (hhour : IsNumeral hour) : (sign :: (hour ++ minute)).filter Char.isDigit =
      hour ++ minute.filter Char.isDigit := by
  rw [filter_sign hsign, List.filter_append, hhour.filter_eq]

theorem IsShiftMinute.inRange {minute : List Char} (h : IsShiftMinute minute)
    (hs : PlainDigits minute) (hwithin : Within 59 (minute.filter Char.isDigit)) :
    ShiftMinuteInRange minute := by
  cases h with
  | absent => exact .absent
  | plain h =>
    rw [(h.isNumeral hs).filter_eq] at hwithin
    exact .plain h.1 hwithin
  | marked h =>
    rw [List.filter_cons_of_neg (by decide), (h.isNumeral (plainDigits_cons.1 hs).2).filter_eq]
      at hwithin
    exact .marked h.1 hwithin

theorem ShiftMinuteInRange.within {minute : List Char} (h : ShiftMinuteInRange minute) :
    Within 59 (minute.filter Char.isDigit) := by
  cases h with
  | absent => exact ⟨0, Nat.zero_le _, rfl, Nat.one_pos⟩
  | plain _ h => rwa [h.isNumeral.filter_eq]
  | marked _ h => rwa [List.filter_cons_of_neg (by decide), h.isNumeral.filter_eq]

theorem IsOffset.inRange {offset : List Char} (h : IsOffset offset) (hs : PlainDigits offset)
    (htolerated : OffsetTolerated offset) : OffsetInRange offset := by
  cases h with
  | utc => exact .utc
  | @shift sign hour minute hsign hhour hminute =>
    rw [plainDigits_cons, plainDigits_append] at hs
    obtain hZ | ⟨hours, minutes, hdigits, htwo, hhours, hminutes⟩ := htolerated
    · rcases hsign with rfl | rfl <;> cases hZ
    · rw [filter_shift hsign (hhour.isNumeral hs.2.1)] at hdigits
      obtain ⟨rfl, rfl⟩ := List.append_inj hdigits (hhour.1.trans htwo.symm)
      exact .shift hsign htwo hhours (hminute.inRange hs.2.2 hminutes)

theorem OffsetInRange.tolerated {offset : List Char} (h : OffsetInRange offset) :
    OffsetTolerated offset := by
  cases h with
  | utc => exact .inl rfl
  | shift hsign htwo hhour hminute =>
    exact .inr ⟨_, _, filter_shift hsign hhour.isNumeral, htwo, hhour, hminute.within⟩

/-- Fields in range are tolerated. -/
theorem Fields.InRange.tolerated {f : Fields} (h : f.InRange) : f.Tolerated where
  day := h.day
  time t ht := ⟨fun _ => (h.time t ht).hour, fun _ _ => (h.time t ht).minute,
    fun _ second hs _ => (h.time t ht).second second hs⟩
  offset t ht offset ho := (h.offset t ht offset ho).tolerated

theorem SpellsSecond.isNumeral {style : Style} {second : Option (List Char)} {s : List Char}
    (h : SpellsSecond style second s) (hs : PlainDigits s) :
    ∀ digits ∈ second, IsNumeral digits := by
  intro digits hdigits
  cases h with
  | absent => cases hdigits
  | present h _ =>
    cases hdigits
    rw [plainDigits_append, plainDigits_append] at hs
    exact h.isNumeral hs.2.1

theorem SpellsOffset.inRange {offset : Option (List Char)} {s : List Char}
    (h : SpellsOffset offset s) (hs : PlainDigits s) :
    ∀ text ∈ offset, OffsetTolerated text → OffsetInRange text := by
  intro text htext
  cases h with
  | absent => cases htext
  | present h =>
    cases htext
    exact h.inRange hs

theorem TimeFields.Spells.inRange {style : Style} {t : TimeFields} {s : List Char}
    (h : t.Spells style s) (hs : PlainDigits s) : (t.Tolerated → t.InRange) ∧
      ∀ offset ∈ t.offset, OffsetTolerated offset → OffsetInRange offset := by
  obtain ⟨hhour, hminute, hsecond, hoffset⟩ := h
  simp only [plainDigits_append] at hs
  obtain ⟨hhour', -, hminute', hsecond', hoffset'⟩ := hs
  constructor
  · intro h
    have hnumeral := hhour.isNumeral hhour'
    exact ⟨h.hour hnumeral, h.minute hnumeral (hminute.isNumeral hminute'), fun second hs =>
      h.second hnumeral second hs (hsecond.isNumeral hsecond' second hs)⟩
  · exact hoffset.inRange hoffset'

/-- Tolerated fields are in range where every digit is one of ASCII. -/
theorem Fields.Spells.inRange {style : Style} {f : Fields} {s : List Char}
    (h : f.Spells style s) (hs : PlainDigits s) (hf : f.Tolerated) : f.InRange := by
  obtain ⟨-, -, -, htime⟩ := h
  simp only [plainDigits_append] at hs
  have hclock : ∀ t ∈ f.time, (t.Tolerated → t.InRange) ∧
      ∀ offset ∈ t.offset, OffsetTolerated offset → OffsetInRange offset := by
    intro t ht
    rw [ht] at htime
    cases htime with
    | present h => exact h.inRange (plainDigits_cons.1 hs.2.2.2.2.2).2
  exact ⟨hf.day, fun t ht => (hclock t ht).1 (hf.time t ht),
    fun t ht offset ho => (hclock t ht).2 offset ho (hf.offset t ht offset ho)⟩

/-- **Dates without digits of other scripts**: all their fields are numbers in range. -/
theorem isValid_iff_inRange {s : String} (h : PlainDigits s.toList) : isValid s = true ↔
    ∃ style ∈ [extended, basic], ∃ f : Fields, f.Spells style s.toList ∧ f.InRange := by
  rw [isValid_iff_spells]
  constructor
  · rintro ⟨style, hstyle, f, hf, hpasses⟩
    exact ⟨style, hstyle, f, hf, hf.inRange h (hf.passes_iff.1 hpasses)⟩
  · rintro ⟨style, hstyle, f, hf, hrange⟩
    exact ⟨style, hstyle, f, hf, hf.passes_iff.2 hrange.tolerated⟩

/-! ## Characters of a date -/

/-- The text consists of characters of ASCII and of decimal digits. -/
def AsciiOrDecimal (s : List Char) : Prop := ∀ c ∈ s, c.toNat < 128 ∨ isDecimal c

@[simp] theorem asciiOrDecimal_append {s t : List Char} :
    AsciiOrDecimal (s ++ t) ↔ AsciiOrDecimal s ∧ AsciiOrDecimal t := List.forall_mem_append

@[simp] theorem asciiOrDecimal_cons {c : Char} {s : List Char} :
    AsciiOrDecimal (c :: s) ↔ (c.toNat < 128 ∨ isDecimal c) ∧ AsciiOrDecimal s :=
  List.forall_mem_cons

@[simp] theorem asciiOrDecimal_nil : AsciiOrDecimal [] := fun _ hc => absurd hc List.not_mem_nil

theorem AreDigits.asciiOrDecimal {n : Nat} {s : List Char} (h : AreDigits n s) : AsciiOrDecimal s :=
  fun c hc => .inr (h.2 c hc)

theorem IsFraction.asciiOrDecimal {s : List Char} (h : IsFraction s) : AsciiOrDecimal s := by
  cases h with
  | absent => simp
  | present hmark hd hdigits =>
    rw [asciiOrDecimal_cons, asciiOrDecimal_cons]
    refine ⟨.inl ?_, .inr hd, fun c hc => .inr (hdigits c hc)⟩
    rcases hmark with rfl | rfl <;> decide

theorem IsShiftMinute.asciiOrDecimal {s : List Char} (h : IsShiftMinute s) : AsciiOrDecimal s := by
  cases h with
  | absent => simp
  | plain h => exact h.asciiOrDecimal
  | marked h => exact asciiOrDecimal_cons.2 ⟨.inl (by decide), h.asciiOrDecimal⟩

theorem IsOffset.asciiOrDecimal {s : List Char} (h : IsOffset s) : AsciiOrDecimal s := by
  cases h with
  | utc => exact asciiOrDecimal_cons.2 ⟨.inl (by decide), asciiOrDecimal_nil⟩
  | shift hsign hhour hminute =>
    rw [asciiOrDecimal_cons, asciiOrDecimal_append]
    refine ⟨.inl ?_, hhour.asciiOrDecimal, hminute.asciiOrDecimal⟩
    rcases hsign with rfl | rfl <;> decide

theorem SpellsOffset.asciiOrDecimal {offset : Option (List Char)} {s : List Char}
    (h : SpellsOffset offset s) : AsciiOrDecimal s := by
  cases h with
  | absent => simp
  | present h => exact h.asciiOrDecimal

section Styles

variable {style : Style} (hstyle : style ∈ [extended, basic])

include hstyle

theorem asciiOrDecimal_marks : AsciiOrDecimal style.dateMark ∧ AsciiOrDecimal style.timeMark := by
  simp only [List.mem_cons, List.not_mem_nil, or_false] at hstyle
  rcases hstyle with rfl | rfl <;> simp [extended, basic]

theorem SpellsSecond.asciiOrDecimal {second : Option (List Char)} {s : List Char}
    (h : SpellsSecond style second s) : AsciiOrDecimal s := by
  cases h with
  | absent => simp
  | present h hfraction =>
    simp [(asciiOrDecimal_marks hstyle).2, h.asciiOrDecimal, hfraction.asciiOrDecimal]

theorem TimeFields.Spells.asciiOrDecimal {t : TimeFields} {s : List Char} (h : t.Spells style s) :
    AsciiOrDecimal s := by
  obtain ⟨hhour, hminute, hsecond, hoffset⟩ := h
  simp [(asciiOrDecimal_marks hstyle).2, hhour.asciiOrDecimal, hminute.asciiOrDecimal,
    hsecond.asciiOrDecimal hstyle, hoffset.asciiOrDecimal]

theorem SpellsTime.asciiOrDecimal {t : Option TimeFields} {s : List Char}
    (h : SpellsTime style t s) : AsciiOrDecimal s := by
  cases h with
  | absent => simp
  | present h => exact asciiOrDecimal_cons.2 ⟨.inl (by decide), h.asciiOrDecimal hstyle⟩

theorem Fields.Spells.asciiOrDecimal {f : Fields} {s : List Char} (h : f.Spells style s) :
    AsciiOrDecimal s := by
  obtain ⟨hyear, hmonth, hday, htime⟩ := h
  simp [(asciiOrDecimal_marks hstyle).1, hyear.asciiOrDecimal, hmonth.asciiOrDecimal,
    hday.asciiOrDecimal, htime.asciiOrDecimal hstyle]

end Styles

/-- A text of this kind in which no digit is of another script is one of ASCII. -/
theorem AsciiOrDecimal.toNat_lt {s : List Char} (h : AsciiOrDecimal s) (hs : PlainDigits s) :
    ∀ c ∈ s, c.toNat < 128 := by
  intro c hc
  rcases h c hc with hascii | hdecimal
  · exact hascii
  · have := (isDigit_iff.1 (hs c hc hdecimal)).2
    omega

/-- **The dates, and how far their fields are in range.** A date consists of characters of ASCII and
decimal digits. Its year, month and day are always those of the calendar; of its time and offset
only the numbers written in ASCII are in range, and all are where no digit is of another script. -/
theorem isValid_iff_tolerated (s : String) :
    (isValid s = true ↔
      ∃ style ∈ [extended, basic], ∃ f : Fields, f.Spells style s.toList ∧ f.Tolerated) ∧
    (isValid s = true → (∀ c ∈ s.toList, c.toNat < 128 ∨ isDecimal c) ∧
      (PlainDigits s.toList → (∀ c ∈ s.toList, c.toNat < 128) ∧
        ∃ style ∈ [extended, basic], ∃ f : Fields, f.Spells style s.toList ∧ f.InRange)) := by
  constructor
  · rw [isValid_iff_spells]
    constructor
    · rintro ⟨style, hstyle, f, hf, hpasses⟩
      exact ⟨style, hstyle, f, hf, hf.passes_iff.1 hpasses⟩
    · rintro ⟨style, hstyle, f, hf, htolerated⟩
      exact ⟨style, hstyle, f, hf, hf.passes_iff.2 htolerated⟩
  · intro h
    obtain ⟨style, hstyle, f, hf, -⟩ := (isValid_iff_spells s).1 h
    have hchars := hf.asciiOrDecimal hstyle
    exact ⟨hchars, fun hs => ⟨hchars.toNat_lt hs, (isValid_iff_inRange hs).1 h⟩⟩

theorem isValid_iff_tolerated_with_offset :
    isValid "2008-10-21T10:30:15,250+02:00" = true ∧
      PlainDigits "2008-10-21T10:30:15,250+02:00".toList ∧
      (∀ c ∈ "2008-10-21T10:30:15,250+02:00".toList, c.toNat < 128) ∧
      ∃ style ∈ [extended, basic], ∃ f : Fields,
        f.Spells style "2008-10-21T10:30:15,250+02:00".toList ∧ f.InRange := by
  have hvalid : isValid "2008-10-21T10:30:15,250+02:00" = true := by decide +kernel
  have hdigits : "2008-10-21T10:30:15,250+02:00".toList.all
      (fun c => !isDecimal c || c.isDigit) = true := by decide +kernel
  have hplain : PlainDigits "2008-10-21T10:30:15,250+02:00".toList := by
    intro c hc hdecimal
    simpa [hdecimal] using List.all_eq_true.1 hdigits c hc
  exact ⟨hvalid, hplain, ((isValid_iff_tolerated _).2 hvalid).2 hplain⟩

/-- A date whose hour is written in another script: its minute is out of range. -/
theorem isValid_of_foreign_hour :
    isValid "2008-10-21T\u0669\u0669:99" = true ∧
      (¬ ∀ c ∈ "2008-10-21T\u0669\u0669:99".toList, c.toNat < 128) ∧
      ¬ ∃ style ∈ [extended, basic], ∃ f : Fields,
        f.Spells style "2008-10-21T\u0669\u0669:99".toList ∧ f.InRange := by
  refine ⟨by decide +kernel, fun hascii => ?_, ?_⟩
  · have hforeign : '\u0669' ∈ "2008-10-21T\u0669\u0669:99".toList := by decide +kernel
    exact absurd (hascii _ hforeign) (by decide)
  · rintro ⟨style, hstyle, f, hf, hrange⟩
    have hfields : fields? "2008-10-21T\u0669\u0669:99".toList = some ⟨['2', '0', '0', '8'],
        ['1', '0'], ['2', '1'], some ⟨['\u0669', '\u0669'], ['9', '9'], none, none⟩⟩ := by
      decide +kernel
    obtain rfl := Option.some.inj ((fields?_eq_some_iff.2 ⟨style, hstyle, hf⟩).symm.trans hfields)
    have hminute : Within 59 ['9', '9'] := (hrange.time _ rfl).minute
    have hread : (number? ['9', '9']).getD 0 ≤ 59 :=
      (getD_number?_le_iff 59 (by decide)).2 fun _ => hminute
    exact absurd hread (by decide)

end HAtom.IsoDate
