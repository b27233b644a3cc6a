import HAtom.Proofs.JsonScalars
import HAtom.Proofs.Rounding

/-!
# Times as they are shown

From a second on, a time is shown in seconds with two places, or in whole minutes with the seconds
left over to one place. What such a text says is a `ShownTime`; no two of them have one text
(`ShownTime.text_injective`).

The form and the minutes are chosen before the seconds are rounded. So the seconds figure may come
out as 60, just below a minute. It does so from the middle of the last unit of its last place on,
and at no other time (`ShownTime.Shows.figure_lt_iff`). The time read off the text is as near to the
measured one as the last place allows. The measured time is off by less than a nanosecond up to 194
days (`abs_secondsOf_sub_lt`); so far the time read is as near to the exact one, too
(`durationText_shows`).
-/

namespace HAtom

/-! ## Decimal places -/

/-- A number given in units of its last decimal place. -/
def decimalDigits (places n : Nat) : List Char :=
  Nat.toDigits 10 (n / 10 ^ places) ++ '.' :: Ratio.padded places (n % 10 ^ places)

namespace Ratio

/-- A number in units of a last decimal place. -/
def inPlaces (places : Nat) (a : Ratio) : Nat := roundDiv (a.num * 10 ^ places) a.den

theorem fixed_eq (places : Nat) (a : Ratio) :
    a.fixed places = String.ofList (decimalDigits places (a.inPlaces places)) := rfl

theorem abs_inPlaces_sub_le (places : Nat) (a : Ratio) :
    |(a.inPlaces places / 10 ^ places : ℚ) - a.value| ≤ 1 / (2 * 10 ^ places) := by
  have hround := abs_roundDiv_sub_le (a.num * 10 ^ places) a.den_pos
  have hunit : (0 : ℚ) < 10 ^ places := by positivity
  have hscale : (a.inPlaces places / 10 ^ places : ℚ) - a.value =
      (a.inPlaces places - (a.num * 10 ^ places : Nat) / a.den) / 10 ^ places := by
    have hden := a.den_cast_pos
    rw [value]
    push_cast
    field_simp
  calc |(a.inPlaces places / 10 ^ places : ℚ) - a.value|
      = |(a.inPlaces places - (a.num * 10 ^ places : Nat) / a.den : ℚ)| / 10 ^ places := by
        rw [hscale, abs_div, abs_of_pos hunit]
    _ ≤ 1 / 2 / 10 ^ places := by gcongr; exact hround
    _ = 1 / (2 * 10 ^ places) := by rw [div_div]

/-- From the middle of the last unit before 60 on, a number is rounded up to 60. -/
theorem inPlaces_lt_sixty_iff (places : Nat) (a : Ratio) :
    (a.inPlaces places / 10 ^ places : ℚ) < 60 ↔ a.value < 60 - 1 / (2 * 10 ^ places) := by
  have hunit : (0 : ℚ) < 10 ^ places := by positivity
  have hden := a.den_cast_pos
  calc (a.inPlaces places / 10 ^ places : ℚ) < 60
      ↔ (a.inPlaces places : ℚ) < (2 * (30 * 10 ^ places) : Nat) := by
        rw [div_lt_iff₀ hunit]
        push_cast
        rw [← mul_assoc]
        norm_num
    _ ↔ a.inPlaces places < 2 * (30 * 10 ^ places) := Nat.cast_lt
    _ ↔ 2 * (a.num * 10 ^ places : ℚ) + a.den < 4 * (30 * 10 ^ places * a.den) := by
        rw [inPlaces, roundDiv_lt_even_iff _ a.den_pos]
        exact_mod_cast Iff.rfl
    _ ↔ a.value < 60 - 1 / (2 * 10 ^ places) := by
        have hbound : (60 - 1 / (2 * 10 ^ places)) * (a.den : ℚ) =
            (120 * 10 ^ places * a.den - a.den) / (2 * 10 ^ places) := by
          field_simp
          ring
        rw [value, div_lt_iff₀ hden, hbound, lt_div_iff₀ (by positivity)]
        constructor <;> intro h <;> linarith

theorem inPlaces_le_sixty (places : Nat) {a : Ratio} (h : a.value < 60) :
    (a.inPlaces places / 10 ^ places : ℚ) ≤ 60 := by
  have hunit : (0 : ℚ) < 10 ^ places := by positivity
  have hround := (abs_le.mp (abs_inPlaces_sub_le places a)).2
  have hlt : (a.inPlaces places : ℚ) < (60 * 10 ^ places + 1 : Nat) := by
    calc (a.inPlaces places : ℚ) = a.inPlaces places / 10 ^ places * 10 ^ places := by field_simp
      _ < (60 + 1 / (2 * 10 ^ places)) * 10 ^ places := by gcongr; linarith
      _ = 60 * 10 ^ places + 1 / 2 := by field_simp
      _ < (60 * 10 ^ places + 1 : Nat) := by push_cast; linarith
  rw [div_le_iff₀ hunit]
  exact_mod_cast Nat.lt_succ_iff.mp (Nat.cast_lt.mp hlt)

end Ratio

/-! ## What a text says -/

/-- What the text of a time says, from a second on. -/
inductive ShownTime
  /-- Seconds, in hundredths. -/
  | seconds (hundredths : Nat)
  /-- Minutes, and the seconds left over in tenths. -/
  | minutes (minutes tenths : Nat)
  deriving DecidableEq, Repr

namespace ShownTime

/-- The text. -/
def text : ShownTime → String
  | seconds hundredths => String.ofList (decimalDigits 2 hundredths) ++ "s"
  | minutes m tenths => toString m ++ "m" ++ String.ofList (decimalDigits 1 tenths) ++ "s"

/-- The minutes. -/
def wholeMinutes : ShownTime → Nat
  | seconds _ => 0
  | minutes m _ => m

/-- The seconds figure. -/
def figure : ShownTime → ℚ
  | seconds hundredths => hundredths / 10 ^ 2
  | minutes _ tenths => tenths / 10 ^ 1

/-- Half a unit of the last place of the seconds figure. -/
def rounding : ShownTime → ℚ
  | seconds _ => 1 / (2 * 10 ^ 2)
  | minutes _ _ => 1 / (2 * 10 ^ 1)

/-- The time in seconds. -/
def total (t : ShownTime) : ℚ := 60 * t.wholeMinutes + t.figure

/-- How a number of seconds is shown. -/
structure Shows (t : ShownTime) (seconds : ℚ) : Prop where
  /-- Minutes are written from the first minute on. -/
  isSeconds_iff : (∃ hundredths, t = .seconds hundredths) ↔ seconds < 60
  /-- The minutes are the whole ones of the time itself. -/
  wholeMinutes_eq : seconds < 2 ^ 53 → t.wholeMinutes = ⌊seconds / 60⌋₊
  /-- The seconds figure is what is left over these, rounded. -/
  abs_figure_sub_le : |t.figure - (seconds - 60 * ⌊seconds / 60⌋₊)| ≤ t.rounding
  figure_le : t.figure ≤ 60
  /-- The seconds figure is below 60 unless it was rounded up to it. -/
  figure_lt_iff : t.figure < 60 ↔ seconds - 60 * ⌊seconds / 60⌋₊ < 60 - t.rounding

/-- The time read off a text is off by the rounding of the last place at most. -/
theorem Shows.abs_total_sub_le {t : ShownTime} {seconds : ℚ} (h : t.Shows seconds)
    (hlt : seconds < 2 ^ 53) : |t.total - seconds| ≤ t.rounding := by
  have hfigure : t.total - seconds = t.figure - (seconds - 60 * ⌊seconds / 60⌋₊) := by
    rw [total, h.wholeMinutes_eq hlt]
    ring
  rw [hfigure]
  exact h.abs_figure_sub_le

/-! ## One text for each time -/

theorem toDigits_append_inj {a b : Nat} {s t : List Char} (hs : Json.NoDigit s)
    (ht : Json.NoDigit t) (h : Nat.toDigits 10 a ++ s = Nat.toDigits 10 b ++ t) :
    a = b ∧ s = t := by
  have hread := Json.readDigits_toDigits a hs
  rw [h, Json.readDigits_toDigits b ht, Option.some_inj, Prod.mk.injEq] at hread
  have hvalue := congrArg Json.digitsValue hread.1
  rw [Json.digitsValue_toDigits, Json.digitsValue_toDigits] at hvalue
  exact ⟨hvalue.symm, hread.2.symm⟩

theorem digitsValue_padded (width n : Nat) : Json.digitsValue (Ratio.padded width n) = n := by
  have hzeros : ∀ k, (List.replicate k '0').foldl (fun n c => 10 * n + (c.toNat - 48)) 0 = 0 := by
    intro k
    induction k with
    | zero => rfl
    | succ k ih =>
      rw [List.replicate_succ, List.foldl_cons]
      exact ih
  rw [Ratio.padded, Json.digitsValue, List.foldl_append, hzeros]
  exact Json.digitsValue_toDigits n

theorem noDigit_cons {c : Char} (h : c.isDigit = false) (s : List Char) :
    Json.NoDigit (c :: s) := by
  simpa [Json.NoDigit] using h

theorem decimalDigits_inj {places a b : Nat} (h : decimalDigits places a = decimalDigits places b) :
    a = b := by
  obtain ⟨hdiv, hrest⟩ := toDigits_append_inj (noDigit_cons rfl _) (noDigit_cons rfl _) h
  have hmod := congrArg Json.digitsValue (List.cons.inj hrest).2
  rw [digitsValue_padded, digitsValue_padded] at hmod
  rw [← Nat.div_add_mod a (10 ^ places), hdiv, hmod, Nat.div_add_mod]

theorem toList_text_seconds (hundredths : Nat) :
    (text (.seconds hundredths)).toList = decimalDigits 2 hundredths ++ ['s'] := by
  rw [text, String.toList_append, String.toList_ofList]
  rfl

theorem toList_text_minutes (m tenths : Nat) :
    (text (.minutes m tenths)).toList =
      Nat.toDigits 10 m ++ 'm' :: (decimalDigits 1 tenths ++ ['s']) := by
  rw [text, String.toList_append, String.toList_append, String.toList_append, String.toList_ofList,
    Json.toList_toString_nat]
  simp

/-- The point of the seconds is not the mark of the minutes. -/
theorem text_seconds_ne_minutes (hundredths m tenths : Nat) :
    text (.seconds hundredths) ≠ text (.minutes m tenths) := by
  intro h
  have hlist := congrArg String.toList h
  rw [toList_text_seconds, toList_text_minutes, decimalDigits, List.append_assoc] at hlist
  have hrest := (toDigits_append_inj (noDigit_cons rfl _) (noDigit_cons rfl _) hlist).2
  exact absurd (List.cons.inj hrest).1 (by decide)

/-- **No two times have one text.** -/
theorem text_injective : Function.Injective text := by
  intro t u h
  have hlist := congrArg String.toList h
  cases t with
  | seconds a =>
    cases u with
    | seconds b =>
      rw [toList_text_seconds, toList_text_seconds] at hlist
      rw [decimalDigits_inj (List.append_cancel_right hlist)]
    | minutes m b => exact absurd h (text_seconds_ne_minutes a m b)
  | minutes m a =>
    cases u with
    | seconds b => exact absurd h.symm (text_seconds_ne_minutes b m a)
    | minutes n b =>
      rw [toList_text_minutes, toList_text_minutes] at hlist
      obtain ⟨hm, hrest⟩ := toDigits_append_inj (noDigit_cons rfl _) (noDigit_cons rfl _) hlist
      rw [hm, decimalDigits_inj (List.append_cancel_right (List.cons.inj hrest).2)]

end ShownTime

/-! ## How the seconds are shown -/

/-- What is shown of a number of seconds, from one second on. -/
def Ratio.shown (a : Ratio) : ShownTime :=
  if a.less (.ofNat 60) then .seconds (a.inPlaces 2)
  else .minutes ((a.divNat 60).nearest).floor ((a.rem 60).inPlaces 1)

theorem durationText_eq {ns : Nat} (h : 1 ≤ (secondsOf ns).value) :
    durationText ns = (secondsOf ns).shown.text := by
  have hless : (secondsOf ns).less (.ofNat 1) = false := by
    rw [Bool.eq_false_iff, Ne, Ratio.less_iff, Ratio.value_ofNat]
    simpa using h
  unfold durationText Ratio.shown
  dsimp only
  rw [hless, if_neg Bool.false_ne_true]
  split_ifs
  · rw [ShownTime.text, Ratio.fixed_eq]
  · rw [ShownTime.text, Ratio.fixed_eq]

theorem Ratio.shows_shown_seconds {a : Ratio} (h : a.value < 60) : a.shown.Shows a.value := by
  have hshown : a.shown = .seconds (a.inPlaces 2) := by
    rw [shown, if_pos (by simpa [less_iff] using h)]
  have hfloor : ⌊a.value / 60⌋₊ = 0 := by
    rw [Nat.floor_eq_zero, div_lt_one (by norm_num)]
    exact h
  have hleft : a.value - 60 * ⌊a.value / 60⌋₊ = a.value := by simp [hfloor]
  rw [hshown]
  exact {
    isSeconds_iff := ⟨fun _ => h, fun _ => ⟨_, rfl⟩⟩
    wholeMinutes_eq := fun _ => hfloor.symm
    abs_figure_sub_le := hleft.symm ▸ a.abs_inPlaces_sub_le 2
    figure_le := inPlaces_le_sixty 2 h
    figure_lt_iff := hleft.symm ▸ a.inPlaces_lt_sixty_iff 2 }

theorem Ratio.shows_shown_minutes {a : Ratio} (h : 60 ≤ a.value)
    (hminutes : a.value < 2 ^ 53 → ((a.divNat 60).nearest).floor = ⌊a.value / 60⌋₊) :
    a.shown.Shows a.value := by
  have hshown : a.shown = .minutes ((a.divNat 60).nearest).floor ((a.rem 60).inPlaces 1) := by
    rw [shown, if_neg (by simpa [less_iff] using h)]
  have hleft : a.value - 60 * ⌊a.value / 60⌋₊ = (a.rem 60).value := by
    simpa using (a.value_rem 60).symm
  have hlt : (a.rem 60).value < 60 := by
    have := Nat.lt_floor_add_one (a.value / 60)
    linarith
  rw [hshown]
  exact {
    isSeconds_iff := ⟨by simp, fun hlt => absurd hlt (not_lt.mpr h)⟩
    wholeMinutes_eq := hminutes
    abs_figure_sub_le := hleft.symm ▸ (a.rem 60).abs_inPlaces_sub_le 1
    figure_le := inPlaces_le_sixty 1 hlt
    figure_lt_iff := hleft.symm ▸ (a.rem 60).inPlaces_lt_sixty_iff 1 }

/-- **What is shown of a number of 53 binary digits.** -/
theorem Ratio.shows_nearest (a : Ratio) : a.nearest.shown.Shows a.nearest.value := by
  obtain hseconds | hminutes := lt_or_ge a.nearest.value 60
  · exact shows_shown_seconds hseconds
  · refine shows_shown_minutes hminutes fun hlt => ?_
    obtain ⟨m, k, hm, hunits⟩ := exists_units_nearest hlt
    exact_mod_cast floor_nearest_divNat (by norm_num : 0 < 60) hm hunits

/-! ## The measured time -/

/-- The exact seconds of a time in nanoseconds. -/
def exactSeconds (ns : Nat) : ℚ := ns / 10 ^ 9

theorem exactSeconds_eq (ns : Nat) :
    exactSeconds ns = (ns / 10 ^ 9 : Nat) + (ns % 10 ^ 9 : Nat) / 10 ^ 9 := by
  have hsplit : (ns : ℚ) = (ns / 10 ^ 9 : Nat) * 10 ^ 9 + (ns % 10 ^ 9 : Nat) := by
    exact_mod_cast (Nat.div_add_mod' ns (10 ^ 9)).symm
  rw [exactSeconds, div_eq_iff (by norm_num), add_mul, div_mul_cancel₀ _ (by norm_num)]
  exact hsplit

/-- The whole seconds and the rest are rounded apart, and their sum is rounded again. -/
theorem secondsOf_parts (ns : Nat) : ∃ whole rest : Ratio,
    secondsOf ns = (whole.nearest.add rest.nearest).nearest ∧
      whole.value = (ns / 10 ^ 9 : Nat) ∧ rest.value = (ns % 10 ^ 9 : Nat) / 10 ^ 9 := by
  refine ⟨.ofNat (ns / 1000000000), (Ratio.ofNat (ns % 1000000000)).divNat 1000000000, rfl,
    Ratio.value_ofNat _, ?_⟩
  rw [Ratio.value_divNat _ (by norm_num), Ratio.value_ofNat]
  norm_num

theorem one_le_secondsOf {ns : Nat} (hsecond : 10 ^ 9 ≤ ns) : 1 ≤ (secondsOf ns).value := by
  obtain ⟨whole, rest, heq, hwhole, -⟩ := secondsOf_parts ns
  have hone : ((1 : Nat) : ℚ) ≤ whole.value := by
    rw [hwhole]
    exact_mod_cast (by omega : 1 ≤ ns / 10 ^ 9)
  have hsum : ((1 : Nat) : ℚ) ≤ (whole.nearest.add rest.nearest).value := by
    rw [Ratio.value_add]
    linarith [Ratio.natCast_le_nearest (by norm_num) hone, rest.nearest.value_nonneg]
  rw [heq]
  exact_mod_cast Ratio.natCast_le_nearest (by norm_num) hsum

/-- **The measured time is off by one part in `2 ^ 51` at most.** -/
theorem abs_secondsOf_sub_le (ns : Nat) :
    |(secondsOf ns).value - exactSeconds ns| ≤ exactSeconds ns / 2 ^ 51 := by
  obtain ⟨whole, rest, heq, hwhole, hrest⟩ := secondsOf_parts ns
  have hexact : exactSeconds ns = whole.value + rest.value := by
    rw [exactSeconds_eq, hwhole, hrest]
  have hparts := abs_le.mp whole.abs_nearest_sub_le
  have hparts' := abs_le.mp rest.abs_nearest_sub_le
  have hsum := abs_le.mp (whole.nearest.add rest.nearest).abs_nearest_sub_le
  have hnonneg := add_nonneg whole.value_nonneg rest.value_nonneg
  rw [Ratio.value_add] at hsum
  rw [heq, hexact, abs_le]
  constructor <;> linarith

/-- Below `2 ^ 24` seconds, the measured time is off by less than a nanosecond. -/
theorem abs_secondsOf_sub_lt {ns : Nat} (hns : ns < 2 ^ 24 * 10 ^ 9) :
    |(secondsOf ns).value - exactSeconds ns| < 1 / 10 ^ 9 := by
  obtain ⟨whole, rest, heq, hwhole, hrest⟩ := secondsOf_parts ns
  have hwhole' : whole.nearest.value = (ns / 10 ^ 9 : Nat) :=
    le_antisymm (Ratio.nearest_le_natCast (by omega) hwhole.le)
      (Ratio.natCast_le_nearest (by omega) hwhole.ge)
  have hrest_le : rest.value ≤ 1 - 1 / 10 ^ 9 := by
    have hle : ((ns % 10 ^ 9 : Nat) : ℚ) ≤ (10 ^ 9 - 1 : Nat) := by
      exact_mod_cast (by omega : ns % 10 ^ 9 ≤ 10 ^ 9 - 1)
    rw [hrest, div_le_iff₀ (by norm_num)]
    exact hle.trans_eq (by norm_num)
  have hparts := abs_le.mp rest.abs_nearest_sub_le
  have hlt : (whole.nearest.add rest.nearest).value < 2 ^ 24 := by
    have hle : ((ns / 10 ^ 9 : Nat) : ℚ) + 1 ≤ 2 ^ 24 := by
      exact_mod_cast (by omega : ns / 10 ^ 9 + 1 ≤ 2 ^ 24)
    rw [Ratio.value_add, hwhole']
    linarith
  have hsum := abs_le.mp (Ratio.abs_nearest_sub_le_of_lt hlt)
  rw [Ratio.value_add, hwhole'] at hsum
  rw [heq, exactSeconds_eq, ← hrest, abs_lt]
  constructor <;> linarith

/-! ## The time read off -/

/-- The time read off a text and its rounding are whole numbers of nanoseconds. -/
theorem ShownTime.exists_nanoseconds (t : ShownTime) : ∃ total rounding : Int,
    t.total = total / 10 ^ 9 ∧ t.rounding = rounding / 10 ^ 9 := by
  cases t with
  | seconds a =>
    refine ⟨a * 10 ^ 7, 5 * 10 ^ 6, ?_, by norm_num [rounding]⟩
    rw [total, wholeMinutes, figure]
    push_cast
    ring
  | minutes m a =>
    refine ⟨60 * m * 10 ^ 9 + a * 10 ^ 8, 5 * 10 ^ 7, ?_, by norm_num [rounding]⟩
    rw [total, wholeMinutes, figure]
    push_cast
    ring

/-- A time read off a text that is off by less than a nanosecond more than its rounding is not off
by more than its rounding. -/
theorem ShownTime.abs_total_sub_le_of_lt {t : ShownTime} {ns : Nat}
    (h : |t.total - exactSeconds ns| < t.rounding + 1 / 10 ^ 9) :
    |t.total - exactSeconds ns| ≤ t.rounding := by
  obtain ⟨total, rounding, htotal, hrounding⟩ := t.exists_nanoseconds
  have hscale : |t.total - exactSeconds ns| = (|total - (ns : Int)| : Int) / (10 ^ 9 : ℚ) := by
    rw [htotal, exactSeconds, ← sub_div, abs_div, abs_of_pos (by norm_num : (0 : ℚ) < 10 ^ 9)]
    push_cast
    rfl
  rw [hscale, hrounding, ← add_div, div_lt_div_iff_of_pos_right (by norm_num)] at h
  have hint : |total - (ns : Int)| < rounding + 1 := by exact_mod_cast h
  rw [hscale, hrounding]
  gcongr
  omega

/-- **What the text of a time says**, from a second on. The text is that of one time only. The
minutes are the whole ones of the measured time, and the seconds figure is what is left over,
rounded to its last place. The measured time is next to the exact one. The time read off the text
differs from the measured one by the rounding of the last place at most; below `2 ^ 24` seconds,
which are 194 days, it differs from the exact one by no more, either. -/
theorem durationText_shows {ns : Nat} (hsecond : 10 ^ 9 ≤ ns) :
    ∃ t : ShownTime, (∀ u : ShownTime, durationText ns = u.text ↔ u = t) ∧
      t.Shows (secondsOf ns).value ∧
      |(secondsOf ns).value - exactSeconds ns| ≤ exactSeconds ns / 2 ^ 51 ∧
      ((secondsOf ns).value < 2 ^ 53 → |t.total - (secondsOf ns).value| ≤ t.rounding) ∧
      (ns < 2 ^ 24 * 10 ^ 9 → |t.total - exactSeconds ns| ≤ t.rounding) := by
  have htext := durationText_eq (one_le_secondsOf hsecond)
  have hshows : (secondsOf ns).shown.Shows (secondsOf ns).value := Ratio.shows_nearest _
  refine ⟨(secondsOf ns).shown, fun u => ?_, hshows, abs_secondsOf_sub_le ns,
    hshows.abs_total_sub_le, fun hdays => ?_⟩
  · rw [htext]
    exact ⟨fun h => (ShownTime.text_injective h).symm, fun h => by rw [h]⟩
  · have hnano := abs_secondsOf_sub_lt hdays
    have hexact : exactSeconds ns < 2 ^ 24 := by
      rw [exactSeconds, div_lt_iff₀ (by norm_num)]
      exact_mod_cast hdays
    have hmeasured : (secondsOf ns).value < 2 ^ 53 := by linarith [(abs_lt.mp hnano).2]
    apply ShownTime.abs_total_sub_le_of_lt
    calc |(secondsOf ns).shown.total - exactSeconds ns|
        ≤ |(secondsOf ns).shown.total - (secondsOf ns).value| +
            |(secondsOf ns).value - exactSeconds ns| := abs_sub_le _ _ _
      _ < (secondsOf ns).shown.rounding + 1 / 10 ^ 9 :=
        add_lt_add_of_le_of_lt (hshows.abs_total_sub_le hmeasured) hnano

/-- A minute and a half with a quarter of a second, which goes to the even tenth. -/
theorem durationText_shows_minute :
    durationText 90250000000 = "1m30.2s" ∧
      (ShownTime.minutes 1 302).Shows (secondsOf 90250000000).value ∧
      |(ShownTime.minutes 1 302).total - exactSeconds 90250000000| ≤ 1 / (2 * 10 ^ 1) := by
  obtain ⟨t, htext, hshows, -, -, hexact⟩ :=
    durationText_shows (by norm_num : 10 ^ 9 ≤ 90250000000)
  obtain rfl : ShownTime.minutes 1 302 = t := (htext _).mp (by decide +kernel)
  exact ⟨by decide +kernel, hshows, hexact (by norm_num)⟩

/-- At `2 ^ 24` seconds the measured time is off by more than a nanosecond, and the tenth is not the
one next to the exact time. -/
example : durationText 16777216049999999 = "279620m16.1s" := by decide +kernel

/-- Just below a minute the seconds figure is rounded up to 60, with minutes written or without. -/
theorem not_forall_figure_lt :
    durationText 59999000000 = "60.00s" ∧ durationText 119970000000 = "1m60.0s" ∧
      ¬ ∀ ns, 10 ^ 9 ≤ ns → ∀ t : ShownTime, durationText ns = t.text → t.figure < 60 := by
  refine ⟨by decide +kernel, by decide +kernel, fun h => ?_⟩
  have hlt := h 59999000000 (by norm_num) (.seconds 6000) (by decide +kernel)
  norm_num [ShownTime.figure] at hlt

end HAtom
