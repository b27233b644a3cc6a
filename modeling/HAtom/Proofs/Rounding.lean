import HAtom.Number.Ratio
import Mathlib.Algebra.Order.Field.Power
import Mathlib.Algebra.Order.Floor.Semifield
import Mathlib.Data.Rat.Floor
import Mathlib.Tactic.FieldSimp
import Mathlib.Tactic.Linarith
import Mathlib.Tactic.NormNum
import Mathlib.Tactic.Positivity
import Mathlib.Tactic.Ring

/-!
# How far rounding goes

The value of a measured number as a rational one, and what rounding does to it. Rounding to a whole
number is off by one half at most. Rounding to 53 binary digits is off by one part in `2 ^ 53` at
most (`Ratio.abs_nearest_sub_le`), and it does not carry a number across a whole one below `2 ^ 53`
(`Ratio.natCast_le_nearest`, `Ratio.nearest_le_natCast`). So the whole part of a quotient is not
changed when the quotient is rounded (`Ratio.floor_nearest_divNat`).
-/

namespace HAtom

/-! ## Whole numbers -/

theorem roundDiv_le (n d : Nat) : 2 * (roundDiv n d * d) ≤ 2 * n + d := by
  have hdiv := Nat.div_add_mod' n d
  have hsucc : (n / d + 1) * d = n / d * d + d := Nat.succ_mul _ _
  unfold roundDiv
  dsimp only
  split_ifs <;> omega

theorem le_roundDiv (n : Nat) {d : Nat} (hd : 0 < d) : 2 * n ≤ 2 * (roundDiv n d * d) + d := by
  have hdiv := Nat.div_add_mod' n d
  have hmod := Nat.mod_lt n hd
  have hsucc : (n / d + 1) * d = n / d * d + d := Nat.succ_mul _ _
  unfold roundDiv
  dsimp only
  split_ifs <;> omega

/-- **Rounding to a whole number is off by one half at most.** -/
theorem abs_roundDiv_sub_le (n : Nat) {d : Nat} (hd : 0 < d) :
    |(roundDiv n d : ℚ) - n / d| ≤ 1 / 2 := by
  have hpos : (0 : ℚ) < d := by exact_mod_cast hd
  have hupper : 2 * ((roundDiv n d : ℚ) * d) ≤ 2 * n + d := by exact_mod_cast roundDiv_le n d
  have hlower : 2 * (n : ℚ) ≤ 2 * (roundDiv n d * d) + d := by exact_mod_cast le_roundDiv n hd
  have hn : (n : ℚ) = n / d * d := by field_simp
  rw [abs_le]
  constructor <;> nlinarith

/-- A tie below an even number goes up to it. -/
theorem roundDiv_lt_even_iff (n : Nat) {d : Nat} (hd : 0 < d) (j : Nat) :
    roundDiv n d < 2 * j ↔ 2 * n + d < 4 * (j * d) := by
  have hdiv := Nat.div_add_mod' n d
  have hmod := Nat.mod_lt n hd
  have hmono : ∀ a b : Nat, a ≤ b → a * d ≤ b * d := fun _ _ => Nat.mul_le_mul_right d
  unfold roundDiv
  dsimp only
  generalize n / d = q at *
  -- the quotient stays two below the even number, is the odd one before it, or reaches it
  obtain hlow | hodd | hhigh : q + 2 ≤ 2 * j ∨ q + 1 = 2 * j ∨ 2 * j ≤ q := by omega
  · have := hmono _ _ hlow
    rw [Nat.add_mul, Nat.mul_assoc] at this
    split_ifs <;> omega
  · have : (q + 1) * d = 2 * j * d := by rw [hodd]
    rw [Nat.add_mul, Nat.mul_assoc] at this
    have hparity : q % 2 ≠ 0 := by omega
    simp only [beq_iff_eq, hparity, if_false]
    split_ifs <;> omega
  · have := hmono _ _ hhigh
    rw [Nat.mul_assoc] at this
    split_ifs <;> omega

namespace Ratio

/-! ## Values -/

/-- The value of a number. -/
def value (a : Ratio) : ℚ := a.num / a.den

theorem den_cast_pos (a : Ratio) : (0 : ℚ) < a.den := by exact_mod_cast a.den_pos

theorem value_nonneg (a : Ratio) : 0 ≤ a.value := by
  unfold value
  positivity

@[simp] theorem value_ofNat (n : Nat) : (ofNat n).value = n := by simp [value, ofNat]

@[simp] theorem value_add (a b : Ratio) : (a.add b).value = a.value + b.value := by
  have ha := a.den_cast_pos
  have hb := b.den_cast_pos
  simp only [value, add]
  push_cast
  field_simp

theorem value_divNat (a : Ratio) {n : Nat} (h : 0 < n) : (a.divNat n).value = a.value / n := by
  rw [divNat, dif_pos h]
  simp only [value]
  push_cast
  rw [div_div]

theorem value_scaled (m : Nat) (e : Int) : (scaled m e).value = m * (2 : ℚ) ^ e := by
  cases e with
  | ofNat k => simp [scaled, value, ofNat]
  | negSucc k => simp [scaled, value, zpow_negSucc, div_eq_mul_inv]

theorem less_iff (a b : Ratio) : a.less b = true ↔ a.value < b.value := by
  rw [less, decide_eq_true_eq, value, value, div_lt_div_iff₀ a.den_cast_pos b.den_cast_pos]
  exact_mod_cast Iff.rfl

theorem floor_eq (a : Ratio) : a.floor = ⌊a.value⌋₊ := by
  rw [floor, value, Nat.floor_div_eq_div]

theorem value_rem (a : Ratio) (n : Nat) :
    (a.rem n).value = a.value - n * ⌊a.value / n⌋₊ := by
  have hfloor : ⌊a.value / n⌋₊ = a.num / (n * a.den) := by
    rw [value, div_div, mul_comm (a.den : ℚ), ← Nat.cast_mul, Nat.floor_div_eq_div]
  have hmod : ((a.num % (n * a.den) : Nat) : ℚ) =
      a.num - n * a.den * (a.num / (n * a.den) : Nat) := by
    have hsplit := Nat.mod_add_div a.num (n * a.den)
    rw [eq_sub_iff_add_eq]
    exact_mod_cast hsplit
  have ha := a.den_cast_pos
  rw [hfloor]
  simp only [value, rem]
  rw [hmod]
  field_simp

/-! ## Numbers of 53 binary digits -/

theorem log2_le_value {a : Ratio} (h : 0 < a.num) :
    (2 : ℚ) ^ ((Nat.log2 a.num : Int) - Nat.log2 a.den - 1) ≤ a.value ∧
      a.value < 2 ^ ((Nat.log2 a.num : Int) - Nat.log2 a.den + 1) := by
  have hnum : (2 : ℚ) ^ (Nat.log2 a.num : Int) ≤ a.num ∧
      (a.num : ℚ) < 2 ^ (Nat.log2 a.num + 1 : Int) :=
    ⟨by exact_mod_cast Nat.log2_self_le h.ne', by exact_mod_cast Nat.lt_log2_self⟩
  have hden : (2 : ℚ) ^ (Nat.log2 a.den : Int) ≤ a.den ∧
      (a.den : ℚ) < 2 ^ (Nat.log2 a.den + 1 : Int) :=
    ⟨by exact_mod_cast Nat.log2_self_le a.den_pos.ne', by exact_mod_cast Nat.lt_log2_self⟩
  have htwo : (2 : ℚ) ≠ 0 := two_ne_zero
  have hpos := a.den_cast_pos
  rw [value, le_div_iff₀ hpos, div_lt_iff₀ hpos]
  constructor
  · calc (2 : ℚ) ^ ((Nat.log2 a.num : Int) - Nat.log2 a.den - 1) * a.den
        ≤ 2 ^ ((Nat.log2 a.num : Int) - Nat.log2 a.den - 1) * 2 ^ (Nat.log2 a.den + 1 : Int) := by
          gcongr
          exact hden.2.le
      _ = 2 ^ (Nat.log2 a.num : Int) := by
          rw [← zpow_add₀ htwo]
          congr 1
          omega
      _ ≤ a.num := hnum.1
  · calc (a.num : ℚ) < 2 ^ (Nat.log2 a.num + 1 : Int) := hnum.2
      _ = 2 ^ ((Nat.log2 a.num : Int) - Nat.log2 a.den + 1) * 2 ^ (Nat.log2 a.den : Int) := by
          rw [← zpow_add₀ htwo]
          congr 1
          omega
      _ ≤ 2 ^ ((Nat.log2 a.num : Int) - Nat.log2 a.den + 1) * a.den := by
          gcongr
          exact hden.1

theorem two_pow_mul_zpow (k : Nat) (e : Int) : (2 : ℚ) ^ k * 2 ^ e = 2 ^ (k + e) := by
  rw [← zpow_natCast, ← zpow_add₀ two_ne_zero]

theorem below_iff (a : Ratio) (m : Nat) (e : Int) : a.below m e = true ↔ a.value < m * 2 ^ e := by
  rw [below, less_iff, value_scaled]

/-- **The exponent of a number leaves 53 binary digits before the point.** -/
theorem exponent_bounds {a : Ratio} (h : 0 < a.num) :
    2 ^ 52 * (2 : ℚ) ^ a.exponent ≤ a.value ∧ a.value < 2 ^ 53 * (2 : ℚ) ^ a.exponent := by
  have hvalue := log2_le_value h
  unfold exponent
  dsimp only
  generalize (Nat.log2 a.num : Int) - Nat.log2 a.den = l at hvalue ⊢
  have hpow : ((Nat.pow 2 52 : Nat) : ℚ) = 2 ^ 52 := by norm_num
  split_ifs with hbelow
  · rw [below_iff, hpow, two_pow_mul_zpow] at hbelow
    rw [two_pow_mul_zpow, two_pow_mul_zpow]
    refine ⟨hvalue.1.trans_eq' ?_, hbelow.trans_eq ?_⟩ <;> congr 1 <;> push_cast <;> omega
  · rw [below_iff, hpow, two_pow_mul_zpow, not_lt] at hbelow
    rw [two_pow_mul_zpow, two_pow_mul_zpow]
    refine ⟨hbelow, hvalue.2.trans_eq ?_⟩
    congr 1
    push_cast
    omega

theorem abs_mantissa_sub_le (a : Ratio) (e : Int) :
    |(a.mantissa e : ℚ) - a.value / 2 ^ e| ≤ 1 / 2 := by
  cases e with
  | ofNat k =>
    have hround := abs_roundDiv_sub_le a.num (Nat.mul_pos a.den_pos (Nat.two_pow_pos k))
    have hvalue : a.value / 2 ^ Int.ofNat k = a.num / (a.den * Nat.pow 2 k : Nat) := by
      rw [value, div_div]
      simp
    rw [hvalue]
    exact hround
  | negSucc k =>
    have hround := abs_roundDiv_sub_le (a.num * Nat.pow 2 (k + 1)) a.den_pos
    have hvalue : a.value / 2 ^ Int.negSucc k = (a.num * Nat.pow 2 (k + 1) : Nat) / a.den := by
      rw [value, zpow_negSucc, div_inv_eq_mul, div_mul_eq_mul_div]
      simp
    rw [hvalue]
    exact hround

theorem natCast_le_mantissa {a : Ratio} {e : Int} {j : Nat} (h : (j : ℚ) ≤ a.value / 2 ^ e) :
    j ≤ a.mantissa e := by
  have hround := (abs_le.mp (a.abs_mantissa_sub_le e)).1
  have hlt : (j : ℚ) < (a.mantissa e + 1 : Nat) := by
    push_cast
    linarith
  have : j < a.mantissa e + 1 := by exact_mod_cast hlt
  omega

theorem mantissa_le_natCast {a : Ratio} {e : Int} {j : Nat} (h : a.value / 2 ^ e ≤ j) :
    a.mantissa e ≤ j := by
  have hround := (abs_le.mp (a.abs_mantissa_sub_le e)).2
  have hlt : (a.mantissa e : ℚ) < (j + 1 : Nat) := by
    push_cast
    linarith
  have : a.mantissa e < j + 1 := by exact_mod_cast hlt
  omega

theorem nearest_of_num_eq_zero {a : Ratio} (h : a.num = 0) : a.nearest.value = 0 := by
  simp [nearest, h]

theorem value_nearest {a : Ratio} (h : 0 < a.num) :
    a.nearest.value = a.mantissa a.exponent * (2 : ℚ) ^ a.exponent := by
  rw [nearest, if_neg (by simpa using h.ne'), value_scaled]

/-- Rounding is off by half a unit of the last of the 53 binary digits at most. -/
theorem abs_nearest_sub_le_unit {a : Ratio} (h : 0 < a.num) :
    |a.nearest.value - a.value| ≤ 2 ^ a.exponent / 2 := by
  have hunit : (0 : ℚ) < 2 ^ a.exponent := by positivity
  have hdiv : a.value = a.value / 2 ^ a.exponent * 2 ^ a.exponent := by field_simp
  calc |a.nearest.value - a.value|
      = |a.mantissa a.exponent - a.value / 2 ^ a.exponent| * 2 ^ a.exponent := by
        rw [← abs_of_pos hunit, ← abs_mul, abs_of_pos hunit, sub_mul, ← hdiv, value_nearest h]
    _ ≤ 1 / 2 * 2 ^ a.exponent := by
        gcongr
        exact abs_mantissa_sub_le a a.exponent
    _ = 2 ^ a.exponent / 2 := by rw [one_div_mul_eq_div]

/-- **Rounding to 53 binary digits is off by one part in `2 ^ 53` at most.** -/
theorem abs_nearest_sub_le (a : Ratio) : |a.nearest.value - a.value| ≤ a.value / 2 ^ 53 := by
  obtain hzero | hpos := Nat.eq_zero_or_pos a.num
  · rw [nearest_of_num_eq_zero hzero, value, hzero]
    simp
  · calc |a.nearest.value - a.value| ≤ 2 ^ a.exponent / 2 := abs_nearest_sub_le_unit hpos
      _ ≤ a.value / 2 ^ 53 := by linarith [(exponent_bounds hpos).1]

/-- Below a power of two, rounding is off by one part in `2 ^ 54` of that power at most. -/
theorem abs_nearest_sub_le_of_lt {a : Ratio} {j : Nat} (h : a.value < 2 ^ j) :
    |a.nearest.value - a.value| ≤ 2 ^ j / 2 ^ 54 := by
  obtain hzero | hpos := Nat.eq_zero_or_pos a.num
  · rw [nearest_of_num_eq_zero hzero, value, hzero, Nat.cast_zero, zero_div, sub_zero, abs_zero]
    positivity
  · have hlt : (2 : ℚ) ^ (52 + a.exponent) < 2 ^ (j : Int) := by
      have hlow := (exponent_bounds hpos).1.trans_lt h
      rw [two_pow_mul_zpow] at hlow
      exact_mod_cast hlow
    -- the unit is a power of two itself, so there is one digit more than is left below the power
    have hexp : 53 + a.exponent ≤ j := by
      have := (zpow_lt_zpow_iff_right₀ one_lt_two).mp hlt
      omega
    have hunit : (2 : ℚ) ^ (53 + a.exponent) ≤ 2 ^ j := by
      rw [← zpow_natCast]
      exact zpow_le_zpow_right₀ one_le_two hexp
    calc |a.nearest.value - a.value| ≤ 2 ^ a.exponent / 2 := abs_nearest_sub_le_unit hpos
      _ = 2 ^ (53 + a.exponent) / 2 ^ 54 := by
        rw [zpow_add₀ two_ne_zero]
        norm_num
        ring
      _ ≤ 2 ^ j / 2 ^ 54 := by gcongr

/-! ## Whole numbers in 53 binary digits -/

theorem two_pow_52_le_mantissa {a : Ratio} (h : 0 < a.num) : 2 ^ 52 ≤ a.mantissa a.exponent := by
  apply natCast_le_mantissa
  rw [le_div_iff₀ (by positivity)]
  exact_mod_cast (exponent_bounds h).1

theorem mantissa_le_two_pow_53 {a : Ratio} (h : 0 < a.num) : a.mantissa a.exponent ≤ 2 ^ 53 := by
  apply mantissa_le_natCast
  rw [div_le_iff₀ (by positivity)]
  exact_mod_cast (exponent_bounds h).2.le

theorem two_pow_53_le_of_pos {e : Int} (h : 0 < e) : (2 : ℚ) ^ 53 ≤ 2 ^ 52 * 2 ^ e := by
  have htwo : (2 : ℚ) ^ (1 : Int) ≤ 2 ^ e := zpow_le_zpow_right₀ (by norm_num) (by omega)
  linarith

/-- A binary unit is not below one, or it is the reciprocal of a power of two. -/
theorem exponent_cases (e : Int) : 0 < e ∨ ∃ n : Nat, (2 : ℚ) ^ e = 1 / 2 ^ n := by
  obtain hpos | hneg := lt_or_ge 0 e
  · exact .inl hpos
  · obtain ⟨n, rfl⟩ := Int.exists_eq_neg_ofNat hneg
    exact .inr ⟨n, by rw [zpow_neg, zpow_natCast, one_div]⟩

/-- **A number that reaches a whole one reaches it when rounded.** -/
theorem natCast_le_nearest {a : Ratio} {k : Nat} (hk : k ≤ 2 ^ 53) (h : (k : ℚ) ≤ a.value) :
    (k : ℚ) ≤ a.nearest.value := by
  obtain hzero | hpos := Nat.eq_zero_or_pos a.num
  · rw [nearest_of_num_eq_zero hzero]
    simpa [value, hzero] using h
  rw [value_nearest hpos]
  obtain hexp | ⟨n, hunit⟩ := exponent_cases a.exponent
  · have hmantissa : (2 : ℚ) ^ 52 ≤ a.mantissa a.exponent := by
      exact_mod_cast two_pow_52_le_mantissa hpos
    calc (k : ℚ) ≤ 2 ^ 53 := by exact_mod_cast hk
      _ ≤ 2 ^ 52 * 2 ^ a.exponent := two_pow_53_le_of_pos hexp
      _ ≤ a.mantissa a.exponent * 2 ^ a.exponent := by gcongr
  · -- the whole number is a number of units, and so is what the mantissa counts
    have hmantissa : ((k * 2 ^ n : Nat) : ℚ) ≤ a.mantissa a.exponent := by
      refine Nat.cast_le.mpr (natCast_le_mantissa ?_)
      rw [hunit, one_div, div_inv_eq_mul]
      push_cast
      gcongr
    rw [hunit, mul_one_div, le_div_iff₀ (by positivity)]
    exact_mod_cast hmantissa

/-- **A number that does not pass a whole one does not pass it when rounded.** -/
theorem nearest_le_natCast {a : Ratio} {k : Nat} (hk : k < 2 ^ 53) (h : a.value ≤ k) :
    a.nearest.value ≤ k := by
  obtain hzero | hpos := Nat.eq_zero_or_pos a.num
  · rw [nearest_of_num_eq_zero hzero]
    positivity
  rw [value_nearest hpos]
  obtain hexp | ⟨n, hunit⟩ := exponent_cases a.exponent
  · have hlarge : (2 : ℚ) ^ 53 ≤ k :=
      (two_pow_53_le_of_pos hexp).trans ((exponent_bounds hpos).1.trans h)
    exact absurd (by exact_mod_cast hlarge) (Nat.not_le.mpr hk)
  · have hmantissa : (a.mantissa a.exponent : ℚ) ≤ (k * 2 ^ n : Nat) := by
      refine Nat.cast_le.mpr (mantissa_le_natCast ?_)
      rw [hunit, one_div, div_inv_eq_mul]
      push_cast
      gcongr
    rw [hunit, mul_one_div, div_le_iff₀ (by positivity)]
    exact_mod_cast hmantissa

/-- A rounded number below `2 ^ 53` has fewer than `2 ^ 53` binary units. -/
theorem exists_units_nearest {a : Ratio} (h : a.nearest.value < 2 ^ 53) :
    ∃ m k : Nat, m < 2 ^ 53 ∧ a.nearest.value = m / 2 ^ k := by
  obtain hzero | hpos := Nat.eq_zero_or_pos a.num
  · exact ⟨0, 0, by norm_num, by simp [nearest_of_num_eq_zero hzero]⟩
  rw [value_nearest hpos] at h ⊢
  have hlow : (2 : ℚ) ^ 52 ≤ a.mantissa a.exponent := by
    exact_mod_cast two_pow_52_le_mantissa hpos
  obtain hexp | ⟨n, hunit⟩ := exponent_cases a.exponent
  · have hlarge : (2 : ℚ) ^ 53 ≤ a.mantissa a.exponent * 2 ^ a.exponent :=
      (two_pow_53_le_of_pos hexp).trans (by gcongr)
    exact absurd h (not_lt.mpr hlarge)
  rw [hunit, mul_one_div] at h ⊢
  obtain hlt | heq := (mantissa_le_two_pow_53 hpos).lt_or_eq
  · exact ⟨_, n, hlt, rfl⟩
  -- the mantissa was rounded up to the next power of two
  rw [heq] at h ⊢
  cases n with
  | zero => norm_num at h
  | succ n =>
    refine ⟨2 ^ 52, n, by norm_num, ?_⟩
    rw [div_eq_div_iff (by positivity) (by positivity)]
    push_cast
    ring

/-- **Rounding a quotient of a number of 53 binary digits leaves its whole part as it is.** -/
theorem floor_nearest_divNat {a : Ratio} {n m k : Nat} (hn : 0 < n) (hm : m < 2 ^ 53)
    (ha : a.value = m / 2 ^ k) : ((a.divNat n).nearest).floor = ⌊a.value / n⌋₊ := by
  have hnpos : (0 : ℚ) < n := by exact_mod_cast hn
  have hquot : (a.divNat n).value = a.value / n := value_divNat a hn
  have hnonneg : 0 ≤ a.value / n := hquot ▸ value_nonneg _
  have hunits : a.value / n = m / (2 ^ k * n) := by rw [ha, div_div]
  have hm' : (m : ℚ) < 2 ^ 53 := by exact_mod_cast hm
  rw [floor_eq, Nat.floor_eq_iff (value_nonneg _)]
  constructor
  · apply natCast_le_nearest
    · have : (⌊a.value / n⌋₊ : ℚ) ≤ 2 ^ 53 := by
        calc (⌊a.value / n⌋₊ : ℚ) ≤ m / (2 ^ k * n) := hunits ▸ Nat.floor_le hnonneg
          _ ≤ m := div_le_self (by positivity) (by exact_mod_cast Nat.mul_pos (by positivity) hn)
          _ ≤ 2 ^ 53 := hm'.le
      exact_mod_cast this
    · rw [hquot]
      exact Nat.floor_le hnonneg
  · -- the quotient falls short of the next whole number by one part of `n` of a unit
    have hshort : (m : ℚ) + 1 ≤ (⌊a.value / n⌋₊ + 1) * (2 ^ k * n) := by
      have hlt := Nat.lt_floor_add_one (a.value / n)
      rw [hunits, div_lt_iff₀ (by positivity)] at hlt
      rw [hunits]
      exact_mod_cast Nat.succ_le_of_lt (by exact_mod_cast hlt)
    have hround := (abs_le.mp (abs_nearest_sub_le (a.divNat n))).2
    rw [hquot, hunits] at hround
    calc (a.divNat n).nearest.value
        ≤ m / (2 ^ k * n) + m / (2 ^ k * n) / 2 ^ 53 := by linarith
      _ < m / (2 ^ k * n) + 2 ^ 53 / (2 ^ k * n) / 2 ^ 53 := by gcongr
      _ = (m + 1) / (2 ^ k * n) := by field_simp
      _ ≤ ⌊a.value / n⌋₊ + 1 := by rwa [div_le_iff₀ (by positivity)]

end Ratio

end HAtom
