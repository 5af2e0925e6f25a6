/-
Rounding to the numbers with 53 binary digits: the nearest multiple of the unit in the last place, ties
to the even one. A value of at most half of the smallest unit becomes zero, one from the threshold on
rounds to `2^1024`, and a value that is bounded by a power of two stays so.
-/
import Mathlib.Data.Int.Log
import Mathlib.Data.Rat.Floor
import StockPredictor.Base.Rounding

namespace Base

/-! ## Rounding to the unit in the last place -/

/-- The exponent of the unit in the last place of the numbers near `v`. -/
def ulpExponent (v : ℚ) : ℤ := max (Int.log 2 |v| - 52) (-1074)

/-- The nearest multiple of the unit, ties to the even one. -/
def roundToUlp (v : ℚ) : ℚ := roundHalfEven (v / 2 ^ ulpExponent v) * 2 ^ ulpExponent v

theorem two_zpow_pos (e : ℤ) : (0 : ℚ) < 2 ^ e := zpow_pos two_pos e

theorem ulpExponent_ge (v : ℚ) : -1074 ≤ ulpExponent v := le_max_right _ _

section Grid

variable {v : ℚ} {n : ℤ}

/-- Rounding does not cross a multiple of the unit. -/
theorem roundToUlp_le_of_le (h : v ≤ n * 2 ^ ulpExponent v) : roundToUlp v ≤ n * 2 ^ ulpExponent v := by
  have hpos := two_zpow_pos (ulpExponent v)
  rw [← div_le_iff₀ hpos] at h
  exact mul_le_mul_of_nonneg_right (Int.cast_le.2 (roundHalfEven_le_of_le h)) hpos.le

theorem le_roundToUlp_of_le (h : n * 2 ^ ulpExponent v ≤ v) : n * 2 ^ ulpExponent v ≤ roundToUlp v := by
  have hpos := two_zpow_pos (ulpExponent v)
  rw [← le_div_iff₀ hpos] at h
  exact mul_le_mul_of_nonneg_right (Int.cast_le.2 (le_roundHalfEven_of_le h)) hpos.le

theorem roundToUlp_nonneg (h : 0 ≤ v) : 0 ≤ roundToUlp v := by
  have := le_roundToUlp_of_le (n := 0) (v := v) (by simpa using h)
  simpa using this

theorem roundToUlp_nonpos (h : v ≤ 0) : roundToUlp v ≤ 0 := by
  have := roundToUlp_le_of_le (n := 0) (v := v) (by simpa using h)
  simpa using this

theorem roundToUlp_neg (v : ℚ) : roundToUlp (-v) = -roundToUlp v := by
  unfold roundToUlp ulpExponent
  rw [abs_neg, neg_div, roundHalfEven_neg, Int.cast_neg, neg_mul]

end Grid

section Bounds

variable {v : ℚ} {k : ℤ}

theorem log_le_of_le (hv : 0 < v) (h : v ≤ 2 ^ k) : Int.log 2 |v| ≤ k := by
  rw [abs_of_pos hv]
  by_contra hlt
  push Not at hlt
  have hself := (Int.zpow_le_iff_le_log (by norm_num : 1 < 2) hv).2 hlt
  push_cast at hself
  have hstep : (2 : ℚ) ^ k < 2 ^ (k + 1) := zpow_lt_zpow_right₀ (by norm_num) (by omega)
  linarith

theorem two_zpow_log_le (hv : 0 < v) : (2 : ℚ) ^ Int.log 2 |v| ≤ v := by
  have := Int.zpow_log_le_self (b := 2) (by norm_num) hv
  rw [abs_of_pos hv]
  exact_mod_cast this

/-- A power of two is a multiple of every unit that is no larger. -/
theorem two_zpow_eq_mul {e : ℤ} (h : e ≤ k) : (2 : ℚ) ^ k = ((2 ^ (k - e).toNat : ℤ) : ℚ) * 2 ^ e := by
  have hsplit : k = ((k - e).toNat : ℤ) + e := by omega
  rw [hsplit, zpow_add₀ two_ne_zero, zpow_natCast]
  push_cast
  congr 2
  omega

theorem ulpExponent_le (hk : -1074 ≤ k) (hv : 0 < v) (h : v ≤ 2 ^ k) : ulpExponent v ≤ k := by
  have := log_le_of_le hv h
  exact max_le (by omega) hk

theorem roundToUlp_le_two_zpow (hk : -1074 ≤ k) (h : v ≤ 2 ^ k) : roundToUlp v ≤ 2 ^ k := by
  rcases le_or_gt v 0 with hv | hv
  · exact (roundToUlp_nonpos hv).trans (two_zpow_pos k).le
  · have hunits := two_zpow_eq_mul (ulpExponent_le hk hv h)
    rw [hunits]
    exact roundToUlp_le_of_le (hunits ▸ h)

theorem two_zpow_le_roundToUlp (hk : -1074 ≤ k) (h : 2 ^ k ≤ v) : 2 ^ k ≤ roundToUlp v := by
  have hv : 0 < v := (two_zpow_pos k).trans_le h
  rcases le_or_gt (ulpExponent v) k with he | he
  · have hunits := two_zpow_eq_mul he
    rw [hunits]
    exact le_roundToUlp_of_le (hunits ▸ h)
  · -- the unit is that of the binade of `v`, and `v` is at least `2^52` of them
    have hlog : ulpExponent v = Int.log 2 |v| - 52 := max_eq_left (by unfold ulpExponent at he; omega)
    have hunits : (2 : ℚ) ^ Int.log 2 |v| = ((2 ^ 52 : ℤ) : ℚ) * 2 ^ ulpExponent v := by
      rw [two_zpow_eq_mul (show ulpExponent v ≤ Int.log 2 |v| by omega), hlog, sub_sub_cancel]
      rfl
    have hle : (2 : ℚ) ^ k ≤ 2 ^ Int.log 2 |v| := zpow_le_zpow_right₀ (by norm_num) (by omega)
    refine hle.trans ?_
    rw [hunits]
    exact le_roundToUlp_of_le (hunits ▸ two_zpow_log_le hv)

theorem abs_roundToUlp_le (hk : -1074 ≤ k) (h : |v| ≤ 2 ^ k) : |roundToUlp v| ≤ 2 ^ k := by
  obtain ⟨hlow, hhigh⟩ := abs_le.1 h
  have hneg := roundToUlp_le_two_zpow hk (neg_le.1 hlow)
  rw [roundToUlp_neg] at hneg
  exact abs_le.2 ⟨neg_le.1 hneg, roundToUlp_le_two_zpow hk hhigh⟩

end Bounds

/-- Rounding less than doubles a value that is beyond one. -/
theorem roundToUlp_le_two_mul_add {v : ℚ} (hv : 0 ≤ v) : roundToUlp v ≤ 2 * v + 1 := by
  have hpos := two_zpow_pos (ulpExponent v)
  have hround : roundToUlp v ≤ v + 1 / 2 * 2 ^ ulpExponent v := by
    have := mul_le_mul_of_nonneg_right (roundHalfEven_le (v / 2 ^ ulpExponent v)) hpos.le
    rwa [add_mul, div_mul_cancel₀ _ hpos.ne'] at this
  -- the unit is at most one, or at most the value
  have hunit : (2 : ℚ) ^ ulpExponent v ≤ v + 1 := by
    rcases le_or_gt (ulpExponent v) 0 with he | he
    · have : (2 : ℚ) ^ ulpExponent v ≤ 1 := zpow_le_one_of_nonpos₀ (by norm_num) he
      linarith
    · have hlog : ulpExponent v ≤ Int.log 2 |v| := by unfold ulpExponent at he ⊢; omega
      have hv0 : 0 < v := by
        rcases hv.eq_or_lt with rfl | h
        · rw [abs_zero, Int.log_zero_right] at hlog
          omega
        · exact h
      have hpow : (2 : ℚ) ^ ulpExponent v ≤ 2 ^ Int.log 2 |v| := zpow_le_zpow_right₀ (by norm_num) hlog
      have := two_zpow_log_le hv0
      linarith
  linarith

/-! ## Ties -/

theorem ulpExponent_of_binade {v : ℚ} {k : ℤ} (hk : -1022 ≤ k) (hlow : 2 ^ k ≤ v) (hhigh : v < 2 ^ (k + 1)) :
    ulpExponent v = k - 52 := by
  have hv : 0 < v := (two_zpow_pos k).trans_le hlow
  have h1 : k ≤ Int.log 2 v := (Int.zpow_le_iff_le_log (by norm_num) hv).1 (by exact_mod_cast hlow)
  have h2 : Int.log 2 v < k + 1 := (Int.lt_zpow_iff_log_lt (by norm_num) hv).1 (by exact_mod_cast hhigh)
  unfold ulpExponent
  rw [abs_of_pos hv]
  omega

/-- A value rounds to a power of two or less when it exceeds it by at most half of a unit: the tie goes
to the power, which is an even multiple of the unit. -/
theorem roundToUlp_le_iff {v : ℚ} {k : ℤ} (hk : -1022 ≤ k) : roundToUlp v ≤ 2 ^ k ↔ v ≤ 2 ^ k + 2 ^ (k - 53) := by
  have hpow := two_zpow_pos (k - 53)
  rcases le_or_gt v (2 ^ k) with hv | hv
  · exact iff_of_true (roundToUlp_le_two_zpow (by omega) hv) (by linarith)
  · rcases lt_or_ge v (2 ^ (k + 1)) with hv' | hv'
    · have hunit := ulpExponent_of_binade hk hv.le hv'
      have hpos := two_zpow_pos (k - 52)
      have hpower : (2 : ℚ) ^ k = ((2 ^ 52 : ℤ) : ℚ) * 2 ^ (k - 52) := by
        rw [two_zpow_eq_mul (show k - 52 ≤ k by omega), sub_sub_cancel]
        rfl
      have hhalf : (2 : ℚ) ^ (k - 53) = 1 / 2 * 2 ^ (k - 52) := by
        rw [show k - 53 = k - 52 - 1 by omega, zpow_sub_one₀ two_ne_zero]
        ring
      unfold roundToUlp
      rw [hunit, hpower, hhalf, ← add_mul, mul_le_mul_iff_left₀ hpos, Int.cast_le, ← div_le_iff₀ hpos]
      constructor
      · intro h
        have hle := le_roundHalfEven (v / 2 ^ (k - 52))
        have hcast : (roundHalfEven (v / 2 ^ (k - 52)) : ℚ) ≤ (2 ^ 52 : ℤ) := Int.cast_le.2 h
        linarith
      · exact roundHalfEven_le_of_even (by decide)
    · -- from the next power on the value is a whole power too large
      have hdouble : (2 : ℚ) ^ (k + 1) = 2 * 2 ^ k := by
        rw [zpow_add_one₀ two_ne_zero]
        ring
      have hpowk := two_zpow_pos k
      have hlt : (2 : ℚ) ^ (k - 53) < 2 ^ k := zpow_lt_zpow_right₀ (by norm_num) (by omega)
      have hround := two_zpow_le_roundToUlp (by omega) hv'
      exact iff_of_false (not_le.2 (by linarith)) (not_le.2 (by linarith))

/-- A positive value is not lost exactly above half of the smallest unit. -/
theorem roundToUlp_pos_iff {v : ℚ} : 0 < roundToUlp v ↔ 2 ^ (-1075 : ℤ) < v := by
  constructor
  · intro h
    by_contra hle
    push Not at hle
    rcases le_or_gt v 0 with hv | hv
    · exact absurd (roundToUlp_nonpos hv) (not_le.2 h)
    · -- so small a value has the smallest unit and is at most half of it
      have hlog := log_le_of_le hv hle
      have hunit : ulpExponent v = -1074 := max_eq_right (by omega)
      unfold roundToUlp at h
      rw [hunit, mul_pos_iff_of_pos_right (two_zpow_pos _), Int.cast_pos, roundHalfEven_pos_iff,
        lt_div_iff₀ (two_zpow_pos _)] at h
      have hhalf : (2 : ℚ) ^ (-1075 : ℤ) = 1 / 2 * 2 ^ (-1074 : ℤ) := by
        rw [show (-1075 : ℤ) = -1 + -1074 by norm_num, zpow_add₀ two_ne_zero]
        norm_num
      linarith
  · intro h
    have hv : 0 < v := (two_zpow_pos _).trans h
    unfold roundToUlp
    rw [mul_pos_iff_of_pos_right (two_zpow_pos _), Int.cast_pos, roundHalfEven_pos_iff, lt_div_iff₀ (two_zpow_pos _)]
    have hhalf : 1 / 2 * (2 : ℚ) ^ ulpExponent v = 2 ^ (ulpExponent v - 1) := by
      rw [zpow_sub_one₀ two_ne_zero]
      ring
    rw [hhalf]
    rcases max_choice (Int.log 2 |v| - 52) (-1074) with he | he
    · have hbinade : (2 : ℚ) ^ (ulpExponent v - 1) < 2 ^ Int.log 2 |v| :=
        zpow_lt_zpow_right₀ (by norm_num) (by unfold ulpExponent; omega)
      exact hbinade.trans_le (two_zpow_log_le hv)
    · rw [show ulpExponent v = -1074 from he]
      exact h

/-- The largest number plus half of its unit, from which on a value rounds to `2^1024`. -/
def overflowThreshold : ℚ := 2 ^ (1024 : ℤ) - 2 ^ (970 : ℤ)

theorem overflowThreshold_eq : overflowThreshold = ((2 ^ 53 : ℤ) - 1 / 2) * (2 : ℚ) ^ (971 : ℤ) := by
  have htop : (2 : ℚ) ^ (1024 : ℤ) = 2 ^ (53 : ℤ) * 2 ^ (971 : ℤ) := zpow_add₀ two_ne_zero 53 971
  have hhalf : (2 : ℚ) ^ (970 : ℤ) = 1 / 2 * 2 ^ (971 : ℤ) := by
    rw [show (970 : ℤ) = 971 - 1 by norm_num, zpow_sub_one₀ two_ne_zero]
    ring
  unfold overflowThreshold
  rw [htop, hhalf, ← sub_mul]
  rfl

theorem lt_overflowThreshold {k : ℤ} (hk : k ≤ 1023) : (2 : ℚ) ^ k < overflowThreshold := by
  have hle : (2 : ℚ) ^ k ≤ 2 ^ (1023 : ℤ) := zpow_le_zpow_right₀ (by norm_num) hk
  have hpos := two_zpow_pos 971
  refine hle.trans_lt ?_
  have hsplit : (2 : ℚ) ^ (1023 : ℤ) = 2 ^ (52 : ℤ) * 2 ^ (971 : ℤ) := zpow_add₀ two_ne_zero 52 971
  rw [overflowThreshold_eq, hsplit]
  have hmantissa : (2 : ℚ) ^ (52 : ℤ) < (2 ^ 53 : ℤ) - 1 / 2 := by norm_num
  exact mul_lt_mul_of_pos_right hmantissa hpos

theorem overflowThreshold_le : overflowThreshold ≤ 2 ^ (1024 : ℤ) := sub_le_self _ (two_zpow_pos 970).le

theorem roundToUlp_lt_iff {v : ℚ} : roundToUlp v < 2 ^ (1024 : ℤ) ↔ v < overflowThreshold := by
  have htop : (2 : ℚ) ^ (1024 : ℤ) = ((2 ^ 53 : ℤ) : ℚ) * 2 ^ (971 : ℤ) := two_zpow_eq_mul (e := 971) (by norm_num)
  have hpos := two_zpow_pos 971
  rcases lt_or_ge v (2 ^ (1023 : ℤ)) with hv | hv
  · -- below the last binade there is no question
    refine iff_of_true ?_ ?_
    · have := roundToUlp_le_two_zpow (by norm_num) hv.le
      exact this.trans_lt (zpow_lt_zpow_right₀ (by norm_num) (by norm_num))
    · exact hv.trans (lt_overflowThreshold le_rfl)
  · rcases lt_or_ge v (2 ^ (1024 : ℤ)) with hv' | hv'
    · have hunit : ulpExponent v = 971 := ulpExponent_of_binade (by norm_num) hv hv'
      unfold roundToUlp
      rw [hunit, overflowThreshold_eq, htop, mul_lt_mul_iff_left₀ hpos, Int.cast_lt, ← div_lt_iff₀ hpos]
      constructor
      · intro h
        by_contra hle
        push Not at hle
        exact absurd (le_roundHalfEven_of_even (by decide) hle) (not_le.2 h)
      · intro h
        have hle := roundHalfEven_le (v / 2 ^ (971 : ℤ))
        exact Int.cast_lt.1 (lt_of_le_of_lt hle (by linarith))
    · exact iff_of_false (not_lt.2 (two_zpow_le_roundToUlp (by norm_num) hv'))
        (not_lt.2 (overflowThreshold_le.trans hv'))

end Base
