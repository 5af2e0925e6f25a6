/-
The expected price of a projection. A draw and its mirror give opposite shocks, so the average step
factor is an average of hyperbolic cosines: with the code's zero drift the expected price never
falls, rises from day to day and rises with the volatility, whatever the rate and the dividend are.
-/
import Mathlib.Analysis.SpecialFunctions.Trigonometric.DerivHyp
import Mathlib.Algebra.Order.BigOperators.Expect
import StockPredictor.Quant.Sampler
import StockPredictor.Quant.Unbiased

namespace StockPredictor.Quant

open Base Finset
open scoped BigOperators

/-! ## The shocks of the draws -/

theorem zValue_eq (erfc : ℝ → ℝ) (RAND_MAX rand : ℕ) :
    zValue erfc RAND_MAX rand = getInverseCDF erfc ((rand : ℝ) / (RAND_MAX : ℝ)) := rfl

/-- The first draw and the last one give no shock. -/
theorem zValue_end (RAND_MAX : ℕ) : zValue erfc RAND_MAX 0 = 0 ∧ zValue erfc RAND_MAX RAND_MAX = 0 := by
  rw [zValue_eq, zValue_eq, Nat.cast_zero, zero_div]
  refine ⟨getInverseCDF_zero, ?_⟩
  rcases eq_or_ne (RAND_MAX : ℝ) 0 with h | h
  · rw [h, div_zero]
    exact getInverseCDF_zero
  · rw [div_self h]
    exact getInverseCDF_one

/-- A draw in between gives a shock unless it is the middle one. -/
theorem zValue_eq_zero_iff {RAND_MAX rand : ℕ} (h0 : 0 < rand) (h1 : rand < RAND_MAX) :
    zValue erfc RAND_MAX rand = 0 ↔ 2 * rand = RAND_MAX := by
  have hR : (0 : ℝ) < RAND_MAX := Nat.cast_pos.2 (by omega)
  have hmem : (rand : ℝ) / RAND_MAX ∈ Set.Ioo (0 : ℝ) 1 :=
    ⟨div_pos (Nat.cast_pos.2 h0) hR, (div_lt_one hR).2 (Nat.cast_lt.2 h1)⟩
  rw [zValue_eq, ← getInverseCDF_one_half, getInverseCDF_strictMonoOn.injOn.eq_iff hmem half_mem_Ioo,
    div_eq_div_iff hR.ne' two_ne_zero, one_mul, mul_comm]
  exact_mod_cast Iff.rfl

/-- Some draw gives a shock exactly when there are more than three draws. -/
theorem exists_zValue_ne_zero_iff (RAND_MAX : ℕ) :
    (∃ k : Fin (RAND_MAX + 1), zValue erfc RAND_MAX k ≠ 0) ↔ 3 ≤ RAND_MAX := by
  constructor
  · rintro ⟨k, hk⟩
    by_contra hlt
    rcases Nat.eq_zero_or_pos (k : ℕ) with h0 | h0
    · rw [h0] at hk
      exact hk (zValue_end RAND_MAX).1
    · rcases (Nat.lt_succ_iff.1 k.2).eq_or_lt with h1 | h1
      · rw [h1] at hk
        exact hk (zValue_end RAND_MAX).2
      · exact hk ((zValue_eq_zero_iff h0 h1).2 (by omega))
  · intro h
    refine ⟨⟨1, by omega⟩, fun hz => ?_⟩
    have := (zValue_eq_zero_iff one_pos (by omega)).1 hz
    omega

/-! ## The average step factor -/

/-- The average of the cosines of the shocks. -/
noncomputable def averageCosh (RAND_MAX : ℕ) (sigma : ℝ) : ℝ :=
  (∑ k : Fin (RAND_MAX + 1), Real.cosh (sigma * zValue erfc RAND_MAX k)) / Fintype.card (Fin (RAND_MAX + 1))

theorem averageCosh_eq (RAND_MAX : ℕ) (sigma : ℝ) :
    averageCosh RAND_MAX sigma = 𝔼 k : Fin (RAND_MAX + 1), Real.cosh (sigma * zValue erfc RAND_MAX k) :=
  (Fintype.expect_eq_sum_div_card _).symm

/-- The mirror of a draw has the opposite shock. -/
theorem zValue_rev {RAND_MAX : ℕ} (k : Fin (RAND_MAX + 1)) :
    zValue erfc RAND_MAX (k.rev : Fin (RAND_MAX + 1)) = -zValue erfc RAND_MAX k := by
  have hrev : ((k.rev : Fin (RAND_MAX + 1)) : ℕ) = RAND_MAX - k := by
    rw [Fin.val_rev]
    omega
  rw [hrev]
  rcases Nat.eq_zero_or_pos RAND_MAX with h0 | h0
  · have hk : (k : ℕ) = 0 := by omega
    rw [hk, h0, (zValue_end 0).1, neg_zero]
  · exact zValue_mirror erfc_neg h0 (by omega)

/-- The average step factor of any mean. -/
theorem expect_stepFactor (RAND_MAX : ℕ) (mean sigma : ℝ) :
    𝔼 k, stepFactor erfc RAND_MAX mean sigma k = Real.exp mean * averageCosh RAND_MAX sigma := by
  have hstep : ∀ k, stepFactor erfc RAND_MAX mean sigma k =
      Real.exp mean * Real.exp (sigma * zValue erfc RAND_MAX k) := by
    intro k
    rw [stepFactor, Real.exp_add]
    rfl
  have hrev : 𝔼 k : Fin (RAND_MAX + 1), Real.exp (sigma * zValue erfc RAND_MAX k) =
      𝔼 k : Fin (RAND_MAX + 1), Real.exp (-(sigma * zValue erfc RAND_MAX k)) := by
    refine Fintype.expect_equiv Fin.revPerm _ _ fun k => ?_
    rw [Fin.revPerm_apply, zValue_rev, mul_neg, neg_neg]
  simp only [hstep, ← mul_expect]
  congr 1
  -- the average is its own mirror, so it is the mean of the two
  rw [averageCosh_eq]
  simp only [Real.cosh_eq, ← expect_div, expect_add_distrib, ← hrev]
  ring

section AverageCosh

variable {RAND_MAX : ℕ} {sigma : ℝ}

theorem one_le_averageCosh (RAND_MAX : ℕ) (sigma : ℝ) : 1 ≤ averageCosh RAND_MAX sigma := by
  rw [averageCosh_eq]
  exact le_expect univ_nonempty fun _ _ => Real.one_le_cosh _

/-- The average cosine is above one exactly when some draw gives a shock. -/
theorem one_lt_averageCosh_iff (hs : 0 < sigma) : 1 < averageCosh RAND_MAX sigma ↔ 3 ≤ RAND_MAX := by
  rw [← exists_zValue_ne_zero_iff]
  constructor
  · intro h
    by_contra hnone
    push Not at hnone
    have hone : averageCosh RAND_MAX sigma = 1 := by
      rw [averageCosh_eq]
      simp only [hnone, mul_zero, Real.cosh_zero]
      exact expect_const univ_nonempty 1
    rw [hone] at h
    exact lt_irrefl 1 h
  · rintro ⟨k, hk⟩
    rw [averageCosh_eq]
    exact lt_expect (fun _ _ => Real.one_le_cosh _) ⟨k, mem_univ k, Real.one_lt_cosh.2 (mul_ne_zero hs.ne' hk)⟩

/-- A larger volatility gives a larger average cosine. -/
theorem averageCosh_lt {sigma' : ℝ} (hR : 3 ≤ RAND_MAX) (hs : 0 < sigma) (hlt : sigma < sigma') :
    averageCosh RAND_MAX sigma < averageCosh RAND_MAX sigma' := by
  have habs : ∀ z : ℝ, |sigma * z| = sigma * |z| ∧ |sigma' * z| = sigma' * |z| := by
    intro z
    rw [abs_mul, abs_mul, abs_of_pos hs, abs_of_pos (hs.trans hlt)]
    exact ⟨rfl, rfl⟩
  obtain ⟨k, hk⟩ := (exists_zValue_ne_zero_iff RAND_MAX).2 hR
  rw [averageCosh_eq, averageCosh_eq]
  refine expect_lt_expect (fun i _ => ?_) ⟨k, mem_univ k, ?_⟩
  · rw [Real.cosh_le_cosh, (habs _).1, (habs _).2]
    exact mul_le_mul_of_nonneg_right hlt.le (abs_nonneg _)
  · rw [Real.cosh_lt_cosh, (habs _).1, (habs _).2]
    exact mul_lt_mul_of_pos_right hlt (abs_pos.2 hk)

end AverageCosh

/-! ## The expected price -/

section Expected

variable (RAND_MAX : ℕ) {days iterations : ℤ} {currentPrice rate dividendYield volatility : ℝ} {day : ℕ}

/-- With the code's conversion a day multiplies the expected price by the average cosine. -/
theorem expectedPrice_code (h : Valid days iterations currentPrice
    (getDrift getDailyRateFromYearlyRate rate dividendYield) volatility) (hd : day < days.toNat) :
    expectedPrice erfc getDailyRateFromYearlyRate RAND_MAX days iterations currentPrice rate dividendYield volatility
      day = currentPrice * averageCosh RAND_MAX (dailyVolatility volatility) ^ (day + 1) := by
  rw [expectedPrice_eq erfc _ RAND_MAX h hd, expect_stepFactor, getDrift_code, stepMean_zero, Real.exp_zero, one_mul]

end Expected

/-- The projected price is expected to rise, for every rate and every dividend yield: the expected
price of a day is never below the current price, above it exactly when there are more than three
draws, and then above the expected price of every day before. -/
theorem expectedPrice_rises (RAND_MAX : ℕ) {days iterations : ℤ} {currentPrice rate dividendYield volatility : ℝ}
    {day : ℕ} (h : Valid days iterations currentPrice (getDrift getDailyRateFromYearlyRate rate dividendYield)
      volatility) (hd : day < days.toNat) :
    let expected := expectedPrice erfc getDailyRateFromYearlyRate RAND_MAX days iterations currentPrice rate
      dividendYield volatility
    currentPrice ≤ expected day ∧ (currentPrice < expected day ↔ 3 ≤ RAND_MAX) ∧
      ∀ before < day, (expected before < expected day ↔ 3 ≤ RAND_MAX) := by
  intro expected
  have hs := dailyVolatility_pos h.volatility
  have hone := one_le_averageCosh RAND_MAX (dailyVolatility volatility)
  have hval : ∀ d < days.toNat,
      expected d = currentPrice * averageCosh RAND_MAX (dailyVolatility volatility) ^ (d + 1) :=
    fun d hd => expectedPrice_code RAND_MAX h hd
  rw [hval day hd, ← one_lt_averageCosh_iff hs]
  refine ⟨le_mul_of_one_le_right h.price.le (one_le_pow₀ hone), ?_, fun before hb => ?_⟩
  · rw [lt_mul_iff_one_lt_right h.price, one_lt_pow_iff_of_nonneg (zero_le_one.trans hone) (Nat.succ_ne_zero day)]
  · rw [hval before (by omega), mul_lt_mul_iff_right₀ h.price]
    constructor
    · intro hlt
      refine lt_of_le_of_ne hone fun heq => ?_
      rw [← heq, one_pow, one_pow] at hlt
      exact lt_irrefl 1 hlt
    · exact fun hlt => pow_lt_pow_right₀ hlt (by omega)

theorem expectedPrice_rises_small : 100 < expectedPrice erfc getDailyRateFromYearlyRate 32767 2 3 100 (1 / 20) (1 / 2)
    (1 / 5) 1 :=
  (expectedPrice_rises 32767
    (show Valid 2 3 100 (getDrift getDailyRateFromYearlyRate (1 / 20) (1 / 2)) (1 / 5) from
      ⟨by norm_num, by norm_num, by norm_num, by simp, by norm_num⟩)
    (show 1 < (2 : ℤ).toNat by decide)).2.1.2 (by norm_num)

/-- Volatility is not neutral: of two runs that differ in the volatility only, the more volatile one
has the higher expected price of every day, exactly when there are more than three draws. -/
theorem expectedPrice_volatility (RAND_MAX : ℕ) {days iterations : ℤ}
    {currentPrice rate dividendYield volatility volatility' : ℝ} {day : ℕ} (h : Valid days iterations currentPrice
      (getDrift getDailyRateFromYearlyRate rate dividendYield) volatility) (hd : day < days.toNat)
    (hv : volatility < volatility') :
    expectedPrice erfc getDailyRateFromYearlyRate RAND_MAX days iterations currentPrice rate dividendYield volatility
        day <
      expectedPrice erfc getDailyRateFromYearlyRate RAND_MAX days iterations currentPrice rate dividendYield volatility'
        day ↔ 3 ≤ RAND_MAX := by
  have h' : Valid days iterations currentPrice (getDrift getDailyRateFromYearlyRate rate dividendYield) volatility' :=
    ⟨h.days, h.iterations, h.price, h.drift, h.volatility.trans hv⟩
  have hs := dailyVolatility_pos h.volatility
  have hone := one_le_averageCosh RAND_MAX (dailyVolatility volatility)
  have hlt : dailyVolatility volatility < dailyVolatility volatility' :=
    div_lt_div_of_pos_right hv (Real.sqrt_pos.2 (by norm_num))
  rw [expectedPrice_code RAND_MAX h hd, expectedPrice_code RAND_MAX h' hd, mul_lt_mul_iff_right₀ h.price]
  constructor
  · intro hpow
    -- with three draws or fewer both averages are one
    by_contra hR
    have hflat : ∀ {sigma : ℝ}, 0 < sigma → averageCosh RAND_MAX sigma = 1 := fun hs =>
      le_antisymm (not_lt.1 fun hgt => hR ((one_lt_averageCosh_iff hs).1 hgt)) (one_le_averageCosh RAND_MAX _)
    rw [hflat hs, hflat (hs.trans hlt)] at hpow
    exact lt_irrefl _ hpow
  · exact fun hR => pow_lt_pow_left₀ (averageCosh_lt hR hs hlt) (zero_le_one.trans hone) (Nat.succ_ne_zero day)

theorem expectedPrice_volatility_small :
    expectedPrice erfc getDailyRateFromYearlyRate 32767 1 1 100 (1 / 20) 0 (1 / 5) 0 <
      expectedPrice erfc getDailyRateFromYearlyRate 32767 1 1 100 (1 / 20) 0 (2 / 5) 0 :=
  (expectedPrice_volatility 32767 ⟨by norm_num, by norm_num, by norm_num, by simp, by norm_num⟩ (by decide)
    (by norm_num)).2 (by norm_num)

end StockPredictor.Quant
