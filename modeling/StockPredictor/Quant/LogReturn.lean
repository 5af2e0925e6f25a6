/-
The law that the comment in `SimulateStockPrice` states: the log-normal return varies with a mean
that is proportional to the time and a deviation that is proportional to its root. Over all streams
of draws the log return of one path is a random walk, so both hold of the code up to one constant,
the mean square of the shocks that the draws give.
-/
import StockPredictor.Quant.Mirror
import StockPredictor.Quant.Variance

namespace StockPredictor.Quant

open Base Finset
open scoped BigOperators

/-! ## The draws of a path -/

/-- The positions in the stream of the draws that decide a day of the first path. -/
def decidedBy {days iterations day : ℕ} (hi : 0 < iterations) (hd : day < days) : Finset (Fin (days * iterations)) :=
  univ.map (pathDraws hi hd)

theorem mem_decidedBy {days iterations day : ℕ} (hi : 0 < iterations) (hd : day < days) (j : Fin (days * iterations)) :
    j ∈ decidedBy hi hd ↔ (j : ℕ) ≤ day := by
  unfold decidedBy
  rw [mem_map]
  constructor
  · rintro ⟨k, -, rfl⟩
    show 0 * days + (k : ℕ) ≤ day
    omega
  · intro h
    refine ⟨⟨j, by omega⟩, mem_univ _, Fin.ext ?_⟩
    show 0 * days + (j : ℕ) = j
    omega

/-- Two days share the draws of the earlier one. -/
theorem card_decidedBy_inter {days iterations day day' : ℕ} (hi : 0 < iterations) (hd : day < days)
    (hd' : day' < days) : (decidedBy hi hd ∩ decidedBy hi hd').card = min day day' + 1 := by
  have hmin : min day day' < days := by omega
  have hinter : decidedBy hi hd ∩ decidedBy hi hd' = decidedBy hi hmin := by
    ext j
    rw [mem_inter, mem_decidedBy, mem_decidedBy, mem_decidedBy, le_min_iff]
  rw [hinter, decidedBy, card_map, card_univ, Fintype.card_fin]

/-! ## The log return -/

section LogReturn

variable (erfc conv : ℝ → ℝ) (RAND_MAX : ℕ)

/-- The mean square of the shocks of the draws. -/
noncomputable def shockSquare : ℝ :=
  (∑ k : Fin (RAND_MAX + 1), zValue erfc RAND_MAX k ^ 2) / Fintype.card (Fin (RAND_MAX + 1))

/-- The log return until a day of a run of one path over a stream. -/
noncomputable def streamReturn (days : ℤ) (currentPrice rate dividendYield volatility : ℝ) (day : ℕ)
    (u : Draws (days.toNat * (1 : ℤ).toNat) RAND_MAX) : ℝ :=
  Real.log (dayPrice erfc conv RAND_MAX days 1 currentPrice rate dividendYield volatility day u / currentPrice)

/-- The mean of the log return over all streams. -/
noncomputable def meanReturn (days : ℤ) (currentPrice rate dividendYield volatility : ℝ) (day : ℕ) : ℝ :=
  (∑ u, streamReturn erfc conv RAND_MAX days currentPrice rate dividendYield volatility day u) /
    Fintype.card (Draws (days.toNat * (1 : ℤ).toNat) RAND_MAX)

/-- The covariance of the log returns of two days over all streams. -/
noncomputable def covarianceOfReturns (days : ℤ) (currentPrice rate dividendYield volatility : ℝ) (day day' : ℕ) : ℝ :=
  (∑ u, (streamReturn erfc conv RAND_MAX days currentPrice rate dividendYield volatility day u -
      meanReturn erfc conv RAND_MAX days currentPrice rate dividendYield volatility day) *
    (streamReturn erfc conv RAND_MAX days currentPrice rate dividendYield volatility day' u -
      meanReturn erfc conv RAND_MAX days currentPrice rate dividendYield volatility day')) /
    Fintype.card (Draws (days.toNat * (1 : ℤ).toNat) RAND_MAX)

variable {erfc conv RAND_MAX} {days : ℤ} {currentPrice rate dividendYield volatility : ℝ} {day day' : ℕ}

theorem expect_zValue (hsym : ∀ y, erfc (-y) = 2 - erfc y) (hR : 0 < RAND_MAX) :
    𝔼 k : Fin (RAND_MAX + 1), zValue erfc RAND_MAX k = 0 := by
  rw [Fintype.expect_eq_sum_div_card, ← sum_range (zValue erfc RAND_MAX), sum_zValue hsym hR, zero_div]

theorem shockSquare_eq : shockSquare erfc RAND_MAX = 𝔼 k : Fin (RAND_MAX + 1), zValue erfc RAND_MAX k ^ 2 :=
  (Fintype.expect_eq_sum_div_card _).symm

theorem onePath_pos : 0 < (1 : ℤ).toNat := by decide

theorem closedForm_one (random : ℕ → ℝ) (mean sigma currentPrice : ℝ) (days day : ℕ) :
    closedForm erfc random mean sigma currentPrice days 1 0 day =
      currentPrice * Real.exp ((day + 1) * mean + sigma * ∑ k ∈ range (day + 1), getInverseCDF erfc (random k)) := by
  unfold closedForm
  simp

/-- The log return is the drift of the days and the shocks of their draws. -/
theorem streamReturn_eq (h : Valid days 1 currentPrice (getDrift conv rate dividendYield) volatility)
    (hd : day < days.toNat) (u : Draws (days.toNat * (1 : ℤ).toNat) RAND_MAX) :
    streamReturn erfc conv RAND_MAX days currentPrice rate dividendYield volatility day u =
      (day + 1) * stepMean (getDrift conv rate dividendYield) (dailyVolatility volatility) +
        dailyVolatility volatility * ∑ j ∈ decidedBy onePath_pos hd, zValue erfc RAND_MAX (u j) := by
  have hprice := (dayPrice_eq erfc conv RAND_MAX h hd u).trans (closedForm_one ..)
  have hsum : ∑ k ∈ range (day + 1), getInverseCDF erfc (randomOf RAND_MAX u.rand k) =
      ∑ j ∈ decidedBy onePath_pos hd, zValue erfc RAND_MAX (u j) := by
    rw [sum_range, decidedBy, sum_map]
    refine sum_congr rfl fun k _ => ?_
    have hk : (k : ℕ) < days.toNat * (1 : ℤ).toNat := by
      have := draw_lt onePath_pos (show (k : ℕ) < days.toNat by omega)
      omega
    have hposition : pathDraws onePath_pos hd k = ⟨k, hk⟩ := Fin.ext (show 0 * days.toNat + (k : ℕ) = k by omega)
    rw [randomOf, u.rand_of_lt hk, hposition]
    rfl
  rw [streamReturn, hprice, hsum, mul_div_cancel_left₀ _ h.price.ne', Real.log_exp]

theorem meanReturn_eq (hsym : ∀ y, erfc (-y) = 2 - erfc y) (hR : 0 < RAND_MAX)
    (h : Valid days 1 currentPrice (getDrift conv rate dividendYield) volatility) (hd : day < days.toNat) :
    meanReturn erfc conv RAND_MAX days currentPrice rate dividendYield volatility day =
      (day + 1) * stepMean (getDrift conv rate dividendYield) (dailyVolatility volatility) := by
  unfold meanReturn
  rw [← Fintype.expect_eq_sum_div_card, expect_congr rfl fun u _ => streamReturn_eq h hd u, expect_add_distrib,
    expect_const univ_nonempty, ← mul_expect, expect_sum_coordinates (expect_zValue hsym hR), mul_zero, add_zero]

theorem covarianceOfReturns_eq (hsym : ∀ y, erfc (-y) = 2 - erfc y) (hR : 0 < RAND_MAX)
    (h : Valid days 1 currentPrice (getDrift conv rate dividendYield) volatility) (hd : day < days.toNat)
    (hd' : day' < days.toNat) :
    covarianceOfReturns erfc conv RAND_MAX days currentPrice rate dividendYield volatility day day' =
      dailyVolatility volatility ^ 2 * ((min day day' + 1 : ℕ) * shockSquare erfc RAND_MAX) := by
  unfold covarianceOfReturns
  rw [← Fintype.expect_eq_sum_div_card, meanReturn_eq hsym hR h hd, meanReturn_eq hsym hR h hd', shockSquare_eq,
    ← card_decidedBy_inter onePath_pos hd hd', ← expect_sum_mul_sum (expect_zValue hsym hR), mul_expect]
  refine expect_congr rfl fun u _ => ?_
  rw [streamReturn_eq h hd, streamReturn_eq h hd', add_sub_cancel_left, add_sub_cancel_left]
  ring

end LogReturn

/-- The log return of one path is a random walk. Over all streams its mean after a day is the step's
mean times the days; the covariance of two days is that of the earlier one, the daily variance times
its days times the mean square of the shocks. So its deviation is the volatility times the root of the
time in years exactly when that mean square is one. -/
theorem logReturn_law {erfc : ℝ → ℝ} (hsym : ∀ y, erfc (-y) = 2 - erfc y) (conv : ℝ → ℝ) {RAND_MAX : ℕ}
    (hR : 0 < RAND_MAX) {days : ℤ} {currentPrice rate dividendYield volatility : ℝ} {day day' : ℕ}
    (h : Valid days 1 currentPrice (getDrift conv rate dividendYield) volatility) (hd : day < days.toNat)
    (hd' : day' < days.toNat) :
    meanReturn erfc conv RAND_MAX days currentPrice rate dividendYield volatility day =
        (day + 1) * stepMean (getDrift conv rate dividendYield) (volatility / √252) ∧
      covarianceOfReturns erfc conv RAND_MAX days currentPrice rate dividendYield volatility day day' =
        (volatility / √252) ^ 2 * ((min day day' + 1 : ℕ) * shockSquare erfc RAND_MAX) ∧
      (√(covarianceOfReturns erfc conv RAND_MAX days currentPrice rate dividendYield volatility day day) =
          volatility * √((day + 1) / 252) ↔ shockSquare erfc RAND_MAX = 1) := by
  refine ⟨meanReturn_eq hsym hR h hd, covarianceOfReturns_eq hsym hR h hd hd', ?_⟩
  have hv := h.volatility
  have hunit : volatility * √((day + 1) / 252) = √(dailyVolatility volatility ^ 2 * ((day + 1 : ℕ) * 1)) := by
    rw [dailyVolatility, div_pow, Real.sq_sqrt (by norm_num), mul_one, ← Real.sqrt_sq hv.le,
      ← Real.sqrt_mul (sq_nonneg _), Real.sqrt_sq hv.le]
    congr 1
    push_cast
    ring
  have hsquare : 0 ≤ shockSquare erfc RAND_MAX := div_nonneg (sum_nonneg fun _ _ => sq_nonneg _) (Nat.cast_nonneg _)
  have hday : (0 : ℝ) < ((day + 1 : ℕ) : ℝ) := Nat.cast_pos.2 (Nat.succ_pos day)
  rw [covarianceOfReturns_eq hsym hR h hd hd, min_self, hunit, Real.sqrt_inj (by positivity) (by positivity),
    mul_right_inj' (pow_pos (dailyVolatility_pos hv) 2).ne', mul_right_inj' hday.ne']

theorem logReturn_law_small :
    covarianceOfReturns Base.erfc getDailyRateFromYearlyRate 32767 3 100 (1 / 20) 0 (1 / 5) 1 2 =
      (1 / 5 / √252) ^ 2 * ((2 : ℕ) * shockSquare Base.erfc 32767) :=
  (logReturn_law erfc_neg getDailyRateFromYearlyRate (by norm_num)
    (show Valid 3 1 100 (getDrift getDailyRateFromYearlyRate (1 / 20) 0) (1 / 5) from
      ⟨by norm_num, by norm_num, by norm_num, by simp, by norm_num⟩)
    (show 1 < (3 : ℤ).toNat by decide) (show 2 < (3 : ℤ).toNat by decide)).2.1

end StockPredictor.Quant
