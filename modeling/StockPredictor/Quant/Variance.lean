/-
How far the Monte Carlo average is off. The paths of a run use disjoint draws, so they are
uncorrelated and the mean square error of the price returned for a day falls as one over the number
of iterations: a run with enough of them is close to its expected price on almost all streams.
-/
import StockPredictor.Base.Variance
import StockPredictor.Quant.Unbiased

namespace StockPredictor.Quant

open Base Finset
open scoped BigOperators

/-! ## Paths -/

/-- Different paths use different draws. -/
theorem pathDraws_ne {days iterations i j day : ℕ} (hi : i < iterations) (hj : j < iterations) (hd : day < days)
    (hij : i ≠ j) (a b : Fin (day + 1)) : pathDraws hi hd a ≠ pathDraws hj hd b := by
  intro h
  have he : i * days + a = j * days + b := Fin.mk.inj_iff.1 h
  have ha : (a : ℕ) < days := by omega
  have hb : (b : ℕ) < days := by omega
  -- the quotient by the number of days is the path
  have hq : ∀ q r, r < days → (q * days + r) / days = q := by
    intro q r hr
    rw [Nat.add_comm, Nat.add_mul_div_right r q (by omega), Nat.div_eq_of_lt hr, Nat.zero_add]
  have hdiv := congrArg (· / days) he
  simp only [hq i a ha, hq j b hb] at hdiv
  exact hij hdiv

section ClosedForm

variable (erfc : ℝ → ℝ) (RAND_MAX : ℕ) (mean sigma : ℝ)

/-- The growth of a path until a day, over the stream. -/
noncomputable def pathGrowth {days iterations day : ℕ} (hd : day < days) (i : Fin iterations)
    (u : Draws (days * iterations) RAND_MAX) : ℝ :=
  ∏ k, stepFactor erfc RAND_MAX mean sigma (u (pathDraws i.2 hd k))

theorem closedForm_eq_pathGrowth (currentPrice : ℝ) {days iterations day : ℕ} (hd : day < days)
    (u : Draws (days * iterations) RAND_MAX) :
    closedForm erfc (randomOf RAND_MAX u.rand) mean sigma currentPrice days iterations 0 day =
      currentPrice * ((∑ i, pathGrowth erfc RAND_MAX mean sigma hd i u) / Fintype.card (Fin iterations)) := by
  unfold closedForm pathGrowth
  rw [sum_range, Fintype.card_fin]
  simp only [exp_path erfc mean sigma (Fin.is_lt _) hd u]
  ring

theorem expect_pathGrowth {days iterations day : ℕ} (hd : day < days) (i : Fin iterations) :
    𝔼 u : Draws (days * iterations) RAND_MAX, pathGrowth erfc RAND_MAX mean sigma hd i u =
      (𝔼 k, stepFactor erfc RAND_MAX mean sigma k) ^ (day + 1) := by
  have h := expect_prod_embedding (pathDraws i.2 hd) (stepFactor erfc RAND_MAX mean sigma)
  rwa [Fintype.card_fin] at h

theorem expect_pathGrowth_sq {days iterations day : ℕ} (hd : day < days) (i : Fin iterations) :
    𝔼 u : Draws (days * iterations) RAND_MAX, pathGrowth erfc RAND_MAX mean sigma hd i u ^ 2 =
      (𝔼 k, stepFactor erfc RAND_MAX mean sigma k ^ 2) ^ (day + 1) := by
  have h := expect_prod_sq (pathDraws i.2 hd) (stepFactor erfc RAND_MAX mean sigma)
  rwa [Fintype.card_fin] at h

/-- Two paths are uncorrelated. -/
theorem expect_pathGrowth_mul {days iterations day : ℕ} (hd : day < days) {i j : Fin iterations} (hij : i ≠ j) :
    𝔼 u : Draws (days * iterations) RAND_MAX,
        pathGrowth erfc RAND_MAX mean sigma hd i u * pathGrowth erfc RAND_MAX mean sigma hd j u =
      (𝔼 k, stepFactor erfc RAND_MAX mean sigma k) ^ (day + 1) *
        (𝔼 k, stepFactor erfc RAND_MAX mean sigma k) ^ (day + 1) := by
  have h := expect_prod_mul_prod (pathDraws_ne i.2 j.2 hd fun he => hij (Fin.ext he))
    (stepFactor erfc RAND_MAX mean sigma)
  rwa [Fintype.card_fin] at h

/-- The mean square error of the closed form. -/
theorem expect_sq_closedForm (currentPrice : ℝ) {days iterations day : ℕ} (hi : 0 < iterations) (hd : day < days) :
    𝔼 u : Draws (days * iterations) RAND_MAX,
        (closedForm erfc (randomOf RAND_MAX u.rand) mean sigma currentPrice days iterations 0 day -
          currentPrice * (𝔼 k, stepFactor erfc RAND_MAX mean sigma k) ^ (day + 1)) ^ 2 =
      currentPrice ^ 2 * ((𝔼 k, stepFactor erfc RAND_MAX mean sigma k ^ 2) ^ (day + 1) -
        ((𝔼 k, stepFactor erfc RAND_MAX mean sigma k) ^ (day + 1)) ^ 2) / iterations := by
  have : Nonempty (Fin iterations) := ⟨⟨0, hi⟩⟩
  have h := expect_sq_mean_sub (X := fun i : Fin iterations => pathGrowth erfc RAND_MAX mean sigma hd i)
    (expect_pathGrowth erfc RAND_MAX mean sigma hd) (expect_pathGrowth_sq erfc RAND_MAX mean sigma hd)
    fun i j hij => expect_pathGrowth_mul erfc RAND_MAX mean sigma hd hij
  simp only [closedForm_eq_pathGrowth erfc RAND_MAX mean sigma currentPrice hd, ← mul_sub, mul_pow]
  rw [← mul_expect, h, Fintype.card_fin, mul_div_assoc]

end ClosedForm

/-! ## The simulator -/

/-- The price a run over a stream of draws returns for a day. -/
noncomputable def dayPrice (erfc conv : ℝ → ℝ) (RAND_MAX : ℕ) (days iterations : ℤ)
    (currentPrice rate dividendYield volatility : ℝ) (day : ℕ) (u : Draws (days.toNat * iterations.toNat) RAND_MAX) :
    ℝ :=
  (pricesOf (simulateStockPrice erfc conv (randomOf RAND_MAX u.rand) days iterations currentPrice rate dividendYield
    volatility 0)).getD day 0

/-- The mean square, over all streams, of the distance of the price returned for a day from its
expected value. -/
noncomputable def meanSquareError (erfc conv : ℝ → ℝ) (RAND_MAX : ℕ) (days iterations : ℤ)
    (currentPrice rate dividendYield volatility : ℝ) (day : ℕ) : ℝ :=
  (∑ u, (dayPrice erfc conv RAND_MAX days iterations currentPrice rate dividendYield volatility day u -
    expectedPrice erfc conv RAND_MAX days iterations currentPrice rate dividendYield volatility day) ^ 2) /
    Fintype.card (Draws (days.toNat * iterations.toNat) RAND_MAX)

section Simulator

variable (erfc conv : ℝ → ℝ) (RAND_MAX : ℕ) {days iterations : ℤ} {currentPrice rate dividendYield volatility : ℝ}
  {day : ℕ}

theorem dayPrice_eq (h : Valid days iterations currentPrice (getDrift conv rate dividendYield) volatility)
    (hd : day < days.toNat) (u : Draws (days.toNat * iterations.toNat) RAND_MAX) :
    dayPrice erfc conv RAND_MAX days iterations currentPrice rate dividendYield volatility day u =
      closedForm erfc (randomOf RAND_MAX u.rand) (stepMean (getDrift conv rate dividendYield)
        (dailyVolatility volatility)) (dailyVolatility volatility) currentPrice days.toNat iterations.toNat 0 day := by
  unfold dayPrice
  rw [simulateStockPrice_eq h, pricesOf]
  simp [List.getD_eq_getElem?_getD, hd]

/-- The `n`-th moment of the step factor. -/
noncomputable def stepMoment (mean sigma : ℝ) (n : ℕ) : ℝ :=
  (∑ k : Fin (RAND_MAX + 1), stepFactor erfc RAND_MAX mean sigma k ^ n) / Fintype.card (Fin (RAND_MAX + 1))

theorem stepMoment_eq (mean sigma : ℝ) (n : ℕ) :
    stepMoment erfc RAND_MAX mean sigma n = 𝔼 k, stepFactor erfc RAND_MAX mean sigma k ^ n :=
  (Fintype.expect_eq_sum_div_card _).symm

/-- The variance of the price of one path after a day. -/
noncomputable def pathVariance (currentPrice mean sigma : ℝ) (day : ℕ) : ℝ :=
  currentPrice ^ 2 * (stepMoment erfc RAND_MAX mean sigma 2 ^ (day + 1) -
    (stepMoment erfc RAND_MAX mean sigma 1 ^ (day + 1)) ^ 2)

/-- The mean square error of a valid run is the variance of one path divided by the iterations. -/
theorem meanSquareError_eq (h : Valid days iterations currentPrice (getDrift conv rate dividendYield) volatility)
    (hd : day < days.toNat) :
    meanSquareError erfc conv RAND_MAX days iterations currentPrice rate dividendYield volatility day =
      pathVariance erfc RAND_MAX currentPrice (stepMean (getDrift conv rate dividendYield)
        (dailyVolatility volatility)) (dailyVolatility volatility) day / iterations := by
  have hi : 0 < iterations.toNat := by have := h.iterations; omega
  unfold meanSquareError pathVariance
  rw [← Fintype.expect_eq_sum_div_card, expectedPrice_eq erfc conv RAND_MAX h hd, stepMoment_eq, stepMoment_eq,
    funext fun k => pow_one (stepFactor erfc RAND_MAX _ _ k),
    expect_congr rfl fun u _ => by rw [dayPrice_eq erfc conv RAND_MAX h hd u],
    expect_sq_closedForm erfc RAND_MAX _ _ currentPrice hi hd, toNat_cast_of_pos h.iterations]

/-- The share of the streams on which a valid run is at least `ε` off. -/
theorem share_off_le (h : Valid days iterations currentPrice (getDrift conv rate dividendYield) volatility)
    (hd : day < days.toNat) {ε : ℝ} (hε : 0 < ε) :
    (share fun u => ε ≤ |dayPrice erfc conv RAND_MAX days iterations currentPrice rate dividendYield volatility day u -
        expectedPrice erfc conv RAND_MAX days iterations currentPrice rate dividendYield volatility day| : ℝ) ≤
      pathVariance erfc RAND_MAX currentPrice (stepMean (getDrift conv rate dividendYield)
        (dailyVolatility volatility)) (dailyVolatility volatility) day / iterations / ε ^ 2 := by
  rw [← meanSquareError_eq erfc conv RAND_MAX h hd, meanSquareError, ← Fintype.expect_eq_sum_div_card]
  exact share_le_expect_sq _ hε

end Simulator

/-- The Monte Carlo error of a valid run: the mean square distance of the price of a day from its
expected value is the variance of one path's price divided by the number of iterations. -/
theorem simulateStockPrice_meanSquareError (erfc conv : ℝ → ℝ) (RAND_MAX : ℕ) {days iterations : ℤ}
    {currentPrice rate dividendYield volatility : ℝ} {day : ℕ}
    (h : Valid days iterations currentPrice (getDrift conv rate dividendYield) volatility) (hd : day < days.toNat) :
    meanSquareError erfc conv RAND_MAX days iterations currentPrice rate dividendYield volatility day =
        meanSquareError erfc conv RAND_MAX days 1 currentPrice rate dividendYield volatility day / iterations ∧
    meanSquareError erfc conv RAND_MAX days iterations currentPrice rate dividendYield volatility day =
      currentPrice ^ 2 * ((𝔼 k : Fin (RAND_MAX + 1), Real.exp (stepMean (getDrift conv rate dividendYield)
          (volatility / √252) + volatility / √252 *
            getInverseCDF erfc ((k : ℝ) / (RAND_MAX : ℝ))) ^ 2) ^ (day + 1) -
        ((𝔼 k : Fin (RAND_MAX + 1), Real.exp (stepMean (getDrift conv rate dividendYield)
          (volatility / √252) + volatility / √252 *
            getInverseCDF erfc ((k : ℝ) / (RAND_MAX : ℝ)))) ^ (day + 1)) ^ 2) / iterations := by
  have h1 : Valid days 1 currentPrice (getDrift conv rate dividendYield) volatility :=
    ⟨h.days, one_pos, h.price, h.drift, h.volatility⟩
  rw [meanSquareError_eq erfc conv RAND_MAX h hd, meanSquareError_eq erfc conv RAND_MAX h1 hd, Int.cast_one, div_one]
  refine ⟨rfl, ?_⟩
  rw [pathVariance, stepMoment_eq, stepMoment_eq, expect_congr rfl fun k _ => pow_one (stepFactor erfc RAND_MAX _ _ k)]
  rfl

theorem simulateStockPrice_meanSquareError_small :
    meanSquareError erfc getDailyRateFromYearlyRate 32767 2 500000 100 (1 / 20) 0 (1 / 5) 1 =
      meanSquareError erfc getDailyRateFromYearlyRate 32767 2 1 100 (1 / 20) 0 (1 / 5) 1 / (500000 : ℤ) :=
  (simulateStockPrice_meanSquareError erfc getDailyRateFromYearlyRate 32767
    (show Valid 2 500000 100 (getDrift getDailyRateFromYearlyRate (1 / 20) 0) (1 / 5) from
      ⟨by norm_num, by norm_num, by norm_num, by simp, by norm_num⟩)
    (show 1 < (2 : ℤ).toNat by decide)).1

/-- The Monte Carlo average converges: for every tolerance and every share of the streams there is
a number of iterations from which on at most that share of the streams gives a price of the day that
is off the expected one, which is the same for all of them, by the tolerance. -/
theorem simulateStockPrice_converges (erfc conv : ℝ → ℝ) (RAND_MAX : ℕ) {days iterations : ℤ}
    {currentPrice rate dividendYield volatility : ℝ} {day : ℕ}
    (h : Valid days iterations currentPrice (getDrift conv rate dividendYield) volatility) (hd : day < days.toNat)
    {ε δ : ℝ} (hε : 0 < ε) (hδ : 0 < δ) :
    ∃ N : ℤ, ∀ n ≥ N,
      (share fun u => ε ≤ |dayPrice erfc conv RAND_MAX days n currentPrice rate dividendYield volatility day u -
        expectedPrice erfc conv RAND_MAX days iterations currentPrice rate dividendYield volatility day| : ℝ) ≤ δ := by
  generalize hV : pathVariance erfc RAND_MAX currentPrice (stepMean (getDrift conv rate dividendYield)
    (dailyVolatility volatility)) (dailyVolatility volatility) day = V
  refine ⟨max 1 ⌈V / (ε ^ 2 * δ)⌉, fun n hn => ?_⟩
  have hn1 : 0 < n := by have := le_of_max_le_left hn; omega
  have hnV : V / (ε ^ 2 * δ) ≤ n := Int.ceil_le.1 (le_of_max_le_right hn)
  have h' : Valid days n currentPrice (getDrift conv rate dividendYield) volatility :=
    ⟨h.days, hn1, h.price, h.drift, h.volatility⟩
  have hoff := share_off_le erfc conv RAND_MAX h' hd hε
  rw [expectedPrice_eq erfc conv RAND_MAX h' hd, ← expectedPrice_eq erfc conv RAND_MAX h hd, hV] at hoff
  refine hoff.trans ?_
  have hpos : (0 : ℝ) < n := Int.cast_pos.2 hn1
  rw [div_le_iff₀ (by positivity)] at hnV
  rw [div_div, div_le_iff₀ (by positivity)]
  linarith

theorem simulateStockPrice_converges_small : ∃ N : ℤ, ∀ n ≥ N,
    (share fun u => 1 / 100 ≤
      |dayPrice erfc getDailyRateFromYearlyRate 32767 1 n 100 (1 / 20) 0 (1 / 5) 0 u -
        expectedPrice erfc getDailyRateFromYearlyRate 32767 1 1 100 (1 / 20) 0 (1 / 5) 0| : ℝ) ≤ 1 / 20 :=
  simulateStockPrice_converges erfc getDailyRateFromYearlyRate 32767
    ⟨by norm_num, by norm_num, by norm_num, by simp, by norm_num⟩ (by decide) (by norm_num) (by norm_num)

end StockPredictor.Quant
