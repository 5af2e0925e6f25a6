/-
The Monte Carlo average is unbiased. Over all equally likely streams of `days * iterations` draws
from `0 … RAND_MAX`, the average of the price returned for a day is the current price times the
`(day + 1)`-th power of the average step factor: a path's steps use distinct draws, so the average
of their product factors, and every path contributes the same.
-/
import StockPredictor.Base.Average
import StockPredictor.Base.Erfc
import StockPredictor.Quant.ClosedForm

namespace StockPredictor.Quant

open Base Finset
open scoped BigOperators

/-! ## Streams of draws -/

/-- The streams of `n` draws of `rand()`. -/
abbrev Draws (n RAND_MAX : ℕ) := Fin n → Fin (RAND_MAX + 1)

/-- The draws as results of successive calls; the calls after the last one are never made. -/
def Draws.rand {n RAND_MAX : ℕ} (u : Draws n RAND_MAX) (j : ℕ) : ℕ := if h : j < n then u ⟨j, h⟩ else 0

theorem Draws.rand_of_lt {n RAND_MAX : ℕ} (u : Draws n RAND_MAX) {j : ℕ} (h : j < n) : u.rand j = u ⟨j, h⟩ :=
  dif_pos h

/-- The draw number of day `k` of path `i`. -/
theorem draw_lt {days iterations i k : ℕ} (hi : i < iterations) (hk : k < days) :
    i * days + k < days * iterations := by
  have h : (i + 1) * days ≤ iterations * days := Nat.mul_le_mul_right days hi
  rw [Nat.mul_comm days iterations]
  rw [Nat.add_mul, Nat.one_mul] at h
  omega

/-- The draws of the first `day + 1` days of path `i`, as distinct positions of the stream. -/
def pathDraws {days iterations i day : ℕ} (hi : i < iterations) (hd : day < days) :
    Fin (day + 1) ↪ Fin (days * iterations) where
  toFun k := ⟨i * days + k, draw_lt hi (by omega)⟩
  inj' a b h := by
    have := Fin.mk.inj_iff.1 h
    exact Fin.ext (by omega)

/-! ## Averages -/

/-- The factor of one step for a draw `k`. -/
noncomputable def stepFactor (erfc : ℝ → ℝ) (RAND_MAX : ℕ) (mean sigma : ℝ) (k : Fin (RAND_MAX + 1)) : ℝ :=
  Real.exp (mean + sigma * getInverseCDF erfc ((k : ℝ) / (RAND_MAX : ℝ)))

/-- A path's price as a product of step factors over its draws. -/
theorem exp_path (erfc : ℝ → ℝ) {RAND_MAX : ℕ} (mean sigma : ℝ) {days iterations i day : ℕ} (hi : i < iterations)
    (hd : day < days) (u : Draws (days * iterations) RAND_MAX) :
    Real.exp ((day + 1) * mean +
      sigma * ∑ k ∈ range (day + 1), getInverseCDF erfc (randomOf RAND_MAX u.rand (0 + i * days + k))) =
    ∏ k, stepFactor erfc RAND_MAX mean sigma (u (pathDraws hi hd k)) := by
  have hdraw : ∀ k : Fin (day + 1), randomOf RAND_MAX u.rand (0 + i * days + k) =
      ((u (pathDraws hi hd k) : ℕ) : ℝ) / (RAND_MAX : ℝ) := by
    intro k
    rw [randomOf, zero_add, u.rand_of_lt (draw_lt hi (by omega))]
    rfl
  unfold stepFactor
  rw [← Real.exp_sum, sum_add_distrib, ← mul_sum, sum_range]
  simp only [hdraw, sum_const, card_univ, Fintype.card_fin, nsmul_eq_mul]
  push_cast
  rfl

/-- The average of the closed form over all streams. -/
theorem expect_closedForm (erfc : ℝ → ℝ) (RAND_MAX : ℕ) (mean sigma currentPrice : ℝ) {days iterations day : ℕ}
    (hi : 0 < iterations) (hd : day < days) :
    𝔼 u : Draws (days * iterations) RAND_MAX,
      closedForm erfc (randomOf RAND_MAX u.rand) mean sigma currentPrice days iterations 0 day =
    currentPrice * (𝔼 k, stepFactor erfc RAND_MAX mean sigma k) ^ (day + 1) := by
  -- every path has the same average, whatever its place in the stream
  have hpath : ∀ i ∈ range iterations, 𝔼 u : Draws (days * iterations) RAND_MAX,
      Real.exp ((day + 1) * mean +
        sigma * ∑ k ∈ range (day + 1), getInverseCDF erfc (randomOf RAND_MAX u.rand (0 + i * days + k))) =
      (𝔼 k, stepFactor erfc RAND_MAX mean sigma k) ^ (day + 1) := by
    intro i h
    rw [mem_range] at h
    rw [expect_congr rfl fun u _ => exp_path erfc mean sigma h hd u,
      expect_prod_embedding (pathDraws h hd) (stepFactor erfc RAND_MAX mean sigma), Fintype.card_fin]
  have hn : (iterations : ℝ) ≠ 0 := by positivity
  unfold closedForm
  rw [← mul_expect, expect_sum_comm, sum_congr rfl hpath, sum_const, card_range, nsmul_eq_mul]
  field_simp

/-! ## The simulator -/

/-- The prices of a run, none when it throws. -/
def pricesOf (r : Except Text (List ℝ) × ℕ) : List ℝ :=
  match r.1 with
  | .ok prices => prices
  | .error _ => []

/-- The average over all streams of `days * iterations` draws of the price returned for `day`. -/
noncomputable def expectedPrice (erfc conv : ℝ → ℝ) (RAND_MAX : ℕ) (days iterations : ℤ)
    (currentPrice rate dividendYield volatility : ℝ) (day : ℕ) : ℝ :=
  𝔼 u : Draws (days.toNat * iterations.toNat) RAND_MAX, (pricesOf (simulateStockPrice erfc conv
    (randomOf RAND_MAX u.rand) days iterations currentPrice rate dividendYield volatility 0)).getD day 0

theorem expectedPrice_eq (erfc conv : ℝ → ℝ) (RAND_MAX : ℕ) {days iterations : ℤ}
    {currentPrice rate dividendYield volatility : ℝ} {day : ℕ}
    (h : Valid days iterations currentPrice (getDrift conv rate dividendYield) volatility) (hd : day < days.toNat) :
    expectedPrice erfc conv RAND_MAX days iterations currentPrice rate dividendYield volatility day =
      currentPrice * (𝔼 k, stepFactor erfc RAND_MAX (stepMean (getDrift conv rate dividendYield)
        (dailyVolatility volatility)) (dailyVolatility volatility) k) ^ (day + 1) := by
  have hi : 0 < iterations.toNat := by have := h.iterations; omega
  have hu : ∀ u : Draws (days.toNat * iterations.toNat) RAND_MAX, (pricesOf (simulateStockPrice erfc conv
      (randomOf RAND_MAX u.rand) days iterations currentPrice rate dividendYield volatility 0)).getD day 0 =
      closedForm erfc (randomOf RAND_MAX u.rand) (stepMean (getDrift conv rate dividendYield)
        (dailyVolatility volatility)) (dailyVolatility volatility) currentPrice days.toNat iterations.toNat 0 day := by
    intro u
    rw [simulateStockPrice_eq h, pricesOf]
    simp [List.getD_eq_getElem?_getD, hd]
  unfold expectedPrice
  rw [expect_congr rfl fun u _ => hu u]
  exact expect_closedForm erfc RAND_MAX _ _ currentPrice hi hd

/-- Unbiasedness: every stream of `days * iterations` draws is used up exactly, and the average
price returned for a day over all of them is the current price times the `(day + 1)`-th power of
the average step factor. So it depends neither on the iterations nor on the days after it. -/
theorem simulateStockPrice_unbiased (erfc conv : ℝ → ℝ) (RAND_MAX : ℕ) {days iterations : ℤ}
    {currentPrice rate dividendYield volatility : ℝ} {day : ℕ}
    (h : Valid days iterations currentPrice (getDrift conv rate dividendYield) volatility) (hd : day < days.toNat) :
    let drift := getDrift conv rate dividendYield
    let sigma := volatility / √252
    let mean := if drift ≠ 0 then drift - sigma ^ 2 / 2 else 0
    (∀ u : Draws (days.toNat * iterations.toNat) RAND_MAX, ∃ prices, simulateStockPrice erfc conv
      (randomOf RAND_MAX u.rand) days iterations currentPrice rate dividendYield volatility 0 =
        (.ok prices, days.toNat * iterations.toNat)) ∧
    expectedPrice erfc conv RAND_MAX days iterations currentPrice rate dividendYield volatility day =
      currentPrice * (𝔼 k : Fin (RAND_MAX + 1),
        Real.exp (mean + sigma * getInverseCDF erfc ((k : ℝ) / (RAND_MAX : ℝ)))) ^ (day + 1) ∧
    ∀ days' iterations' : ℤ, 0 < iterations' → day < days'.toNat →
      expectedPrice erfc conv RAND_MAX days' iterations' currentPrice rate dividendYield volatility day =
        expectedPrice erfc conv RAND_MAX days iterations currentPrice rate dividendYield volatility day := by
  intro drift sigma mean
  refine ⟨fun u => ⟨_, by rw [simulateStockPrice_eq h, zero_add]⟩, expectedPrice_eq erfc conv RAND_MAX h hd, ?_⟩
  intro days' iterations' hi' hd'
  have h' : Valid days' iterations' currentPrice (getDrift conv rate dividendYield) volatility :=
    ⟨by omega, hi', h.price, h.drift, h.volatility⟩
  rw [expectedPrice_eq erfc conv RAND_MAX h' hd', expectedPrice_eq erfc conv RAND_MAX h hd]

theorem simulateStockPrice_unbiased_small :
    expectedPrice erfc getDailyRateFromYearlyRate 32767 2 3 100 (1 / 20) 0 (1 / 5) 1 =
      expectedPrice erfc getDailyRateFromYearlyRate 32767 5 1 100 (1 / 20) 0 (1 / 5) 1 :=
  (simulateStockPrice_unbiased erfc getDailyRateFromYearlyRate 32767
    (show Valid 5 1 100 (getDrift getDailyRateFromYearlyRate (1 / 20) 0) (1 / 5) from
      ⟨by norm_num, by norm_num, by norm_num, by simp, by norm_num⟩)
    (show 1 < (5 : ℤ).toNat by decide)).2.2 2 3 (by norm_num) (by decide)

end StockPredictor.Quant
