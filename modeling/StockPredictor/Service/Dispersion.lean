/-
The test `volatility == 0` of `GetStockProjections`. It is what turns a quoted projection into null,
and on the historical path, where the volatility is the weighted deviation of the daily returns, it
fires exactly when all returns are equal.
-/
import StockPredictor.Quant.Dispersion
import StockPredictor.Service.Units

namespace StockPredictor.Service

open Base Quant

section Guard

variable (p : Platform) (ds : DataService) (symbol : Text) (days : ℤ) (action : Bool)

/-- A simulation that runs or throws never returns null. -/
theorem runSimulation_ne_none (rate volatility : ℝ) (stock : Stock) (s : Trace) :
    (exec (runSimulation p ds symbol days action rate volatility stock) s).1 ≠ .ok none := by
  unfold runSimulation
  cases hn : iterationsSetting ds with
  | error e =>
    rw [exec_bind_error (exec_lift _ s)]
    simp
  | ok iterations =>
    rw [exec_bind_ok (exec_lift _ s)]
    cases hp : quotedPrice stock with
    | error e =>
      rw [exec_bind_error (exec_lift _ s)]
      simp
    | ok price =>
      rw [exec_bind_ok (exec_lift _ s)]
      dsimp only
      rw [exec_bind_ok (exec_reportStatus ..), exec_bind, exec_simulate]
      generalize ((chooseCall days iterations price rate (quotedDividendYield stock) volatility).run p _).1 = r
      cases r with
      | error message => simp [Except.mapError]
      | ok prices =>
        dsimp only [Except.mapError]
        rw [exec_bind_ok (exec_reportStatus ..), exec_bind_ok (exec_reportStatus ..)]
        simp

variable {ds symbol}

/-- With a volatility, the test on it decides whether a quoted projection returns null. -/
theorem projectQuoted_eq_none_iff {volatility : ℝ} (hv : volatilityOf ds symbol = .ok volatility) (rate : ℝ)
    (stock : Stock) (s : Trace) :
    (exec (projectQuoted p ds symbol days action rate stock) s).1 = .ok none ↔ volatility = 0 := by
  obtain ⟨t, ht, -⟩ := exec_getVolatility ds symbol action s
  rw [hv] at ht
  unfold projectQuoted
  rw [exec_bind_ok ht]
  split
  · rename_i h0
    rw [exec_bind_ok (exec_reportStatus ..)]
    simp [h0]
  · rename_i h0
    dsimp only
    rw [exec_bind_ok (exec_reportStatus ..)]
    simp [h0, runSimulation_ne_none]

/-- Without an implied volatility the history gives the volatility. -/
theorem volatilityOf_history {prices : List HistoricalPrice} (hi : ds.getImpliedVolatility symbol = .ok none)
    (hh : ds.getHistoricalQuote symbol = .ok (some prices)) :
    volatilityOf ds symbol = .ok (getWeightedStandardDeviation (dailyReturns prices)) := by
  unfold volatilityOf historicalVolatility
  rw [hi, hh]

end Guard

/-- For every distribution with an element: both deviations are roots of values that are not
negative, ignore a shift, scale with the distribution and vanish exactly when all elements are
equal; the unweighted one also ignores the order, and its square is the mean of the squares less the
square of the mean. So with the distribution as the daily returns of the history, and no implied
volatility, a quoted projection stops at the volatility zero exactly when all returns are equal. -/
theorem dispersion_laws {l : List ℝ} (h : l ≠ []) :
    Disperses getStandardDeviation l ∧ Disperses getWeightedStandardDeviation l ∧
    (0 ≤ variance l ∧ getStandardDeviation l = √(variance l)) ∧
    (0 ≤ getEWMA (squaredDeviations l) ∧ getWeightedStandardDeviation l = √(getEWMA (squaredDeviations l))) ∧
    (∀ l', l'.Perm l → getStandardDeviation l' = getStandardDeviation l) ∧
    getStandardDeviation l ^ 2 = getMean (l.map (· ^ 2)) - getMean l ^ 2 ∧
    ∀ (p : Platform) (ds : DataService) (symbol : Text) (days : ℤ) (action : Bool) (rate : ℝ) (stock : Stock)
      (s : Trace) (prices : List HistoricalPrice), ds.getImpliedVolatility symbol = .ok none →
      ds.getHistoricalQuote symbol = .ok (some prices) → dailyReturns prices = l →
      ((exec (projectQuoted p ds symbol days action rate stock) s).1 = .ok none ↔ ∀ x ∈ l, ∀ y ∈ l, x = y) := by
  have hweighted := disperses_getWeightedStandardDeviation h
  refine ⟨disperses_getStandardDeviation h, hweighted, ⟨variance_nonneg l, getStandardDeviation_eq l⟩,
    ⟨getEWMA_nonneg (squaredDeviations_nonneg l), getWeightedStandardDeviation_eq_sqrt l⟩,
    fun l' hp => getStandardDeviation_perm hp, getStandardDeviation_sq h, ?_⟩
  rintro p ds symbol days action rate stock s prices hi hh rfl
  rw [projectQuoted_eq_none_iff p days action (volatilityOf_history hi hh), hweighted.zero]

theorem dispersion_laws_doubling : getStandardDeviation ([0, Real.log 2, 0].map (· + 1)) =
      getStandardDeviation [0, Real.log 2, 0] ∧
    (exec (projectQuoted zeroDraws doublingServices "A" 1 true 0.05 (atHundred none)) ⟨[], [], 0⟩).1 ≠ .ok none := by
  have hlaws := dispersion_laws (l := [0, Real.log 2, 0]) (by simp)
  obtain ⟨quotes, -, hh, hr, hq, -⟩ := doubling_call
  refine ⟨hlaws.1.shift 1, fun hnone => ?_⟩
  have hall := (hlaws.2.2.2.2.2.2 zeroDraws doublingServices "A" 1 true 0.05 (atHundred none) ⟨[], [], 0⟩ quotes rfl
    hq hr).1 hnone
  have hlog := hall (Real.log 2) (by simp) 0 (by simp)
  have := Real.log_pos one_lt_two
  linarith

end StockPredictor.Service
