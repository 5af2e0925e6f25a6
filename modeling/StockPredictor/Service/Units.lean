/-
The unit of the historical volatility. The simulator takes a yearly volatility and divides it by
the root of 252; the deviation of the daily returns is a daily one and is passed as it is. So what
is passed is not the yearly volatility, unless both are so small that they round to zero.
-/
import Mathlib.Analysis.Complex.ExponentialBounds
import StockPredictor.Quant.Weights
import StockPredictor.Service.Projection

namespace StockPredictor.Service

open Base Quant

@[simp] theorem chooseCall_volatility (days iterations : ℤ) (price rate dividendYield volatility : ℝ) :
    (chooseCall days iterations price rate dividendYield volatility).volatility = volatility := by
  unfold chooseCall; split <;> rfl

/-- Without an implied volatility, whatever call a projection makes passes the rounded deviation of
the daily returns. -/
theorem historical_call {p : Platform} {ds : DataService} {symbol : Text} {days : ℤ} {action : Bool} {draws : ℕ}
    {quotes : List HistoricalPrice} (hi : ds.getImpliedVolatility symbol = .ok none)
    (hq : ds.getHistoricalQuote symbol = .ok (some quotes)) {c : SimulateCall}
    (hc : (projection p ds symbol days action draws).2.calls = [c]) :
    c.volatility = mathRound 4 (getWeightedStandardDeviation (dailyReturns quotes)) := by
  have hvol : volatilityOf ds symbol = .ok (getWeightedStandardDeviation (dailyReturns quotes)) := by
    unfold volatilityOf historicalVolatility
    rw [hi, hq]
  have hout := ends_getStockProjections p ds symbol days action ⟨[], [], draws⟩
  unfold projection at hc
  generalize exec (getStockProjections p ds symbol days action) ⟨[], [], draws⟩ = r at hout hc
  cases hout with
  | failed _ ht | unknown _ _ ht | noVolatility _ _ _ ht => rw [ht.calls] at hc; cases hc
  | simulated _ _ _ hv _ _ _ hcalls =>
    rw [hvol] at hv; cases hv
    rw [hcalls] at hc
    obtain rfl := List.singleton_injective hc
    exact chooseCall_volatility ..

/-- For every history: the volatility passed to the simulator is the yearly one, `s * √252` rounded
to four digits, exactly when that is at most half a unit of the fourth digit. -/
theorem historical_volatility_yearly_iff (p : Platform) {ds : DataService} {symbol : Text}
    {fetched quotes : List HistoricalPrice} (hh : getHistoricalQuote fetched = .ok quotes)
    (hq : ds.getHistoricalQuote symbol = (getHistoricalQuote fetched).map some)
    (hi : ds.getImpliedVolatility symbol = .ok none) (hs : 0 < getWeightedStandardDeviation (dailyReturns quotes))
    {days : ℤ} {action : Bool} {draws : ℕ} {c : SimulateCall}
    (hc : (projection p ds symbol days action draws).2.calls = [c]) :
    c.volatility = mathRound 4 (getWeightedStandardDeviation (dailyReturns quotes) * √252) ↔
      getWeightedStandardDeviation (dailyReturns quotes) * √252 ≤ 1 / 20000 := by
  rw [hh] at hq
  have h3 : (3 : ℝ) ≤ √252 := Real.le_sqrt_of_sq_le (by norm_num)
  rw [historical_call hi hq hc, mathRound_eq_mul_iff hs h3]
  constructor
  · intro h; linarith
  · intro h; linarith

/-! ## A price that doubles -/

/-- The deviation of the returns of `doubling` is well above the rounding. -/
theorem doubling_deviation : 1 / 10 < getWeightedStandardDeviation [0, Real.log 2, 0] := by
  have hl := Real.log_two_gt_d9
  rw [getWeightedStandardDeviation_eq, Real.lt_sqrt (by norm_num)]
  -- the second day alone is enough
  have hterm : (1 / 10 : ℝ) ^ 2 < weight 1 * sqDeviation [0, Real.log 2, 0] 1 := by
    have hd : sqDeviation [0, Real.log 2, 0] 1 = 4 / 9 * (Real.log 2 * Real.log 2) := by
      unfold sqDeviation
      rw [getMean_eq]
      norm_num
      ring
    have hsq : (0.69 : ℝ) * 0.69 ≤ Real.log 2 * Real.log 2 := mul_self_le_mul_self (by norm_num) (by linarith)
    rw [hd, weight]
    linarith
  refine hterm.trans_le (Finset.single_le_sum (f := fun i => weight i * sqDeviation [0, Real.log 2, 0] i)
    (fun i _ => mul_nonneg (weight_pos i).le (sq_nonneg _)) (Finset.mem_range.2 (by decide)))

theorem doubling_yearly : 1 / 20000 < getWeightedStandardDeviation [0, Real.log 2, 0] * √252 := by
  have hs := doubling_deviation
  have h1 : (1 : ℝ) ≤ √252 := Real.le_sqrt_of_sq_le (by norm_num)
  have hmul : 1 / 10 * 1 ≤ getWeightedStandardDeviation [0, Real.log 2, 0] * √252 :=
    mul_le_mul hs.le h1 (by norm_num) (by linarith)
  linarith

/-- Services for `doubling` without an implied volatility. -/
noncomputable def doublingServices : DataService := answering (1 / 20) (atHundred none) none doubling "1"

/-- The history is there, and a projection makes its call. -/
theorem doubling_call : ∃ quotes c, getHistoricalQuote doubling = .ok quotes ∧
    dailyReturns quotes = [0, Real.log 2, 0] ∧ doublingServices.getHistoricalQuote "A" = .ok (some quotes) ∧
    (projection zeroDraws doublingServices "A" 1 true 0).2.calls = [c] := by
  have hq := getHistoricalQuote_doubling
  have hs := doubling_deviation
  have h := answered_history (1 / 20) (atHundred none) hq "1" "A"
  refine ⟨_, _, hq, rfl, ?_, (h.simulates zeroDraws 1 true 0 ?_ (n := 1) (by decide) (quotedPrice_atHundred none)).2⟩
  · unfold doublingServices answering
    dsimp only
    rw [hq]
    rfl
  · show getWeightedStandardDeviation [0, Real.log 2, 0] ≠ 0
    linarith

theorem historical_volatility_doubling : ∃ c, (projection zeroDraws doublingServices "A" 1 true 0).2.calls = [c] ∧
    c.volatility ≠ mathRound 4 (getWeightedStandardDeviation [0, Real.log 2, 0] * √252) := by
  obtain ⟨quotes, c, hh, hr, -, hc⟩ := doubling_call
  have hs := doubling_deviation
  have h := historical_volatility_yearly_iff zeroDraws hh rfl rfl (by rw [hr]; linarith) hc
  rw [hr] at h
  exact ⟨c, hc, fun he => absurd (h.1 he) (not_le.2 doubling_yearly)⟩

/-- The projection from `doubling` passes the daily deviation, which is not the yearly one. -/
theorem doubling_passes_daily :
    (getHistoricalQuote doubling).map dailyReturns = .ok [0, Real.log 2, 0] ∧
    doublingServices.getImpliedVolatility "A" = .ok none ∧ 0 < getWeightedStandardDeviation [0, Real.log 2, 0] ∧
    ∃ c, (projection zeroDraws doublingServices "A" 1 true 0).2.calls = [c] ∧
      c.volatility = mathRound 4 (getWeightedStandardDeviation [0, Real.log 2, 0]) ∧
      c.volatility ≠ mathRound 4 (getWeightedStandardDeviation [0, Real.log 2, 0] * √252) := by
  obtain ⟨quotes, c, hh, hr, hq, hc⟩ := doubling_call
  have hs := doubling_deviation
  have hcall := historical_call rfl hq hc
  rw [hr] at hcall
  refine ⟨by rw [hh, ← hr]; rfl, rfl, by linarith, c, hc, hcall, fun he => ?_⟩
  have h3 : (3 : ℝ) ≤ √252 := Real.le_sqrt_of_sq_le (by norm_num)
  have hle := (mathRound_eq_mul_iff (by linarith) h3).1 (hcall.symm.trans he)
  have hlt := doubling_yearly
  linarith

end StockPredictor.Service
