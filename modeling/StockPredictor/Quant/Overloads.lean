/-
The two overloads of the simulator. The short one simulates without a drift, so it agrees with the
long one exactly when the drift of the long one leaves the mean of a step at zero.
-/
import StockPredictor.Quant.ClosedForm

namespace StockPredictor.Quant

open Base

section Overloads

variable (erfc : ℝ → ℝ) {conv : ℝ → ℝ} (random : ℕ → ℝ) {days iterations : ℤ}
  {currentPrice rate dividendYield volatility : ℝ} (draws : ℕ)

@[simp] theorem getDrift_self (conv : ℝ → ℝ) (rate : ℝ) : getDrift conv rate rate = 0 := by
  rw [getDrift_eq_max, sub_self, max_self]

/-- The mean of a step scales the first day's price. -/
theorem closedForm_zero_day (mean sigma currentPrice : ℝ) (days iterations draws : ℕ) :
    closedForm erfc random mean sigma currentPrice days iterations draws 0 =
      Real.exp mean * closedForm erfc random 0 sigma currentPrice days iterations draws 0 := by
  unfold closedForm
  rw [mul_left_comm]
  congr 1
  rw [Finset.mul_sum]
  refine Finset.sum_congr rfl fun i _ => ?_
  rw [← Real.exp_add]
  congr 1
  push_cast; ring

/-- The two overloads return the same exactly when the long one is valid and its mean is zero. -/
theorem simulateStockPrice₄_eq_iff (hdays : 0 < days) (hiterations : 0 < iterations) (hprice : 0 < currentPrice)
    (hvolatility : 0 < volatility) :
    (simulateStockPrice₄ erfc conv random days iterations currentPrice volatility draws).1 =
      (simulateStockPrice erfc conv random days iterations currentPrice rate dividendYield volatility draws).1 ↔
    getDrift conv rate dividendYield ≤ 1 ∧
      stepMean (getDrift conv rate dividendYield) (dailyVolatility volatility) = 0 := by
  have hshort : (simulateStockPrice₄ erfc conv random days iterations currentPrice volatility draws).1 =
      .ok ((List.range days.toNat).map (closedForm erfc random 0 (dailyVolatility volatility) currentPrice
        days.toNat iterations.toNat draws)) := by
    unfold simulateStockPrice₄
    refine simulateStockPrice_ok_iff.2 ⟨⟨hdays, hiterations, hprice, ?_, hvolatility⟩, ?_⟩
    · simp
    · simp
  rw [hshort, eq_comm, simulateStockPrice_ok_iff]
  constructor
  · rintro ⟨hv, hlist⟩
    refine ⟨hv.drift.2, ?_⟩
    -- the price of the first day tells the two means apart
    have h0 : 0 < days.toNat := by omega
    have hi : 0 < iterations.toNat := by omega
    have hday := congrArg (·[0]?) hlist
    simp only [List.getElem?_map, List.getElem?_range h0, Option.map_some, Option.some.injEq] at hday
    rw [closedForm_zero_day erfc random (stepMean _ _)] at hday
    have hpos := closedForm_pos erfc random 0 (dailyVolatility volatility) days.toNat hprice hi draws 0
    have hexp : Real.exp (stepMean (getDrift conv rate dividendYield) (dailyVolatility volatility)) = 1 :=
      mul_right_cancel₀ hpos.ne' (by rw [one_mul]; exact hday.symm)
    exact Real.exp_eq_one_iff _ |>.1 hexp
  · rintro ⟨hle, hmean⟩
    exact ⟨⟨hdays, hiterations, hprice, ⟨getDrift_nonneg _ _ _, hle⟩, hvolatility⟩, by rw [hmean]⟩

/-- The mean is zero exactly without a drift or when the drift is just half the variance of a day. -/
theorem stepMean_eq_zero_iff (drift sigma : ℝ) : stepMean drift sigma = 0 ↔ drift = 0 ∨ drift = sigma ^ 2 / 2 := by
  unfold stepMean
  split
  · rename_i h
    rw [sub_eq_zero]
    exact ⟨.inr, fun h' => h'.resolve_left h⟩
  · rename_i h
    push Not at h
    exact ⟨fun _ => .inl h, fun _ => rfl⟩

end Overloads

end StockPredictor.Quant
