/-
The weights of `GetEWMA`. They fall with the index, so among two squared deviations the earlier
one counts more, and exchanging two values of a distribution so that the larger deviation comes
later lowers the weighted standard deviation.
-/
import StockPredictor.Base.Weighted
import StockPredictor.Quant.Functions

namespace StockPredictor.Quant

open Base Finset

/-- The weight of the element with index `i`. -/
noncomputable def weight (i : ℕ) : ℝ := (1 - 0.94) * 0.94 ^ i

theorem weight_pos (i : ℕ) : 0 < weight i := by unfold weight; positivity

theorem weight_strictAnti : StrictAnti weight := by
  refine strictAnti_nat_of_succ_lt fun i => ?_
  have := weight_pos i
  have hs : weight (i + 1) = 0.94 * weight i := by unfold weight; ring
  rw [hs]; linarith

/-- The squared deviation from the mean at an index. -/
noncomputable def sqDeviation (l : List ℝ) (i : ℕ) : ℝ := (l.getD i 0 - getMean l) ^ 2

theorem getWeightedStandardDeviation_eq (l : List ℝ) :
    getWeightedStandardDeviation l = √(∑ i ∈ range l.length, weight i * sqDeviation l i) := by
  unfold getWeightedStandardDeviation
  dsimp only
  rw [getEWMA_eq, List.length_map]
  congr 1
  refine sum_congr rfl fun i hi => ?_
  rw [mem_range] at hi
  simp [weight, sqDeviation, List.getD_eq_getElem?_getD, hi]

theorem getMean_exchange {l : List ℝ} {i j : ℕ} (hij : i < j) (hj : j < l.length) :
    getMean (exchange l i j 0) = getMean l := by
  have hi := hij.trans hj
  rw [getMean_eq, getMean_eq, ← sum_range_getD, ← sum_range_getD, length_exchange]
  congr 1
  have h := sum_mul_swap (fun _ => (1 : ℝ)) (fun k => l.getD k 0) hi hj hij.ne
  simp only [one_mul, sub_self, zero_mul, sub_zero] at h
  rw [← h]
  exact sum_congr rfl fun k _ => getD_exchange l hi hj 0 k

theorem sqDeviation_exchange {l : List ℝ} {i j : ℕ} (hij : i < j) (hj : j < l.length) (k : ℕ) :
    sqDeviation (exchange l i j 0) k = sqDeviation l (Equiv.swap i j k) := by
  unfold sqDeviation
  rw [getMean_exchange hij hj, getD_exchange l (hij.trans hj) hj]

/-- Exchanging the values at `i < j`, the one at `i` deviating more from the mean, strictly lowers
the weighted standard deviation. -/
theorem getWeightedStandardDeviation_exchange_lt {l : List ℝ} {i j : ℕ} (hij : i < j) (hj : j < l.length)
    (h : |l.getD j 0 - getMean l| < |l.getD i 0 - getMean l|) :
    getWeightedStandardDeviation (exchange l i j 0) < getWeightedStandardDeviation l := by
  rw [getWeightedStandardDeviation_eq, getWeightedStandardDeviation_eq, length_exchange]
  refine Real.sqrt_lt_sqrt ?_ ?_
  · exact sum_nonneg fun k _ => mul_nonneg (weight_pos k).le (sq_nonneg _)
  · simp only [sqDeviation_exchange hij hj]
    exact sum_mul_swap_lt weight_strictAnti (sqDeviation l) hij hj (sq_lt_sq.2 h)

end StockPredictor.Quant
