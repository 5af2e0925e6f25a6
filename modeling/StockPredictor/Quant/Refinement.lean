/-
The refinement of `GetInverseCDF` against Halley's step for the normal quantile. The code's constant
for pi is the integer quotient `22/7`, which is 3, so its step is the exact one at the quantile only,
where the derivative is `1 - √(3/π)` instead of zero.
-/
import Mathlib.Analysis.Real.Pi.Bounds
import StockPredictor.Base.Halley
import StockPredictor.Quant.Approximation

namespace StockPredictor.Quant

open Base InverseCDF

/-- Halley's step for the quantile of `p`, with `c` for the circle constant in the density. -/
noncomputable def halleyStep (c p x : ℝ) : ℝ :=
  let u := (normalCDF x - p) / (Real.exp (-x ^ 2 / 2) / √(2 * c))
  x - u / (1 + x * u / 2)

/-! ## The code's step -/

theorem mPi_eq : mPi = 3 := by
  have h : (22 / 7 : ℤ) = 3 := by norm_num
  unfold mPi
  rw [h]
  norm_num

/-- The code's refinement is Halley's step with 3 for the circle constant. -/
theorem refine_eq_halleyStep (p x : ℝ) : refine erfc p x = halleyStep 3 p x := by
  have hexp : Real.exp (x * x / 2) = (Real.exp (-x ^ 2 / 2))⁻¹ := by
    rw [← Real.exp_neg]
    congr 1
    ring
  have hcdf : 0.5 * erfc (-x / √2.0) - p = normalCDF x - p := by
    unfold normalCDF
    norm_num
    ring
  unfold refine halleyStep
  dsimp only
  rw [hcdf, mPi_eq, hexp, div_div_eq_mul_div, div_eq_mul_inv _ (Real.exp (-x ^ 2 / 2))]

/-- With `c` in the place of pi the Newton step is scaled by `√(c/π)`. -/
theorem halleyStep_eq_halley {c : ℝ} (hc : 0 ≤ c) (p x : ℝ) : halleyStep c p x = halley √(c / Real.pi) p x := by
  have hpi : 0 < √Real.pi := Real.sqrt_pos.2 Real.pi_pos
  have hu : (normalCDF x - p) / (Real.exp (-x ^ 2 / 2) / √(2 * c)) = newton √(c / Real.pi) p x := by
    unfold newton normalPDF
    rw [Real.sqrt_mul zero_le_two, Real.sqrt_mul zero_le_two, Real.sqrt_div hc]
    field_simp
  unfold halleyStep halley
  dsimp only
  rw [hu]

theorem halleyStep_pi (p x : ℝ) : halleyStep Real.pi p x = halley 1 p x := by
  rw [halleyStep_eq_halley Real.pi_pos.le, div_self Real.pi_ne_zero, Real.sqrt_one]

theorem sqrt_three_div_pi_lt_one : √(3 / Real.pi) < 1 := by
  rw [Real.sqrt_lt' one_pos, one_pow, div_lt_one Real.pi_pos]
  exact Real.pi_gt_three

theorem refine_eq_halley (p x : ℝ) : refine erfc p x = halley √(3 / Real.pi) p x := by
  rw [refine_eq_halleyStep, halleyStep_eq_halley (by norm_num)]

/-! ## When the step is exact -/

/-- With any constant within a tenth of pi, the code's step is Halley's exactly at the quantile. -/
theorem refine_eq_halleyStep_iff {c p : ℝ} (hc : |c - Real.pi| ≤ 1 / 10) (h0 : 0 < p) (h1 : p < 1) (x : ℝ) :
    refine erfc p x = halleyStep c p x ↔ normalCDF x = p := by
  obtain ⟨hlo, hhi⟩ := abs_le.1 hc
  have hpi := Real.pi_gt_d2
  have hc3 : 3 < c := by linarith
  have hlt : √(3 / Real.pi) < √(c / Real.pi) :=
    Real.sqrt_lt_sqrt (by positivity) (div_lt_div_of_pos_right hc3 Real.pi_pos)
  have hc2 : √(c / Real.pi) < 2 := by
    rw [Real.sqrt_lt' two_pos, div_lt_iff₀ Real.pi_pos]
    linarith
  rw [refine_eq_halley, halleyStep_eq_halley (by linarith)]
  exact halley_eq_halley_iff (Real.sqrt_nonneg _) (hlt.trans hc2) (Real.sqrt_nonneg _) hc2 hlt.ne h0.le h1.le x

/-- For every probability and starting point: the refinement is the exact step only from the
quantile itself; there both stay, but only the exact step cancels the error of first order. -/
theorem refine_exact_iff {p : ℝ} (h0 : 0 < p) (h1 : p < 1) (x : ℝ) :
    (∀ c, |c - Real.pi| ≤ 1 / 10 → (refine erfc p x = halleyStep c p x ↔ normalCDF x = p)) ∧
    (normalCDF x = p → refine erfc p x = x ∧ HasDerivAt (halleyStep Real.pi p) 0 x ∧
      HasDerivAt (refine erfc p) (1 - √(3 / Real.pi)) x ∧ ¬ HasDerivAt (refine erfc p) 0 x) := by
  refine ⟨fun c hc => refine_eq_halleyStep_iff hc h0 h1 x, fun hx => ?_⟩
  have hlt := sqrt_three_div_pi_lt_one
  have hcode : HasDerivAt (refine erfc p) (1 - √(3 / Real.pi)) x := by
    rw [funext (refine_eq_halley p)]
    exact hasDerivAt_halley_quantile (Real.sqrt_nonneg _) (by linarith) h0.le h1.le hx
  refine ⟨?_, ?_, hcode, fun hz => ?_⟩
  · rw [refine_eq_halley, halley_quantile hx]
  · rw [funext (halleyStep_pi p)]
    exact (hasDerivAt_halley_quantile zero_le_one one_lt_two h0.le h1.le hx).congr_deriv (sub_self 1)
  · have := hcode.unique hz
    linarith

/-! ## Where it is not -/

theorem normalCDF_zero : normalCDF 0 = 1 / 2 := by
  have h := normalCDF_neg 0
  rw [neg_zero] at h
  linarith

theorem refine_exact_iff_median :
    refine erfc (1 / 2) 0 = halleyStep Real.pi (1 / 2) 0 ∧ ¬ HasDerivAt (refine erfc (1 / 2)) 0 0 :=
  have h := refine_exact_iff (p := 1 / 2) (by norm_num) (by norm_num) 0
  ⟨(h.1 Real.pi (by norm_num)).2 normalCDF_zero, (h.2 normalCDF_zero).2.2.2⟩

/-- At some probability the code's own starting point is not the quantile: the approximation jumps
at the break-point. -/
theorem exists_approximate_ne : ∃ p, 0 < p ∧ p < 1 ∧ normalCDF (approximate p) ≠ p := by
  by_contra hall
  push Not at hall
  have hb := pLow_bounds
  have hjump := normalCDF_strictMono tail_lt_central
  rw [← approximate_pLow, hall pLow hb.1 (by linarith)] at hjump
  -- a probability in the jump
  obtain ⟨p, hp, hp'⟩ := exists_between hjump
  have hp0 : 0 < p := (normalCDF_nonneg _).trans_lt hp
  have hle := normalCDF_strictMono.monotone (approximate_le_tail hp0 hp')
  rw [hall p hp0 (by linarith)] at hle
  linarith

/-- The step from 1 towards the median is not Halley's, and neither is the one the code makes from
its own approximation, for some probability. -/
theorem refine_inexact :
    (∀ c, |c - Real.pi| ≤ 1 / 10 → refine erfc (1 / 2) 1 ≠ halleyStep c (1 / 2) 1) ∧
    ∃ p, 0 < p ∧ p < 1 ∧
      ∀ c, |c - Real.pi| ≤ 1 / 10 → refine erfc p (approximate p) ≠ halleyStep c p (approximate p) := by
  constructor
  · intro c hc
    rw [ne_eq, refine_eq_halleyStep_iff hc (by norm_num) (by norm_num), ← normalCDF_zero]
    exact (normalCDF_strictMono one_pos).ne'
  · obtain ⟨p, h0, h1, hne⟩ := exists_approximate_ne
    exact ⟨p, h0, h1, fun c hc h => hne ((refine_eq_halleyStep_iff hc h0 h1 _).1 h)⟩

end StockPredictor.Quant
