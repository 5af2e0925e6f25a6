/-
The complementary error function as an integral: its reflection, its derivative, and the bound of
its tail by the density.
-/
import StockPredictor.Base.Numeral
import Mathlib.Analysis.SpecialFunctions.Gaussian.GaussianIntegral
import Mathlib.MeasureTheory.Integral.IntegralEqImproper

namespace Base

open MeasureTheory Set Filter Topology

/-- `erfc y = 2/√π · ∫ exp(-t²) dt` over `t > y`. -/
noncomputable def erfc (y : ℝ) : ℝ := 2 / √Real.pi * ∫ t in Set.Ioi y, Real.exp (-t ^ 2)

/-! ## The integrand -/

theorem integrable_exp_neg_sq : Integrable fun t : ℝ => Real.exp (-t ^ 2) := by
  simpa using integrable_exp_neg_mul_sq (b := 1) one_pos

theorem integral_exp_neg_sq : ∫ t : ℝ, Real.exp (-t ^ 2) = √Real.pi := by
  simpa using integral_gaussian 1

theorem continuous_exp_neg_sq : Continuous fun t : ℝ => Real.exp (-t ^ 2) := by fun_prop

theorem integrable_mul_exp_neg_sq : Integrable fun t : ℝ => t * Real.exp (-t ^ 2) := by
  simpa using integrable_mul_exp_neg_mul_sq (b := 1) one_pos

theorem hasDerivAt_exp_neg_sq (t : ℝ) :
    HasDerivAt (fun t : ℝ => Real.exp (-t ^ 2)) (-(2 * t) * Real.exp (-t ^ 2)) t := by
  have h : HasDerivAt (fun t : ℝ => -t ^ 2) (-(2 * t)) t := ((hasDerivAt_id t).pow 2).neg.congr_deriv (by simp)
  exact h.exp.congr_deriv (by ring)

/-- The part before `y` and the part after it make up the whole. -/
theorem setIntegral_add_erfc (y : ℝ) :
    (∫ t in Iic y, Real.exp (-t ^ 2)) + ∫ t in Ioi y, Real.exp (-t ^ 2) = √Real.pi := by
  rw [← integral_exp_neg_sq, ← compl_Iic]
  exact integral_add_compl measurableSet_Iic integrable_exp_neg_sq

/-! ## Reflection -/

theorem erfc_neg (y : ℝ) : erfc (-y) = 2 - erfc y := by
  have hpi : √Real.pi ≠ 0 := (Real.sqrt_pos.2 Real.pi_pos).ne'
  -- the tail after `-y` is the part before `y`
  have hswap : ∫ t in Ioi (-y), Real.exp (-t ^ 2) = ∫ t in Iic y, Real.exp (-t ^ 2) := by
    rw [← integral_comp_neg_Iic]
    simp
  have hsum := setIntegral_add_erfc y
  unfold erfc
  rw [hswap, eq_sub_of_add_eq hsum, mul_sub, div_mul_cancel₀ _ hpi]

theorem erfc_nonneg (y : ℝ) : 0 ≤ erfc y := by
  have h : 0 ≤ ∫ t in Ioi y, Real.exp (-t ^ 2) := setIntegral_nonneg measurableSet_Ioi fun t _ => (Real.exp_pos _).le
  exact mul_nonneg (by positivity) h

/-! ## Derivative and tail -/

theorem hasDerivAt_erfc (y : ℝ) : HasDerivAt erfc (-(2 / √Real.pi * Real.exp (-y ^ 2))) y := by
  have hcont := continuous_exp_neg_sq
  have hright : HasDerivAt (fun u => ∫ t in (0 : ℝ)..u, Real.exp (-t ^ 2)) (Real.exp (-y ^ 2)) y :=
    intervalIntegral.integral_hasDerivAt_right (hcont.intervalIntegrable _ _)
      (hcont.stronglyMeasurableAtFilter _ _) hcont.continuousAt
  have htail : (fun u => 2 / √Real.pi * ((∫ t in Ioi (0 : ℝ), Real.exp (-t ^ 2)) -
      ∫ t in (0 : ℝ)..u, Real.exp (-t ^ 2))) = erfc := by
    funext u
    rw [erfc, ← intervalIntegral.integral_interval_add_Ioi (b := u) integrable_exp_neg_sq.integrableOn
      integrable_exp_neg_sq.integrableOn, add_sub_cancel_left]
  rw [← htail]
  exact ((hright.const_sub _).const_mul _).congr_deriv (by ring)

/-- The integral of `t * exp (-t²)` over the tail. -/
theorem integral_mul_exp_neg_sq (y : ℝ) : ∫ t in Ioi y, t * Real.exp (-t ^ 2) = Real.exp (-y ^ 2) / 2 := by
  have hderiv : ∀ t ∈ Ici y, HasDerivAt (fun t : ℝ => -(Real.exp (-t ^ 2) / 2)) (t * Real.exp (-t ^ 2)) t := by
    intro t _
    exact ((hasDerivAt_exp_neg_sq t).div_const 2).neg.congr_deriv (by ring)
  have hlim : Tendsto (fun t : ℝ => -(Real.exp (-t ^ 2) / 2)) atTop (𝓝 (-(0 / 2))) := by
    have hsq : Tendsto (fun t : ℝ => -t ^ 2) atTop atBot :=
      tendsto_neg_atTop_atBot.comp (tendsto_pow_atTop two_ne_zero)
    exact ((Real.tendsto_exp_atBot.comp hsq).div_const 2).neg
  rw [integral_Ioi_of_hasDerivAt_of_tendsto' hderiv integrable_mul_exp_neg_sq.integrableOn hlim]
  ring

/-- The tail after `y` is at most the density at `y` divided by `y`. -/
theorem mul_erfc_le (y : ℝ) : y * erfc y ≤ Real.exp (-y ^ 2) / √Real.pi := by
  have hpi : 0 < √Real.pi := Real.sqrt_pos.2 Real.pi_pos
  have hle : y * ∫ t in Ioi y, Real.exp (-t ^ 2) ≤ Real.exp (-y ^ 2) / 2 := by
    rw [← integral_mul_exp_neg_sq, ← integral_const_mul]
    refine setIntegral_mono_on (integrable_exp_neg_sq.const_mul y).integrableOn
      integrable_mul_exp_neg_sq.integrableOn measurableSet_Ioi fun t ht => ?_
    exact mul_le_mul_of_nonneg_right (le_of_lt ht) (Real.exp_pos _).le
  calc y * erfc y = 2 / √Real.pi * (y * ∫ t in Ioi y, Real.exp (-t ^ 2)) := by unfold erfc; ring
    _ ≤ 2 / √Real.pi * (Real.exp (-y ^ 2) / 2) := mul_le_mul_of_nonneg_left hle (by positivity)
    _ = Real.exp (-y ^ 2) / √Real.pi := by field_simp

end Base
