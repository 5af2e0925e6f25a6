/-
The standard normal distribution: its distribution function over `erfc`, its density, how the two
are related, and the bound of both tails by the density.
-/
import StockPredictor.Base.Erfc

namespace Base

noncomputable section

/-- The distribution function. -/
def normalCDF (x : ℝ) : ℝ := erfc (-x / √2) / 2

/-- The density. -/
def normalPDF (x : ℝ) : ℝ := Real.exp (-x ^ 2 / 2) / √(2 * Real.pi)

/-! ## The density -/

theorem normalPDF_pos (x : ℝ) : 0 < normalPDF x :=
  div_pos (Real.exp_pos _) (Real.sqrt_pos.2 (by positivity))

theorem hasDerivAt_normalPDF (x : ℝ) : HasDerivAt normalPDF (-x * normalPDF x) x := by
  have h : HasDerivAt (fun t : ℝ => -t ^ 2 / 2) (-x) x :=
    (((hasDerivAt_id x).pow 2).neg.div_const 2).congr_deriv (by simp [neg_div])
  exact (h.exp.div_const (√(2 * Real.pi))).congr_deriv (by unfold normalPDF; ring)

/-! ## The distribution function -/

theorem neg_div_sqrt_two_sq (x : ℝ) : (-x / √2) ^ 2 = x ^ 2 / 2 := by
  rw [div_pow, neg_sq, Real.sq_sqrt zero_le_two]

theorem hasDerivAt_normalCDF (x : ℝ) : HasDerivAt normalCDF (normalPDF x) x := by
  have hin : HasDerivAt (fun t : ℝ => -t / √2) (-1 / √2) x := (hasDerivAt_id x).neg.div_const _
  refine (((hasDerivAt_erfc (-x / √2)).comp x hin).div_const 2).congr_deriv ?_
  unfold normalPDF
  rw [neg_div_sqrt_two_sq, Real.sqrt_mul zero_le_two, neg_div]
  field_simp

theorem normalCDF_neg (x : ℝ) : normalCDF (-x) = 1 - normalCDF x := by
  unfold normalCDF
  rw [neg_div (√2) (-x), erfc_neg]
  ring

theorem normalCDF_strictMono : StrictMono normalCDF :=
  strictMono_of_hasDerivAt_pos hasDerivAt_normalCDF normalPDF_pos

theorem normalCDF_nonneg (x : ℝ) : 0 ≤ normalCDF x := div_nonneg (erfc_nonneg _) zero_le_two

/-! ## The tails -/

/-- The lower tail at `x` is at most the density divided by `-x`. -/
theorem neg_mul_normalCDF_le (x : ℝ) : -x * normalCDF x ≤ normalPDF x := by
  have h2 : (0 : ℝ) < √2 := Real.sqrt_pos.2 zero_lt_two
  have h := mul_erfc_le (-x / √2)
  rw [neg_div_sqrt_two_sq] at h
  calc -x * normalCDF x = -x / √2 * erfc (-x / √2) * (√2 / 2) := by
        unfold normalCDF
        field_simp
    _ ≤ Real.exp (-(x ^ 2 / 2)) / √Real.pi * (√2 / 2) := mul_le_mul_of_nonneg_right h (by positivity)
    _ = normalPDF x := by
        unfold normalPDF
        rw [Real.sqrt_mul zero_le_two, ← neg_div]
        field_simp
        rw [Real.sq_sqrt zero_le_two]

/-- Against any probability, the distance of the distribution function is bounded by the density. -/
theorem neg_normalPDF_le {p : ℝ} (h0 : 0 ≤ p) (h1 : p ≤ 1) (x : ℝ) : -normalPDF x ≤ x * (normalCDF x - p) := by
  rcases le_total 0 x with hx | hx
  · -- above the median the upper tail counts
    have htail := neg_mul_normalCDF_le (-x)
    have hpdf : normalPDF (-x) = normalPDF x := by unfold normalPDF; rw [neg_sq]
    rw [hpdf, normalCDF_neg, neg_neg] at htail
    have hp : x * (normalCDF x - 1) ≤ x * (normalCDF x - p) := mul_le_mul_of_nonneg_left (by linarith) hx
    linarith
  · have htail := neg_mul_normalCDF_le x
    have hp : x * normalCDF x ≤ x * (normalCDF x - p) := mul_le_mul_of_nonpos_left (by linarith) hx
    linarith

end

end Base
