/-
One step towards a quantile of the standard normal distribution, with the Newton step scaled by a
constant `κ`. With `κ = 1` it is Halley's step. Up to `κ = 1` it keeps the order of the
probabilities and of the starting points; at the quantile its derivative is `1 - κ`.
-/
import StockPredictor.Base.Normal

namespace Base

noncomputable section

/-- The Newton step at `x` towards the quantile of `p`, scaled by `κ`. -/
def newton (κ p x : ℝ) : ℝ := κ * ((normalCDF x - p) / normalPDF x)

/-- The corrected step. -/
def halley (κ p x : ℝ) : ℝ := x - newton κ p x / (1 + x * newton κ p x / 2)

/-! ## The denominator -/

theorem neg_le_mul_newton {κ p : ℝ} (hκ : 0 ≤ κ) (h0 : 0 ≤ p) (h1 : p ≤ 1) (x : ℝ) : -κ ≤ x * newton κ p x := by
  have hpdf := normalPDF_pos x
  have h : -1 ≤ x * (normalCDF x - p) / normalPDF x := by
    rw [le_div_iff₀ hpdf, neg_one_mul]
    exact neg_normalPDF_le h0 h1 x
  calc -κ = κ * (-1) := by ring
    _ ≤ κ * (x * (normalCDF x - p) / normalPDF x) := mul_le_mul_of_nonneg_left h hκ
    _ = x * newton κ p x := by unfold newton; ring

theorem halley_den_pos {κ p : ℝ} (h0 : 0 ≤ κ) (h2 : κ < 2) (hp0 : 0 ≤ p) (hp1 : p ≤ 1) (x : ℝ) :
    0 < 1 + x * newton κ p x / 2 := by
  have h := neg_le_mul_newton h0 hp0 hp1 x
  linarith

/-! ## The quotient -/

/-- `v / (1 + x v / 2)` grows with `v` where its denominator is positive. -/
theorem div_den_lt_iff {x v w : ℝ} (hv : 0 < 1 + x * v / 2) (hw : 0 < 1 + x * w / 2) :
    v / (1 + x * v / 2) < w / (1 + x * w / 2) ↔ v < w := by
  rw [div_lt_div_iff₀ hv hw]
  constructor
  · intro h; linarith
  · intro h; linarith

theorem div_den_eq_iff {x v w : ℝ} (hv : 0 < 1 + x * v / 2) (hw : 0 < 1 + x * w / 2) :
    v / (1 + x * v / 2) = w / (1 + x * w / 2) ↔ v = w := by
  rw [div_eq_div_iff hv.ne' hw.ne']
  constructor
  · intro h; linarith
  · intro h; linarith

/-! ## The quantile -/

theorem newton_quantile {κ p x : ℝ} (h : normalCDF x = p) : newton κ p x = 0 := by
  unfold newton
  rw [h, sub_self, zero_div, mul_zero]

/-- A quantile stays where it is. -/
theorem halley_quantile {κ p x : ℝ} (h : normalCDF x = p) : halley κ p x = x := by
  unfold halley
  rw [newton_quantile h, zero_div, sub_zero]

/-- Two steps with different constants agree at the quantile only. -/
theorem halley_eq_halley_iff {κ κ' p : ℝ} (h0 : 0 ≤ κ) (h2 : κ < 2) (h0' : 0 ≤ κ') (h2' : κ' < 2) (hne : κ ≠ κ')
    (hp0 : 0 ≤ p) (hp1 : p ≤ 1) (x : ℝ) : halley κ p x = halley κ' p x ↔ normalCDF x = p := by
  have hpdf := (normalPDF_pos x).ne'
  unfold halley
  rw [sub_right_inj, div_den_eq_iff (halley_den_pos h0 h2 hp0 hp1 x) (halley_den_pos h0' h2' hp0 hp1 x)]
  unfold newton
  rw [mul_eq_mul_right_iff, div_eq_zero_iff, sub_eq_zero]
  tauto

/-! ## Order -/

/-- A larger probability gives a larger step from the same point. -/
theorem halley_lt_of_lt {κ p q : ℝ} (h0 : 0 < κ) (h2 : κ < 2) (hp : 0 ≤ p) (hpq : p < q) (hq : q ≤ 1) (x : ℝ) :
    halley κ p x < halley κ q x := by
  have hstep : newton κ q x < newton κ p x :=
    mul_lt_mul_of_pos_left (div_lt_div_of_pos_right (by linarith) (normalPDF_pos x)) h0
  have h := (div_den_lt_iff (halley_den_pos h0.le h2 (hp.trans hpq.le) hq x)
    (halley_den_pos h0.le h2 hp (hpq.le.trans hq) x)).2 hstep
  unfold halley
  linarith

theorem hasDerivAt_newton (κ p x : ℝ) : HasDerivAt (newton κ p) (κ + x * newton κ p x) x := by
  have hpdf := (normalPDF_pos x).ne'
  have h := (((hasDerivAt_normalCDF x).sub_const p).div (hasDerivAt_normalPDF x) hpdf).const_mul κ
  refine h.congr_deriv ?_
  unfold newton
  field_simp
  ring

/-- The derivative of the step with respect to the starting point. -/
theorem hasDerivAt_halley {κ p x : ℝ} (h0 : 0 ≤ κ) (h2 : κ < 2) (hp0 : 0 ≤ p) (hp1 : p ≤ 1) :
    HasDerivAt (halley κ p) (((1 - κ) + newton κ p x ^ 2 * (x ^ 2 + 2) / 4) / (1 + x * newton κ p x / 2) ^ 2) x := by
  have hden := (halley_den_pos h0 h2 hp0 hp1 x).ne'
  have hu := hasDerivAt_newton κ p x
  have hd : HasDerivAt (fun t => 1 + t * newton κ p t / 2)
      ((newton κ p x + x * (κ + x * newton κ p x)) / 2) x :=
    ((((hasDerivAt_id x).mul hu).div_const 2).const_add 1).congr_deriv (by simp)
  refine ((hasDerivAt_id x).sub (hu.div hd hden)).congr_deriv ?_
  rw [eq_div_iff (pow_ne_zero 2 hden), sub_mul, div_mul_cancel₀ _ (pow_ne_zero 2 hden)]
  ring

/-- Up to the constant one the step keeps the order of the starting points. -/
theorem halley_monotone {κ p : ℝ} (h0 : 0 ≤ κ) (h1 : κ ≤ 1) (hp0 : 0 ≤ p) (hp1 : p ≤ 1) : Monotone (halley κ p) := by
  refine monotone_of_hasDerivAt_nonneg (fun x => hasDerivAt_halley h0 (by linarith) hp0 hp1) fun x => ?_
  have hκ : 0 ≤ 1 - κ := sub_nonneg.2 h1
  show 0 ≤ _
  positivity

/-- A larger probability with a larger starting point gives a larger step. -/
theorem halley_lt_halley {κ p q x y : ℝ} (h0 : 0 < κ) (h1 : κ ≤ 1) (hp : 0 ≤ p) (hpq : p < q) (hq : q ≤ 1)
    (hxy : x ≤ y) : halley κ p x < halley κ q y :=
  (halley_lt_of_lt h0 (by linarith) hp hpq hq x).trans_le (halley_monotone h0.le h1 (hp.trans hpq.le) hq hxy)

/-- At the quantile the derivative of the step is `1 - κ`. -/
theorem hasDerivAt_halley_quantile {κ p x : ℝ} (h0 : 0 ≤ κ) (h2 : κ < 2) (hp0 : 0 ≤ p) (hp1 : p ≤ 1)
    (h : normalCDF x = p) : HasDerivAt (halley κ p) (1 - κ) x := by
  have hd := hasDerivAt_halley (x := x) h0 h2 hp0 hp1
  rw [newton_quantile h] at hd
  exact hd.congr_deriv (by simp)

end

end Base
