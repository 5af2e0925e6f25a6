/-
The order of the shocks. On the open unit interval `GetInverseCDF` is strictly increasing; at the
end points it returns zero, the value at one half, so there the order is lost on one half.
-/
import StockPredictor.Quant.Refinement

namespace StockPredictor.Quant

open Base InverseCDF

/-- Inside the unit interval a larger probability gives a larger value. -/
theorem getInverseCDF_strictMonoOn : StrictMonoOn (getInverseCDF erfc) (Set.Ioo 0 1) := by
  rintro p ⟨h0, hp1⟩ q ⟨hq0, h1⟩ hpq
  have hκ : 0 < √(3 / Real.pi) := Real.sqrt_pos.2 (div_pos three_pos Real.pi_pos)
  unfold getInverseCDF
  dsimp only
  rw [if_pos ⟨h0, hp1⟩, if_pos ⟨hq0, h1⟩, refine_eq_halley, refine_eq_halley]
  exact halley_lt_halley hκ sqrt_three_div_pi_lt_one.le h0.le hpq h1.le (approximate_monotone h0 hpq.le h1)

theorem getInverseCDF_zero : getInverseCDF erfc 0 = 0 := by
  unfold getInverseCDF
  dsimp only
  rw [if_neg (by simp), approximate_outside (by simp)]

theorem getInverseCDF_one_half : getInverseCDF erfc (1 / 2) = 0 := by
  have h := getInverseCDF_mirror erfc_neg (1 / 2)
  norm_num at h ⊢
  linarith

theorem getInverseCDF_one : getInverseCDF erfc 1 = 0 := by
  have h := getInverseCDF_mirror erfc_neg 0
  rwa [getInverseCDF_zero, sub_zero, neg_zero] at h

theorem half_mem_Ioo : (1 / 2 : ℝ) ∈ Set.Ioo 0 1 := by norm_num

/-- Inside, the value is positive exactly above one half. -/
theorem getInverseCDF_pos_iff {p : ℝ} (hp : p ∈ Set.Ioo 0 1) : 0 < getInverseCDF erfc p ↔ 1 / 2 < p := by
  rw [← getInverseCDF_one_half, getInverseCDF_strictMonoOn.lt_iff_lt half_mem_Ioo hp]

theorem getInverseCDF_neg_iff {p : ℝ} (hp : p ∈ Set.Ioo 0 1) : getInverseCDF erfc p < 0 ↔ p < 1 / 2 := by
  rw [← getInverseCDF_one_half, getInverseCDF_strictMonoOn.lt_iff_lt hp half_mem_Ioo]

/-- Where the order of two probabilities of the closed unit interval is kept: both inside, or the
other one on the far side of one half. -/
def OrderKept (p q : ℝ) : Prop := (0 < p ∧ q < 1) ∨ (p = 0 ∧ 1 / 2 < q ∧ q < 1) ∨ (0 < p ∧ p < 1 / 2 ∧ q = 1)

/-- There the values tell the order of the probabilities, and nowhere else. -/
theorem orderKept_iff {p q : ℝ} (hp : 0 ≤ p) (hpq : p < q) (hq : q ≤ 1) :
    OrderKept p q ↔ getInverseCDF erfc p < getInverseCDF erfc q := by
  unfold OrderKept
  rcases hp.eq_or_lt with rfl | h0
  · rcases hq.eq_or_lt with rfl | h1
    · -- both end points
      rw [getInverseCDF_zero, getInverseCDF_one]
      norm_num
    · rw [getInverseCDF_zero, getInverseCDF_pos_iff ⟨hpq, h1⟩]
      simp [h1]
  · rcases hq.eq_or_lt with rfl | h1
    · rw [getInverseCDF_one, getInverseCDF_neg_iff ⟨h0, hpq⟩]
      simp [h0, h0.ne']
    · have hlt := getInverseCDF_strictMonoOn ⟨h0, hpq.trans h1⟩ ⟨h0.trans hpq, h1⟩ hpq
      simp [hlt, h0, h1]

/-- For all `p < q` in the closed unit interval, `GetInverseCDF` keeps their order exactly there. -/
theorem getInverseCDF_lt_iff {p q : ℝ} (hp : 0 ≤ p) (hpq : p < q) (hq : q ≤ 1) :
    getInverseCDF erfc p < getInverseCDF erfc q ↔ OrderKept p q :=
  (orderKept_iff hp hpq hq).symm

theorem getInverseCDF_lt_iff_quarter : getInverseCDF erfc (1 / 4) < getInverseCDF erfc (3 / 4) :=
  (getInverseCDF_lt_iff (by norm_num) (by norm_num) (by norm_num)).2 (Or.inl (by norm_num))

/-- The draw 0 gives a larger shock than a quarter, and the same as the last draw. -/
theorem getInverseCDF_end_points : ¬ getInverseCDF erfc 0 < getInverseCDF erfc (1 / 4) ∧
    ¬ getInverseCDF erfc (3 / 4) < getInverseCDF erfc 1 ∧ ¬ getInverseCDF erfc 0 < getInverseCDF erfc 1 := by
  rw [getInverseCDF_zero, getInverseCDF_one, getInverseCDF_pos_iff (by norm_num), getInverseCDF_neg_iff (by norm_num)]
  norm_num

end StockPredictor.Quant
