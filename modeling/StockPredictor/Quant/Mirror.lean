/-
The mirror symmetry of `GetInverseCDF`: the value at `1 - p` is the opposite of the value at `p`,
in every region and through the refinement, for any `erfc` with `erfc (-y) = 2 - erfc y`. So a
draw and its mirror give opposite shocks.
-/
import StockPredictor.Base.Erfc
import StockPredictor.Quant.Simulator

namespace StockPredictor.Quant

open Base

namespace InverseCDF

/-! ## The regions -/

theorem pLow_bounds : 0 < pLow ∧ pLow < 1 / 2 := by unfold pLow; norm_num

theorem approximate_lower {p : ℝ} (h0 : 0 < p) (h : p < pLow) :
    approximate p = tailNum √(-2 * Real.log p) / tailDen √(-2 * Real.log p) := by
  have hb := pLow_bounds
  unfold approximate pHigh
  dsimp only
  rw [if_neg (by rintro ⟨h1, -⟩; linarith), if_neg (by rintro ⟨h1, -⟩; linarith), if_pos ⟨h0, h⟩]

theorem approximate_central {p : ℝ} (h0 : pLow ≤ p) (h : p ≤ pHigh) :
    approximate p =
      centralNum ((p - 0.5) * (p - 0.5)) * (p - 0.5) / centralDen ((p - 0.5) * (p - 0.5)) := by
  unfold approximate
  dsimp only
  rw [if_neg (by rintro ⟨h1, -⟩; linarith), if_pos ⟨h0, h⟩]

theorem approximate_upper {p : ℝ} (h0 : pHigh < p) (h : p < 1) :
    approximate p = -tailNum √(-2 * Real.log (1 - p)) / tailDen √(-2 * Real.log (1 - p)) := by
  unfold approximate
  dsimp only
  rw [if_pos ⟨h0, h⟩]

theorem approximate_outside {p : ℝ} (h : ¬ (0 < p ∧ p < 1)) : approximate p = 0 := by
  have hb := pLow_bounds
  unfold approximate pHigh
  dsimp only
  rw [if_neg (by rintro ⟨h1, h2⟩; exact h ⟨by linarith, h2⟩),
    if_neg (by rintro ⟨h1, h2⟩; exact h ⟨by linarith, by linarith⟩),
    if_neg (by rintro ⟨h1, h2⟩; exact h ⟨h1, by linarith⟩)]

/-! ## The approximation -/

/-- Below the lower break-point the mirror is above the upper one. -/
theorem approximate_mirror_lower {p : ℝ} (h0 : 0 < p) (h : p < pLow) : approximate (1 - p) = -approximate p := by
  have hu : pHigh < 1 - p := by unfold pHigh; linarith
  rw [approximate_lower h0 h, approximate_upper hu (by linarith), sub_sub_cancel, neg_div]

/-- In the center the square is the same and the factor changes its sign. -/
theorem approximate_mirror_central {p : ℝ} (h0 : pLow ≤ p) (h : p ≤ pHigh) :
    approximate (1 - p) = -approximate p := by
  have hq : (1 : ℝ) - p - 0.5 = -(p - 0.5) := by norm_num; ring
  unfold pHigh at h
  rw [approximate_central h0 h, approximate_central (by linarith) (by unfold pHigh; linarith), hq, neg_mul_neg,
    mul_neg, neg_div]

theorem approximate_mirror (p : ℝ) : approximate (1 - p) = -approximate p := by
  have hb := pLow_bounds
  by_cases hp : 0 < p ∧ p < 1
  · rcases lt_or_ge p pLow with hl | hl
    · exact approximate_mirror_lower hp.1 hl
    · rcases le_or_gt p pHigh with hh | hh
      · exact approximate_mirror_central hl hh
      · -- an upper value is the mirror of a lower one
        have h := approximate_mirror_lower (p := 1 - p) (by linarith) (by unfold pHigh at hh; linarith)
        rw [sub_sub_cancel] at h
        rw [h, neg_neg]
  · rw [approximate_outside hp, approximate_outside fun h => hp ⟨by linarith, by linarith⟩, neg_zero]

/-! ## The refinement -/

theorem refine_mirror {erfc : ℝ → ℝ} (h : ∀ y, erfc (-y) = 2 - erfc y) (p x : ℝ) :
    refine erfc (1 - p) (-x) = -refine erfc p x := by
  -- the distance to the probability changes its sign
  have he : 0.5 * erfc (-(-x) / √2.0) - (1 - p) = -(0.5 * erfc (-x / √2.0) - p) := by
    rw [neg_div (√2.0) (-x), h]
    ring
  unfold refine
  dsimp only
  rw [he, neg_mul_neg]
  generalize 0.5 * erfc (-x / √2.0) - p = e
  rw [neg_mul, neg_mul, neg_mul_neg, neg_div, sub_neg_eq_add, neg_sub', sub_neg_eq_add]

end InverseCDF

theorem getInverseCDF_mirror {erfc : ℝ → ℝ} (h : ∀ y, erfc (-y) = 2 - erfc y) (p : ℝ) :
    getInverseCDF erfc (1 - p) = -getInverseCDF erfc p := by
  unfold getInverseCDF
  dsimp only
  rw [InverseCDF.approximate_mirror]
  by_cases hp : 0 < p ∧ p < 1
  · rw [if_pos hp, if_pos ⟨by linarith [hp.2], by linarith [hp.1]⟩]
    exact InverseCDF.refine_mirror h p _
  · rw [if_neg hp, if_neg fun h' => hp ⟨by linarith [h'.2], by linarith [h'.1]⟩]

/-! ## The draws -/

/-- The shock of a draw `rand` out of `0 .. RAND_MAX`. -/
noncomputable def zValue (erfc : ℝ → ℝ) (RAND_MAX rand : ℕ) : ℝ :=
  getInverseCDF erfc (randomOf RAND_MAX (fun _ => rand) 0)

theorem zValue_mirror {erfc : ℝ → ℝ} (h : ∀ y, erfc (-y) = 2 - erfc y) {RAND_MAX rand : ℕ} (h0 : 0 < RAND_MAX)
    (hr : rand ≤ RAND_MAX) : zValue erfc RAND_MAX (RAND_MAX - rand) = -zValue erfc RAND_MAX rand := by
  have hne : (RAND_MAX : ℝ) ≠ 0 := Nat.cast_ne_zero.2 h0.ne'
  unfold zValue randomOf
  rw [← getInverseCDF_mirror h, Nat.cast_sub hr, sub_div, div_self hne]

/-- The sum over all draws is its own opposite. -/
theorem sum_zValue {erfc : ℝ → ℝ} (h : ∀ y, erfc (-y) = 2 - erfc y) {RAND_MAX : ℕ} (h0 : 0 < RAND_MAX) :
    ∑ rand ∈ Finset.range (RAND_MAX + 1), zValue erfc RAND_MAX rand = 0 := by
  have hreflect := Finset.sum_range_reflect (zValue erfc RAND_MAX) (RAND_MAX + 1)
  have hneg : ∑ rand ∈ Finset.range (RAND_MAX + 1), zValue erfc RAND_MAX (RAND_MAX + 1 - 1 - rand) =
      -∑ rand ∈ Finset.range (RAND_MAX + 1), zValue erfc RAND_MAX rand := by
    rw [← Finset.sum_neg_distrib]
    refine Finset.sum_congr rfl fun rand hr => ?_
    rw [Finset.mem_range, Nat.lt_succ_iff] at hr
    rw [Nat.add_sub_cancel, zValue_mirror h h0 hr]
  linarith

/-- The sampler is odd around one half, before and after the refinement; a draw and its mirror give
opposite shocks, and all shocks together sum to zero. -/
theorem sampler_mirror {erfc : ℝ → ℝ} (h : ∀ y, erfc (-y) = 2 - erfc y) :
    (∀ p, InverseCDF.approximate (1 - p) = -InverseCDF.approximate p ∧
      getInverseCDF erfc (1 - p) = -getInverseCDF erfc p) ∧
    ∀ RAND_MAX : ℕ, 0 < RAND_MAX →
      (∀ rand ≤ RAND_MAX, zValue erfc RAND_MAX (RAND_MAX - rand) = -zValue erfc RAND_MAX rand) ∧
      ∑ rand ∈ Finset.range (RAND_MAX + 1), zValue erfc RAND_MAX rand = 0 :=
  ⟨fun p => ⟨InverseCDF.approximate_mirror p, getInverseCDF_mirror h p⟩,
    fun _ h0 => ⟨fun _ hr => zValue_mirror h h0 hr, sum_zValue h h0⟩⟩

theorem sampler_mirror_erfc : getInverseCDF Base.erfc (1 - 0.3) = -getInverseCDF Base.erfc 0.3 ∧
    ∑ rand ∈ Finset.range (32767 + 1), zValue Base.erfc 32767 rand = 0 :=
  ⟨((sampler_mirror erfc_neg).1 0.3).2, ((sampler_mirror erfc_neg).2 32767 (by decide)).2⟩

end StockPredictor.Quant
