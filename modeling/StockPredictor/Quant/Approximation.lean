/-
The rational approximations of `GetInverseCDF` do not decrease on the open unit interval: each
region by the quotients of its coefficients, the lower tail and the center by their values at the
break-point, the upper half by the mirror.
-/
import Mathlib.Analysis.Complex.ExponentialBounds
import StockPredictor.Base.Horner
import StockPredictor.Quant.Mirror

namespace StockPredictor.Quant.InverseCDF

open Base

/-! ## The tail -/

/-- The coefficients of the tail approximation, lowest first. -/
noncomputable def tailRatio : List (ℝ × ℝ) := [(c6, 1), (c5, d4), (c4, d3), (c3, d2), (c2, d1), (c1, 0)]

theorem numerator_tailRatio (q : ℝ) : numerator tailRatio q = tailNum q := by
  simp only [numerator, tailRatio, tailNum, List.map_cons, List.map_nil, horner_cons, horner_nil]
  ring

theorem denominator_tailRatio (q : ℝ) : denominator tailRatio q = tailDen q := by
  simp only [denominator, tailRatio, tailDen, List.map_cons, List.map_nil, horner_cons, horner_nil]
  ring

theorem tailRatio_falls : tailRatio.Pairwise fun u v => v.1 * u.2 < u.1 * v.2 := by
  simp only [tailRatio, List.pairwise_cons, List.forall_mem_cons, List.not_mem_nil, false_imp_iff, implies_true,
    List.Pairwise.nil, c1, c2, c3, c4, c5, c6, d1, d2, d3, d4]
  norm_num

theorem tailDen_pos {q : ℝ} (hq : 0 ≤ q) : 0 < tailDen q := by
  unfold tailDen d1 d2 d3 d4
  positivity

theorem tail_strictAnti {q q' : ℝ} (hq : 0 ≤ q) (h : q < q') : tailNum q' / tailDen q' < tailNum q / tailDen q := by
  rw [div_lt_div_iff₀ (tailDen_pos (hq.trans h.le)) (tailDen_pos hq), ← numerator_tailRatio, ← numerator_tailRatio,
    ← denominator_tailRatio, ← denominator_tailRatio]
  exact quotient_strictAnti tailRatio_falls hq h

/-- The tail approximation does not increase with `q`. -/
theorem tail_antitone {q q' : ℝ} (hq : 0 ≤ q) (h : q ≤ q') : tailNum q' / tailDen q' ≤ tailNum q / tailDen q := by
  rcases h.eq_or_lt with rfl | h
  · exact le_rfl
  · exact (tail_strictAnti hq h).le

/-! ## The center -/

/-- The coefficients of the central approximation in `0.25 - r`, lowest first. -/
noncomputable def centralRatio : List (ℝ × ℝ) :=
  List.zip (reflect 0.25 [a6, a5, a4, a3, a2, a1]) (reflect 0.25 [1, b5, b4, b3, b2, b1])

theorem numerator_centralRatio (r : ℝ) : numerator centralRatio (0.25 - r) = centralNum r := by
  have h : centralRatio.map Prod.fst = reflect 0.25 [a6, a5, a4, a3, a2, a1] := by
    simp [centralRatio, reflect, timesReflected, addLowest]
  rw [numerator, h, horner_reflect, sub_sub_cancel]
  simp only [centralNum, horner_cons, horner_nil]
  ring

theorem denominator_centralRatio (r : ℝ) : denominator centralRatio (0.25 - r) = centralDen r := by
  have h : centralRatio.map Prod.snd = reflect 0.25 [1, b5, b4, b3, b2, b1] := by
    simp [centralRatio, reflect, timesReflected, addLowest]
  rw [denominator, h, horner_reflect, sub_sub_cancel]
  simp only [centralDen, horner_cons, horner_nil]
  ring

theorem centralRatio_falls : centralRatio.Pairwise fun u v => v.1 * u.2 ≤ u.1 * v.2 := by
  simp only [centralRatio, reflect, timesReflected, addLowest, List.zip_cons_cons, List.zip_nil_right,
    List.pairwise_cons, List.forall_mem_cons, List.not_mem_nil, false_imp_iff, implies_true, List.Pairwise.nil,
    a1, a2, a3, a4, a5, a6, b1, b2, b3, b4, b5]
  norm_num

/-- All the coefficients around the end of the center are positive. -/
theorem centralRatio_pos : ∀ u ∈ centralRatio, 0 < u.1 ∧ 0 < u.2 := by
  simp only [centralRatio, reflect, timesReflected, addLowest, List.zip_cons_cons, List.zip_nil_right,
    List.forall_mem_cons, List.not_mem_nil, false_imp_iff, implies_true,
    a1, a2, a3, a4, a5, a6, b1, b2, b3, b4, b5]
  norm_num

theorem centralNum_pos {r : ℝ} (hr : r ≤ 0.25) : 0 < centralNum r := by
  rw [← numerator_centralRatio]
  refine horner_pos (by simp [centralRatio, reflect, timesReflected, addLowest]) (fun c hc => ?_) (sub_nonneg.2 hr)
  obtain ⟨u, hu, rfl⟩ := List.mem_map.1 hc
  exact (centralRatio_pos u hu).1

theorem centralDen_pos {r : ℝ} (hr : r ≤ 0.25) : 0 < centralDen r := by
  rw [← denominator_centralRatio]
  refine horner_pos (by simp [centralRatio, reflect, timesReflected, addLowest]) (fun c hc => ?_) (sub_nonneg.2 hr)
  obtain ⟨u, hu, rfl⟩ := List.mem_map.1 hc
  exact (centralRatio_pos u hu).2

/-- The quotient of the central approximation does not decrease with `r`. -/
theorem centralQuotient_monotone {r r' : ℝ} (h : r ≤ r') (hr' : r' ≤ 0.25) :
    centralNum r / centralDen r ≤ centralNum r' / centralDen r' := by
  rw [div_le_div_iff₀ (centralDen_pos (h.trans hr')) (centralDen_pos hr')]
  have hcross := quotient_antitone centralRatio_falls (sub_nonneg.2 hr') (sub_le_sub_left h 0.25)
  rwa [numerator_centralRatio, numerator_centralRatio, denominator_centralRatio, denominator_centralRatio] at hcross

/-- The central approximation at a distance `w` below one half, with the opposite sign. -/
noncomputable def central (w : ℝ) : ℝ := w * (centralNum (w * w) / centralDen (w * w))

theorem central_strictMono {w w' : ℝ} (h0 : 0 ≤ w) (h : w < w') (h' : w' ≤ 0.5) : central w < central w' := by
  have hsq : w * w ≤ w' * w' := mul_self_le_mul_self h0 h.le
  have hsq' : w' * w' ≤ 0.25 := by nlinarith
  have hpos := div_pos (centralNum_pos (hsq.trans hsq')) (centralDen_pos (hsq.trans hsq'))
  exact mul_lt_mul h (centralQuotient_monotone hsq hsq') hpos (h0.trans h.le)

theorem central_monotone {w w' : ℝ} (h0 : 0 ≤ w) (h : w ≤ w') (h' : w' ≤ 0.5) : central w ≤ central w' := by
  rcases h.eq_or_lt with rfl | h
  · exact le_rfl
  · exact (central_strictMono h0 h h').le

theorem approximate_eq_central {p : ℝ} (h0 : pLow ≤ p) (h : p ≤ pHigh) : approximate p = -central (0.5 - p) := by
  have hsq : (p - 0.5) * (p - 0.5) = (0.5 - p) * (0.5 - p) := by ring
  rw [approximate_central h0 h, hsq]
  unfold central
  ring

/-! ## The break-point -/

/-- `-log pLow` is at least half the square of a number close to the `q` of the break-point. -/
theorem log_pLow_le : Real.log pLow ≤ -((2.727393868 : ℝ) ^ 2 / 2) := by
  have h2 := Real.log_two_gt_d9
  have hseries := Real.sum_range_le_log_div (x := 14 / 111) (by norm_num) (by norm_num) 5
  norm_num [Finset.sum_range_succ] at hseries
  have hlog : Real.log pLow = -(Real.log 2 * 5 + Real.log (125 / 97)) := by
    have hp : pLow = (2 ^ 5 * (125 / 97))⁻¹ := by unfold pLow; norm_num
    rw [hp, Real.log_inv, Real.log_mul (by norm_num) (by norm_num), Real.log_pow]
    push_cast
    ring
  rw [hlog]
  linarith

/-- The tail at that number is below the center at the break-point. -/
theorem tail_lt_central : tailNum 2.727393868 / tailDen 2.727393868 < -central (0.5 - pLow) := by
  unfold central
  rw [← mul_neg_one, mul_assoc, div_mul_eq_mul_div, ← mul_div_assoc]
  rw [div_lt_div_iff₀ (tailDen_pos (by norm_num)) (centralDen_pos (by unfold pLow; norm_num))]
  simp only [tailNum, tailDen, centralNum, centralDen, pLow, a1, a2, a3, a4, a5, a6, b1, b2, b3, b4, b5,
    c1, c2, c3, c4, c5, c6, d1, d2, d3, d4]
  norm_num

/-- Below the break-point the approximation is at most the tail at that number. -/
theorem approximate_le_tail {p : ℝ} (h0 : 0 < p) (h : p < pLow) :
    approximate p ≤ tailNum 2.727393868 / tailDen 2.727393868 := by
  have hlog := Real.log_le_log h0 h.le
  have hlow := log_pLow_le
  have hq : (2.727393868 : ℝ) ≤ √(-2 * Real.log p) := Real.le_sqrt_of_sq_le (by linarith)
  rw [approximate_lower h0 h]
  exact tail_antitone (by norm_num) hq

theorem approximate_pLow : approximate pLow = -central (0.5 - pLow) :=
  approximate_eq_central le_rfl (by unfold pHigh pLow; norm_num)

/-! ## Order -/

/-- Up to one half the approximation does not decrease. -/
theorem approximate_monotone_half {p q : ℝ} (h0 : 0 < p) (hpq : p ≤ q) (hq : q ≤ 0.5) :
    approximate p ≤ approximate q := by
  have hb := pLow_bounds
  have hhigh : q ≤ pHigh := by unfold pHigh; norm_num at hq; linarith
  rcases lt_or_ge p pLow with hp | hp
  · rcases lt_or_ge q pLow with hql | hql
    · -- both in the tail: the square root falls
      rw [approximate_lower h0 hp, approximate_lower (h0.trans_le hpq) hql]
      have hlog := Real.log_le_log h0 hpq
      exact tail_antitone (Real.sqrt_nonneg _) (Real.sqrt_le_sqrt (by linarith))
    · rw [approximate_eq_central hql hhigh]
      have hc : central (0.5 - q) ≤ central (0.5 - pLow) := central_monotone (by linarith) (by linarith) (by linarith)
      have htail := approximate_le_tail h0 hp
      have hlt := tail_lt_central
      linarith
  · rw [approximate_eq_central hp (hpq.trans hhigh), approximate_eq_central (hp.trans hpq) hhigh]
    exact neg_le_neg (central_monotone (by linarith) (by linarith) (by linarith))

theorem approximate_one_half : approximate 0.5 = 0 := by
  have h := approximate_mirror 0.5
  norm_num at h ⊢
  linarith

/-- On the open unit interval the approximation does not decrease. -/
theorem approximate_monotone {p q : ℝ} (h0 : 0 < p) (hpq : p ≤ q) (h1 : q < 1) : approximate p ≤ approximate q := by
  have hmp := approximate_mirror p
  have hmq := approximate_mirror q
  rcases le_total q 0.5 with hq | hq
  · exact approximate_monotone_half h0 hpq hq
  · -- the mirror of `q` is in the lower half
    have hq' : 1 - q ≤ (0.5 : ℝ) := by norm_num at hq ⊢; linarith
    rcases le_total p 0.5 with hp | hp
    · have hple := approximate_monotone_half h0 hp le_rfl
      have hqle := approximate_monotone_half (sub_pos.2 h1) hq' le_rfl
      rw [approximate_one_half] at hple hqle
      linarith
    · have hp' : 1 - p ≤ (0.5 : ℝ) := by norm_num at hp ⊢; linarith
      have h := approximate_monotone_half (sub_pos.2 h1) (sub_le_sub_left hpq 1) hp'
      linarith

end StockPredictor.Quant.InverseCDF
