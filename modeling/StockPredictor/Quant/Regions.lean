/-
The three regions of `GetInverseCDF` before the refinement. Every probability inside the unit
interval lies in exactly one of them; the denominators of the regions are positive, the
approximation has the sign of `p - 0.5`, and in each region it is strictly increasing.
-/
import Mathlib.Data.Sign.Basic
import StockPredictor.Quant.Approximation

namespace StockPredictor.Quant.InverseCDF

open Base

/-! ## Regions -/

inductive Region
  | lower
  | central
  | upper
deriving DecidableEq

/-- The condition of the region in the code. -/
def Region.Applies : Region → ℝ → Prop
  | .lower, p => 0 < p ∧ p < pLow
  | .central, p => pLow ≤ p ∧ p ≤ pHigh
  | .upper, p => pHigh < p ∧ p < 1

noncomputable def Region.numerator : Region → ℝ → ℝ
  | .lower, p => tailNum √(-2 * Real.log p)
  | .central, p => centralNum ((p - 0.5) * (p - 0.5)) * (p - 0.5)
  | .upper, p => -tailNum √(-2 * Real.log (1 - p))

noncomputable def Region.denominator : Region → ℝ → ℝ
  | .lower, p => tailDen √(-2 * Real.log p)
  | .central, p => centralDen ((p - 0.5) * (p - 0.5))
  | .upper, p => tailDen √(-2 * Real.log (1 - p))

/-- What the code evaluates where a region applies. -/
theorem approximate_eq_div {r : Region} {p : ℝ} (h : r.Applies p) :
    approximate p = r.numerator p / r.denominator p := by
  cases r with
  | lower => exact approximate_lower h.1 h.2
  | central => exact approximate_central h.1 h.2
  | upper => exact approximate_upper h.1 h.2

theorem pHigh_bounds : 1 / 2 < pHigh ∧ pHigh < 1 := by unfold pHigh pLow; norm_num

theorem existsUnique_region {p : ℝ} (h0 : 0 < p) (h1 : p < 1) : ∃! r : Region, r.Applies p := by
  have hl := pLow_bounds
  have hh := pHigh_bounds
  rcases lt_or_ge p pLow with hp | hp
  · refine ⟨.lower, ⟨h0, hp⟩, fun r hr => ?_⟩
    cases r with
    | lower => rfl
    | central => exact absurd hp hr.1.not_gt
    | upper => have := hr.1; linarith
  · rcases le_or_gt p pHigh with hp' | hp'
    · refine ⟨.central, ⟨hp, hp'⟩, fun r hr => ?_⟩
      cases r with
      | lower => exact absurd hr.2 hp.not_gt
      | central => rfl
      | upper => exact absurd hr.1 hp'.not_gt
    · refine ⟨.upper, ⟨hp', h1⟩, fun r hr => ?_⟩
      cases r with
      | lower => exact absurd hr.2 hp.not_gt
      | central => exact absurd hp' hr.2.not_gt
      | upper => rfl

/-! ## Denominators -/

theorem sq_central_le {p : ℝ} (h0 : pLow ≤ p) (h : p ≤ pHigh) : (p - 0.5) * (p - 0.5) ≤ 0.47575 ^ 2 := by
  unfold pLow at h0
  unfold pHigh pLow at h
  rw [← pow_two]
  exact sq_le_sq' (by linarith) (by linarith)

theorem denominator_pos {r : Region} {p : ℝ} (h : r.Applies p) : 0 < r.denominator p := by
  cases r with
  | lower => exact tailDen_pos (Real.sqrt_nonneg _)
  | central => exact centralDen_pos ((sq_central_le h.1 h.2).trans (by norm_num))
  | upper => exact tailDen_pos (Real.sqrt_nonneg _)

/-- The central denominator falls to the edge of the region, where it is about 0.0026. -/
theorem centralDen_edge_le {r : ℝ} (hr : r ≤ 0.47575 ^ 2) : centralDen (0.47575 ^ 2) ≤ centralDen r := by
  rw [← denominator_centralRatio, ← denominator_centralRatio]
  refine horner_mono (fun c hc => ?_) (by norm_num) (sub_le_sub_left hr _)
  obtain ⟨u, hu, rfl⟩ := List.mem_map.1 hc
  exact (centralRatio_pos u hu).2.le

theorem centralDen_edge : 0.0026 < centralDen (0.47575 ^ 2) ∧ centralDen (0.47575 ^ 2) < 0.00261 := by
  unfold centralDen b1 b2 b3 b4 b5
  norm_num

/-! ## Order -/

theorem lower_strictMono {p q : ℝ} (h0 : 0 < p) (hpq : p < q) (hq : q < pLow) : approximate p < approximate q := by
  have hb := pLow_bounds
  have hlog := Real.log_lt_log h0 hpq
  have hneg := Real.log_neg (h0.trans hpq) (by linarith)
  rw [approximate_lower h0 (hpq.trans hq), approximate_lower (h0.trans hpq) hq]
  exact tail_strictAnti (Real.sqrt_nonneg _) (Real.sqrt_lt_sqrt (by linarith) (by linarith))

/-- Up to one half the central approximation is strictly increasing. -/
theorem central_strictMono_half {p q : ℝ} (h0 : pLow ≤ p) (hpq : p < q) (hq : q ≤ 0.5) :
    approximate p < approximate q := by
  have hhigh : q ≤ pHigh := hq.trans (by unfold pHigh pLow; norm_num)
  unfold pLow at h0
  rw [approximate_eq_central h0 (hpq.le.trans hhigh), approximate_eq_central (h0.trans hpq.le) hhigh]
  exact neg_lt_neg (central_strictMono (by linarith) (by linarith) (by linarith))

/-! ## Sign -/

theorem approximate_neg {p : ℝ} (h0 : 0 < p) (h : p < 0.5) : approximate p < 0 := by
  have hcentral : ∀ {q}, pLow ≤ q → q < 0.5 → approximate q < 0 := by
    intro q hq hhalf
    have hlt := central_strictMono_half hq hhalf le_rfl
    rwa [approximate_one_half] at hlt
  rcases lt_or_ge p pLow with hp | hp
  · -- below the break-point the tail stays below the center
    have hedge := hcentral le_rfl (by unfold pLow; norm_num)
    rw [approximate_pLow] at hedge
    exact (approximate_le_tail h0 hp).trans_lt (tail_lt_central.trans hedge)
  · exact hcentral hp h

theorem approximate_pos {p : ℝ} (h : 0.5 < p) (h1 : p < 1) : 0 < approximate p := by
  have hneg := approximate_neg (p := 1 - p) (by linarith) (by norm_num at h ⊢; linarith)
  rw [approximate_mirror] at hneg
  linarith

theorem sign_approximate {p : ℝ} (h0 : 0 < p) (h1 : p < 1) :
    SignType.sign (approximate p) = SignType.sign (p - 0.5) := by
  rcases lt_trichotomy p 0.5 with h | rfl | h
  · rw [sign_neg (approximate_neg h0 h), sign_neg (sub_neg.2 h)]
  · rw [approximate_one_half, sub_self]
  · rw [sign_pos (approximate_pos h h1), sign_pos (sub_pos.2 h)]

/-! ## The regions -/

theorem central_strictMonoOn : StrictMonoOn approximate {p | Region.central.Applies p} := by
  rintro p ⟨hp, -⟩ q ⟨-, hq⟩ hpq
  have hb := pLow_bounds
  have hh := pHigh_bounds
  rcases le_or_gt q 0.5 with hhalf | hhalf
  · exact central_strictMono_half hp hpq hhalf
  · rcases lt_or_ge p 0.5 with hhalf' | hhalf'
    · have hneg := approximate_neg (hb.1.trans_le hp) hhalf'
      exact hneg.trans (approximate_pos hhalf (hq.trans_lt hh.2))
    · -- both above one half: the mirror images
      have hlt := central_strictMono_half (p := 1 - q) (q := 1 - p) (by unfold pHigh at hq; linarith) (by linarith)
        (by norm_num at hhalf' ⊢; linarith)
      rw [approximate_mirror, approximate_mirror] at hlt
      exact neg_lt_neg_iff.1 hlt

/-- In each region the approximation is strictly increasing. -/
theorem region_strictMonoOn (r : Region) : StrictMonoOn approximate {p | r.Applies p} := by
  cases r with
  | lower => exact fun p hp q hq hpq => lower_strictMono hp.1 hpq hq.2
  | central => exact central_strictMonoOn
  | upper =>
    rintro p ⟨hp, -⟩ q ⟨-, hq⟩ hpq
    have hlt := lower_strictMono (p := 1 - q) (q := 1 - p) (by linarith) (by linarith)
      (by unfold pHigh at hp; linarith)
    rw [approximate_mirror, approximate_mirror] at hlt
    exact neg_lt_neg_iff.1 hlt

/-- For every probability inside the unit interval exactly one region applies and the approximation
has the sign of `p - 0.5`; the denominators are positive wherever they are evaluated, the central
one down to about 0.0026 at its edge; and in each region the approximation is strictly increasing. -/
theorem regions_sound :
    (∀ p : ℝ, 0 < p → p < 1 →
      (∃! r : Region, r.Applies p) ∧ SignType.sign (approximate p) = SignType.sign (p - 0.5)) ∧
    (∀ (r : Region) (p : ℝ), r.Applies p → 0 < r.denominator p ∧ approximate p = r.numerator p / r.denominator p) ∧
    (∀ r ≤ (0.47575 : ℝ) ^ 2, centralDen (0.47575 ^ 2) ≤ centralDen r ∧ 0 < centralDen r) ∧
    (0.0026 < centralDen (0.47575 ^ 2) ∧ centralDen (0.47575 ^ 2) < 0.00261) ∧
    (∀ q ≥ √(-2 * Real.log pLow), 0 < tailDen q) ∧
    ∀ r : Region, StrictMonoOn approximate {p | r.Applies p} :=
  ⟨fun _ h0 h1 => ⟨existsUnique_region h0 h1, sign_approximate h0 h1⟩,
    fun _ _ h => ⟨denominator_pos h, approximate_eq_div h⟩,
    fun _ hr => ⟨centralDen_edge_le hr, centralDen_pos (hr.trans (by norm_num))⟩, centralDen_edge,
    fun _ hq => tailDen_pos ((Real.sqrt_nonneg _).trans hq), region_strictMonoOn⟩

end StockPredictor.Quant.InverseCDF
