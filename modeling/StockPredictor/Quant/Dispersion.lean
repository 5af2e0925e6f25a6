/-
The two deviations as measures of dispersion: both are roots of sums of the squared deviations with
positive weights, so they ignore a shift, scale with the distribution, and vanish exactly when all
elements are equal.
-/
import StockPredictor.Quant.Ewma

namespace StockPredictor.Quant

open Base Finset

noncomputable section

/-- The squared deviations from the mean. -/
def squaredDeviations (l : List ℝ) : List ℝ := l.map fun x => (x - getMean l) ^ 2

/-- The mean of the squared deviations. -/
def variance (l : List ℝ) : ℝ := getMean (squaredDeviations l)

end

/-! ## The mean -/

theorem getMean_map_add {l : List ℝ} (h : l ≠ []) (a : ℝ) : getMean (l.map (· + a)) = getMean l + a := by
  have hlen : (l.length : ℝ) ≠ 0 := Nat.cast_ne_zero.2 (mt List.length_eq_zero_iff.1 h)
  have hsum : (l.map (· + a)).sum = l.sum + l.length * a := by
    rw [List.sum_map_add, List.map_id', List.map_const', List.sum_replicate, nsmul_eq_mul]
  rw [getMean_eq, getMean_eq, List.length_map, hsum, add_div, mul_div_cancel_left₀ _ hlen]

theorem getMean_map_mul (l : List ℝ) (c : ℝ) : getMean (l.map (c * ·)) = c * getMean l := by
  rw [getMean_eq, getMean_eq, List.length_map, List.sum_map_mul_left, List.map_id', mul_div_assoc]

theorem getMean_perm {l l' : List ℝ} (h : l'.Perm l) : getMean l' = getMean l := by
  rw [getMean_eq, getMean_eq, h.sum_eq, h.length_eq]

theorem getMean_nonneg {l : List ℝ} (h : ∀ x ∈ l, 0 ≤ x) : 0 ≤ getMean l := by
  rw [getMean_eq]
  exact div_nonneg (List.sum_nonneg h) (Nat.cast_nonneg _)

/-- Elements that are all the same are their mean. -/
theorem getMean_of_eq {l : List ℝ} {c : ℝ} (h : l ≠ []) (hc : ∀ x ∈ l, x = c) : getMean l = c := by
  have hlen : (l.length : ℝ) ≠ 0 := Nat.cast_ne_zero.2 (mt List.length_eq_zero_iff.1 h)
  rw [List.eq_replicate_of_mem hc] at hlen ⊢
  rw [List.length_replicate] at hlen
  rw [getMean_eq, List.sum_replicate, List.length_replicate, nsmul_eq_mul, mul_div_cancel_left₀ _ hlen]

theorem getMean_eq_zero_iff {l : List ℝ} (h : ∀ x ∈ l, 0 ≤ x) : getMean l = 0 ↔ ∀ x ∈ l, x = 0 := by
  rw [getMean_eq, div_eq_zero_iff]
  constructor
  · rintro (hsum | hlen)
    · exact fun x hx => List.all_zero_of_le_zero_le_of_sum_eq_zero h hsum hx
    · rw [Nat.cast_eq_zero, List.length_eq_zero_iff] at hlen
      simp [hlen]
  · intro hx
    rw [List.sum_eq_zero hx]
    exact .inl rfl

/-! ## The weighted sum -/

theorem getEWMA_map_mul (l : List ℝ) (c : ℝ) : getEWMA (l.map (c * ·)) = c * getEWMA l := by
  rw [getEWMA_eq_sum_weight, getEWMA_eq_sum_weight, List.length_map, mul_sum]
  refine sum_congr rfl fun i hi => ?_
  rw [mem_range] at hi
  simp [List.getD_eq_getElem?_getD, hi]
  ring

theorem getEWMA_nonneg {l : List ℝ} (h : ∀ x ∈ l, 0 ≤ x) : 0 ≤ getEWMA l := by
  rw [getEWMA_eq_sum_weight]
  exact sum_nonneg fun i hi => mul_nonneg (weight_pos i).le (h _ (getD_mem (mem_range.1 hi)))

/-- Every weight counts: the sum vanishes only when every element does. -/
theorem getEWMA_eq_zero_iff {l : List ℝ} (h : ∀ x ∈ l, 0 ≤ x) : getEWMA l = 0 ↔ ∀ x ∈ l, x = 0 := by
  rw [getEWMA_eq_sum_weight, sum_eq_zero_iff_of_nonneg fun i hi =>
    mul_nonneg (weight_pos i).le (h _ (getD_mem (mem_range.1 hi)))]
  constructor
  · intro hz x hx
    obtain ⟨i, hi, rfl⟩ := List.getElem_of_mem hx
    have hi0 := (mul_eq_zero.1 (hz i (mem_range.2 hi))).resolve_left (weight_pos i).ne'
    rwa [List.getD_eq_getElem _ _ hi] at hi0
  · intro hz i hi
    rw [hz _ (getD_mem (mem_range.1 hi)), mul_zero]

/-! ## The squared deviations -/

theorem squaredDeviations_nonneg (l : List ℝ) : ∀ x ∈ squaredDeviations l, 0 ≤ x := by
  intro x hx
  obtain ⟨y, -, rfl⟩ := List.mem_map.1 hx
  exact sq_nonneg _

theorem variance_nonneg (l : List ℝ) : 0 ≤ variance l := getMean_nonneg (squaredDeviations_nonneg l)

theorem squaredDeviations_map_add {l : List ℝ} (h : l ≠ []) (a : ℝ) :
    squaredDeviations (l.map (· + a)) = squaredDeviations l := by
  unfold squaredDeviations
  rw [getMean_map_add h, List.map_map]
  refine List.map_congr_left fun x _ => ?_
  show (x + a - (getMean l + a)) ^ 2 = _
  rw [add_sub_add_right_eq_sub]

theorem squaredDeviations_map_mul (l : List ℝ) (c : ℝ) :
    squaredDeviations (l.map (c * ·)) = (squaredDeviations l).map (c ^ 2 * ·) := by
  unfold squaredDeviations
  rw [getMean_map_mul, List.map_map, List.map_map]
  refine List.map_congr_left fun x _ => ?_
  show (c * x - c * getMean l) ^ 2 = c ^ 2 * (x - getMean l) ^ 2
  ring

theorem squaredDeviations_perm {l l' : List ℝ} (h : l'.Perm l) :
    (squaredDeviations l').Perm (squaredDeviations l) := by
  unfold squaredDeviations
  rw [getMean_perm h]
  exact h.map _

/-- There is no deviation exactly when all elements are equal. -/
theorem squaredDeviations_eq_zero_iff {l : List ℝ} (h : l ≠ []) :
    (∀ d ∈ squaredDeviations l, d = 0) ↔ ∀ x ∈ l, ∀ y ∈ l, x = y := by
  unfold squaredDeviations
  simp only [List.forall_mem_map, pow_eq_zero_iff two_ne_zero, sub_eq_zero]
  constructor
  · intro hm x hx y hy
    rw [hm x hx, hm y hy]
  · intro hall x hx
    exact (getMean_of_eq h fun y hy => hall y hy x hx).symm

/-- The mean of the squares, less the square of the mean. -/
theorem variance_eq {l : List ℝ} (h : l ≠ []) : variance l = getMean (l.map (· ^ 2)) - getMean l ^ 2 := by
  have hlen : (l.length : ℝ) ≠ 0 := Nat.cast_ne_zero.2 (mt List.length_eq_zero_iff.1 h)
  have hsum : ∀ (m : ℝ) (l : List ℝ),
      (l.map fun x => (x - m) ^ 2).sum = (l.map (· ^ 2)).sum - 2 * m * l.sum + l.length * m ^ 2 := by
    intro m l
    induction l with
    | nil => simp
    | cons x l ih =>
      simp only [List.map_cons, List.sum_cons, List.length_cons, ih]
      push_cast
      ring
  unfold variance squaredDeviations
  rw [getMean_eq (l.map _), getMean_eq (l.map _), List.length_map, List.length_map, hsum, getMean_eq]
  field_simp
  ring

/-! ## The two deviations -/

theorem getStandardDeviation_eq (l : List ℝ) : getStandardDeviation l = √(variance l) := by
  unfold getStandardDeviation variance
  dsimp only
  rw [forLoop_sum, zero_add, getMean_eq (squaredDeviations l), ← sum_range_getD (squaredDeviations l)]
  unfold squaredDeviations
  rw [List.length_map]
  congr 2
  refine sum_congr rfl fun i hi => ?_
  rw [mem_range] at hi
  simp [List.getD_eq_getElem?_getD, hi]

theorem getWeightedStandardDeviation_eq_sqrt (l : List ℝ) :
    getWeightedStandardDeviation l = √(getEWMA (squaredDeviations l)) := rfl

/-- The laws of a measure of dispersion for one distribution. -/
structure Disperses (deviation : List ℝ → ℝ) (l : List ℝ) : Prop where
  shift : ∀ a, deviation (l.map (· + a)) = deviation l
  scale : ∀ c, deviation (l.map (c * ·)) = |c| * deviation l
  zero : deviation l = 0 ↔ ∀ x ∈ l, ∀ y ∈ l, x = y

theorem disperses_sqrt {mean : List ℝ → ℝ} (hmul : ∀ (l : List ℝ) (c : ℝ), mean (l.map (c * ·)) = c * mean l)
    (hnonneg : ∀ l : List ℝ, (∀ x ∈ l, 0 ≤ x) → 0 ≤ mean l)
    (hzero : ∀ l : List ℝ, (∀ x ∈ l, 0 ≤ x) → (mean l = 0 ↔ ∀ x ∈ l, x = 0)) {l : List ℝ} (h : l ≠ []) :
    Disperses (fun l => √(mean (squaredDeviations l))) l := by
  have hsq := squaredDeviations_nonneg l
  refine ⟨fun a => ?_, fun c => ?_, ?_⟩
  · rw [squaredDeviations_map_add h]
  · rw [squaredDeviations_map_mul, hmul, Real.sqrt_mul (sq_nonneg c), Real.sqrt_sq_eq_abs]
  · rw [Real.sqrt_eq_zero (hnonneg _ hsq), hzero _ hsq, squaredDeviations_eq_zero_iff h]

theorem disperses_getStandardDeviation {l : List ℝ} (h : l ≠ []) : Disperses getStandardDeviation l := by
  rw [funext getStandardDeviation_eq]
  exact disperses_sqrt getMean_map_mul (fun _ => getMean_nonneg) (fun _ => getMean_eq_zero_iff) h

theorem disperses_getWeightedStandardDeviation {l : List ℝ} (h : l ≠ []) :
    Disperses getWeightedStandardDeviation l := by
  rw [funext getWeightedStandardDeviation_eq_sqrt]
  exact disperses_sqrt getEWMA_map_mul (fun _ => getEWMA_nonneg) (fun _ => getEWMA_eq_zero_iff) h

theorem getStandardDeviation_perm {l l' : List ℝ} (h : l'.Perm l) :
    getStandardDeviation l' = getStandardDeviation l := by
  rw [getStandardDeviation_eq, getStandardDeviation_eq, variance, variance, getMean_perm (squaredDeviations_perm h)]

theorem getStandardDeviation_sq {l : List ℝ} (h : l ≠ []) :
    getStandardDeviation l ^ 2 = getMean (l.map (· ^ 2)) - getMean l ^ 2 := by
  rw [getStandardDeviation_eq, Real.sq_sqrt (variance_nonneg l), variance_eq h]

end StockPredictor.Quant
