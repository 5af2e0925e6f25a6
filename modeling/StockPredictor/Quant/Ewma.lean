/-
`GetEWMA` as an average. Its weights sum to `1 - 0.94^n`, so what it returns is the weighted mean
shrunk by that factor: a mean when zero is in the range or one end is at most 0.06 of the other, at
every length for these ranges only, and for no constant but zero.
-/
import Mathlib.Algebra.Order.Ring.GeomSum
import Mathlib.Data.List.GetD
import StockPredictor.Quant.Weights

namespace StockPredictor.Quant

open Base Finset

/-! ## The weights -/

theorem sum_weight (n : ℕ) : ∑ i ∈ range n, weight i = 1 - 0.94 ^ n := by
  unfold weight
  rw [← mul_sum, mul_comm, geom_sum_mul_neg]

theorem getEWMA_eq_sum_weight (l : List ℝ) : getEWMA l = ∑ i ∈ range l.length, weight i * l.getD i 0 := getEWMA_eq l

theorem getD_mem {l : List ℝ} {i : ℕ} (h : i < l.length) : l.getD i 0 ∈ l := by
  rw [List.getD_eq_getElem _ _ h]
  exact List.getElem_mem h

/-- What the missing weight leaves of bounds of the elements. -/
theorem getEWMA_between {l : List ℝ} {m M : ℝ} (hm : ∀ x ∈ l, m ≤ x) (hM : ∀ x ∈ l, x ≤ M) :
    (1 - 0.94 ^ l.length) * m ≤ getEWMA l ∧ getEWMA l ≤ (1 - 0.94 ^ l.length) * M := by
  rw [getEWMA_eq_sum_weight, ← sum_weight, mul_comm _ m, mul_comm _ M]
  exact ⟨mul_sum_le_sum_mul (fun i _ => (weight_pos i).le) fun i hi => hm _ (getD_mem hi),
    sum_mul_le_mul_sum (fun i _ => (weight_pos i).le) fun i hi => hM _ (getD_mem hi)⟩

/-- The last weight is the least. -/
theorem weight_last_le {n i : ℕ} (h : i < n + 1) : weight n ≤ weight i :=
  weight_strictAnti.antitone (Nat.lt_succ_iff.1 h)

/-! ## The deviation -/

/-- When all elements deviate by `s`, the weighted standard deviation is `s` shrunk by the missing
weight. -/
theorem getWeightedStandardDeviation_uniform {l : List ℝ} {s : ℝ} (hs : 0 ≤ s)
    (h : ∀ x ∈ l, |x - getMean l| = s) : getWeightedStandardDeviation l = s * √(1 - 0.94 ^ l.length) := by
  have hsq : ∀ i ∈ range l.length, weight i * sqDeviation l i = s ^ 2 * weight i := by
    intro i hi
    rw [sqDeviation, ← h _ (getD_mem (mem_range.1 hi)), sq_abs, mul_comm]
  rw [getWeightedStandardDeviation_eq, sum_congr rfl hsq, ← mul_sum, sum_weight, Real.sqrt_mul (sq_nonneg s),
    Real.sqrt_sq hs]

theorem sqrt_sum_weight_lt_one (n : ℕ) : √(1 - 0.94 ^ n) < 1 := by
  have : (0 : ℝ) < 0.94 ^ n := by positivity
  rw [Real.sqrt_lt' one_pos]
  linarith

/-! ## When it is an average -/

/-- What an average owes a distribution with the smallest element `m` and the largest `M`: a value
between them, `c` for a constant `c`, and `s` for the deviation of a distribution that deviates by
`s` everywhere. -/
structure Averages (l : List ℝ) (m M : ℝ) : Prop where
  lower : m ≤ getEWMA l
  upper : getEWMA l ≤ M
  constant : ∀ c, (∀ x ∈ l, x = c) → getEWMA l = c
  deviation : ∀ s, (∀ x ∈ l, |x - getMean l| = s) → getWeightedStandardDeviation l = s

/-- The ends of the range leave room for the shrinking: a positive smallest element is at most 0.06 of
the largest, a negative largest one at least 0.06 of the smallest. And not all elements deviate from
the mean by one and the same positive amount. -/
structure LeavesRoom (l : List ℝ) (m M : ℝ) : Prop where
  below : m ≤ 0.06 * M
  above : 0.06 * m ≤ M
  uneven : ∀ s > 0, ∃ x ∈ l, |x - getMean l| ≠ s

theorem uneven_iff {l : List ℝ} (hne : l ≠ []) :
    (∀ s, (∀ x ∈ l, |x - getMean l| = s) → getWeightedStandardDeviation l = s) ↔
      ∀ s > 0, ∃ x ∈ l, |x - getMean l| ≠ s := by
  obtain ⟨y, hy⟩ := List.exists_mem_of_ne_nil l hne
  constructor
  · intro h s hs
    by_contra hall
    push Not at hall
    have hshrunk := getWeightedStandardDeviation_uniform hs.le hall
    rw [h s hall] at hshrunk
    have := mul_lt_mul_of_pos_left (sqrt_sum_weight_lt_one l.length) hs
    linarith
  · intro h s hall
    have hs : 0 ≤ s := hall y hy ▸ abs_nonneg _
    rcases hs.eq_or_lt with rfl | hpos
    · rw [getWeightedStandardDeviation_uniform le_rfl hall, zero_mul]
    · obtain ⟨x, hx, hne⟩ := h s hpos
      exact absurd (hall x hx) hne

section Ends

variable {l : List ℝ} {m M : ℝ}

/-- With the largest element at the last position and the smallest at all others, the value is off
the smallest one by the weight left at that position. -/
theorem getEWMA_replicate_append (n : ℕ) (x y : ℝ) :
    getEWMA (List.replicate n x ++ [y]) = x + 0.94 ^ n * (0.06 * y - x) := by
  rw [getEWMA_eq_sum_weight, List.length_append, List.length_replicate, List.length_singleton, sum_range_succ]
  have hbefore : ∑ i ∈ range n, weight i * (List.replicate n x ++ [y]).getD i 0 = (1 - 0.94 ^ n) * x := by
    rw [← sum_weight, sum_mul]
    refine sum_congr rfl fun i hi => ?_
    rw [mem_range] at hi
    rw [List.getD_append _ _ _ _ (by simpa using hi), List.getD_replicate _ hi]
  have hlast : (List.replicate n x ++ [y]).getD n 0 = y := by
    rw [List.getD_append_right _ _ _ _ (by simp)]
    simp
  rw [hbefore, hlast, weight]
  ring

/-- The value is at least what it is with the largest element at the last position. -/
theorem add_le_getEWMA (hm : ∀ x ∈ l, m ≤ x) (hM : M ∈ l) :
    m + 0.94 ^ (l.length - 1) * (0.06 * M - m) ≤ getEWMA l := by
  obtain ⟨j, hj, rfl⟩ := List.getElem_of_mem hM
  obtain ⟨n, hn⟩ : ∃ n, l.length = n + 1 := ⟨l.length - 1, by omega⟩
  have h := mul_sum_add_le_sum_mul (g := fun i => l.getD i 0) (weight_pos n).le (fun i hi => weight_last_le (n := n) hi)
    (fun i hi => hm _ (getD_mem (hn ▸ hi))) (hn ▸ hj : j < n + 1)
  rw [sum_weight, List.getD_eq_getElem _ _ hj, ← hn, ← getEWMA_eq_sum_weight] at h
  rw [hn, Nat.add_sub_cancel]
  refine le_trans (le_of_eq ?_) h
  rw [hn, weight]
  ring

/-- And at most what it is with the smallest one there. -/
theorem getEWMA_le_add (hM : ∀ x ∈ l, x ≤ M) (hm : m ∈ l) :
    getEWMA l ≤ M + 0.94 ^ (l.length - 1) * (0.06 * m - M) := by
  obtain ⟨j, hj, rfl⟩ := List.getElem_of_mem hm
  obtain ⟨n, hn⟩ : ∃ n, l.length = n + 1 := ⟨l.length - 1, by omega⟩
  have h := sum_mul_add_le_mul_sum (g := fun i => l.getD i 0) (weight_pos n).le (fun i hi => weight_last_le (n := n) hi)
    (fun i hi => hM _ (getD_mem (hn ▸ hi))) (hn ▸ hj : j < n + 1)
  rw [sum_weight, List.getD_eq_getElem _ _ hj, ← hn, ← getEWMA_eq_sum_weight] at h
  rw [hn, Nat.add_sub_cancel]
  refine h.trans (le_of_eq ?_)
  rw [hn, weight]
  ring

/-- A constant is returned as it is only when it is zero. -/
theorem getEWMA_constant_iff {c : ℝ} (hc : ∀ x ∈ l, x = c) : getEWMA l = c ↔ c = 0 := by
  obtain ⟨hlo, hhi⟩ := getEWMA_between (fun x hx => (hc x hx).ge) fun x hx => (hc x hx).le
  have hpow : (0 : ℝ) < 0.94 ^ l.length := by positivity
  rw [le_antisymm hhi hlo, sub_mul, one_mul, sub_eq_self, mul_eq_zero]
  exact or_iff_right hpow.ne'

/-- Between ends that leave room the value stays. -/
theorem getEWMA_mem_of_ends (hm : IsLeast {x | x ∈ l} m) (hM : IsGreatest {x | x ∈ l} M) (hbelow : m ≤ 0.06 * M)
    (habove : 0.06 * m ≤ M) : m ≤ getEWMA l ∧ getEWMA l ≤ M := by
  have hpow : (0 : ℝ) ≤ 0.94 ^ (l.length - 1) := by positivity
  have hlow := add_le_getEWMA hm.2 hM.1
  have hhigh := getEWMA_le_add hM.2 hm.1
  have h1 := mul_nonneg hpow (sub_nonneg.2 hbelow)
  have h2 := mul_nonpos_of_nonneg_of_nonpos hpow (sub_nonpos.2 habove)
  constructor
  · linarith
  · linarith

theorem setOf_mem_replicate_append {n : ℕ} {x y : ℝ} (hn : n = 0 → x = y) :
    {z | z ∈ List.replicate n x ++ [y]} = {x, y} := by
  ext z
  rcases Nat.eq_zero_or_pos n with rfl | hpos
  · simp [hn rfl]
  · simp [hpos.ne']

/-- At every length: the ends leave room exactly when the value stays between them for every
distribution that has these ends. -/
theorem ends_iff (hm : IsLeast {x | x ∈ l} m) (hM : IsGreatest {x | x ∈ l} M) :
    (∀ l' : List ℝ, l'.length = l.length → IsLeast {x | x ∈ l'} m → IsGreatest {x | x ∈ l'} M →
      m ≤ getEWMA l' ∧ getEWMA l' ≤ M) ↔ m ≤ 0.06 * M ∧ 0.06 * m ≤ M := by
  refine ⟨fun h => ?_, fun ⟨hbelow, habove⟩ l' _ hm' hM' => getEWMA_mem_of_ends hm' hM' hbelow habove⟩
  obtain ⟨n, hn⟩ : ∃ n, l.length = n + 1 :=
    Nat.exists_eq_succ_of_ne_zero (mt List.length_eq_zero_iff.1 (List.ne_nil_of_mem hm.1))
  have hle : m ≤ M := hm.2 hM.1
  -- a single element is both ends
  have hone : n = 0 → m = M := by
    rintro rfl
    obtain ⟨x, rfl⟩ := List.length_eq_one_iff.1 hn
    rw [List.eq_of_mem_singleton hm.1, List.eq_of_mem_singleton hM.1]
  have hpow : (0 : ℝ) < 0.94 ^ n := by positivity
  have hpair : IsLeast {m, M} m ∧ IsGreatest {m, M} M := by simp [IsLeast, IsGreatest, lowerBounds, upperBounds, hle]
  have hupward := setOf_mem_replicate_append hone
  have hdownward := (setOf_mem_replicate_append fun h0 => (hone h0).symm).trans (Set.pair_comm M m)
  have hlast := (h (List.replicate n m ++ [M]) (by simp [hn]) (by rw [hupward]; exact hpair.1)
    (by rw [hupward]; exact hpair.2)).1
  have hlast' := (h (List.replicate n M ++ [m]) (by simp [hn]) (by rw [hdownward]; exact hpair.1)
    (by rw [hdownward]; exact hpair.2)).2
  rw [getEWMA_replicate_append] at hlast hlast'
  constructor
  · exact sub_nonneg.1 (nonneg_of_mul_nonneg_right (by linarith) hpow)
  · have := nonneg_of_mul_nonneg_right (show 0 ≤ 0.94 ^ n * (M - 0.06 * m) by linarith) hpow
    linarith

end Ends

/-- `GetEWMA` averages every distribution whose ends leave room for the shrinking and whose elements
deviate unevenly. Of an average it asks that the ends leave room for all of the missing weight; of all
distributions of a length with the same ends, that they leave room; of the deviation, exactly that it
is uneven; and of a constant, exactly that it is zero. -/
theorem averages_of_ends {l : List ℝ} {m M : ℝ} (hm : IsLeast {x | x ∈ l} m) (hM : IsGreatest {x | x ∈ l} M) :
    (LeavesRoom l m M → Averages l m M) ∧
    (Averages l m M → m ≤ (1 - 0.94 ^ l.length) * M ∧ (1 - 0.94 ^ l.length) * m ≤ M) ∧
    ((∀ l' : List ℝ, l'.length = l.length → IsLeast {x | x ∈ l'} m → IsGreatest {x | x ∈ l'} M →
      m ≤ getEWMA l' ∧ getEWMA l' ≤ M) ↔ m ≤ 0.06 * M ∧ 0.06 * m ≤ M) ∧
    ((∀ s, (∀ x ∈ l, |x - getMean l| = s) → getWeightedStandardDeviation l = s) ↔
      ∀ s > 0, ∃ x ∈ l, |x - getMean l| ≠ s) ∧
    (m = M → (getEWMA l = m ↔ m = 0)) := by
  have hne : l ≠ [] := List.ne_nil_of_mem hm.1
  have hshrunk := getEWMA_between (fun x hx => hm.2 hx) fun x hx => hM.2 hx
  refine ⟨fun h => ?_, fun h => ⟨h.lower.trans hshrunk.2, hshrunk.1.trans h.upper⟩, ends_iff hm hM, uneven_iff hne, ?_⟩
  · obtain ⟨hlower, hupper⟩ := getEWMA_mem_of_ends hm hM h.below h.above
    refine ⟨hlower, hupper, fun c hc => ?_, (uneven_iff hne).2 h.uneven⟩
    -- a constant is both ends of its range
    rw [hc m hm.1] at hlower
    rw [hc M hM.1] at hupper
    exact le_antisymm hupper hlower
  · rintro rfl
    exact getEWMA_constant_iff fun x hx => le_antisymm (hM.2 hx) (hm.2 hx)

theorem averages_of_ends_wide : Averages [1, 2, 20] 1 20 := by
  have hmean : getMean [1, 2, 20] = 23 / 3 := by rw [getMean_eq]; norm_num
  refine (averages_of_ends (l := [1, 2, 20]) ⟨by simp, ?_⟩ ⟨by simp, ?_⟩).1 ⟨by norm_num, by norm_num, fun s _ => ?_⟩
  · rintro x hx
    simp at hx
    rcases hx with rfl | rfl | rfl <;> norm_num
  · rintro x hx
    simp at hx
    rcases hx with rfl | rfl | rfl <;> norm_num
  · -- the deviations of 1 and 20 differ
    rcases eq_or_ne s (20 / 3) with rfl | hne
    · exact ⟨20, by simp, by rw [hmean]; norm_num⟩
    · exact ⟨1, by simp, by rw [hmean]; norm_num [abs_of_neg, hne.symm]⟩

/-- Two ones become less than one, and two elements that deviate by one have a smaller deviation. -/
theorem averages_fails : getEWMA [1, 1] < 1 ∧ (∀ x ∈ [(0 : ℝ), 2], |x - getMean [0, 2]| = 1) ∧
    getWeightedStandardDeviation [0, 2] < 1 := by
  have hmean : getMean [0, 2] = 1 := by rw [getMean_eq]; norm_num
  have hdev : ∀ x ∈ [(0 : ℝ), 2], |x - getMean [0, 2]| = 1 := by
    rw [hmean]
    norm_num
  refine ⟨?_, hdev, ?_⟩
  · rw [getEWMA_eq]
    norm_num [sum_range_succ]
  · rw [getWeightedStandardDeviation_uniform zero_le_one hdev, one_mul]
    exact sqrt_sum_weight_lt_one _

end StockPredictor.Quant
