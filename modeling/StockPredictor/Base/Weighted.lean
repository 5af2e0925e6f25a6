/-
Weighted sums over a range of positions. They lie between the bounds of their values times the sum
of the weights. Exchanging two values lets the sum drop by the product of the two differences, so
with falling weights a larger value moved to a later position lowers it.
-/
import Mathlib.Algebra.BigOperators.Ring.Finset
import Mathlib.Algebra.Order.BigOperators.Group.Finset
import Mathlib.Algebra.Order.Ring.Defs
import Mathlib.Tactic.LinearCombination
import Mathlib.Tactic.Linarith

namespace Base

open Finset

variable {K : Type*}

/-- The list with the values at positions `i` and `j` exchanged. -/
def exchange (l : List K) (i j : ℕ) (d : K) : List K := (l.set i (l.getD j d)).set j (l.getD i d)

@[simp] theorem length_exchange (l : List K) (i j : ℕ) (d : K) : (exchange l i j d).length = l.length := by
  simp [exchange]

/-- Reading an exchanged list is reading the list at the exchanged position. -/
theorem getD_exchange (l : List K) {i j : ℕ} (hi : i < l.length) (hj : j < l.length) (d : K) (k : ℕ) :
    (exchange l i j d).getD k d = l.getD (Equiv.swap i j k) d := by
  simp only [exchange, List.getD_eq_getElem?_getD, List.getElem?_set, List.length_set]
  rcases eq_or_ne k j with rfl | hkj
  · simp [hj]
  · rcases eq_or_ne k i with rfl | hki
    · simp [hi, hkj.symm]
    · simp [hkj.symm, hki.symm, Equiv.swap_apply_of_ne_of_ne hki hkj]

variable [CommRing K]

/-- Exchanging two values changes a weighted sum by the product of the differences of their
weights and of their values. -/
theorem sum_mul_swap (w g : ℕ → K) {n i j : ℕ} (hi : i < n) (hj : j < n) (hij : i ≠ j) :
    ∑ k ∈ range n, w k * g (Equiv.swap i j k) = ∑ k ∈ range n, w k * g k - (w i - w j) * (g i - g j) := by
  -- only the two exchanged positions change
  have hdiff : ∑ k ∈ range n, w k * (g (Equiv.swap i j k) - g k) = w i * (g j - g i) + w j * (g i - g j) := by
    rw [sum_eq_add_of_mem i j (mem_range.2 hi) (mem_range.2 hj) hij]
    · rw [Equiv.swap_apply_left, Equiv.swap_apply_right]
    · rintro k - ⟨hki, hkj⟩
      rw [Equiv.swap_apply_of_ne_of_ne hki hkj, sub_self, mul_zero]
  have hsub : ∑ k ∈ range n, w k * (g (Equiv.swap i j k) - g k) =
      ∑ k ∈ range n, w k * g (Equiv.swap i j k) - ∑ k ∈ range n, w k * g k := by
    rw [← sum_sub_distrib]
    exact sum_congr rfl fun k _ => mul_sub _ _ _
  linear_combination hdiff - hsub

/-- With falling weights, moving the larger of two values to the later position lowers the sum. -/
theorem sum_mul_swap_lt [LinearOrder K] [IsStrictOrderedRing K] {w : ℕ → K} (hw : StrictAnti w) (g : ℕ → K)
    {n i j : ℕ} (hij : i < j) (hj : j < n) (hg : g j < g i) :
    ∑ k ∈ range n, w k * g (Equiv.swap i j k) < ∑ k ∈ range n, w k * g k := by
  rw [sum_mul_swap w g (hij.trans hj) hj hij.ne]
  have : 0 < (w i - w j) * (g i - g j) := mul_pos (sub_pos.2 (hw hij)) (sub_pos.2 hg)
  linarith

/-! ## Bounds -/

theorem mul_sum_le_sum_mul [LinearOrder K] [IsStrictOrderedRing K] {w g : ℕ → K} {n : ℕ} {m : K}
    (hw : ∀ i < n, 0 ≤ w i) (hm : ∀ i < n, m ≤ g i) : m * ∑ i ∈ range n, w i ≤ ∑ i ∈ range n, w i * g i := by
  rw [mul_sum]
  refine sum_le_sum fun i hi => ?_
  rw [mem_range] at hi
  rw [mul_comm]
  exact mul_le_mul_of_nonneg_left (hm i hi) (hw i hi)

/-- A value above the bound raises it by its excess times the least weight. -/
theorem mul_sum_add_le_sum_mul [LinearOrder K] [IsStrictOrderedRing K] {w g : ℕ → K} {n j : ℕ} {c m : K} (hc : 0 ≤ c)
    (hw : ∀ i < n, c ≤ w i) (hm : ∀ i < n, m ≤ g i) (hj : j < n) :
    m * ∑ i ∈ range n, w i + c * (g j - m) ≤ ∑ i ∈ range n, w i * g i := by
  have hexcess : c * (g j - m) ≤ ∑ i ∈ range n, w i * (g i - m) := by
    have hterm : ∀ i ∈ range n, 0 ≤ w i * (g i - m) := fun i hi =>
      mul_nonneg (hc.trans (hw i (mem_range.1 hi))) (sub_nonneg.2 (hm i (mem_range.1 hi)))
    exact (mul_le_mul_of_nonneg_right (hw j hj) (sub_nonneg.2 (hm j hj))).trans
      (single_le_sum hterm (mem_range.2 hj))
  have hsplit : ∑ i ∈ range n, w i * (g i - m) = ∑ i ∈ range n, w i * g i - m * ∑ i ∈ range n, w i := by
    rw [mul_comm m, sum_mul, ← sum_sub_distrib]
    exact sum_congr rfl fun i _ => mul_sub ..
  linarith

theorem sum_mul_add_le_mul_sum [LinearOrder K] [IsStrictOrderedRing K] {w g : ℕ → K} {n j : ℕ} {c M : K} (hc : 0 ≤ c)
    (hw : ∀ i < n, c ≤ w i) (hM : ∀ i < n, g i ≤ M) (hj : j < n) :
    ∑ i ∈ range n, w i * g i ≤ M * ∑ i ∈ range n, w i + c * (g j - M) := by
  have h := mul_sum_add_le_sum_mul (g := fun i => -g i) hc hw (fun i hi => neg_le_neg (hM i hi)) hj
  simp only [mul_neg, sum_neg_distrib, neg_mul] at h
  linarith

theorem sum_mul_le_mul_sum [LinearOrder K] [IsStrictOrderedRing K] {w g : ℕ → K} {n : ℕ} {M : K}
    (hw : ∀ i < n, 0 ≤ w i) (hM : ∀ i < n, g i ≤ M) : ∑ i ∈ range n, w i * g i ≤ M * ∑ i ∈ range n, w i := by
  have h := mul_sum_le_sum_mul (g := fun i => -g i) hw fun i hi => neg_le_neg (hM i hi)
  simp only [mul_neg, sum_neg_distrib, neg_mul] at h
  exact neg_le_neg_iff.1 h

end Base
