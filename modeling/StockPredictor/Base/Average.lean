/-
Averages over all sequences of independent, equally likely outcomes: the average of a product of
functions of distinct coordinates is the product of the averages.
-/
import Mathlib.Algebra.BigOperators.Expect
import Mathlib.Algebra.BigOperators.Ring.Finset

namespace Base

open Finset
open scoped BigOperators

variable {K ι κ α : Type*} [Field K] [CharZero K] [Fintype ι] [DecidableEq ι] [Fintype κ] [Fintype α]

/-- Independence: the average over all outcome sequences of a product with one factor for each
coordinate is the product of the coordinates' averages. -/
theorem expect_prod_pi (f : ι → α → K) : 𝔼 u : ι → α, ∏ i, f i (u i) = ∏ i, 𝔼 a, f i a := by
  have hsum : ∑ u : ι → α, ∏ i, f i (u i) = ∏ i, ∑ a, f i a := by
    rw [prod_univ_sum, Fintype.piFinset_univ]
  simp only [Fintype.expect_eq_sum_div_card, prod_div_distrib, hsum, prod_const, card_univ, Fintype.card_pi,
    Nat.cast_pow]

/-- The average of a product of one function at chosen distinct coordinates is a power of its
average: the coordinates not chosen do not matter. -/
theorem expect_prod_embedding [Nonempty α] (e : κ ↪ ι) (f : α → K) :
    𝔼 u : ι → α, ∏ k, f (u (e k)) = (𝔼 a, f a) ^ Fintype.card κ := by
  have hfac : ∀ u : ι → α, ∏ k, f (u (e k)) = ∏ i, if i ∈ univ.map e then f (u i) else 1 := by
    intro u
    rw [← prod_filter, filter_mem_eq_inter, univ_inter, prod_map]
  -- a coordinate that is not chosen has the constant factor one
  have hone : ∀ i, 𝔼 a, (if i ∈ univ.map e then f a else 1) = if i ∈ univ.map e then 𝔼 a, f a else 1 := by
    intro i
    split
    · rfl
    · exact Fintype.expect_one
  rw [expect_congr rfl fun u _ => hfac u, expect_prod_pi fun i a => if i ∈ univ.map e then f a else 1,
    prod_congr rfl fun i _ => hone i, ← prod_filter, filter_mem_eq_inter, univ_inter, prod_const, card_map,
    card_univ]

end Base
