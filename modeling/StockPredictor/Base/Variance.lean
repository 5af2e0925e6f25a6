/-
The mean of uncorrelated estimates over a finite space of equally likely outcomes: its mean square
error is that of one estimate divided by their number, and it bounds the share of the outcomes on
which the mean is far off.
-/
import Mathlib.Algebra.Order.BigOperators.Expect
import Mathlib.Tactic.FieldSimp
import Mathlib.Tactic.Ring
import StockPredictor.Base.Average

namespace Base

open Finset
open scoped BigOperators

/-! ## Products over disjoint coordinates -/

section Independent

variable {K ι κ α : Type*} [Field K] [CharZero K] [Fintype ι] [DecidableEq ι] [Fintype κ] [Fintype α]

/-- Two products over disjoint coordinates are uncorrelated. -/
theorem expect_prod_mul_prod [Nonempty α] {e e' : κ ↪ ι} (h : ∀ a b, e a ≠ e' b) (f : α → K) :
    𝔼 u : ι → α, (∏ k, f (u (e k))) * ∏ k, f (u (e' k)) =
      (𝔼 a, f a) ^ Fintype.card κ * (𝔼 a, f a) ^ Fintype.card κ := by
  -- the two choices of coordinates together are one choice of twice as many
  have hboth := expect_prod_embedding ⟨Sum.elim e e', e.injective.sumElim e'.injective h⟩ f
  simp only [Function.Embedding.coeFn_mk, Fintype.prod_sum_type, Sum.elim_inl, Sum.elim_inr, Fintype.card_sum] at hboth
  rw [hboth, pow_add]

/-- The mean square of a product over distinct coordinates. -/
theorem expect_prod_sq [Nonempty α] (e : κ ↪ ι) (f : α → K) :
    𝔼 u : ι → α, (∏ k, f (u (e k))) ^ 2 = (𝔼 a, f a ^ 2) ^ Fintype.card κ := by
  rw [← expect_prod_embedding e fun a => f a ^ 2]
  exact expect_congr rfl fun u _ => (prod_pow univ 2 fun k => f (u (e k))).symm

end Independent

/-! ## Sums over chosen coordinates -/

section Sums

variable {K ι α : Type*} [Field K] [CharZero K] [Fintype ι] [DecidableEq ι] [Fintype α] [Nonempty α] {f : α → K}

/-- The value at one coordinate. -/
theorem expect_coordinate (i : ι) (f : α → K) : 𝔼 u : ι → α, f (u i) = 𝔼 a, f a := by
  have h := expect_prod_embedding (Function.Embedding.punit i : Unit ↪ ι) f
  simp only [univ_unique, prod_singleton, Fintype.card_punit, pow_one] at h
  exact h

/-- Values with mean zero at two coordinates are uncorrelated. -/
theorem expect_coordinate_mul (h0 : 𝔼 a, f a = 0) (i j : ι) :
    𝔼 u : ι → α, f (u i) * f (u j) = if i = j then 𝔼 a, f a ^ 2 else 0 := by
  by_cases hij : i = j
  · subst hij
    rw [if_pos rfl]
    simp only [← sq]
    exact expect_coordinate i fun a => f a ^ 2
  · have hne : ∀ a b, (Function.Embedding.punit i : Unit ↪ ι) a ≠ (Function.Embedding.punit j : Unit ↪ ι) b :=
      fun _ _ => hij
    have h := expect_prod_mul_prod hne f
    simp only [univ_unique, prod_singleton, h0, Fintype.card_punit, pow_one, mul_zero] at h
    rw [if_neg hij]
    exact h

theorem expect_sum_coordinates (h0 : 𝔼 a, f a = 0) (s : Finset ι) : 𝔼 u : ι → α, ∑ i ∈ s, f (u i) = 0 := by
  rw [expect_sum_comm]
  exact sum_eq_zero fun i _ => (expect_coordinate i f).trans h0

/-- Two sums of values with mean zero: what they share counts, once for each coordinate. -/
theorem expect_sum_mul_sum (h0 : 𝔼 a, f a = 0) (s t : Finset ι) :
    𝔼 u : ι → α, (∑ i ∈ s, f (u i)) * ∑ j ∈ t, f (u j) = (s ∩ t).card * 𝔼 a, f a ^ 2 := by
  simp only [sum_mul_sum, expect_sum_comm, expect_coordinate_mul h0, sum_ite_eq]
  rw [sum_ite_mem, sum_const, nsmul_eq_mul]

end Sums

/-! ## The mean of uncorrelated estimates -/

section Mean

variable {K Ω ι : Type*} [Field K] [CharZero K] [Fintype Ω] [Fintype ι]

omit [CharZero K] in
theorem sum_sum_ite_eq [DecidableEq ι] (s c : K) :
    ∑ i : ι, ∑ j : ι, (if i = j then s else c) =
      Fintype.card ι * s + Fintype.card ι * (Fintype.card ι - 1) * c := by
  have hsplit : ∀ i j : ι, (if i = j then s else c) = c + if i = j then s - c else 0 := by
    intro i j
    split
    · ring
    · ring
  simp only [hsplit, sum_add_distrib, sum_ite_eq, mem_univ, if_true, sum_const, card_univ, nsmul_eq_mul]
  ring

/-- Estimates with the same mean and mean square that are pairwise uncorrelated: the mean square
error of their mean is that of one of them, divided by their number. -/
theorem expect_sq_mean_sub [Nonempty Ω] [Nonempty ι] {X : ι → Ω → K} {m s : K} (hmean : ∀ i, 𝔼 ω, X i ω = m)
    (hsq : ∀ i, 𝔼 ω, X i ω ^ 2 = s) (hcross : ∀ i j, i ≠ j → 𝔼 ω, X i ω * X j ω = m * m) :
    𝔼 ω, ((∑ i, X i ω) / Fintype.card ι - m) ^ 2 = (s - m ^ 2) / Fintype.card ι := by
  classical
  have hn : (Fintype.card ι : K) ≠ 0 := Nat.cast_ne_zero.2 Fintype.card_ne_zero
  have hpair : ∀ i j, 𝔼 ω, X i ω * X j ω = if i = j then s else m * m := by
    intro i j
    split
    · rename_i h
      subst h
      simp only [← sq, hsq]
    · rename_i h
      exact hcross i j h
  have hsum : 𝔼 ω, ∑ i, X i ω = Fintype.card ι * m := by
    rw [expect_sum_comm]
    simp only [hmean, sum_const, card_univ, nsmul_eq_mul]
  have hsumsq : 𝔼 ω, (∑ i, X i ω) ^ 2 =
      Fintype.card ι * s + Fintype.card ι * (Fintype.card ι - 1) * (m * m) := by
    simp only [sq, sum_mul_sum, expect_sum_comm, hpair]
    exact sum_sum_ite_eq s (m * m)
  have hexpand : ∀ ω, ((∑ i, X i ω) / Fintype.card ι - m) ^ 2 =
      1 / (Fintype.card ι : K) ^ 2 * (∑ i, X i ω) ^ 2 - 2 * m / Fintype.card ι * (∑ i, X i ω) + m ^ 2 := by
    intro ω
    field_simp
    ring
  simp only [hexpand, expect_add_distrib, expect_sub_distrib, ← mul_expect, hsum, hsumsq,
    expect_const univ_nonempty]
  field_simp
  ring

end Mean

/-! ## Shares of the outcomes -/

section Share

variable {K Ω : Type*} [Field K] [LinearOrder K] [IsStrictOrderedRing K] [Fintype Ω]

open Classical in
/-- The share of the outcomes that have a property. -/
noncomputable def share (p : Ω → Prop) : ℚ := ((univ.filter p).card : ℚ) / Fintype.card Ω

open Classical in
theorem cast_share (p : Ω → Prop) : (share p : K) = 𝔼 ω, if p ω then 1 else 0 := by
  unfold share
  rw [Fintype.expect_eq_sum_div_card, sum_boole]
  push_cast
  rfl

/-- The mean square bounds the share of the outcomes whose value is at least `ε` away from zero. -/
theorem share_le_expect_sq (Y : Ω → K) {ε : K} (hε : 0 < ε) :
    (share fun ω => ε ≤ |Y ω| : K) ≤ (𝔼 ω, Y ω ^ 2) / ε ^ 2 := by
  classical
  rw [cast_share, expect_div]
  refine expect_le_expect fun ω _ => ?_
  split
  · rename_i h
    rw [le_div_iff₀ (by positivity), one_mul, ← sq_abs (Y ω)]
    exact pow_le_pow_left₀ hε.le h 2
  · exact div_nonneg (sq_nonneg _) (sq_nonneg _)

/-- A property that an exchange of the outcomes excludes holds of at most half of them. -/
theorem share_le_half [Nonempty Ω] {p : Ω → Prop} (e : Ω ≃ Ω) (h : ∀ ω, p ω → ¬ p (e ω)) : share p ≤ 1 / 2 := by
  classical
  have hcard : (univ.filter p).card = (univ.filter fun ω => p (e ω)).card :=
    (card_equiv e fun ω => by simp).symm
  have hdisj : Disjoint (univ.filter p) (univ.filter fun ω => p (e ω)) :=
    disjoint_filter.2 fun ω _ hp => h ω hp
  have htwo : 2 * (univ.filter p).card ≤ Fintype.card Ω := by
    have hunion := card_union_of_disjoint hdisj
    rw [← hcard] at hunion
    rw [two_mul, ← hunion]
    exact card_le_univ _
  have hpos : (0 : ℚ) < Fintype.card Ω := Nat.cast_pos.2 Fintype.card_pos
  unfold share
  rw [div_le_div_iff₀ hpos two_pos, one_mul, mul_comm]
  exact_mod_cast htwo

end Share

end Base
