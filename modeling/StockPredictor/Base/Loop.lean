/-
Counted loops over an explicit state, `for (i = 0; i < n; i++) s = body i s`: the invariant rule
and the two shapes every numeric routine is built from, the running sum and the vector that grows
by one element per round.
-/
import Mathlib.Algebra.BigOperators.Group.Finset.Basic

namespace Base

variable {σ τ : Type*}

/-- The state after `n` rounds of `body`, the round number given to each. -/
def forLoop (body : ℕ → σ → σ) (init : σ) : ℕ → σ
  | 0 => init
  | n + 1 => body n (forLoop body init n)

@[simp] theorem forLoop_zero (body : ℕ → σ → σ) (init : σ) : forLoop body init 0 = init := rfl

@[simp] theorem forLoop_succ (body : ℕ → σ → σ) (init : σ) (n : ℕ) :
    forLoop body init (n + 1) = body n (forLoop body init n) := rfl

/-- The invariant rule: what holds before the loop and is kept by every round below the bound
holds after it. -/
theorem forLoop_inv (P : ℕ → σ → Prop) {body : ℕ → σ → σ} {init : σ} {n : ℕ} (h0 : P 0 init)
    (hstep : ∀ i < n, ∀ s, P i s → P (i + 1) (body i s)) : P n (forLoop body init n) := by
  induction n with
  | zero => exact h0
  | succ n ih => exact hstep n (by omega) _ (ih fun i hi => hstep i (by omega))

/-- Loops with bodies that agree below the bound end alike. -/
theorem forLoop_congr {body body' : ℕ → σ → σ} {init : σ} {n : ℕ} (h : ∀ i < n, ∀ s, body i s = body' i s) :
    forLoop body init n = forLoop body' init n :=
  forLoop_inv (fun i s => s = forLoop body' init i) rfl fun i hi s hs => by rw [h i hi, hs]; rfl

/-- A running sum is a sum. -/
theorem forLoop_sum {M : Type*} [AddCommMonoid M] (f : ℕ → M) (a : M) (n : ℕ) :
    forLoop (fun i acc => acc + f i) a n = a + ∑ i ∈ Finset.range n, f i := by
  induction n with
  | zero => simp
  | succ n ih => rw [forLoop_succ, ih, Finset.sum_range_succ, add_assoc]

/-- A vector grown by `push_back` of `f i` in round `i` is the map of `f` over the rounds. -/
theorem forLoop_push (f : ℕ → τ) (n : ℕ) :
    forLoop (fun i acc => acc ++ [f i]) [] n = (List.range n).map f := by
  induction n with
  | zero => rfl
  | succ n ih => rw [forLoop_succ, ih, List.range_succ, List.map_append]; rfl

end Base
