/-
Polynomials as lists of coefficients, lowest first: evaluation, the expansion around another point,
and the quotient of two polynomials. A quotient falls on the positive half line when the quotients
of its coefficients fall.
-/
import Mathlib.Algebra.Order.Ring.Defs
import Mathlib.Tactic.Linarith
import Mathlib.Tactic.Ring

namespace Base

variable {K : Type*}

section Ring

variable [CommRing K]

/-- The value at `x` of the polynomial with the given coefficients. -/
def horner : List K → K → K
  | [], _ => 0
  | c :: l, x => c + x * horner l x

@[simp] theorem horner_nil (x : K) : horner [] x = 0 := rfl

@[simp] theorem horner_cons (c : K) (l : List K) (x : K) : horner (c :: l) x = c + x * horner l x := rfl

/-! ## Expansion around another point -/

/-- The coefficients of `(s - t) * l - carry`. -/
def timesReflected (s : K) : K → List K → List K
  | carry, [] => [-carry]
  | carry, c :: l => (s * c - carry) :: timesReflected s c l

theorem horner_timesReflected (s : K) (l : List K) (carry t : K) :
    horner (timesReflected s carry l) t = (s - t) * horner l t - carry := by
  induction l generalizing carry with
  | nil => simp [timesReflected]
  | cons c l ih =>
    rw [timesReflected, horner_cons, ih, horner_cons]
    ring

/-- The coefficients with `c` added to the lowest one. -/
def addLowest (c : K) : List K → List K
  | [] => [c]
  | d :: l => (c + d) :: l

theorem horner_addLowest (c : K) (l : List K) (t : K) : horner (addLowest c l) t = c + horner l t := by
  cases l with
  | nil => simp [addLowest]
  | cons d l => rw [addLowest, horner_cons, horner_cons, add_assoc]

/-- The coefficients of the polynomial in `t = s - x`. -/
def reflect (s : K) : List K → List K
  | [] => []
  | c :: l => addLowest c (timesReflected s 0 (reflect s l))

theorem horner_reflect (s : K) (l : List K) (t : K) : horner (reflect s l) t = horner l (s - t) := by
  induction l with
  | nil => rfl
  | cons c l ih => rw [reflect, horner_addLowest, horner_timesReflected, ih, horner_cons, sub_zero]

/-! ## Numerator and denominator -/

/-- The numerator and the denominator of a list of pairs of coefficients. -/
def numerator (l : List (K × K)) : K → K := horner (l.map Prod.fst)
def denominator (l : List (K × K)) : K → K := horner (l.map Prod.snd)

theorem numerator_cons (u : K × K) (l : List (K × K)) (x : K) : numerator (u :: l) x = u.1 + x * numerator l x := rfl

theorem denominator_cons (u : K × K) (l : List (K × K)) (x : K) :
    denominator (u :: l) x = u.2 + x * denominator l x := rfl

/-- The crossed coefficients evaluate to the crossed polynomials. -/
theorem horner_cross (u : K × K) (l : List (K × K)) (x : K) :
    horner (l.map fun v => u.1 * v.2 - v.1 * u.2) x = u.1 * denominator l x - numerator l x * u.2 := by
  induction l with
  | nil => simp [numerator, denominator]
  | cons v l ih =>
    rw [List.map_cons, horner_cons, ih, numerator_cons, denominator_cons]
    ring

end Ring

section Order

variable [CommRing K] [LinearOrder K] [IsStrictOrderedRing K]

/-! ## Signs of the coefficients -/

theorem horner_nonneg {l : List K} (h : ∀ c ∈ l, 0 ≤ c) {x : K} (hx : 0 ≤ x) : 0 ≤ horner l x := by
  induction l with
  | nil => exact le_refl _
  | cons c l ih =>
    have htail := ih fun d hd => h d (List.mem_cons_of_mem c hd)
    exact add_nonneg (h c List.mem_cons_self) (mul_nonneg hx htail)

theorem horner_pos {l : List K} (hne : l ≠ []) (h : ∀ c ∈ l, 0 < c) {x : K} (hx : 0 ≤ x) : 0 < horner l x := by
  cases l with
  | nil => exact absurd rfl hne
  | cons c l =>
    have htail := horner_nonneg (fun d hd => (h d (List.mem_cons_of_mem c hd)).le) hx
    exact add_pos_of_pos_of_nonneg (h c List.mem_cons_self) (mul_nonneg hx htail)

theorem horner_mono {l : List K} (h : ∀ c ∈ l, 0 ≤ c) {x y : K} (hx : 0 ≤ x) (hxy : x ≤ y) :
    horner l x ≤ horner l y := by
  induction l with
  | nil => exact le_refl _
  | cons c l ih =>
    have hl : ∀ d ∈ l, 0 ≤ d := fun d hd => h d (List.mem_cons_of_mem c hd)
    rw [horner_cons, horner_cons]
    exact add_le_add_right (mul_le_mul hxy (ih hl) (horner_nonneg hl hx) (hx.trans hxy)) c

/-! ## Quotients -/

/-- When the quotients of the coefficients fall, so does the quotient of the polynomials. -/
theorem quotient_antitone {l : List (K × K)} (h : l.Pairwise fun u v => v.1 * u.2 ≤ u.1 * v.2) {x y : K}
    (hx : 0 ≤ x) (hxy : x ≤ y) : numerator l y * denominator l x ≤ numerator l x * denominator l y := by
  induction l with
  | nil => simp [numerator, denominator]
  | cons u l ih =>
    rw [List.pairwise_cons] at h
    have htail := mul_le_mul_of_nonneg_left (ih h.2) (mul_nonneg hx (hx.trans hxy))
    -- the lowest pair against all higher ones
    have hcross : ∀ c ∈ (l.map fun v => u.1 * v.2 - v.1 * u.2), 0 ≤ c := by
      intro c hc
      obtain ⟨v, hv, rfl⟩ := List.mem_map.1 hc
      exact sub_nonneg.2 (h.1 v hv)
    have hhead := mul_le_mul hxy (horner_mono hcross hx hxy) (horner_nonneg hcross hx) (hx.trans hxy)
    rw [horner_cross, horner_cross] at hhead
    simp only [numerator_cons, denominator_cons]
    linarith

/-- When they fall strictly, and there is more than one, so does the quotient of the polynomials. -/
theorem quotient_strictAnti {u v : K × K} {l : List (K × K)}
    (h : (u :: v :: l).Pairwise fun u v => v.1 * u.2 < u.1 * v.2) {x y : K} (hx : 0 ≤ x) (hxy : x < y) :
    numerator (u :: v :: l) y * denominator (u :: v :: l) x <
      numerator (u :: v :: l) x * denominator (u :: v :: l) y := by
  rw [List.pairwise_cons] at h
  have htail := mul_le_mul_of_nonneg_left (quotient_antitone (h.2.imp le_of_lt) hx hxy.le)
    (mul_nonneg hx (hx.trans hxy.le))
  have hcross : ∀ c ∈ ((v :: l).map fun w => u.1 * w.2 - w.1 * u.2), 0 < c := by
    intro c hc
    obtain ⟨w, hw, rfl⟩ := List.mem_map.1 hc
    exact sub_pos.2 (h.1 w hw)
  have hmono := mul_le_mul_of_nonneg_left (horner_mono (fun c hc => (hcross c hc).le) hx hxy.le) hx
  have hhead := hmono.trans_lt (mul_lt_mul_of_pos_right hxy (horner_pos (by simp) hcross (hx.trans hxy.le)))
  rw [horner_cross, horner_cross] at hhead
  rw [numerator_cons, numerator_cons u, denominator_cons, denominator_cons u]
  linarith

end Order

end Base
