/-
Rounding half to even, on integers and to a number of decimal digits (`Math.Round`), over any
ordered field with floors: the error is at most one half, a value rounds to something positive
exactly above one half, and rounding tells a positive value from a multiple of it unless both
vanish.
-/
import StockPredictor.Base.Numeral
import Mathlib.Algebra.Order.Floor.Ring
import Mathlib.Algebra.Order.Field.Basic
import Mathlib.Tactic.Linarith
import Mathlib.Tactic.Positivity
import Mathlib.Tactic.NormNum
import Mathlib.Tactic.Ring

namespace Base

variable {K : Type*} [Field K] [LinearOrder K] [IsStrictOrderedRing K] [FloorRing K]

/-- The nearest integer, ties to the even one. -/
def roundHalfEven (x : K) : ℤ :=
  if x - ⌊x⌋ < 1 / 2 then ⌊x⌋
  else if 1 / 2 < x - ⌊x⌋ then ⌊x⌋ + 1
  else if Even ⌊x⌋ then ⌊x⌋ else ⌊x⌋ + 1

/-- `Math.Round(x, digits)`: values of `1e16` and above are returned as they are. -/
def mathRound (digits : ℕ) (x : K) : K :=
  if |x| < 10 ^ 16 then roundHalfEven (x * 10 ^ digits) / 10 ^ digits else x

/-! ## The nearest integer -/

theorem roundHalfEven_le (x : K) : (roundHalfEven x : K) ≤ x + 1 / 2 := by
  have h1 := Int.floor_le x
  unfold roundHalfEven
  split
  · linarith
  · rename_i h
    split
    · push_cast; linarith
    · split
      · linarith
      · push_cast; linarith

theorem le_roundHalfEven (x : K) : x - 1 / 2 ≤ (roundHalfEven x : K) := by
  have h2 := Int.lt_floor_add_one x
  unfold roundHalfEven
  split
  · linarith
  · split
    · push_cast; linarith
    · rename_i h1 h3
      split
      · linarith
      · push_cast; linarith

/-- Rounding does not cross an integer. -/
theorem roundHalfEven_le_of_le {x : K} {n : ℤ} (h : x ≤ n) : roundHalfEven x ≤ n := by
  have h1 := roundHalfEven_le x
  have h2 : (roundHalfEven x : K) < (n + 1 : ℤ) := by push_cast; linarith
  have := Int.cast_lt.1 h2
  omega

theorem le_roundHalfEven_of_le {x : K} {n : ℤ} (h : n ≤ x) : n ≤ roundHalfEven x := by
  have h1 := le_roundHalfEven x
  have h2 : ((n - 1 : ℤ) : K) < roundHalfEven x := by push_cast; linarith
  have := Int.cast_lt.1 h2
  omega

/-- A tie goes to the even neighbour. -/
theorem le_roundHalfEven_of_even {x : K} {n : ℤ} (hn : Even n) (h : n - 1 / 2 ≤ x) : n ≤ roundHalfEven x := by
  rcases h.eq_or_lt with rfl | hlt
  · have hfloor : ⌊(n : K) - 1 / 2⌋ = n - 1 := by
      rw [Int.floor_eq_iff]
      push_cast
      constructor
      · linarith
      · linarith
    have hodd : ¬ Even (n - 1) := by rwa [Int.even_sub_one, not_not]
    unfold roundHalfEven
    rw [hfloor, if_neg (by push_cast; linarith), if_neg (by push_cast; linarith), if_neg hodd]
    omega
  · have h1 := le_roundHalfEven x
    have h2 : ((n - 1 : ℤ) : K) < roundHalfEven x := by push_cast; linarith
    have := Int.cast_lt.1 h2
    omega

theorem roundHalfEven_le_of_even {x : K} {n : ℤ} (hn : Even n) (h : x ≤ n + 1 / 2) : roundHalfEven x ≤ n := by
  rcases h.eq_or_lt with rfl | hlt
  · have hfloor : ⌊(n : K) + 1 / 2⌋ = n := by
      rw [Int.floor_eq_iff]
      constructor
      · linarith
      · linarith
    unfold roundHalfEven
    rw [hfloor, if_neg (by linarith), if_neg (by linarith), if_pos hn]
  · have h1 := roundHalfEven_le x
    have h2 : (roundHalfEven x : K) < (n + 1 : ℤ) := by push_cast; linarith
    have := Int.cast_lt.1 h2
    omega

/-- A value rounds to a positive integer exactly above one half: the tie goes to zero. -/
theorem roundHalfEven_pos_iff (x : K) : 0 < roundHalfEven x ↔ 1 / 2 < x := by
  constructor
  · intro h
    by_contra hx
    push Not at hx
    have h1 : (1 : K) ≤ roundHalfEven x := by exact_mod_cast h
    have h2 := roundHalfEven_le x
    -- only the tie `x = 1 / 2` can still reach one, and it rounds to the even zero
    have hx2 : x = 1 / 2 := by linarith
    have hf : ⌊x⌋ = 0 := by rw [Int.floor_eq_zero_iff, hx2]; constructor <;> norm_num
    have : roundHalfEven x = 0 := by unfold roundHalfEven; rw [hf, hx2]; norm_num
    omega
  · intro h
    have h1 := le_roundHalfEven x
    have : (0 : K) < roundHalfEven x := by linarith
    exact_mod_cast this

theorem roundHalfEven_intCast (k : ℤ) : roundHalfEven (k : K) = k := by
  unfold roundHalfEven
  rw [Int.floor_intCast, sub_self]
  exact if_pos (by norm_num)

/-- Rounding is odd, as the floor of a value that is no integer and that of its negative are of
different parity. -/
theorem roundHalfEven_neg (x : K) : roundHalfEven (-x) = -roundHalfEven x := by
  rcases eq_or_ne x ⌊x⌋ with h | h
  · rw [h, ← Int.cast_neg, roundHalfEven_intCast, roundHalfEven_intCast]
  · have hlow : (⌊x⌋ : K) < x := lt_of_le_of_ne (Int.floor_le x) h.symm
    have hhigh := Int.lt_floor_add_one x
    have hfloor : ⌊-x⌋ = -⌊x⌋ - 1 := by
      rw [Int.floor_eq_iff]
      push_cast
      constructor
      · linarith
      · linarith
    have hparity : Even (-⌊x⌋ - 1) ↔ ¬ Even ⌊x⌋ := by rw [Int.even_sub_one, even_neg]
    have hfract : -x - ((-⌊x⌋ - 1 : ℤ) : K) = 1 - (x - ⌊x⌋) := by push_cast; ring
    unfold roundHalfEven
    rw [hfloor, hfract]
    rcases lt_trichotomy (x - ⌊x⌋) (1 / 2) with hlt | heq | hgt
    · rw [if_pos hlt, if_neg (by linarith), if_pos (by linarith)]
      ring
    · rw [heq, if_neg (show ¬ (1 : K) - 1 / 2 < 1 / 2 by norm_num), if_neg (show ¬ (1 : K) / 2 < 1 - 1 / 2 by norm_num),
        if_neg (lt_irrefl _), if_neg (lt_irrefl _)]
      by_cases heven : Even ⌊x⌋
      · rw [if_neg fun h => hparity.1 h heven, if_pos heven]
        ring
      · rw [if_pos (hparity.2 heven), if_neg heven]
        ring
    · rw [if_pos (by linarith), if_neg (by linarith), if_pos hgt]
      ring

/-! ## Decimal digits -/

omit [IsStrictOrderedRing K] in
theorem mathRound_of_lt {digits : ℕ} {x : K} (h : |x| < 10 ^ 16) :
    mathRound digits x = roundHalfEven (x * 10 ^ digits) / 10 ^ digits := if_pos h

omit [IsStrictOrderedRing K] in
theorem mathRound_of_le {digits : ℕ} {x : K} (h : 10 ^ 16 ≤ |x|) : mathRound digits x = x := if_neg (not_lt.2 h)

/-- A value with no more digits stays as it is. -/
theorem mathRound_div (digits : ℕ) (k : ℤ) : mathRound digits ((k : K) / 10 ^ digits) = k / 10 ^ digits := by
  unfold mathRound
  split
  · rw [div_mul_cancel₀ _ (by positivity), roundHalfEven_intCast]
  · rfl

/-- A rounded value is positive exactly when the value is more than half a unit of the last digit. -/
theorem mathRound_pos_iff (digits : ℕ) (x : K) : 0 < mathRound digits x ↔ 1 / 2 < x * 10 ^ digits := by
  have hp : (0 : K) < 10 ^ digits := by positivity
  rcases lt_or_ge |x| (10 ^ 16) with h | h
  · rw [mathRound_of_lt h, div_pos_iff_of_pos_right hp, Int.cast_pos, roundHalfEven_pos_iff]
  · rw [mathRound_of_le h]
    have h1 : (1 : K) ≤ 10 ^ digits := one_le_pow₀ (by norm_num)
    constructor
    · intro hx
      rw [abs_of_pos hx] at h
      have : x * 1 ≤ x * 10 ^ digits := mul_le_mul_of_nonneg_left h1 hx.le
      linarith
    · intro hx
      by_contra hn
      push Not at hn
      have := mul_nonpos_of_nonpos_of_nonneg hn hp.le
      linarith

theorem mathRound_nonneg {digits : ℕ} {x : K} (hx : 0 ≤ x) : 0 ≤ mathRound digits x := by
  rcases lt_or_ge |x| (10 ^ 16) with h | h
  · rw [mathRound_of_lt h]
    have h1 := le_roundHalfEven (x * 10 ^ digits)
    have h2 : (0 : K) ≤ x * 10 ^ digits := by positivity
    have h3 : (-1 : K) < roundHalfEven (x * 10 ^ digits) := by linarith
    have h4 : 0 ≤ roundHalfEven (x * 10 ^ digits) := by
      have : (-1 : ℤ) < roundHalfEven (x * 10 ^ digits) := by exact_mod_cast h3
      omega
    have : (0 : K) ≤ roundHalfEven (x * 10 ^ digits) := by exact_mod_cast h4
    positivity
  · rw [mathRound_of_le h]; exact hx

/-- A value that is not rounded to zero grows by less than a factor two. -/
theorem mathRound_lt_two_mul {digits : ℕ} {x : K} (hx : 1 / 2 < x * 10 ^ digits) : mathRound digits x < 2 * x := by
  have hp : (0 : K) < 10 ^ digits := by positivity
  have hx0 : 0 < x := pos_of_mul_pos_left (by linarith) hp.le
  rcases lt_or_ge |x| (10 ^ 16) with h | h
  · rw [mathRound_of_lt h, div_lt_iff₀ hp]
    have := roundHalfEven_le (x * 10 ^ digits)
    linarith
  · rw [mathRound_of_le h]; linarith

/-- A value that is not rounded to zero loses less than its half unit. -/
theorem sub_lt_mathRound {digits : ℕ} {x y : K} (hy : 1 / 2 < y * 10 ^ digits) :
    x - y < mathRound digits x := by
  have hp : (0 : K) < 10 ^ digits := by positivity
  have hy0 : 0 < y := pos_of_mul_pos_left (by linarith) hp.le
  rcases lt_or_ge |x| (10 ^ 16) with h | h
  · rw [mathRound_of_lt h, lt_div_iff₀ hp]
    have := le_roundHalfEven (x * 10 ^ digits)
    linarith
  · rw [mathRound_of_le h]; linarith

/-- Rounding separates a positive value from a multiple of it by three or more, unless the
multiple itself is rounded to zero. -/
theorem mathRound_eq_mul_iff {digits : ℕ} {x c : K} (hx : 0 < x) (hc : 3 ≤ c) :
    mathRound digits x = mathRound digits (x * c) ↔ x * c * 10 ^ digits ≤ 1 / 2 := by
  have hp : (0 : K) < 10 ^ digits := by positivity
  have hle : x ≤ x * c := le_mul_of_one_le_right hx.le (by linarith)
  have hle' : x * 10 ^ digits ≤ x * c * 10 ^ digits := mul_le_mul_of_nonneg_right hle hp.le
  -- a small nonnegative value rounds to zero
  have hz : ∀ y : K, 0 ≤ y → y * 10 ^ digits ≤ 1 / 2 → mathRound digits y = 0 := fun y h0 hy =>
    le_antisymm (not_lt.1 fun h => absurd ((mathRound_pos_iff digits y).1 h) (not_lt.2 hy)) (mathRound_nonneg h0)
  constructor
  · intro h
    by_contra hn
    push Not at hn
    have hpos := (mathRound_pos_iff digits (x * c)).2 hn
    -- either only `x` vanishes, or the two rounding errors together are less than `2 * x`
    rcases le_or_gt (x * 10 ^ digits) (1 / 2) with hs | hs
    · rw [hz x hx.le hs] at h
      linarith
    · have h1 := mathRound_lt_two_mul hs
      have h2 := sub_lt_mathRound (x := x * c) hs
      have h3 : x * 3 ≤ x * c := mul_le_mul_of_nonneg_left hc hx.le
      linarith
  · intro h
    rw [hz x hx.le (hle'.trans h), hz (x * c) (hx.le.trans hle) h]

end Base
