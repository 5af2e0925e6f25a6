/-
Binary floating point numbers of 64 bits: rational numbers, two infinities and a value that is no
number. The two zeros are one, and a division by it has the sign of the dividend. The result of an
operation is the exact one, rounded; comparisons with the value that is no number are false.
-/
import Mathlib.Data.Real.Basic
import StockPredictor.Base.Loop
import StockPredictor.Base.Ulp

namespace Base

/-- A `double`: a number, or one of the values that are none. -/
inductive Double
  | finite (v : ℚ)
  | posInfinity
  | negInfinity
  | nan
deriving DecidableEq

namespace Double

/-! ## Operations -/

/-- The double nearest to an exact value. -/
def ofRat (v : ℚ) : Double :=
  if 2 ^ (1024 : ℤ) ≤ roundToUlp v then posInfinity
  else if roundToUlp v ≤ -2 ^ (1024 : ℤ) then negInfinity
  else finite (roundToUlp v)

def sign : Double → ℤ
  | finite v => if 0 < v then 1 else if v < 0 then -1 else 0
  | posInfinity => 1
  | negInfinity => -1
  | nan => 0

/-- The infinity of a sign; without a sign there is none. -/
def infinity (sign : ℤ) : Double := if 0 < sign then posInfinity else if sign < 0 then negInfinity else nan

protected def neg : Double → Double
  | finite v => finite (-v)
  | posInfinity => negInfinity
  | negInfinity => posInfinity
  | nan => nan

protected def add : Double → Double → Double
  | finite a, finite b => ofRat (a + b)
  | finite _, y => y
  | x, finite _ => x
  | posInfinity, posInfinity => posInfinity
  | negInfinity, negInfinity => negInfinity
  | _, _ => nan

protected def mul : Double → Double → Double
  | finite a, finite b => ofRat (a * b)
  | nan, _ => nan
  | _, nan => nan
  | x, y => infinity (x.sign * y.sign)

protected def div : Double → Double → Double
  | finite a, finite b => if b = 0 then infinity (finite a).sign else ofRat (a / b)
  | nan, _ => nan
  | _, nan => nan
  | finite _, _ => finite 0
  | x, finite b => infinity (x.sign * if b < 0 then -1 else 1)
  | _, _ => nan

instance : Neg Double := ⟨Double.neg⟩
instance : Add Double := ⟨Double.add⟩
instance : Sub Double := ⟨fun x y => x + -y⟩
instance : Mul Double := ⟨Double.mul⟩
instance : Div Double := ⟨Double.div⟩

protected def lt : Double → Double → Bool
  | finite a, finite b => a < b
  | finite _, posInfinity => true
  | negInfinity, finite _ => true
  | negInfinity, posInfinity => true
  | _, _ => false

protected def le : Double → Double → Bool
  | finite a, finite b => a ≤ b
  | nan, _ => false
  | _, nan => false
  | negInfinity, _ => true
  | _, posInfinity => true
  | _, _ => false

instance : LT Double := ⟨fun x y => x.lt y = true⟩
instance : LE Double := ⟨fun x y => x.le y = true⟩
instance : DecidableLT Double := fun x y => inferInstanceAs (Decidable (x.lt y = true))
instance : DecidableLE Double := fun x y => inferInstanceAs (Decidable (x.le y = true))

protected def abs : Double → Double
  | finite v => finite |v|
  | posInfinity => posInfinity
  | negInfinity => posInfinity
  | nan => nan

/-- `Math.Round(x)`. -/
def round : Double → Double
  | finite v => finite (roundHalfEven v)
  | x => x

/-- `Math.Round(x, digits)`: values of `1e16` and above are returned as they are. -/
def mathRound (digits : ℕ) (x : Double) : Double :=
  if x.abs < finite (10 ^ 16) then (x * finite (10 ^ digits)).round / finite (10 ^ digits) else x

/-- A number above zero; the values that are no numbers are not. -/
def Positive : Double → Prop
  | finite v => 0 < v
  | _ => False

/-- The real value of a double; those that are no numbers have none of their own. -/
def toReal : Double → ℝ
  | finite v => v
  | _ => 0

instance : DecidablePred Positive := fun d => match d with
  | finite v => inferInstanceAs (Decidable (0 < v))
  | posInfinity | negInfinity | nan => inferInstanceAs (Decidable False)

@[simp] theorem finite_sub (a b : ℚ) : finite a - finite b = ofRat (a - b) := by
  rw [sub_eq_add_neg]
  rfl

theorem finite_div (a : ℚ) {b : ℚ} (hb : b ≠ 0) : finite a / finite b = ofRat (a / b) := if_neg hb

@[simp] theorem finite_le {a b : ℚ} : finite a ≤ finite b ↔ a ≤ b := decide_eq_true_iff

theorem positive_iff {x : Double} : Positive x ↔ ∃ v, x = finite v ∧ 0 < v := by
  cases x with
  | finite v => simp [Positive]
  | posInfinity | negInfinity | nan => simp [Positive]

/-- A value has a nearest number exactly below the threshold. -/
theorem ofRat_eq_finite_iff {v w : ℚ} : ofRat v = finite w ↔ |v| < overflowThreshold ∧ roundToUlp v = w := by
  have hneg : -2 ^ (1024 : ℤ) < roundToUlp v ↔ -v < overflowThreshold := by
    rw [← roundToUlp_lt_iff, roundToUlp_neg, neg_lt]
  rw [abs_lt, neg_lt, ← hneg, ← roundToUlp_lt_iff]
  unfold ofRat
  split
  · rename_i h
    exact iff_of_false (by simp) fun hw => absurd hw.1.2 (not_lt.2 h)
  · rename_i h
    split
    · rename_i h'
      exact iff_of_false (by simp) fun hw => absurd hw.1.1 (not_lt.2 h')
    · rename_i h'
      rw [finite.injEq]
      exact (and_iff_right ⟨not_le.1 h', not_le.1 h⟩).symm

theorem ofRat_zero : ofRat 0 = finite 0 := by decide +kernel

theorem ofRat_one : ofRat 1 = finite 1 := by decide +kernel

theorem ofRat_of_abs_le {v : ℚ} {k : ℤ} (hk : -1074 ≤ k) (hk' : k ≤ 1023) (h : |v| ≤ 2 ^ k) :
    ofRat v = finite (roundToUlp v) ∧ |roundToUlp v| ≤ 2 ^ k :=
  ⟨ofRat_eq_finite_iff.2 ⟨h.trans_lt (lt_overflowThreshold hk'), rfl⟩, abs_roundToUlp_le hk h⟩

/-- The nearest double is a number above zero exactly within the range. -/
theorem positive_ofRat_iff {v : ℚ} : Positive (ofRat v) ↔ 2 ^ (-1075 : ℤ) < v ∧ v < overflowThreshold := by
  have hsmall := two_zpow_pos (-1075)
  rw [positive_iff]
  constructor
  · rintro ⟨w, hw, hpos⟩
    obtain ⟨habs, rfl⟩ := ofRat_eq_finite_iff.1 hw
    exact ⟨roundToUlp_pos_iff.1 hpos, (le_abs_self v).trans_lt habs⟩
  · rintro ⟨hlow, hhigh⟩
    refine ⟨_, ofRat_eq_finite_iff.2 ⟨?_, rfl⟩, roundToUlp_pos_iff.2 hlow⟩
    rwa [abs_of_pos (hsmall.trans hlow)]

theorem not_positive_infinity (s : ℤ) : ¬ Positive (infinity s) := by
  unfold infinity
  split
  · exact id
  · split
    · exact id
    · exact id

/-- A quotient above zero is the nearest double of an exact value. -/
theorem exists_ofRat_of_positive_div {x y : Double} (h : Positive (x / y)) : ∃ v, x / y = ofRat v := by
  cases x with
  | finite a =>
    cases y with
    | finite b =>
      by_cases hb : b = 0
      · have hinf : finite a / finite b = infinity (finite a).sign := if_pos hb
        rw [hinf] at h
        exact absurd h (not_positive_infinity _)
      · exact ⟨a / b, finite_div a hb⟩
    | posInfinity | negInfinity => exact absurd h (lt_irrefl 0)
    | nan => exact h.elim
  | posInfinity | negInfinity =>
    cases y with
    | finite b => exact absurd h (not_positive_infinity _)
    | posInfinity | negInfinity | nan => exact h.elim
  | nan => cases y <;> exact h.elim

/-- A positive number is no less than the smallest one. -/
theorem le_of_positive_ofRat {v w : ℚ} (h : ofRat v = finite w) (hw : 0 < w) : 2 ^ (-1074 : ℤ) ≤ w := by
  obtain ⟨-, rfl⟩ := ofRat_eq_finite_iff.1 h
  have hunit := two_zpow_pos (ulpExponent v)
  have hle : (2 : ℚ) ^ (-1074 : ℤ) ≤ 2 ^ ulpExponent v := zpow_le_zpow_right₀ (by norm_num) (ulpExponent_ge v)
  unfold roundToUlp at hw ⊢
  have hone : (1 : ℚ) ≤ roundHalfEven (v / 2 ^ ulpExponent v) := by
    exact_mod_cast Int.cast_pos.1 (pos_of_mul_pos_left hw hunit.le)
  exact hle.trans (le_mul_of_one_le_left hunit.le hone)

/-! ## Bounds -/

section Bounds

variable {a b : ℚ} {j k : ℤ}

theorem mul_bounded (hlow : -1074 ≤ j + k) (hhigh : j + k ≤ 1023) (ha : |a| ≤ 2 ^ j) (hb : |b| ≤ 2 ^ k) :
    finite a * finite b = finite (roundToUlp (a * b)) ∧ |roundToUlp (a * b)| ≤ 2 ^ (j + k) := by
  refine ofRat_of_abs_le hlow hhigh ?_
  rw [abs_mul, zpow_add₀ two_ne_zero]
  exact mul_le_mul ha hb (abs_nonneg b) (two_zpow_pos j).le

theorem sub_bounded (hlow : -1074 ≤ k) (hhigh : k ≤ 1022) (ha : |a| ≤ 2 ^ k) (hb : |b| ≤ 2 ^ k) :
    finite a - finite b = finite (roundToUlp (a - b)) ∧ |roundToUlp (a - b)| ≤ 2 ^ (k + 1) := by
  rw [finite_sub]
  refine ofRat_of_abs_le (by omega) (by omega) ?_
  rw [zpow_add_one₀ two_ne_zero, mul_two]
  exact (abs_sub a b).trans (add_le_add ha hb)

/-- A division by a count makes nothing larger. -/
theorem div_bounded (hlow : -1074 ≤ k) (hhigh : k ≤ 1023) (ha : |a| ≤ 2 ^ k) {n : ℕ} (hn : 0 < n) :
    ∃ w, finite a / ofRat n = finite w ∧ |w| ≤ 2 ^ k := by
  have hone : (1 : ℚ) ≤ roundToUlp n := by
    have hn' : (2 : ℚ) ^ (0 : ℤ) ≤ n := by exact_mod_cast hn
    exact_mod_cast two_zpow_le_roundToUlp (by norm_num) hn'
  unfold ofRat
  split
  · exact ⟨0, rfl, by simpa using (two_zpow_pos k).le⟩
  · have hbig : -2 ^ (1024 : ℤ) < roundToUlp n :=
      (neg_lt_zero.2 (two_zpow_pos 1024)).trans (zero_lt_one.trans_le hone)
    rw [if_neg (not_le.2 hbig), finite_div _ (by linarith)]
    refine ⟨_, ofRat_of_abs_le hlow hhigh ?_⟩
    rw [abs_div, abs_of_pos (show 0 < roundToUlp n by linarith)]
    exact (div_le_self (abs_nonneg a) hone).trans ha

end Bounds

/-! ## Sums -/

/-- A running sum stays where one more term is at most a quarter of a unit. -/
theorem saturated_add {c y : ℚ} {k : ℤ} (hk : -1022 ≤ k) (hk' : k + 54 ≤ 1023) (hc : |c| ≤ 2 ^ (k + 54))
    (hy : |y| ≤ 2 ^ k) :
    finite c + finite y = finite (roundToUlp (c + y)) ∧ |roundToUlp (c + y)| ≤ 2 ^ (k + 54) := by
  have hsum : ∀ {a b : ℚ}, |a| ≤ 2 ^ (k + 54) → |b| ≤ 2 ^ k → roundToUlp (a + b) ≤ 2 ^ (k + 54) := by
    intro a b ha hb
    rw [roundToUlp_le_iff (by omega)]
    have hle : (2 : ℚ) ^ k ≤ 2 ^ (k + 54 - 53) := zpow_le_zpow_right₀ (by norm_num) (by omega)
    exact add_le_add ((le_abs_self a).trans ha) (((le_abs_self b).trans hb).trans hle)
  have hlow : -roundToUlp (c + y) ≤ 2 ^ (k + 54) := by
    rw [← roundToUlp_neg, neg_add]
    exact hsum (by rwa [abs_neg]) (by rwa [abs_neg])
  have habs : |roundToUlp (c + y)| ≤ 2 ^ (k + 54) := abs_le.2 ⟨neg_le.1 hlow, hsum hc hy⟩
  refine ⟨ofRat_eq_finite_iff.2 ⟨?_, rfl⟩, habs⟩
  have hlt : |roundToUlp (c + y)| < 2 ^ (1024 : ℤ) :=
    habs.trans_lt (zpow_lt_zpow_right₀ (by norm_num) (by omega))
  obtain ⟨h1, h2⟩ := abs_lt.1 hlt
  rw [abs_lt, neg_lt, ← roundToUlp_lt_iff, ← roundToUlp_lt_iff, roundToUlp_neg, neg_lt]
  exact ⟨h1, h2⟩

/-- A running sum of any number of terms bounded by a power of two is a number, and not negative when
no term is. -/
theorem sum_bounded {f : ℕ → Double} {k : ℤ} (hk : -1022 ≤ k) (hk' : k + 54 ≤ 1023) {n : ℕ}
    (hf : ∀ i < n, ∃ y, f i = finite y ∧ |y| ≤ 2 ^ k) :
    ∃ s, forLoop (fun i sum => sum + f i) (finite 0) n = finite s ∧ |s| ≤ 2 ^ (k + 54) ∧
      ((∀ i < n, finite 0 ≤ f i) → 0 ≤ s) := by
  refine forLoop_inv (fun _ (sum : Double) => ∃ s, sum = finite s ∧ |s| ≤ 2 ^ (k + 54) ∧
    ((∀ i < n, finite 0 ≤ f i) → 0 ≤ s)) ⟨0, rfl, ?_, fun _ => le_rfl⟩ fun i hi sum hsum => ?_
  · rw [abs_zero]
    exact (two_zpow_pos (k + 54)).le
  · obtain ⟨s, rfl, hs, hpos⟩ := hsum
    obtain ⟨y, hy, hbound⟩ := hf i hi
    obtain ⟨hadd, hle⟩ := saturated_add hk hk' hs hbound
    rw [hy]
    refine ⟨_, hadd, hle, fun h => roundToUlp_nonneg (add_nonneg (hpos h) ?_)⟩
    have hi0 := h i hi
    rwa [hy, finite_le] at hi0

/-! ## Rounding to digits -/

/-- The value exceeds half a unit of the last digit, even after it is multiplied in doubles. -/
def ExceedsHalf (digits : ℕ) : Double → Prop
  | finite v => 1 / 2 + 2 ^ (-54 : ℤ) < v * 10 ^ digits
  | posInfinity => True
  | _ => False

end Double

end Base
