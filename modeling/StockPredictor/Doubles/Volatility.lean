/-
The historical volatility is a number. The logarithm of a positive double is between -1000 and 1000,
and running sums of any length of such terms neither overflow nor become no numbers.
-/
import Mathlib.Analysis.Complex.ExponentialBounds
import StockPredictor.Doubles.History

namespace StockPredictor.Doubles

open Base Base.Double Native

/-- What is documented of the functions behind the historical volatility: the logarithm of a positive
double is near the exact one, an integer power in range is a number no larger than twice the exact one
and one, and the root of a number that is not negative is a number. -/
structure Runtime.Accurate (rt : Runtime) : Prop where
  mathLog : ∀ x : ℚ, 2 ^ (-1074 : ℤ) ≤ x → x < 2 ^ (1024 : ℤ) →
    ∃ v : ℚ, rt.mathLog (.finite x) = .finite v ∧ |(v : ℝ) - Real.log x| ≤ 1
  pow : ∀ (x : ℚ) (n : ℕ), 0 ≤ x ^ n → x ^ n ≤ 2 ^ (1000 : ℤ) →
    ∃ w : ℚ, rt.pow (.finite x) n = .finite w ∧ 0 ≤ w ∧ w ≤ 2 * x ^ n + 1
  sqrt : ∀ x : ℚ, 0 ≤ x → ∃ w : ℚ, rt.sqrt (.finite x) = .finite w

variable {rt : Runtime}

/-! ## The returns -/

/-- The logarithms of the positive doubles. -/
theorem abs_log_le {x : ℚ} (hlow : 2 ^ (-1074 : ℤ) ≤ x) (hhigh : x < 2 ^ (1024 : ℤ)) : |Real.log x| ≤ 1000 := by
  have hl := Real.log_two_lt_d9
  have hlow' : (((2 : ℚ) ^ (-1074 : ℤ) : ℚ) : ℝ) ≤ x := Rat.cast_le.2 hlow
  have hhigh' : (x : ℝ) ≤ ((2 : ℚ) ^ (1024 : ℤ) : ℚ) := Rat.cast_le.2 hhigh.le
  rw [Rat.cast_zpow, Rat.cast_ofNat] at hlow' hhigh'
  have hpos : (0 : ℝ) < 2 ^ (-1074 : ℤ) := by positivity
  have h1 := Real.log_le_log hpos hlow'
  have h2 := Real.log_le_log (hpos.trans_le hlow') hhigh'
  rw [Real.log_zpow] at h1 h2
  push_cast at h1 h2
  exact abs_le.2 ⟨by linarith, by linarith⟩

/-- A number in the range of logarithms. -/
def IsReturn (r : Double) : Prop := ∃ v, r = finite v ∧ |v| ≤ 2 ^ (10 : ℤ)

/-- The logarithm of a quotient that is a number above zero. -/
theorem Runtime.Accurate.isReturn (hrt : rt.Accurate) {x y : Double} (h : Positive (x / y)) :
    IsReturn (rt.mathLog (x / y)) := by
  obtain ⟨v, hv⟩ := exists_ofRat_of_positive_div h
  obtain ⟨w, hw, hpos⟩ := positive_iff.1 h
  rw [hv] at hw
  have hlow := le_of_positive_ofRat hw hpos
  obtain ⟨hrange, hround⟩ := ofRat_eq_finite_iff.1 hw
  have hhigh : w < 2 ^ (1024 : ℤ) := hround ▸ roundToUlp_lt_iff.2 ((le_abs_self v).trans_lt hrange)
  obtain ⟨r, hr, hnear⟩ := hrt.mathLog w hlow hhigh
  rw [hv, hw]
  refine ⟨r, hr, ?_⟩
  have hlog := abs_log_le hlow hhigh
  have hsum := abs_add_le ((r : ℝ) - Real.log w) (Real.log w)
  rw [sub_add_cancel] at hsum
  have hcast : |(r : ℝ)| ≤ ((2 ^ (10 : ℤ) : ℚ) : ℝ) := by
    push_cast
    linarith
  exact_mod_cast hcast

/-! ## The deviation -/

section Deviation

variable {returns : List Double}

variable (rt) in
theorem elementAt_mem {distribution : List Double} {i : ℕ} (hi : i < distribution.length) :
    elementAt rt.library distribution i ∈ distribution := by
  unfold elementAt
  rw [List.getD_eq_getElem?_getD, List.getElem?_eq_getElem hi]
  exact List.getElem_mem hi

variable (rt) in
theorem getMean_bounded (hne : returns ≠ []) (h : ∀ r ∈ returns, IsReturn r) :
    ∃ m, getMean rt.library returns = finite m ∧ |m| ≤ 2 ^ (64 : ℤ) := by
  have hzero : rt.library.literal 0 = finite 0 := ofRat_zero
  obtain ⟨s, hs, hbound, -⟩ := sum_bounded (f := elementAt rt.library returns) (k := 10) (by norm_num) (by norm_num)
    fun i hi => h _ (elementAt_mem rt hi)
  unfold getMean
  rw [hzero, hs]
  exact div_bounded (by norm_num) (by norm_num) hbound (List.length_pos_of_ne_nil hne)

/-- The square of the distance of a return to the mean. -/
theorem Runtime.Accurate.sqDeviation_bounded (hrt : rt.Accurate) {r : Double} {m : ℚ} (hr : IsReturn r)
    (hm : |m| ≤ 2 ^ (64 : ℤ)) : ∃ w, rt.pow (r - finite m) 2 = finite w ∧ 0 ≤ w ∧ w ≤ 2 ^ (132 : ℤ) := by
  obtain ⟨v, rfl, hv⟩ := hr
  have hv' : |v| ≤ 2 ^ (64 : ℤ) := hv.trans (by norm_num)
  obtain ⟨hd, hbound⟩ := sub_bounded (by norm_num) (by norm_num) hv' hm
  have hsq : roundToUlp (v - m) ^ 2 ≤ ((2 : ℚ) ^ (64 + 1 : ℤ)) ^ 2 := by
    rw [← sq_abs]
    exact pow_le_pow_left₀ (abs_nonneg _) hbound 2
  obtain ⟨w, hw, hpos, hle⟩ := hrt.pow _ 2 (sq_nonneg (roundToUlp (v - m))) (hsq.trans (by
    rw [← zpow_natCast, ← zpow_mul]
    exact zpow_le_zpow_right₀ (by norm_num) (by norm_num)))
  refine ⟨w, by rw [hd]; exact hw, hpos, ?_⟩
  norm_num at hsq ⊢
  linarith

/-- `lambda` as a double. -/
theorem exists_lambda : ∃ l, ofRat 0.94 = finite l ∧ 1 / 2 ≤ l ∧ l ≤ 1 := by
  have hhalf : (2 : ℚ) ^ (-1 : ℤ) = 1 / 2 := by norm_num
  have habs : |(0.94 : ℚ)| ≤ 2 ^ (0 : ℤ) := by norm_num [abs_of_pos]
  refine ⟨_, ofRat_eq_finite_iff.2 ⟨habs.trans_lt (lt_overflowThreshold (by norm_num)), rfl⟩, ?_, ?_⟩
  · rw [← hhalf]
    exact two_zpow_le_roundToUlp (by norm_num) (by norm_num)
  · rw [← zpow_zero (2 : ℚ)]
    exact roundToUlp_le_two_zpow (by norm_num) (by norm_num)

/-- A term of the weighted sum: the weights are at most two. -/
theorem Runtime.Accurate.term_bounded (hrt : rt.Accurate) {x : ℚ} (hx0 : 0 ≤ x) (hx : x ≤ 2 ^ (132 : ℤ)) (i : ℕ) :
    ∃ w, (rt.library.literal 1 - rt.library.literal 0.94) * rt.library.pow (rt.library.literal 0.94) i * finite x =
      finite w ∧ |w| ≤ 2 ^ (133 : ℤ) ∧ 0 ≤ w := by
  obtain ⟨l, hl, hlow, hhigh⟩ := exists_lambda
  have hdiff : |1 - l| ≤ 2 ^ (-1 : ℤ) := by
    rw [abs_of_nonneg (by linarith)]
    norm_num
    linarith
  obtain ⟨hc, hcbound⟩ := ofRat_of_abs_le (by norm_num) (by norm_num) hdiff
  have hpow1 : l ^ i ≤ 1 := pow_le_one₀ (by linarith) hhigh
  obtain ⟨p, hp, hp0, hple⟩ := hrt.pow l i (pow_nonneg (by linarith) i)
    (hpow1.trans (one_le_zpow₀ (by norm_num) (by norm_num)))
  have hpbound : |p| ≤ 2 ^ (2 : ℤ) := by
    rw [abs_of_nonneg hp0]
    norm_num
    linarith
  obtain ⟨hw, hwbound⟩ := mul_bounded (by norm_num) (by norm_num) hcbound hpbound
  obtain ⟨ht, htbound⟩ := mul_bounded (by norm_num) (by norm_num) hwbound ((abs_of_nonneg hx0).trans_le hx)
  show ∃ w, (ofRat 1 - ofRat 0.94) * rt.pow (ofRat 0.94) i * finite x = finite w ∧ _
  rw [ofRat_one, hl, finite_sub, hc, hp, hw, ht]
  have hweight := roundToUlp_nonneg (mul_nonneg (roundToUlp_nonneg (by linarith : 0 ≤ 1 - l)) hp0)
  exact ⟨_, rfl, htbound, roundToUlp_nonneg (mul_nonneg hweight hx0)⟩

/-- The weighted deviation of any number of returns is a number. -/
theorem Runtime.Accurate.exists_getWeightedStandardDeviation (hrt : rt.Accurate) (hne : returns ≠ [])
    (h : ∀ r ∈ returns, IsReturn r) : ∃ v, getWeightedStandardDeviation rt.library returns = finite v := by
  obtain ⟨m, hm, hmbound⟩ := getMean_bounded rt hne h
  unfold getWeightedStandardDeviation getEWMA
  dsimp only
  rw [hm, List.length_map]
  generalize hsq : (returns.map fun x => rt.library.pow (x - finite m) 2) = sqDeviation
  have hterm : ∀ i < returns.length, ∃ w, (rt.library.literal 1 - rt.library.literal 0.94) *
      rt.library.pow (rt.library.literal 0.94) i * elementAt rt.library sqDeviation i = finite w ∧
        |w| ≤ 2 ^ (133 : ℤ) ∧ 0 ≤ w := by
    intro i hi
    have hlen : i < sqDeviation.length := by rw [← hsq]; simpa using hi
    have hmem := elementAt_mem rt hlen
    rw [← hsq] at hmem
    obtain ⟨r, hr, hx⟩ := List.mem_map.1 hmem
    obtain ⟨x, hpow, hx0, hbound⟩ := hrt.sqDeviation_bounded (h r hr) hmbound
    have hx' : elementAt rt.library sqDeviation i = finite x := by
      rw [← hsq, ← hx]
      exact hpow
    rw [hx']
    exact hrt.term_bounded hx0 hbound i
  obtain ⟨s, hs, -, hpos⟩ := sum_bounded (k := 133) (by norm_num) (by norm_num) fun i hi =>
    let ⟨w, hw, hbound, _⟩ := hterm i hi
    ⟨w, hw, hbound⟩
  have hs0 : 0 ≤ s := hpos fun i hi => by
    obtain ⟨w, hw, -, hw0⟩ := hterm i hi
    rw [hw]
    exact finite_le.2 hw0
  show ∃ v, rt.sqrt (forLoop _ (ofRat 0) returns.length) = finite v
  rw [ofRat_zero, hs]
  exact hrt.sqrt s hs0

end Deviation

end StockPredictor.Doubles
