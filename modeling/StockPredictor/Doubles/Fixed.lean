/-
A runtime whose functions are right to 49 binary digits after the point, except that an integer power
is the nearest double. All its draws are zero, and its memory suffices.
-/
import StockPredictor.Base.Erfc
import StockPredictor.Doubles.Volatility

namespace StockPredictor.Doubles

open Base Base.Double

noncomputable section

/-- The nearest number with 49 binary digits after the point. -/
def fixed (x : ℝ) : Double := finite (roundHalfEven (x * (2 ^ 49 : ℕ)) / (2 ^ 49 : ℕ))

def fixedExp : Double → Double
  | finite v => if Real.exp v < overflowThreshold then fixed (Real.exp v) else posInfinity
  | posInfinity => posInfinity
  | negInfinity => finite 0
  | nan => nan

def fixedLog : Double → Double
  | finite v => if 0 < v then fixed (Real.log v) else if v = 0 then negInfinity else nan
  | posInfinity => posInfinity
  | _ => nan

def fixedSqrt : Double → Double
  | finite v => if 0 ≤ v then fixed √v else nan
  | posInfinity => posInfinity
  | _ => nan

def nearestPow (x : Double) (n : ℤ) : Double :=
  if n = 0 then finite 1
  else
    match x with
    | finite v => ofRat (v ^ n)
    | posInfinity => posInfinity
    | negInfinity => if Even n then posInfinity else negInfinity
    | nan => nan

def fixedErfc : Double → Double
  | finite v => fixed (Base.erfc v)
  | posInfinity => finite 0
  | negInfinity => finite 2
  | nan => nan

def fixedRuntime : Runtime where
  exp := fixedExp
  log := fixedLog
  sqrt := fixedSqrt
  pow := nearestPow
  erfc := fixedErfc
  rand _ := 0
  RAND_MAX := 32767
  mathLog := fixedLog
  memory _ _ := none
  showDouble _ := []
  showDecimal _ := []

end

theorem abs_fixed_sub_le (x : ℝ) : ∃ v : ℚ, fixed x = finite v ∧ |(v : ℝ) - x| ≤ 1 := by
  refine ⟨_, rfl, ?_⟩
  have h1 := roundHalfEven_le (x * (2 ^ 49 : ℕ))
  have h2 := le_roundHalfEven (x * (2 ^ 49 : ℕ))
  have hpos : (1 : ℝ) ≤ (2 ^ 49 : ℕ) := by norm_num
  rw [Rat.cast_div, Rat.cast_intCast, Rat.cast_natCast]
  generalize ((2 ^ 49 : ℕ) : ℝ) = unit at h1 h2 hpos ⊢
  have hunit : 0 < unit := zero_lt_one.trans_le hpos
  have hdiff : roundHalfEven (x * unit) / unit - x = (roundHalfEven (x * unit) - x * unit) / unit := by
    field_simp
  rw [hdiff, abs_div, abs_of_pos hunit, div_le_one hunit]
  exact (abs_le.2 ⟨by linarith, by linarith⟩ : _ ≤ (1 / 2 : ℝ)).trans (by linarith)

theorem accurate_fixedRuntime : fixedRuntime.Accurate where
  mathLog x hlow _ := by
    have hx : 0 < x := (two_zpow_pos _).trans_le hlow
    obtain ⟨v, hv, hnear⟩ := abs_fixed_sub_le (Real.log x)
    exact ⟨v, (if_pos hx).trans hv, hnear⟩
  pow x n h0 h1 := by
    show ∃ w, nearestPow (finite x) n = finite w ∧ _
    unfold nearestPow
    split
    · rename_i hn
      obtain rfl : n = 0 := by exact_mod_cast hn
      exact ⟨1, rfl, zero_le_one, by norm_num⟩
    · obtain ⟨hfinite, -⟩ := ofRat_of_abs_le (k := 1000) (by norm_num) (by norm_num) ((abs_of_nonneg h0).trans_le h1)
      exact ⟨_, (congrArg ofRat (zpow_natCast x n)).trans hfinite, roundToUlp_nonneg h0, roundToUlp_le_two_mul_add h0⟩
  sqrt x hx := ⟨_, if_pos hx⟩

end StockPredictor.Doubles
