/-
`QuantFunctions.cpp` over exact reals: the inverse normal distribution function, the yearly to
daily rate conversion, the mean and the deviations. `erfc` stands for Boost's complementary error
function and stays a parameter. A `double*` with its size is a list.
-/
import StockPredictor.Base.Numeral
import StockPredictor.Base.Loop
import Mathlib.Analysis.SpecialFunctions.Pow.Real
import Mathlib.Analysis.SpecialFunctions.Sqrt

namespace StockPredictor.Quant

open Base

noncomputable section

/-! ## The inverse distribution function -/

namespace InverseCDF

/-- `const double M_PI = 22/7`: the division is between integers. -/
def mPi : ℝ := ((22 / 7 : ℤ) : ℝ)

def a1 : ℝ := -39.69683028665376
def a2 : ℝ := 220.9460984245205
def a3 : ℝ := -275.9285104469687
def a4 : ℝ := 138.3577518672690
def a5 : ℝ := -30.66479806614716
def a6 : ℝ := 2.506628277459239

def b1 : ℝ := -54.47609879822406
def b2 : ℝ := 161.5858368580409
def b3 : ℝ := -155.6989798598866
def b4 : ℝ := 66.80131188771972
def b5 : ℝ := -13.28068155288572

def c1 : ℝ := -0.007784894002430293
def c2 : ℝ := -0.3223964580411365
def c3 : ℝ := -2.400758277161838
def c4 : ℝ := -2.549732539343734
def c5 : ℝ := 4.374664141464968
def c6 : ℝ := 2.938163982698783

def d1 : ℝ := 0.007784695709041462
def d2 : ℝ := 0.3224671290700398
def d3 : ℝ := 2.445134137142996
def d4 : ℝ := 3.754408661907416

/-- The break-points between the tails and the central region. -/
def pLow : ℝ := 0.02425
def pHigh : ℝ := 1 - pLow

/-- Numerator and denominator of the tail approximation at `q`. -/
def tailNum (q : ℝ) : ℝ := ((((c1 * q + c2) * q + c3) * q + c4) * q + c5) * q + c6
def tailDen (q : ℝ) : ℝ := (((d1 * q + d2) * q + d3) * q + d4) * q + 1

/-- Numerator (without its factor `q`) and denominator of the central approximation at `r = q²`. -/
def centralNum (r : ℝ) : ℝ := ((((a1 * r + a2) * r + a3) * r + a4) * r + a5) * r + a6
def centralDen (r : ℝ) : ℝ := ((((b1 * r + b2) * r + b3) * r + b4) * r + b5) * r + 1

/-- The value of `x` before the refinement; it stays `0` outside the open unit interval. -/
def approximate (p : ℝ) : ℝ :=
  let x : ℝ := 0
  let x := if 0 < p ∧ p < pLow then
      let q := √(-2 * Real.log p)
      tailNum q / tailDen q
    else x
  let x := if pLow ≤ p ∧ p ≤ pHigh then
      let q := p - 0.5
      let r := q * q
      centralNum r * q / centralDen r
    else x
  if pHigh < p ∧ p < 1 then
    let q := √(-2 * Real.log (1 - p))
    (-tailNum q) / tailDen q
  else x

/-- The refinement of an approximation `x` of the quantile of `p`. -/
def refine (erfc : ℝ → ℝ) (p x : ℝ) : ℝ :=
  let e := 0.5 * erfc (-x / √2.0) - p
  let u := e * √(2 * mPi) * Real.exp (x * x / 2)
  x - u / (1 + x * u / 2)

end InverseCDF

/-- `QuantFunctions::GetInverseCDF`. -/
def getInverseCDF (erfc : ℝ → ℝ) (p : ℝ) : ℝ :=
  let x := InverseCDF.approximate p
  if 0 < p ∧ p < 1 then InverseCDF.refine erfc p x else x

/-! ## Rates -/

/-- `QuantFunctions::GetDailyRateFromYearlyRate`: the exponent `1/365` is an integer division. -/
def getDailyRateFromYearlyRate (rate : ℝ) : ℝ := (1 + rate) ^ (((1 / 365 : ℤ)) : ℝ) - 1

/-- The integer exponent is zero, so every yearly rate becomes the daily rate zero. -/
@[simp] theorem getDailyRateFromYearlyRate_eq_zero (rate : ℝ) : getDailyRateFromYearlyRate rate = 0 := by
  have h : (1 / 365 : ℤ) = 0 := by norm_num
  unfold getDailyRateFromYearlyRate
  rw [h, Int.cast_zero, Real.rpow_zero, sub_self]

/-! ## Mean and deviations -/

/-- `QuantFunctions::GetMean`. -/
def getMean (distribution : List ℝ) : ℝ :=
  forLoop (fun i cumulative => cumulative + distribution.getD i 0) 0 distribution.length / distribution.length

/-- `QuantFunctions::GetStandardDeviation`. -/
def getStandardDeviation (distribution : List ℝ) : ℝ :=
  let mean := getMean distribution
  √(forLoop (fun i cumulativeDeviation => cumulativeDeviation + (distribution.getD i 0 - mean) ^ 2) 0
    distribution.length / distribution.length)

/-- `QuantFunctions::GetEWMA`: the weight of an element falls with its index. -/
def getEWMA (distribution : List ℝ) : ℝ :=
  let lambda : ℝ := 0.94
  forLoop (fun i mean => mean + (1 - lambda) * lambda ^ i * distribution.getD i 0) 0 distribution.length

/-- `QuantFunctions::GetWeightedStandardDeviation`. -/
def getWeightedStandardDeviation (distribution : List ℝ) : ℝ :=
  let mean := getMean distribution
  let sqDeviation := distribution.map fun x => (x - mean) ^ 2
  √(getEWMA sqDeviation)

theorem sum_range_getD : ∀ l : List ℝ, ∑ i ∈ Finset.range l.length, l.getD i 0 = l.sum
  | [] => rfl
  | x :: l => by
    rw [List.length_cons, Finset.sum_range_succ', List.sum_cons, ← sum_range_getD l]
    simp [add_comm]

theorem getMean_eq (l : List ℝ) : getMean l = l.sum / l.length := by
  unfold getMean
  rw [forLoop_sum, sum_range_getD, zero_add]

theorem getEWMA_eq (l : List ℝ) :
    getEWMA l = ∑ i ∈ Finset.range l.length, (1 - 0.94) * 0.94 ^ i * l.getD i 0 := by
  unfold getEWMA
  rw [forLoop_sum, zero_add]

end

end StockPredictor.Quant
