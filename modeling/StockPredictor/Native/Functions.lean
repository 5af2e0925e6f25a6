/-
`QuantFunctions.cpp` over any type of numbers with its operations, the functions of `math.h` and
`erfc`. A literal of the source is the number nearest to it, and a `long double` is a `double`.
-/
import Mathlib.Data.Rat.Init
import StockPredictor.Base.Loop

namespace StockPredictor.Native

open Base

/-- The literals, the functions of `math.h` with a `pow` for integer exponents, and Boost's `erfc`. -/
structure Library (F : Type) where
  literal : ℚ → F
  exp : F → F
  log : F → F
  sqrt : F → F
  pow : F → ℤ → F
  erfc : F → F

/-! ## The inverse distribution function -/

namespace InverseCDF

def a1 : ℚ := -39.69683028665376
def a2 : ℚ := 220.9460984245205
def a3 : ℚ := -275.9285104469687
def a4 : ℚ := 138.3577518672690
def a5 : ℚ := -30.66479806614716
def a6 : ℚ := 2.506628277459239

def b1 : ℚ := -54.47609879822406
def b2 : ℚ := 161.5858368580409
def b3 : ℚ := -155.6989798598866
def b4 : ℚ := 66.80131188771972
def b5 : ℚ := -13.28068155288572

def c1 : ℚ := -0.007784894002430293
def c2 : ℚ := -0.3223964580411365
def c3 : ℚ := -2.400758277161838
def c4 : ℚ := -2.549732539343734
def c5 : ℚ := 4.374664141464968
def c6 : ℚ := 2.938163982698783

def d1 : ℚ := 0.007784695709041462
def d2 : ℚ := 0.3224671290700398
def d3 : ℚ := 2.445134137142996
def d4 : ℚ := 3.754408661907416

end InverseCDF

section Functions

variable {F : Type} [Add F] [Sub F] [Mul F] [Div F] [Neg F] [LT F] [DecidableLT F] [LE F] [DecidableLE F]
  (lib : Library F)

namespace InverseCDF

/-- Numerator and denominator of the tail approximation at `q`. -/
def tailNum (q : F) : F :=
  ((((lib.literal c1 * q + lib.literal c2) * q + lib.literal c3) * q + lib.literal c4) * q + lib.literal c5) * q +
    lib.literal c6

def tailDen (q : F) : F :=
  (((lib.literal d1 * q + lib.literal d2) * q + lib.literal d3) * q + lib.literal d4) * q + lib.literal 1

/-- Numerator (without its factor `q`) and denominator of the central approximation at `r = q²`. -/
def centralNum (r : F) : F :=
  ((((lib.literal a1 * r + lib.literal a2) * r + lib.literal a3) * r + lib.literal a4) * r + lib.literal a5) * r +
    lib.literal a6

def centralDen (r : F) : F :=
  ((((lib.literal b1 * r + lib.literal b2) * r + lib.literal b3) * r + lib.literal b4) * r + lib.literal b5) * r +
    lib.literal 1

/-- The value of `x` before the refinement. -/
def approximate (p : F) : F :=
  let pLow := lib.literal 0.02425
  let pHigh := lib.literal 1 - pLow
  let x := lib.literal 0
  let x := if lib.literal 0 < p ∧ p < pLow then
      let q := lib.sqrt (lib.literal (-2) * lib.log p)
      tailNum lib q / tailDen lib q
    else x
  let x := if pLow ≤ p ∧ p ≤ pHigh then
      let q := p - lib.literal 0.5
      let r := q * q
      centralNum lib r * q / centralDen lib r
    else x
  if pHigh < p ∧ p < lib.literal 1 then
    let q := lib.sqrt (lib.literal (-2) * lib.log (lib.literal 1 - p))
    (-tailNum lib q) / tailDen lib q
  else x

/-- The refinement of an approximation `x` of the quantile of `p`; `M_PI` is the integer quotient
`22/7`. -/
def refine (p x : F) : F :=
  let e := lib.literal 0.5 * lib.erfc (-x / lib.sqrt (lib.literal 2)) - p
  let u := e * lib.sqrt (lib.literal 2 * lib.literal (22 / 7 : ℤ)) * lib.exp (x * x / lib.literal 2)
  x - u / (lib.literal 1 + x * u / lib.literal 2)

end InverseCDF

/-- `QuantFunctions::GetInverseCDF`. -/
def getInverseCDF (p : F) : F :=
  let x := InverseCDF.approximate lib p
  if lib.literal 0 < p ∧ p < lib.literal 1 then InverseCDF.refine lib p x else x

/-! ## Rates -/

/-- `QuantFunctions::GetDailyRateFromYearlyRate`: the exponent `1/365` is an integer division. -/
def getDailyRateFromYearlyRate (rate : F) : F := lib.pow (lib.literal 1 + rate) (1 / 365) - lib.literal 1

/-! ## Mean and deviations -/

/-- `distribution[i]`. -/
def elementAt (distribution : List F) (i : ℕ) : F := distribution.getD i (lib.literal 0)

/-- `QuantFunctions::GetMean`. -/
def getMean (distribution : List F) : F :=
  forLoop (fun i cumulative => cumulative + elementAt lib distribution i) (lib.literal 0) distribution.length /
    lib.literal distribution.length

/-- `QuantFunctions::GetEWMA`. -/
def getEWMA (distribution : List F) : F :=
  let lambda := lib.literal 0.94
  forLoop (fun i mean => mean + (lib.literal 1 - lambda) * lib.pow lambda i * elementAt lib distribution i)
    (lib.literal 0) distribution.length

/-- `QuantFunctions::GetWeightedStandardDeviation`. -/
def getWeightedStandardDeviation (distribution : List F) : F :=
  let mean := getMean lib distribution
  let sqDeviation := distribution.map fun x => lib.pow (x - mean) 2
  lib.sqrt (getEWMA lib sqDeviation)

end Functions

end StockPredictor.Native
