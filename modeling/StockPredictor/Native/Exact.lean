/-
The library over exact reals. When every operation is exact and the memory suffices, the program over
any type of numbers is the one the laws of the simulation are about.
-/
import StockPredictor.Native.Simulator
import StockPredictor.Quant.Simulator

namespace StockPredictor.Native

open Base

/-- Exact arithmetic. -/
noncomputable def exactLibrary (erfc : ℝ → ℝ) : Library ℝ :=
  ⟨fun q => (q : ℝ), Real.exp, Real.log, Real.sqrt, fun x n => x ^ n, erfc⟩

variable (erfc : ℝ → ℝ)

@[simp] theorem exact_literal (q : ℚ) : (exactLibrary erfc).literal q = q := rfl
@[simp] theorem exact_exp (x : ℝ) : (exactLibrary erfc).exp x = Real.exp x := rfl
@[simp] theorem exact_log (x : ℝ) : (exactLibrary erfc).log x = Real.log x := rfl
@[simp] theorem exact_sqrt (x : ℝ) : (exactLibrary erfc).sqrt x = √x := rfl
@[simp] theorem exact_pow (x : ℝ) (n : ℤ) : (exactLibrary erfc).pow x n = x ^ n := rfl
@[simp] theorem exact_erfc (x : ℝ) : (exactLibrary erfc).erfc x = erfc x := rfl

/-! ## Functions -/

section Functions

open InverseCDF

@[simp] theorem exact_tailNum (q : ℝ) : tailNum (exactLibrary erfc) q = Quant.InverseCDF.tailNum q := by
  simp [tailNum, Quant.InverseCDF.tailNum, c1, c2, c3, c4, c5, c6, Quant.InverseCDF.c1, Quant.InverseCDF.c2,
    Quant.InverseCDF.c3, Quant.InverseCDF.c4, Quant.InverseCDF.c5, Quant.InverseCDF.c6]

@[simp] theorem exact_tailDen (q : ℝ) : tailDen (exactLibrary erfc) q = Quant.InverseCDF.tailDen q := by
  simp [tailDen, Quant.InverseCDF.tailDen, d1, d2, d3, d4, Quant.InverseCDF.d1, Quant.InverseCDF.d2,
    Quant.InverseCDF.d3, Quant.InverseCDF.d4]

@[simp] theorem exact_centralNum (r : ℝ) : centralNum (exactLibrary erfc) r = Quant.InverseCDF.centralNum r := by
  simp [centralNum, Quant.InverseCDF.centralNum, a1, a2, a3, a4, a5, a6, Quant.InverseCDF.a1, Quant.InverseCDF.a2,
    Quant.InverseCDF.a3, Quant.InverseCDF.a4, Quant.InverseCDF.a5, Quant.InverseCDF.a6]

@[simp] theorem exact_centralDen (r : ℝ) : centralDen (exactLibrary erfc) r = Quant.InverseCDF.centralDen r := by
  simp [centralDen, Quant.InverseCDF.centralDen, b1, b2, b3, b4, b5, Quant.InverseCDF.b1, Quant.InverseCDF.b2,
    Quant.InverseCDF.b3, Quant.InverseCDF.b4, Quant.InverseCDF.b5]

theorem exact_approximate (p : ℝ) : approximate (exactLibrary erfc) p = Quant.InverseCDF.approximate p := by
  have hlow : ((0.02425 : ℚ) : ℝ) = Quant.InverseCDF.pLow := by norm_num [Quant.InverseCDF.pLow]
  simp [approximate, Quant.InverseCDF.approximate, hlow, Quant.InverseCDF.pHigh]

theorem exact_refine (p x : ℝ) : refine (exactLibrary erfc) p x = Quant.InverseCDF.refine erfc p x := by
  have htwo : (2.0 : ℝ) = 2 := by norm_num
  simp [refine, Quant.InverseCDF.refine, Quant.InverseCDF.mPi, htwo]

/-- Every draw has the same shock. -/
theorem exact_getInverseCDF (p : ℝ) : getInverseCDF (exactLibrary erfc) p = Quant.getInverseCDF erfc p := by
  simp [getInverseCDF, Quant.getInverseCDF, exact_refine, exact_approximate]

theorem exact_getDailyRateFromYearlyRate (rate : ℝ) :
    getDailyRateFromYearlyRate (exactLibrary erfc) rate = Quant.getDailyRateFromYearlyRate rate := by
  simp [getDailyRateFromYearlyRate]

theorem exact_getMean (distribution : List ℝ) :
    getMean (exactLibrary erfc) distribution = Quant.getMean distribution := by
  simp [getMean, Quant.getMean, elementAt]

theorem exact_getEWMA (distribution : List ℝ) :
    getEWMA (exactLibrary erfc) distribution = Quant.getEWMA distribution := by
  simp [getEWMA, Quant.getEWMA, elementAt]

/-- So the deviation of the returns is the exact one. -/
theorem exact_getWeightedStandardDeviation (distribution : List ℝ) :
    getWeightedStandardDeviation (exactLibrary erfc) distribution =
      Quant.getWeightedStandardDeviation distribution := by
  simp [getWeightedStandardDeviation, Quant.getWeightedStandardDeviation, exact_getEWMA, exact_getMean]

end Functions

/-! ## The simulation -/

theorem exact_getDrift (rate dividendYield : ℝ) : getDrift (exactLibrary erfc) rate dividendYield =
    Quant.getDrift Quant.getDailyRateFromYearlyRate rate dividendYield := by
  simp [getDrift, Quant.getDrift, exact_getDailyRateFromYearlyRate]

theorem check_eq {violated : Prop} [Decidable violated] (inst : Decidable violated) (text : Text) (r : Bool × Text) :
    check violated text r = @Quant.check violated inst text r := by
  by_cases h : violated <;> simp [check, Quant.check, h]

theorem exact_validate (days iterations : ℤ) (currentPrice drift volatility : ℝ) :
    validate (exactLibrary erfc) days iterations currentPrice drift volatility =
      Quant.validate days iterations currentPrice drift volatility := by
  unfold validate Quant.validate
  simp only [exact_literal, Rat.cast_zero, Rat.cast_one]
  rw [check_eq, check_eq, check_eq, check_eq, check_eq]

theorem exact_stepMean (drift sigma : ℝ) : stepMean (exactLibrary erfc) drift sigma = Quant.stepMean drift sigma := by
  simp [stepMean, Quant.stepMean]

section Paths

variable (random : ℕ → ℝ) (mean sigma currentPrice : ℝ)

theorem exact_simulatePath (days draws : ℕ) : Quant.simulatePath erfc random mean sigma currentPrice days draws =
    ⟨(simulatePath (exactLibrary erfc) random mean sigma currentPrice days draws).price,
      (simulatePath (exactLibrary erfc) random mean sigma currentPrice days draws).iteration,
      (simulatePath (exactLibrary erfc) random mean sigma currentPrice days draws).draws⟩ := by
  induction days with
  | zero => rfl
  | succ days ih =>
    unfold Quant.simulatePath at ih ⊢
    unfold simulatePath at ih ⊢
    rw [forLoop_succ, forLoop_succ, ih]
    simp [Quant.simulateDay, simulateDay, exact_getInverseCDF]

theorem exact_simulatePaths (days iterations draws : ℕ) :
    Quant.simulatePaths erfc random mean sigma currentPrice days iterations draws =
      ⟨(simulatePaths (exactLibrary erfc) random mean sigma currentPrice days iterations draws).arrPaths,
        (simulatePaths (exactLibrary erfc) random mean sigma currentPrice days iterations draws).draws⟩ := by
  induction iterations with
  | zero => rfl
  | succ n ih =>
    unfold Quant.simulatePaths at ih ⊢
    unfold simulatePaths at ih ⊢
    rw [forLoop_succ, forLoop_succ, ih]
    simp [exact_simulatePath]

end Paths

/-- With enough memory and exact arithmetic the simulation is the one of the exact model. -/
theorem exact_simulateStockPrice (random : ℕ → ℝ) (days iterations : ℤ)
    (currentPrice rate dividendYield volatility : ℝ) (draws : ℕ) :
    simulateStockPrice (exactLibrary erfc) (fun _ _ => none) random days iterations currentPrice rate dividendYield
        volatility draws =
      Quant.simulateStockPrice erfc Quant.getDailyRateFromYearlyRate random days iterations currentPrice rate
        dividendYield volatility draws := by
  have hsigma : dailyVolatility (exactLibrary erfc) volatility = Quant.dailyVolatility volatility := by
    simp [dailyVolatility, Quant.dailyVolatility]
  have hprices : ∀ (s : Paths ℝ) (n m : ℕ), priceByDay (exactLibrary erfc) s n m =
      Quant.priceByDay ⟨s.arrPaths, s.draws⟩ n m := fun s n m => by
    simp [priceByDay, Quant.priceByDay, Paths.price, Quant.Paths.price]
  unfold simulateStockPrice Quant.simulateStockPrice Quant.pathsOf
  dsimp only
  rw [exact_getDrift, exact_validate, hsigma, exact_stepMean, hprices, ← exact_simulatePaths]
  split
  · rfl
  · rw [exact_simulatePaths]

end StockPredictor.Native
