/-
The model law `S(t) = S(t-1) · exp(μ - σ²/2 + Zσ)`. A step of the code multiplies the price by
`exp(mean + Zσ)`, and `mean` is `μ - σ²/2` only when the drift is not zero; so over any conversion
a run follows the law exactly when its drift is not zero, and with the code's conversion, whose
drift is always zero, no run does.
-/
import StockPredictor.Base.Erfc
import StockPredictor.Quant.ClosedForm

namespace StockPredictor.Quant

open Base

/-- The price before day `day` of path `i`: the current price on the first day. -/
noncomputable def Paths.before (s : Paths) (currentPrice : ℝ) (i day : ℕ) : ℝ :=
  if day = 0 then currentPrice else s.price i (day - 1)

/-- Every step of every path of a run multiplies the price by `exp(μ - σ²/2 + Zσ)`, where `μ` is
the drift, `σ` the daily volatility and `Z` the inverse distribution function of the step's draw. -/
def FollowsModel (erfc conv : ℝ → ℝ) (random : ℕ → ℝ) (days iterations : ℤ)
    (currentPrice rate dividendYield volatility : ℝ) (draws : ℕ) : Prop :=
  let s := pathsOf erfc conv random days iterations currentPrice rate dividendYield volatility draws
  let mu := getDrift conv rate dividendYield
  let sigma := dailyVolatility volatility
  ∀ i < iterations.toNat, ∀ day < days.toNat, s.price i day = s.before currentPrice i day *
    Real.exp (mu - sigma ^ 2 / 2 + getInverseCDF erfc (random (draws + i * days.toNat + day)) * sigma)

section Step

variable (erfc conv : ℝ → ℝ) (random : ℕ → ℝ) {days iterations : ℤ} (currentPrice rate dividendYield volatility : ℝ)
  (draws : ℕ) {i day : ℕ}

/-- The price before a day, as the exponential of the log return of the days before. -/
theorem pathsOf_before (hi : i < iterations.toNat) (hd : day < days.toNat) :
    (pathsOf erfc conv random days iterations currentPrice rate dividendYield volatility draws).before
      currentPrice i day =
    currentPrice * Real.exp (logReturn erfc random (stepMean (getDrift conv rate dividendYield)
      (dailyVolatility volatility)) (dailyVolatility volatility) (draws + i * days.toNat) day) := by
  unfold Paths.before
  cases day with
  | zero => simp
  | succ d =>
    rw [if_neg (by omega), Nat.add_sub_cancel]
    exact simulatePaths_price _ _ _ _ _ _ hi (by omega)

/-- One step of one path, as the code takes it. -/
theorem pathsOf_step (hi : i < iterations.toNat) (hd : day < days.toNat) :
    (pathsOf erfc conv random days iterations currentPrice rate dividendYield volatility draws).price i day =
    (pathsOf erfc conv random days iterations currentPrice rate dividendYield volatility draws).before
      currentPrice i day *
    Real.exp (stepMean (getDrift conv rate dividendYield) (dailyVolatility volatility) +
      getInverseCDF erfc (random (draws + i * days.toNat + day)) * dailyVolatility volatility) := by
  rw [pathsOf_before erfc conv random currentPrice rate dividendYield volatility draws hi hd, mul_assoc,
    ← Real.exp_add, ← logReturn_succ]
  exact simulatePaths_price _ _ _ _ _ _ hi hd

end Step

/-- The code's mean is the law's exactly when the drift is not zero. -/
theorem stepMean_eq_iff (drift : ℝ) {sigma : ℝ} (hs : 0 < sigma) :
    stepMean drift sigma = drift - sigma ^ 2 / 2 ↔ drift ≠ 0 := by
  constructor
  · rintro h rfl
    rw [stepMean_zero] at h
    have : 0 < sigma ^ 2 := by positivity
    linarith
  · exact fun h => stepMean_of_ne h sigma

/-- Over any conversion, a valid run follows the law exactly when its drift is not zero. -/
theorem followsModel_iff (erfc conv : ℝ → ℝ) (random : ℕ → ℝ) {days iterations : ℤ}
    {currentPrice rate dividendYield volatility : ℝ} (draws : ℕ)
    (h : Valid days iterations currentPrice (getDrift conv rate dividendYield) volatility) :
    FollowsModel erfc conv random days iterations currentPrice rate dividendYield volatility draws ↔
      getDrift conv rate dividendYield ≠ 0 := by
  have hs := dailyVolatility_pos h.volatility
  rw [← stepMean_eq_iff _ hs]
  constructor
  · intro hf
    -- the first step of the first path already tells the two means apart
    have hi : 0 < iterations.toNat := by have := h.iterations; omega
    have hd : 0 < days.toNat := by have := h.days; omega
    have h1 := hf 0 hi 0 hd
    rw [pathsOf_step erfc conv random currentPrice rate dividendYield volatility draws hi hd] at h1
    have hb : (pathsOf erfc conv random days iterations currentPrice rate dividendYield volatility draws).before
        currentPrice 0 0 ≠ 0 := h.price.ne'
    have h2 := Real.exp_injective (mul_left_cancel₀ hb h1)
    linarith
  · intro he i hi day hd
    rw [pathsOf_step erfc conv random currentPrice rate dividendYield volatility draws hi hd, he]

/-- The code drops the correction `-σ²/2` in every run: no valid run follows the law. -/
theorem not_followsModel (erfc : ℝ → ℝ) (RAND_MAX : ℕ) (rand : ℕ → ℕ) {days iterations : ℤ}
    {currentPrice rate dividendYield volatility : ℝ} (draws : ℕ)
    (h : Valid days iterations currentPrice (getDrift getDailyRateFromYearlyRate rate dividendYield) volatility) :
    ¬ FollowsModel erfc getDailyRateFromYearlyRate (randomOf RAND_MAX rand) days iterations currentPrice rate
      dividendYield volatility draws := by
  rw [followsModel_iff erfc _ _ draws h, getDrift_code]
  exact fun hn => hn rfl

theorem not_followsModel_small : ¬ FollowsModel erfc getDailyRateFromYearlyRate (randomOf 32767 fun _ => 0) 1 1 100
    (1 / 20) 0 (1 / 5) 0 :=
  not_followsModel erfc 32767 (fun _ => 0) 0
    ⟨by norm_num, by norm_num, by norm_num, by simp, by norm_num⟩

/-- At a price of 100, a rate of 5 %, no dividend, a volatility of 20 % and draws that are all
zero, the price stays at 100 where the law asks for `100 · exp(-σ²/2)`. -/
theorem followsModel_fails :
    Valid 1 1 100 (getDrift getDailyRateFromYearlyRate (1 / 20) 0) (1 / 5) ∧
    (pathsOf erfc getDailyRateFromYearlyRate (randomOf 32767 fun _ => 0) 1 1 100 (1 / 20) 0 (1 / 5) 0).price 0 0 =
      100 ∧
    ¬ FollowsModel erfc getDailyRateFromYearlyRate (randomOf 32767 fun _ => 0) 1 1 100 (1 / 20) 0 (1 / 5) 0 := by
  have hv : Valid 1 1 100 (getDrift getDailyRateFromYearlyRate (1 / 20) 0) (1 / 5) :=
    ⟨by norm_num, by norm_num, by norm_num, by simp, by norm_num⟩
  refine ⟨hv, ?_, ?_⟩
  · have hz : getInverseCDF erfc (randomOf 32767 (fun _ => 0) 0) = 0 := by
      norm_num [getInverseCDF, randomOf, InverseCDF.approximate, InverseCDF.pLow, InverseCDF.pHigh]
    rw [pathsOf_step erfc getDailyRateFromYearlyRate (randomOf 32767 fun _ => 0) 100 (1 / 20) 0 (1 / 5) 0
      (by norm_num) (by norm_num)]
    simp [Paths.before, hz]
  · rw [followsModel_iff erfc _ _ 0 hv, getDrift_code]
    exact fun hn => hn rfl

end StockPredictor.Quant
