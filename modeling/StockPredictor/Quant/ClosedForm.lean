/-
The simulator's loops in closed form. A path is a running product of its step factors, so a price
is the exponential of a sum of draws; the matrix holds one such path for each iteration, started
`days` draws after the one before; the second pair of loops averages it. From the closed form: the
result scales with the current price, is positive, and a run is the weighted mean of its parts.
-/
import StockPredictor.Quant.Simulator
import Mathlib.Algebra.BigOperators.Field

namespace StockPredictor.Quant

open Base Finset

/-! ## One path -/

section Path

variable (erfc : ℝ → ℝ) (random : ℕ → ℝ) (mean sigma : ℝ)

/-- The log return of the first `n` steps of a path whose first draw is number `draws`. -/
noncomputable def logReturn (draws n : ℕ) : ℝ :=
  n * mean + sigma * ∑ k ∈ range n, getInverseCDF erfc (random (draws + k))

@[simp] theorem logReturn_zero (draws : ℕ) : logReturn erfc random mean sigma draws 0 = 0 := by
  simp [logReturn]

theorem logReturn_succ (draws n : ℕ) : logReturn erfc random mean sigma draws (n + 1) =
    logReturn erfc random mean sigma draws n + (mean + getInverseCDF erfc (random (draws + n)) * sigma) := by
  unfold logReturn
  rw [sum_range_succ]
  push_cast; ring

/-- A path after `days` rounds: its price, its prices by day, and the draws made. -/
theorem simulatePath_eq (currentPrice : ℝ) (days draws : ℕ) :
    simulatePath erfc random mean sigma currentPrice days draws =
      ⟨currentPrice * Real.exp (logReturn erfc random mean sigma draws days),
        (List.range days).map fun d => currentPrice * Real.exp (logReturn erfc random mean sigma draws (d + 1)),
        draws + days⟩ := by
  unfold simulatePath
  induction days with
  | zero => simp
  | succ days ih =>
    rw [forLoop_succ, ih]
    -- one more day multiplies the price by the factor of its draw
    have hstep : currentPrice * Real.exp (logReturn erfc random mean sigma draws days) *
        Real.exp (mean + getInverseCDF erfc (random (draws + days)) * sigma) =
        currentPrice * Real.exp (logReturn erfc random mean sigma draws (days + 1)) := by
      simp only [logReturn_succ, Real.exp_add]; ring
    simp only [simulateDay, hstep, List.range_succ, List.map_append, List.map_cons, List.map_nil, add_assoc]

/-- The matrix: path `i` starts at draw `draws + i * days`. -/
theorem simulatePaths_eq (currentPrice : ℝ) (days iterations draws : ℕ) :
    simulatePaths erfc random mean sigma currentPrice days iterations draws =
      ⟨(List.range iterations).map fun i => (List.range days).map fun d =>
          currentPrice * Real.exp (logReturn erfc random mean sigma (draws + i * days) (d + 1)),
        draws + iterations * days⟩ := by
  unfold simulatePaths
  induction iterations with
  | zero => simp
  | succ n ih =>
    rw [forLoop_succ, ih]
    simp only [simulatePath_eq, List.range_succ, List.map_append, List.map_cons, List.map_nil, add_assoc, Nat.succ_mul]

theorem simulatePaths_price (currentPrice : ℝ) {days iterations : ℕ} (draws : ℕ) {i day : ℕ} (hi : i < iterations)
    (hd : day < days) : (simulatePaths erfc random mean sigma currentPrice days iterations draws).price i day =
      currentPrice * Real.exp (logReturn erfc random mean sigma (draws + i * days) (day + 1)) := by
  rw [simulatePaths_eq]
  simp [Paths.price, List.getD_eq_getElem?_getD, hi, hd]

end Path

/-! ## The average -/

theorem priceByDay_eq (s : Paths) (days iterations : ℕ) :
    priceByDay s days iterations =
      (List.range days).map fun day => (∑ i ∈ range iterations, s.price i day) / iterations := by
  unfold priceByDay
  simp only [forLoop_sum, zero_add]
  exact forLoop_push (fun day => (∑ i ∈ range iterations, s.price i day) / (iterations : ℝ)) days

/-- The entry for day `day` of an `iterations`-path run of `days` days whose first draw is number
`draws`: the current price times the mean over the paths of the exponential of their log return. -/
noncomputable def closedForm (erfc : ℝ → ℝ) (random : ℕ → ℝ) (mean sigma currentPrice : ℝ)
    (days iterations draws day : ℕ) : ℝ :=
  currentPrice / iterations * ∑ i ∈ range iterations, Real.exp ((day + 1) * mean +
    sigma * ∑ k ∈ range (day + 1), getInverseCDF erfc (random (draws + i * days + k)))

theorem exp_logReturn (erfc : ℝ → ℝ) (random : ℕ → ℝ) (mean sigma : ℝ) (draws day : ℕ) :
    logReturn erfc random mean sigma draws (day + 1) =
      (day + 1) * mean + sigma * ∑ k ∈ range (day + 1), getInverseCDF erfc (random (draws + k)) := by
  unfold logReturn; push_cast; rfl

section Run

variable {erfc conv : ℝ → ℝ} {random : ℕ → ℝ} {days iterations : ℤ}
  {currentPrice rate dividendYield volatility : ℝ} {draws : ℕ}

/-- A valid run returns the closed form day by day and makes `days * iterations` draws. -/
theorem simulateStockPrice_eq
    (h : Valid days iterations currentPrice (getDrift conv rate dividendYield) volatility) :
    simulateStockPrice erfc conv random days iterations currentPrice rate dividendYield volatility draws =
      (.ok ((List.range days.toNat).map (closedForm erfc random
          (stepMean (getDrift conv rate dividendYield) (dailyVolatility volatility)) (dailyVolatility volatility)
          currentPrice days.toNat iterations.toNat draws)),
        draws + days.toNat * iterations.toNat) := by
  rw [simulateStockPrice_valid h, pathsOf]
  dsimp only
  rw [priceByDay_eq]
  congr 1
  · congr 1
    refine List.map_congr_left fun day hday => ?_
    rw [closedForm, mul_sum, sum_div]
    refine sum_congr rfl fun i hi => ?_
    rw [simulatePaths_price _ _ _ _ _ _ (mem_range.1 hi) (List.mem_range.1 hday), exp_logReturn]
    ring
  · rw [simulatePaths_eq, mul_comm]

/-- It throws exactly on the arguments that `Validate` rejects. -/
theorem simulateStockPrice_error_iff :
    (∃ message, (simulateStockPrice erfc conv random days iterations currentPrice rate dividendYield volatility
      draws).1 = .error message) ↔
    ¬ Valid days iterations currentPrice (getDrift conv rate dividendYield) volatility := by
  constructor
  · rintro ⟨message, h⟩ hv
    rw [simulateStockPrice_eq hv] at h
    cases h
  · intro hv
    obtain ⟨message, h⟩ := simulateStockPrice_invalid erfc random draws hv
    exact ⟨message, by rw [h]⟩

/-- What a run returns: the arguments are valid and the prices are the closed form. -/
theorem simulateStockPrice_ok_iff {prices : List ℝ} :
    (simulateStockPrice erfc conv random days iterations currentPrice rate dividendYield volatility draws).1 =
      .ok prices ↔
    Valid days iterations currentPrice (getDrift conv rate dividendYield) volatility ∧
      prices = (List.range days.toNat).map (closedForm erfc random
        (stepMean (getDrift conv rate dividendYield) (dailyVolatility volatility)) (dailyVolatility volatility)
        currentPrice days.toNat iterations.toNat draws) := by
  constructor
  · intro h
    by_cases hv : Valid days iterations currentPrice (getDrift conv rate dividendYield) volatility
    · rw [simulateStockPrice_eq hv] at h
      cases h
      exact ⟨hv, rfl⟩
    · obtain ⟨message, h'⟩ := simulateStockPrice_invalid erfc random draws hv
      rw [h'] at h
      cases h
  · rintro ⟨hv, rfl⟩
    rw [simulateStockPrice_eq hv]

end Run

/-! ## Consequences of the closed form -/

section Laws

variable (erfc : ℝ → ℝ) (random : ℕ → ℝ) (mean sigma : ℝ) (days : ℕ)

theorem closedForm_pos {currentPrice : ℝ} (hp : 0 < currentPrice) {iterations : ℕ} (hi : 0 < iterations)
    (draws day : ℕ) : 0 < closedForm erfc random mean sigma currentPrice days iterations draws day := by
  have hi' : (0 : ℝ) < iterations := by exact_mod_cast hi
  have hsum : 0 < ∑ i ∈ range iterations, Real.exp ((day + 1) * mean +
      sigma * ∑ k ∈ range (day + 1), getInverseCDF erfc (random (draws + i * days + k))) :=
    sum_pos (fun _ _ => Real.exp_pos _) (nonempty_range_iff.2 hi.ne')
  exact mul_pos (div_pos hp hi') hsum

theorem closedForm_scale (c currentPrice : ℝ) (iterations draws day : ℕ) :
    closedForm erfc random mean sigma (c * currentPrice) days iterations draws day =
      c * closedForm erfc random mean sigma currentPrice days iterations draws day := by
  unfold closedForm; ring

/-- Splitting the paths: `n₁ + n₂` of them average to the weighted mean of the first `n₁` and of
the `n₂` that start `n₁ * days` draws later. -/
theorem closedForm_add (currentPrice : ℝ) {n₁ n₂ : ℕ} (h₁ : 0 < n₁) (h₂ : 0 < n₂) (draws day : ℕ) :
    closedForm erfc random mean sigma currentPrice days (n₁ + n₂) draws day =
      (n₁ * closedForm erfc random mean sigma currentPrice days n₁ draws day +
        n₂ * closedForm erfc random mean sigma currentPrice days n₂ (draws + n₁ * days) day) / (n₁ + n₂) := by
  have hn₁ : (n₁ : ℝ) ≠ 0 := by positivity
  have hn₂ : (n₂ : ℝ) ≠ 0 := by positivity
  have hn : (n₁ : ℝ) + n₂ ≠ 0 := by positivity
  -- the second part starts where the first `n₁` paths end
  have hidx : ∀ i k, draws + (n₁ + i) * days + k = draws + n₁ * days + i * days + k := fun i k => by ring
  unfold closedForm
  rw [sum_range_add]
  simp only [hidx]
  push_cast
  field_simp

end Laws

/-! ## The run as a whole -/

section Whole

variable {erfc conv : ℝ → ℝ} {random : ℕ → ℝ} {days iterations : ℤ}
  {currentPrice rate dividendYield volatility : ℝ} {draws : ℕ} {prices : List ℝ}

theorem not_valid_iff (days iterations : ℤ) (currentPrice drift volatility : ℝ) :
    ¬ Valid days iterations currentPrice drift volatility ↔
      days ≤ 0 ∨ iterations ≤ 0 ∨ currentPrice ≤ 0 ∨ volatility ≤ 0 ∨ drift < 0 ∨ 1 < drift := by
  constructor
  · intro h
    by_contra hn
    push Not at hn
    obtain ⟨hd, hi, hp, hv, hr⟩ := hn
    exact h ⟨hd, hi, hp, hr, hv⟩
  · rintro h hv
    obtain ⟨hd0, hd1⟩ := hv.drift
    rcases h with h | h | h | h | h | h
    · exact absurd hv.days (not_lt.2 h)
    · exact absurd hv.iterations (not_lt.2 h)
    · exact absurd hv.price (not_lt.2 h)
    · exact absurd hv.volatility (not_lt.2 h)
    · exact absurd hd0 (not_le.2 h)
    · exact absurd hd1 (not_le.2 h)

theorem toNat_cast_of_pos {n : ℤ} (h : 0 < n) : ((n.toNat : ℕ) : ℝ) = n := by
  exact_mod_cast Int.toNat_of_nonneg h.le

/-- A run that throws has drawn nothing. -/
theorem simulateStockPrice_error_draws {message : Text} (h : (simulateStockPrice erfc conv random days iterations
    currentPrice rate dividendYield volatility draws).1 = .error message) :
    (simulateStockPrice erfc conv random days iterations currentPrice rate dividendYield volatility draws).2 =
      draws := by
  obtain ⟨m, hm⟩ := simulateStockPrice_invalid erfc random draws (simulateStockPrice_error_iff.1 ⟨message, h⟩)
  rw [hm]

/-- A run that returns has drawn once for each day and path; its prices are positive, one for each day. -/
theorem simulateStockPrice_ok (h : (simulateStockPrice erfc conv random days iterations currentPrice rate dividendYield
    volatility draws).1 = .ok prices) :
    (simulateStockPrice erfc conv random days iterations currentPrice rate dividendYield volatility draws).2 =
      draws + days.toNat * iterations.toNat ∧ prices.length = days.toNat ∧ ∀ x ∈ prices, 0 < x := by
  obtain ⟨hv, rfl⟩ := simulateStockPrice_ok_iff.1 h
  refine ⟨congrArg Prod.snd (simulateStockPrice_eq hv), by simp, fun x hx => ?_⟩
  obtain ⟨day, -, rfl⟩ := List.mem_map.1 hx
  exact closedForm_pos erfc random _ _ _ hv.price (by have := hv.iterations; omega) draws day

theorem simulateStockPrice_getElem? (h : (simulateStockPrice erfc conv random days iterations currentPrice rate
    dividendYield volatility draws).1 = .ok prices) {d : ℕ} (hd : d < days.toNat) :
    prices[d]? = some (currentPrice / iterations * ∑ i ∈ range iterations.toNat, Real.exp
      ((d + 1) * stepMean (getDrift conv rate dividendYield) (dailyVolatility volatility) +
        dailyVolatility volatility *
          ∑ k ∈ range (d + 1), getInverseCDF erfc (random (draws + i * days.toNat + k)))) := by
  obtain ⟨hv, rfl⟩ := simulateStockPrice_ok_iff.1 h
  rw [List.getElem?_map, List.getElem?_range hd, Option.map_some, closedForm, toNat_cast_of_pos hv.iterations]

/-- The result scales with the current price. -/
theorem simulateStockPrice_scale {c : ℝ} (hc : 0 < c) (h : (simulateStockPrice erfc conv random days iterations
    currentPrice rate dividendYield volatility draws).1 = .ok prices) :
    (simulateStockPrice erfc conv random days iterations (c * currentPrice) rate dividendYield volatility draws).1 =
      .ok (prices.map (c * ·)) := by
  obtain ⟨hv, rfl⟩ := simulateStockPrice_ok_iff.1 h
  refine simulateStockPrice_ok_iff.2 ⟨⟨hv.days, hv.iterations, mul_pos hc hv.price, hv.drift, hv.volatility⟩, ?_⟩
  rw [List.map_map]
  exact List.map_congr_left fun day _ => (closedForm_scale erfc random _ _ _ c currentPrice _ draws day).symm

/-- A run is the weighted mean of its first `n₁` paths and of the others. -/
theorem simulateStockPrice_add {n₁ n₂ : ℤ} {p₁ p₂ : List ℝ} (h₁ : (simulateStockPrice erfc conv random days n₁
    currentPrice rate dividendYield volatility draws).1 = .ok p₁) (h₂ : (simulateStockPrice erfc conv random days n₂
    currentPrice rate dividendYield volatility (draws + n₁.toNat * days.toNat)).1 = .ok p₂) :
    (simulateStockPrice erfc conv random days (n₁ + n₂) currentPrice rate dividendYield volatility draws).1 =
      .ok (List.zipWith (fun a b => (n₁ * a + n₂ * b) / (n₁ + n₂)) p₁ p₂) := by
  obtain ⟨hv₁, rfl⟩ := simulateStockPrice_ok_iff.1 h₁
  obtain ⟨hv₂, rfl⟩ := simulateStockPrice_ok_iff.1 h₂
  have i₁ := hv₁.iterations
  have i₂ := hv₂.iterations
  refine simulateStockPrice_ok_iff.2 ⟨⟨hv₁.days, by omega, hv₁.price, hv₁.drift, hv₁.volatility⟩, ?_⟩
  rw [List.zipWith_map, List.zipWith_self, Int.toNat_add i₁.le i₂.le]
  refine List.map_congr_left fun day _ => ?_
  rw [closedForm_add erfc random _ _ _ currentPrice (by omega) (by omega) draws day, toNat_cast_of_pos i₁,
    toNat_cast_of_pos i₂]

end Whole

/-- `SimulateStockPrice` as a whole. It throws, before any draw, exactly on a non-positive number
of days or iterations, price or volatility, or a drift outside the unit interval; otherwise it
makes `days * iterations` draws and returns `days` positive prices, each given by the closed form.
So the result scales with the current price, and a run of `n₁ + n₂` iterations is the weighted mean
of an `n₁`-run and of an `n₂`-run started `n₁ * days` draws later. -/
theorem simulateStockPrice_closed_form (erfc conv : ℝ → ℝ) (random : ℕ → ℝ) (days iterations : ℤ)
    (currentPrice rate dividendYield volatility : ℝ) (draws : ℕ) :
    let drift := getDrift conv rate dividendYield
    let sigma := volatility / √252
    let mean := if drift ≠ 0 then drift - sigma ^ 2 / 2 else 0
    let run := fun (n : ℤ) (price : ℝ) (start : ℕ) =>
      simulateStockPrice erfc conv random days n price rate dividendYield volatility start
    ((∃ message, (run iterations currentPrice draws).1 = .error message) ↔
      days ≤ 0 ∨ iterations ≤ 0 ∨ currentPrice ≤ 0 ∨ volatility ≤ 0 ∨ drift < 0 ∨ 1 < drift) ∧
    (∀ message, (run iterations currentPrice draws).1 = .error message →
      (run iterations currentPrice draws).2 = draws) ∧
    (∀ prices, (run iterations currentPrice draws).1 = .ok prices →
      (run iterations currentPrice draws).2 = draws + days.toNat * iterations.toNat ∧
      prices.length = days.toNat ∧ (∀ x ∈ prices, 0 < x) ∧
      ∀ d < days.toNat, prices[d]? = some (currentPrice / iterations * ∑ i ∈ range iterations.toNat,
        Real.exp ((d + 1) * mean +
          sigma * ∑ k ∈ range (d + 1), getInverseCDF erfc (random (draws + i * days.toNat + k))))) ∧
    (∀ c > 0, ∀ prices, (run iterations currentPrice draws).1 = .ok prices →
      (run iterations (c * currentPrice) draws).1 = .ok (prices.map (c * ·))) ∧
    (∀ n₁ n₂ : ℤ, ∀ p₁ p₂, (run n₁ currentPrice draws).1 = .ok p₁ →
      (run n₂ currentPrice (draws + n₁.toNat * days.toNat)).1 = .ok p₂ →
      (run (n₁ + n₂) currentPrice draws).1 =
        .ok (List.zipWith (fun a b => (n₁ * a + n₂ * b) / (n₁ + n₂)) p₁ p₂)) := by
  intro drift sigma mean run
  refine ⟨?_, fun message h => simulateStockPrice_error_draws h, fun prices h => ?_,
    fun c hc prices h => simulateStockPrice_scale hc h, fun n₁ n₂ p₁ p₂ h₁ h₂ => simulateStockPrice_add h₁ h₂⟩
  · rw [simulateStockPrice_error_iff]
    exact not_valid_iff _ _ _ _ _
  · obtain ⟨hdraws, hlength, hpos⟩ := simulateStockPrice_ok h
    exact ⟨hdraws, hlength, hpos, fun d hd => simulateStockPrice_getElem? h hd⟩

end StockPredictor.Quant
