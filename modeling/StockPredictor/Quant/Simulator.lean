/-
`MonteCarloSimulator.cpp` over exact reals. The draws are a stream: `random j` is the value of
`(double)rand()/(double)RAND_MAX` at the `j`-th call of `rand()`, and every function that draws
takes and returns the number of calls made so far. `conv` is the yearly to daily conversion that
`GetDrift` calls, in the code `getDailyRateFromYearlyRate`.
-/
import StockPredictor.Base.Text
import StockPredictor.Quant.Functions

namespace StockPredictor.Quant

open Base

noncomputable section

/-- The stream of `(double)rand()/(double)RAND_MAX` for the results `rand` of the calls. -/
def randomOf (RAND_MAX : ℕ) (rand : ℕ → ℕ) (j : ℕ) : ℝ := (rand j : ℝ) / (RAND_MAX : ℝ)

/-! ## Arguments -/

/-- One test of `Validate`: a violated one clears the flag and extends the message. -/
def check (violated : Prop) [Decidable violated] (text : Text) (r : Bool × Text) : Bool × Text :=
  if violated then (false, r.2 ++ text) else r

open Classical in
/-- `MonteCarloSimulator::Validate`: the flag and the message. -/
def validate (days iterations : ℤ) (currentPrice drift volatility : ℝ) : Bool × Text :=
  (true, []) |>
  check (days ≤ 0) "Validation Error : Input parameter days must be greater than 0" |>
  check (iterations ≤ 0) "Validation Error : Input parameter iterations must be greater than 0" |>
  check (currentPrice ≤ 0) "Validation Error : Input parameter currentPrice must be greater than 0" |>
  check (drift < 0 ∨ drift > 1)
    "Validation Error : Input parameter drift must be greater than 0 and less than one" |>
  check (volatility ≤ 0) "Validation Error : Input parameter volatility must be greater than 0 and less than one"

/-- `MonteCarloSimulator::GetDrift`. -/
def getDrift (conv : ℝ → ℝ) (rate dividendYield : ℝ) : ℝ :=
  let dailyRate := conv rate
  let dailyDividend := conv dividendYield
  let drift := dailyRate - dailyDividend
  if drift > 0 then drift else 0

/-- `mean` of `SimulateStockPrice`: a zero drift leaves it zero. -/
def stepMean (drift dailyVolatility : ℝ) : ℝ := if drift ≠ 0 then drift - dailyVolatility ^ 2 / 2 else 0

/-- The volatility of one day, `volatility/sqrt(252)`. -/
def dailyVolatility (volatility : ℝ) : ℝ := volatility / √252

/-! ## The loops -/

/-- The state of the loop over the days of one path. -/
structure PathState where
  price : ℝ
  iteration : List ℝ
  draws : ℕ

/-- The body of the loop over days: one draw, one step of the price. -/
def simulateDay (erfc : ℝ → ℝ) (random : ℕ → ℝ) (mean sigma : ℝ) (s : PathState) : PathState :=
  let zValue := getInverseCDF erfc (random s.draws)
  let rateOfReturn := mean + zValue * sigma
  let price := s.price * Real.exp rateOfReturn
  ⟨price, s.iteration ++ [price], s.draws + 1⟩

/-- One path: it starts at the current price. -/
def simulatePath (erfc : ℝ → ℝ) (random : ℕ → ℝ) (mean sigma currentPrice : ℝ) (days draws : ℕ) : PathState :=
  forLoop (fun _ => simulateDay erfc random mean sigma) ⟨currentPrice, [], draws⟩ days

/-- The matrix of paths and the draws made. -/
structure Paths where
  arrPaths : List (List ℝ)
  draws : ℕ

/-- The loop over iterations, one path each. -/
def simulatePaths (erfc : ℝ → ℝ) (random : ℕ → ℝ) (mean sigma currentPrice : ℝ) (days iterations draws : ℕ) : Paths :=
  forLoop (fun _ s =>
    let p := simulatePath erfc random mean sigma currentPrice days s.draws
    ⟨s.arrPaths ++ [p.iteration], p.draws⟩) ⟨[], draws⟩ iterations

/-- The price of path `iteration` after day `day`, `arrPaths[iteration][day]`. -/
def Paths.price (s : Paths) (iteration day : ℕ) : ℝ := (s.arrPaths.getD iteration []).getD day 0

/-- The second pair of loops: the mean over the paths, day by day. -/
def priceByDay (s : Paths) (days iterations : ℕ) : List ℝ :=
  forLoop (fun day arrPriceByDay =>
    let cumulative := forLoop (fun iteration cumulative => cumulative + s.price iteration day) 0 iterations
    arrPriceByDay ++ [cumulative / iterations]) [] days

/-- The paths `SimulateStockPrice` simulates for its arguments. -/
def pathsOf (erfc conv : ℝ → ℝ) (random : ℕ → ℝ) (days iterations : ℤ)
    (currentPrice rate dividendYield volatility : ℝ) (draws : ℕ) : Paths :=
  let drift := getDrift conv rate dividendYield
  let sigma := dailyVolatility volatility
  let mean := stepMean drift sigma
  simulatePaths erfc random mean sigma currentPrice days.toNat iterations.toNat draws

/-- `MonteCarloSimulator::SimulateStockPrice` with six arguments: the prices by day or the thrown
message, and the draws made. -/
def simulateStockPrice (erfc conv : ℝ → ℝ) (random : ℕ → ℝ) (days iterations : ℤ)
    (currentPrice rate dividendYield volatility : ℝ) (draws : ℕ) : Except Text (List ℝ) × ℕ :=
  let drift := getDrift conv rate dividendYield
  let valid := validate days iterations currentPrice drift volatility
  if valid.1 = false then (.error valid.2, draws)
  else
    let s := pathsOf erfc conv random days iterations currentPrice rate dividendYield volatility draws
    (.ok (priceByDay s days.toNat iterations.toNat), s.draws)

/-- `MonteCarloSimulator::SimulateStockPrice` with four arguments. -/
def simulateStockPrice₄ (erfc conv : ℝ → ℝ) (random : ℕ → ℝ) (days iterations : ℤ)
    (currentPrice volatility : ℝ) (draws : ℕ) : Except Text (List ℝ) × ℕ :=
  let rate := 0
  let dividend := 0
  simulateStockPrice erfc conv random days iterations currentPrice rate dividend volatility draws

/-! ## Facts about the arguments -/

@[simp] theorem check_fst (violated : Prop) [Decidable violated] (text : Text) (r : Bool × Text) :
    (check violated text r).1 = true ↔ ¬ violated ∧ r.1 = true := by
  unfold check; split <;> simp_all

/-- What `Validate` accepts. -/
structure Valid (days iterations : ℤ) (currentPrice drift volatility : ℝ) : Prop where
  days : 0 < days
  iterations : 0 < iterations
  price : 0 < currentPrice
  drift : 0 ≤ drift ∧ drift ≤ 1
  volatility : 0 < volatility

theorem validate_iff (days iterations : ℤ) (currentPrice drift volatility : ℝ) :
    (validate days iterations currentPrice drift volatility).1 = true ↔
      Valid days iterations currentPrice drift volatility := by
  simp only [validate, check_fst, not_le, not_or, not_lt, gt_iff_lt, and_true]
  constructor
  · rintro ⟨hv, hd, hp, hi, hn⟩
    exact ⟨hn, hi, hp, hd, hv⟩
  · rintro ⟨hn, hi, hp, hd, hv⟩
    exact ⟨hv, hd, hp, hi, hn⟩

/-- The drift is the clamped difference of the converted rates. -/
theorem getDrift_eq_max (conv : ℝ → ℝ) (rate dividendYield : ℝ) :
    getDrift conv rate dividendYield = max 0 (conv rate - conv dividendYield) := by
  unfold getDrift
  dsimp only
  split
  · rename_i h; exact (max_eq_right h.le).symm
  · rename_i h; exact (max_eq_left (not_lt.1 h)).symm

theorem getDrift_nonneg (conv : ℝ → ℝ) (rate dividendYield : ℝ) : 0 ≤ getDrift conv rate dividendYield := by
  rw [getDrift_eq_max]; exact le_max_left _ _

/-- With the code's conversion the drift is zero for all rates. -/
@[simp] theorem getDrift_code (rate dividendYield : ℝ) :
    getDrift getDailyRateFromYearlyRate rate dividendYield = 0 := by
  simp [getDrift_eq_max]

theorem dailyVolatility_pos {volatility : ℝ} (h : 0 < volatility) : 0 < dailyVolatility volatility :=
  div_pos h (Real.sqrt_pos.2 (by norm_num))

@[simp] theorem stepMean_zero (sigma : ℝ) : stepMean 0 sigma = 0 := if_neg (by simp)

theorem stepMean_of_ne {drift : ℝ} (h : drift ≠ 0) (sigma : ℝ) : stepMean drift sigma = drift - sigma ^ 2 / 2 :=
  if_pos h

/-- With valid arguments the simulator runs its loops. -/
theorem simulateStockPrice_valid {erfc conv : ℝ → ℝ} {random : ℕ → ℝ} {days iterations : ℤ}
    {currentPrice rate dividendYield volatility : ℝ} {draws : ℕ}
    (h : Valid days iterations currentPrice (getDrift conv rate dividendYield) volatility) :
    simulateStockPrice erfc conv random days iterations currentPrice rate dividendYield volatility draws =
      let s := pathsOf erfc conv random days iterations currentPrice rate dividendYield volatility draws
      (.ok (priceByDay s days.toNat iterations.toNat), s.draws) := by
  unfold simulateStockPrice
  dsimp only
  rw [(validate_iff _ _ _ _ _).2 h]
  rfl

/-- With other arguments it throws and draws nothing. -/
theorem simulateStockPrice_invalid (erfc : ℝ → ℝ) {conv : ℝ → ℝ} (random : ℕ → ℝ) {days iterations : ℤ}
    {currentPrice rate dividendYield volatility : ℝ} (draws : ℕ)
    (h : ¬ Valid days iterations currentPrice (getDrift conv rate dividendYield) volatility) :
    ∃ message, simulateStockPrice erfc conv random days iterations currentPrice rate dividendYield volatility draws =
      (.error message, draws) := by
  unfold simulateStockPrice
  dsimp only
  rw [← validate_iff, Bool.not_eq_true] at h
  rw [h]
  exact ⟨_, rfl⟩

end

end StockPredictor.Quant
