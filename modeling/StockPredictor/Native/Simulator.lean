/-
`MonteCarloSimulator.cpp` over any type of numbers. A valid call returns one number for each day: the
running sum of the paths' prices over the number of paths, where a path starts at the current price
and each draw multiplies it by one factor. The memory of a call may run out after some draws.
-/
import StockPredictor.Base.Text
import StockPredictor.Native.Functions

namespace StockPredictor.Native

open Base

variable {F : Type} [Add F] [Sub F] [Mul F] [Div F] [Neg F] [LT F] [DecidableLT F] [LE F] [DecidableLE F]

/-! ## Arguments -/

/-- One test of `Validate`: a violated one clears the flag and extends the message. -/
def check (violated : Prop) [Decidable violated] (text : Text) (r : Bool × Text) : Bool × Text :=
  if violated then (false, r.2 ++ text) else r

section Functions

variable (lib : Library F)

/-- `MonteCarloSimulator::Validate`: the flag and the message. -/
def validate (days iterations : ℤ) (currentPrice drift volatility : F) : Bool × Text :=
  (true, []) |>
  check (days ≤ 0) "Validation Error : Input parameter days must be greater than 0" |>
  check (iterations ≤ 0) "Validation Error : Input parameter iterations must be greater than 0" |>
  check (currentPrice ≤ lib.literal 0) "Validation Error : Input parameter currentPrice must be greater than 0" |>
  check (drift < lib.literal 0 ∨ lib.literal 1 < drift)
    "Validation Error : Input parameter drift must be greater than 0 and less than one" |>
  check (volatility ≤ lib.literal 0)
    "Validation Error : Input parameter volatility must be greater than 0 and less than one"

/-- `MonteCarloSimulator::GetDrift`. -/
def getDrift (rate dividendYield : F) : F :=
  let dailyRate := getDailyRateFromYearlyRate lib rate
  let dailyDividend := getDailyRateFromYearlyRate lib dividendYield
  let drift := dailyRate - dailyDividend
  if lib.literal 0 < drift then drift else lib.literal 0

/-- The volatility of one day. -/
def dailyVolatility (volatility : F) : F := volatility / lib.sqrt (lib.literal 252)

/-- `mean` of `SimulateStockPrice`: a zero drift leaves it zero. -/
def stepMean [DecidableEq F] (drift dailyVolatility : F) : F :=
  if drift ≠ lib.literal 0 then drift - lib.pow dailyVolatility 2 / lib.literal 2 else lib.literal 0

/-! ## The loops -/

/-- The state of the loop over the days of one path. -/
structure PathState (F : Type) where
  price : F
  iteration : List F
  draws : ℕ

/-- The body of the loop over days: one draw, one step of the price. -/
def simulateDay (random : ℕ → F) (mean sigma : F) (s : PathState F) : PathState F :=
  let zValue := getInverseCDF lib (random s.draws)
  let rateOfReturn := mean + zValue * sigma
  let price := s.price * lib.exp rateOfReturn
  ⟨price, s.iteration ++ [price], s.draws + 1⟩

/-- One path: it starts at the current price. -/
def simulatePath (random : ℕ → F) (mean sigma currentPrice : F) (days draws : ℕ) : PathState F :=
  forLoop (fun _ => simulateDay lib random mean sigma) ⟨currentPrice, [], draws⟩ days

/-- The matrix of paths and the draws made. -/
structure Paths (F : Type) where
  arrPaths : List (List F)
  draws : ℕ

/-- The loop over iterations, one path each. -/
def simulatePaths (random : ℕ → F) (mean sigma currentPrice : F) (days iterations draws : ℕ) : Paths F :=
  forLoop (fun _ s =>
    let p := simulatePath lib random mean sigma currentPrice days s.draws
    ⟨s.arrPaths ++ [p.iteration], p.draws⟩) ⟨[], draws⟩ iterations

/-- The price of path `iteration` after day `day`, `arrPaths[iteration][day]`. -/
def Paths.price (s : Paths F) (iteration day : ℕ) : F := (s.arrPaths.getD iteration []).getD day (lib.literal 0)

/-- The second pair of loops: the mean over the paths, day by day. -/
def priceByDay (s : Paths F) (days iterations : ℕ) : List F :=
  forLoop (fun day arrPriceByDay =>
    let cumulative := forLoop (fun iteration cumulative => cumulative + s.price lib iteration day) (lib.literal 0)
      iterations
    arrPriceByDay ++ [cumulative / lib.literal iterations]) [] days

/-- `MonteCarloSimulator::SimulateStockPrice` with six arguments: the prices by day or what is thrown,
and the draws made. `memory` tells after how many draws of a call over that many days and iterations
the memory runs out, if it does. -/
def simulateStockPrice [DecidableEq F] (memory : ℤ → ℤ → Option ℕ) (random : ℕ → F) (days iterations : ℤ)
    (currentPrice rate dividendYield volatility : F) (draws : ℕ) : Except Text (List F) × ℕ :=
  let drift := getDrift lib rate dividendYield
  let valid := validate lib days iterations currentPrice drift volatility
  if valid.1 = false then (.error valid.2, draws)
  else
    match memory days iterations with
    | some made => (.error "bad allocation", draws + made)
    | none =>
      let sigma := dailyVolatility lib volatility
      let mean := stepMean lib drift sigma
      let s := simulatePaths lib random mean sigma currentPrice days.toNat iterations.toNat draws
      (.ok (priceByDay lib s days.toNat iterations.toNat), s.draws)

/-- `MonteCarloSimulator::SimulateStockPrice` with four arguments. -/
def simulateStockPrice₄ [DecidableEq F] (memory : ℤ → ℤ → Option ℕ) (random : ℕ → F) (days iterations : ℤ)
    (currentPrice volatility : F) (draws : ℕ) : Except Text (List F) × ℕ :=
  let rate := lib.literal 0
  let dividend := lib.literal 0
  simulateStockPrice lib memory random days iterations currentPrice rate dividend volatility draws

/-! ## The prices of a path -/

/-- The factor of one draw. -/
def dayFactor (random : ℕ → F) (mean sigma : F) (draw : ℕ) : F :=
  lib.exp (mean + getInverseCDF lib (random draw) * sigma)

/-- The price of a path after some days, when its first draw is number `draws`. -/
def pathPrice (random : ℕ → F) (mean sigma currentPrice : F) (draws : ℕ) : ℕ → F
  | 0 => currentPrice
  | day + 1 => pathPrice random mean sigma currentPrice draws day * dayFactor lib random mean sigma (draws + day)

/-- The running sum over the paths of their prices after the day with index `day`. -/
def daySum (random : ℕ → F) (mean sigma currentPrice : F) (days draws day iterations : ℕ) : F :=
  forLoop (fun i sum => sum + pathPrice lib random mean sigma currentPrice (draws + i * days) (day + 1))
    (lib.literal 0) iterations

end Functions

@[simp] theorem check_fst (violated : Prop) [Decidable violated] (text : Text) (r : Bool × Text) :
    (check violated text r).1 = true ↔ ¬ violated ∧ r.1 = true := by
  unfold check; split <;> simp_all

variable (lib : Library F) (random : ℕ → F) (mean sigma currentPrice : F)

/-- A path after `days` rounds: its price, its prices by day, and the draws made. -/
theorem simulatePath_eq (days draws : ℕ) : simulatePath lib random mean sigma currentPrice days draws =
    ⟨pathPrice lib random mean sigma currentPrice draws days,
      (List.range days).map fun day => pathPrice lib random mean sigma currentPrice draws (day + 1), draws + days⟩ := by
  unfold simulatePath
  induction days with
  | zero => rfl
  | succ days ih =>
    rw [forLoop_succ, ih, List.range_succ, List.map_append]
    rfl

/-- The matrix: path `i` starts at draw `draws + i * days`. -/
theorem simulatePaths_eq (days iterations draws : ℕ) :
    simulatePaths lib random mean sigma currentPrice days iterations draws =
      ⟨(List.range iterations).map fun i => (List.range days).map fun day =>
          pathPrice lib random mean sigma currentPrice (draws + i * days) (day + 1), draws + iterations * days⟩ := by
  unfold simulatePaths
  induction iterations with
  | zero => simp
  | succ n ih =>
    rw [forLoop_succ, ih]
    simp only [simulatePath_eq, List.range_succ, List.map_append, List.map_cons, List.map_nil, add_assoc, Nat.succ_mul]

theorem simulatePaths_price {days iterations : ℕ} (draws : ℕ) {i day : ℕ} (hi : i < iterations) (hd : day < days) :
    (simulatePaths lib random mean sigma currentPrice days iterations draws).price lib i day =
      pathPrice lib random mean sigma currentPrice (draws + i * days) (day + 1) := by
  rw [simulatePaths_eq]
  simp [Paths.price, List.getD_eq_getElem?_getD, hi, hd]

/-- The prices by day are the sums over the paths, each over their number. -/
theorem priceByDay_simulatePaths (days iterations draws : ℕ) :
    priceByDay lib (simulatePaths lib random mean sigma currentPrice days iterations draws) days iterations =
      (List.range days).map fun day =>
        daySum lib random mean sigma currentPrice days draws day iterations / lib.literal iterations := by
  unfold priceByDay
  rw [forLoop_push (fun day => forLoop (fun iteration cumulative => cumulative +
    (simulatePaths lib random mean sigma currentPrice days iterations draws).price lib iteration day) (lib.literal 0)
    iterations / lib.literal iterations)]
  refine List.map_congr_left fun day hday => ?_
  congr 1
  refine forLoop_congr fun i hi sum => ?_
  rw [simulatePaths_price lib random mean sigma currentPrice draws hi (List.mem_range.1 hday)]

section Run

variable [DecidableEq F] {memory : ℤ → ℤ → Option ℕ} {days iterations : ℤ} {rate dividendYield volatility : F}
  {draws : ℕ} {lib random currentPrice}

/-- A call returns exactly when it is valid and the memory suffices. -/
theorem simulateStockPrice_ok_iff {prices : List F} :
    (simulateStockPrice lib memory random days iterations currentPrice rate dividendYield volatility draws).1 =
        .ok prices ↔
      (validate lib days iterations currentPrice (getDrift lib rate dividendYield) volatility).1 = true ∧
      memory days iterations = none ∧
      prices = (List.range days.toNat).map fun day =>
        daySum lib random (stepMean lib (getDrift lib rate dividendYield) (dailyVolatility lib volatility))
          (dailyVolatility lib volatility) currentPrice days.toNat draws day iterations.toNat /
            lib.literal iterations.toNat := by
  unfold simulateStockPrice
  dsimp only
  cases validate lib days iterations currentPrice (getDrift lib rate dividendYield) volatility with
  | mk flag message =>
    cases flag with
    | false => simp
    | true =>
      cases memory days iterations with
      | some made => simp
      | none =>
        rw [if_neg (by simp), ← priceByDay_simulatePaths]
        simp [eq_comm]

end Run

end StockPredictor.Native
