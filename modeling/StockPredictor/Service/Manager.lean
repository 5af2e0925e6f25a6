/-
`StockManager.GetStockProjections`: the data a projection asks for, the calls of the simulator it
makes and the status it reports. The services are values: what each call returns or throws.
-/
import StockPredictor.Base.Dictionary
import StockPredictor.Base.Program
import StockPredictor.Base.Rounding
import StockPredictor.Quant.Simulator
import StockPredictor.Service.Arguments
import StockPredictor.Service.History

namespace StockPredictor.Service

open Base Quant

/-! ## Data -/

/-- What a projection reads of a `Stock`. A `decimal` is an exact rational. -/
structure Stock where
  ask : Option ℚ
  bid : Option ℚ
  dividendYield : Option ℚ
  stockExchange : Option Text

/-- `IDataService`, as far as a projection uses it. `none` is null. -/
structure DataService where
  getYieldCurve : Except Exn (Option (Dictionary Text ℝ))
  getStockQuote : List Text → Except Exn (Option (List Stock) × Option (List Text))
  getHistoricalQuote : Text → Except Exn (Option (List HistoricalPrice))
  getImpliedVolatility : Text → Except Exn (Option ℝ)
  isValidateSymbol : Text → Except Exn ℤ
  lookUpStock : Text → Except Exn (Option (List Text))
  getAppSettings : Text → Text → Except Exn (Option Text)

inductive StatusType
  | success
  | fail
  | info
  | warn
deriving DecidableEq, Repr

/-- The C and C++ functions the library calls, its stream of draws, its rate conversion, and how
numbers are printed. -/
structure Platform where
  erfc : ℝ → ℝ
  conv : ℝ → ℝ
  random : ℕ → ℝ
  showDouble : ℝ → Text
  showDecimal : ℚ → Text

noncomputable section

/-! ## The simulator calls -/

/-- A call of one of the two overloads of `SimulateStockPrice`. -/
inductive SimulateCall
  | four (days iterations : ℤ) (price volatility : ℝ)
  | six (days iterations : ℤ) (price rate dividendYield volatility : ℝ)

def SimulateCall.run (p : Platform) (draws : ℕ) : SimulateCall → Except Text (List ℝ) × ℕ
  | .four days iterations price volatility =>
    simulateStockPrice₄ p.erfc p.conv p.random days iterations price volatility draws
  | .six days iterations price rate dividendYield volatility =>
    simulateStockPrice p.erfc p.conv p.random days iterations price rate dividendYield volatility draws

/-- The number of days a call asks for. -/
def SimulateCall.days : SimulateCall → ℤ
  | .four days .. => days
  | .six days .. => days

/-- The volatility a call passes. -/
def SimulateCall.volatility : SimulateCall → ℝ
  | .four _ _ _ volatility => volatility
  | .six _ _ _ _ _ volatility => volatility

/-- The drift that reaches the simulation. -/
def SimulateCall.drift (conv : ℝ → ℝ) : SimulateCall → ℝ
  | .four .. => getDrift conv 0 0
  | .six _ _ _ rate dividendYield _ => getDrift conv rate dividendYield

/-- The reports made, the simulator calls made, and the draws made so far. -/
structure Trace where
  reports : List (Text × StatusType)
  calls : List SimulateCall
  draws : ℕ

abbrev ServiceM := Prog Exn Trace

/-- The trace after a report; `action` tells whether there is anyone to report to. -/
def Trace.reported (t : Trace) (action : Bool) (status : Text) (statusType : StatusType) : Trace :=
  if action then { t with reports := t.reports ++ [(status, statusType)] } else t

/-- `ReportStatus`. -/
def reportStatus (action : Bool) (status : Text) (statusType : StatusType) : ServiceM PUnit :=
  modify (·.reported action status statusType)

/-- A call of the native library; the string it throws surfaces as an exception. -/
def simulate (p : Platform) (c : SimulateCall) : ServiceM (List ℝ) := do
  let t ← get
  let (result, draws) := c.run p t.draws
  modify fun t => { t with calls := t.calls ++ [c], draws := draws }
  liftM (result.mapError Exn.native)

/-! ## The steps -/

/-- `GetYieldCurve()["1 YR"]`. -/
def yearRate (ds : DataService) : Except Exn ℝ :=
  match ds.getYieldCurve with
  | .error e => .error e
  | .ok none => .error .nullReference
  | .ok (some curve) =>
    match curve.lookup "1 YR" with
    | none => .error .keyNotFound
    | some rate => .ok rate

/-- `GetStockQuote(...).First()`, with the errors. -/
def firstQuote (ds : DataService) (symbol : Text) : Except Exn (Stock × Option (List Text)) :=
  match ds.getStockQuote [symbol] with
  | .error e => .error e
  | .ok (none, _) => .error .argumentNull
  | .ok (some [], _) => .error .invalidOperation
  | .ok (some (stock :: _), errors) => .ok (stock, errors)

/-- `errors != null && errors.Contains(symbol)`. -/
def isFlagged (errors : Option (List Text)) (symbol : Text) : Bool := errors.any fun l => decide (symbol ∈ l)

/-- The text about a symbol without a quote. -/
def unableToQuote (ds : DataService) (symbol : Text) : Except Exn Text := do
  let sb : Text := "Unable to retrieve stock quote for " ++ symbol ++ ". "
  if (← ds.isValidateSymbol symbol) = 0 then
    let sb := sb ++ "Not a valid symbol. " ++ newLine
    match ← ds.lookUpStock symbol with
    | none => pure (sb ++ "No matching symbols found")
    | some lookUp => pure (sb ++ "Did you mean?" ++ newLine ++ (lookUp.take 5).flatMap (· ++ newLine))
  else pure sb

/-- The weighted deviation of the daily returns of the history. -/
def historicalVolatility (ds : DataService) (symbol : Text) : Except Exn ℝ :=
  match ds.getHistoricalQuote symbol with
  | .error e => .error e
  | .ok none => .error .argumentNull
  | .ok (some prices) => .ok (getWeightedStandardDeviation (dailyReturns prices))

/-- The implied volatility if there is one, else the historical one. -/
def getVolatility (ds : DataService) (symbol : Text) (action : Bool) : ServiceM ℝ := do
  match ← liftM (ds.getImpliedVolatility symbol) with
  | some volatility => pure volatility
  | none =>
    reportStatus action ("Unable to calculate Implied Volatility. Using Historical Volatility..." ++ newLine) .warn
    liftM (historicalVolatility ds symbol)

/-- `Convert.ToInt32(GetAppSettings("iterations", "500000"))`. -/
def iterationsSetting (ds : DataService) : Except Exn ℤ :=
  match ds.getAppSettings "iterations" "500000" with
  | .error e => .error e
  | .ok setting => toInt32 setting

/-- `decimal.MaxValue`. -/
def decimalMax : ℚ := 79228162514264337593543950335

/-- The sum of two decimals. It overflows when it rounds to more than the largest decimal. -/
def addDecimal (a b : ℚ) : Except Exn ℚ := if |a + b| < decimalMax + 1 / 2 then .ok (a + b) else .error .overflow

/-- `Math.Round((double)(stock.Ask + stock.Bid)/2, 2)`: a null sum has no value to convert. -/
def quotedPrice (stock : Stock) : Except Exn ℝ :=
  match stock.ask, stock.bid with
  | some ask, some bid => (addDecimal ask bid).map fun sum => mathRound 2 ((sum : ℝ) / 2)
  | _, _ => .error .invalidOperation

/-- `Math.Round(stock.DividendYield.HasValue ? (double) stock.DividendYield.Value : 0, 4)`. -/
def quotedDividendYield (stock : Stock) : ℝ :=
  mathRound 4 (match stock.dividendYield with
    | some d => (d : ℝ)
    | none => 0)

/-- Without a dividend or without a rate the overload with neither is called. -/
def chooseCall (days iterations : ℤ) (price rate dividendYield volatility : ℝ) : SimulateCall :=
  if dividendYield = 0 ∨ rate = 0 then .four days iterations price volatility
  else .six days iterations price rate dividendYield volatility

/-- The text reported at the end. -/
def summary (p : Platform) (symbol : Text) (stock : Stock) (volatility rate dividendYield : ℝ) : Text :=
  "Symbol : " ++ symbol ++ newLine ++
  "Bid price : " ++ (stock.bid.map p.showDecimal).getD [] ++ newLine ++
  "Ask price : " ++ (stock.ask.map p.showDecimal).getD [] ++ newLine ++
  "Exchange : " ++ stock.stockExchange.getD [] ++ newLine ++
  "Volatility %: " ++ p.showDouble (mathRound 2 (volatility * 100)) ++ " " ++ newLine ++
  "Rsk free Rate %: " ++ p.showDouble (mathRound 2 (rate * 100)) ++ newLine ++
  "Dividend %: " ++
    (if dividendYield = 0 then ("Not Available" : Text) else p.showDouble (mathRound 2 (dividendYield * 100))) ++
    newLine

/-- `{0}% Finished downloading ..`. -/
def finished (percentageComplete : ℕ) (what : Text) : Text :=
  Nat.toDigits 10 percentageComplete ++ "% Finished " ++ what ++ ".."

/-! ## The projection -/

def eachPart : ℕ := 20

/-- `GetStockProjections` from the conversion of the settings on. -/
def runSimulation (p : Platform) (ds : DataService) (symbol : Text) (days : ℤ) (action : Bool)
    (rate1Year volatility : ℝ) (stock : Stock) : ServiceM (Option (List ℝ)) := do
  let iterations ← liftM (iterationsSetting ds)
  let price ← liftM (quotedPrice stock)
  let dividendYield := quotedDividendYield stock
  reportStatus action "Running simulation..." .info
  let result ← simulate p (chooseCall days iterations price rate1Year dividendYield volatility)
  reportStatus action "100% Completed" .success
  reportStatus action (summary p symbol stock volatility rate1Year dividendYield) .info
  pure (some result)

/-- `GetStockProjections` on the quote of the symbol. -/
def projectQuoted (p : Platform) (ds : DataService) (symbol : Text) (days : ℤ) (action : Bool)
    (rate1Year : ℝ) (stock : Stock) : ServiceM (Option (List ℝ)) := do
  let volatility ← getVolatility ds symbol action
  if volatility = 0 then
    reportStatus action ("Unable to estimate volatility for " ++ symbol) .fail
    pure none
  else
    let volatility := mathRound 4 volatility
    reportStatus action (finished (eachPart + eachPart + eachPart) "calculating volatility") .success
    runSimulation p ds symbol days action rate1Year volatility stock

/-- `StockManager.GetStockProjections`. -/
def getStockProjections (p : Platform) (ds : DataService) (symbol : Text) (days : ℤ) (action : Bool) :
    ServiceM (Option (List ℝ)) := do
  let rate1Year ← liftM ((yearRate ds).map (mathRound 4))
  reportStatus action (finished eachPart "downloading yield curve") .success
  let quote ← liftM (firstQuote ds symbol)
  if isFlagged quote.2 symbol then
    let sb ← liftM (unableToQuote ds symbol)
    reportStatus action sb .fail
    pure none
  else
    reportStatus action (finished (eachPart + eachPart) "downloading stock quote") .success
    projectQuoted p ds symbol days action rate1Year quote.1

/-- A projection whose first draw is number `draws`: its result, and what it reported and called. -/
def projection (p : Platform) (ds : DataService) (symbol : Text) (days : ℤ) (action : Bool) (draws : ℕ) :
    Except Exn (Option (List ℝ)) × Trace :=
  exec (getStockProjections p ds symbol days action) ⟨[], [], draws⟩

end

end StockPredictor.Service
