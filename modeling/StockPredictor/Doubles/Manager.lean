/-
`StockManager.GetStockProjections` in doubles: rounding to digits, the test for zero, the calls of the
library and the reports are those of the code, also for infinities and values that are no number. The
services are values: what each call returns or throws.
-/
import StockPredictor.Doubles.History
import StockPredictor.Service.Manager

namespace StockPredictor.Doubles

open Base hiding mathRound
open Base.Double
open Service (StatusType Stock addDecimal eachPart finished firstQuote isFlagged iterationsSetting newLine
  unableToQuote)

/-! ## Data -/

/-- `IDataService`, as far as a projection uses it. `none` is null. -/
structure DataService where
  getYieldCurve : Except Exn (Option (Dictionary Text Double))
  getStockQuote : List Text → Except Exn (Option (List Stock) × Option (List Text))
  getHistoricalQuote : Text → Except Exn (Option (List HistoricalPrice))
  getImpliedVolatility : Text → Except Exn (Option Double)
  isValidateSymbol : Text → Except Exn ℤ
  lookUpStock : Text → Except Exn (Option (List Text))
  getAppSettings : Text → Text → Except Exn (Option Text)

/-- The services in real numbers. The quote, the texts about a symbol and the settings are the same. -/
def DataService.exact (ds : DataService) : Service.DataService where
  getYieldCurve := ds.getYieldCurve.map (Option.map (Dictionary.map toReal))
  getStockQuote := ds.getStockQuote
  getHistoricalQuote symbol := (ds.getHistoricalQuote symbol).map (Option.map (List.map (·.toPrice)))
  getImpliedVolatility symbol := (ds.getImpliedVolatility symbol).map (Option.map toReal)
  isValidateSymbol := ds.isValidateSymbol
  lookUpStock := ds.lookUpStock
  getAppSettings := ds.getAppSettings

/-! ## The simulator calls -/

/-- A call of one of the two overloads of `SimulateStockPrice`. -/
inductive SimulateCall
  | four (days iterations : ℤ) (price volatility : Double)
  | six (days iterations : ℤ) (price rate dividendYield volatility : Double)

def SimulateCall.run (rt : Runtime) (draws : ℕ) : SimulateCall → Except Text (List Double) × ℕ
  | .four days iterations price volatility =>
    Native.simulateStockPrice₄ rt.library rt.memory rt.random days iterations price volatility draws
  | .six days iterations price rate dividendYield volatility =>
    Native.simulateStockPrice rt.library rt.memory rt.random days iterations price rate dividendYield volatility draws

/-- The reports made, the simulator calls made, and the draws made so far. -/
structure Trace where
  reports : List (Text × StatusType)
  calls : List SimulateCall
  draws : ℕ

abbrev ServiceM := Prog Exn Trace

/-- The trace after a report; `action` tells whether there is anyone to report to. -/
def Trace.reported (t : Trace) (action : Bool) (status : Text) (statusType : StatusType) : Trace :=
  if action then { t with reports := t.reports ++ [(status, statusType)] } else t

/-- `ReportStatus`. -/
def reportStatus (action : Bool) (status : Text) (statusType : StatusType) : ServiceM PUnit :=
  modify (·.reported action status statusType)

/-- A call of the native library; what it throws surfaces as an exception. -/
def simulate (rt : Runtime) (c : SimulateCall) : ServiceM (List Double) := do
  let t ← get
  let (result, draws) := c.run rt t.draws
  modify fun t => { t with calls := t.calls ++ [c], draws := draws }
  liftM (result.mapError Exn.native)

/-! ## The steps -/

/-- `GetYieldCurve()["1 YR"]`. -/
def yearRate (ds : DataService) : Except Exn Double :=
  match ds.getYieldCurve with
  | .error e => .error e
  | .ok none => .error .nullReference
  | .ok (some curve) =>
    match curve.lookup "1 YR" with
    | none => .error .keyNotFound
    | some rate => .ok rate

/-- The weighted deviation of the daily returns of the history. -/
def historicalVolatility (rt : Runtime) (ds : DataService) (symbol : Text) : Except Exn Double :=
  match ds.getHistoricalQuote symbol with
  | .error e => .error e
  | .ok none => .error .argumentNull
  | .ok (some prices) => .ok (Native.getWeightedStandardDeviation rt.library (dailyReturns prices))

/-- The implied volatility if there is one, else the historical one. -/
def getVolatility (rt : Runtime) (ds : DataService) (symbol : Text) (action : Bool) : ServiceM Double := do
  match ← liftM (ds.getImpliedVolatility symbol) with
  | some volatility => pure volatility
  | none =>
    reportStatus action ("Unable to calculate Implied Volatility. Using Historical Volatility..." ++ newLine) .warn
    liftM (historicalVolatility rt ds symbol)

/-- `Math.Round((double)(stock.Ask + stock.Bid)/2, 2)`: a null sum has no value to convert. -/
def quotedPrice (stock : Stock) : Except Exn Double :=
  match stock.ask, stock.bid with
  | some ask, some bid => (addDecimal ask bid).map fun sum => mathRound 2 (ofRat sum / finite 2)
  | _, _ => .error .invalidOperation

/-- `Math.Round(stock.DividendYield.HasValue ? (double) stock.DividendYield.Value : 0, 4)`. -/
def quotedDividendYield (stock : Stock) : Double :=
  mathRound 4 (match stock.dividendYield with
    | some d => ofRat d
    | none => finite 0)

/-- Without a dividend or without a rate the overload with neither is called. -/
def chooseCall (days iterations : ℤ) (price rate dividendYield volatility : Double) : SimulateCall :=
  if dividendYield = finite 0 ∨ rate = finite 0 then .four days iterations price volatility
  else .six days iterations price rate dividendYield volatility

/-- The text reported at the end. -/
def summary (rt : Runtime) (symbol : Text) (stock : Stock) (volatility rate dividendYield : Double) : Text :=
  "Symbol : " ++ symbol ++ newLine ++
  "Bid price : " ++ (stock.bid.map rt.showDecimal).getD [] ++ newLine ++
  "Ask price : " ++ (stock.ask.map rt.showDecimal).getD [] ++ newLine ++
  "Exchange : " ++ stock.stockExchange.getD [] ++ newLine ++
  "Volatility %: " ++ rt.showDouble (mathRound 2 (volatility * finite 100)) ++ " " ++ newLine ++
  "Rsk free Rate %: " ++ rt.showDouble (mathRound 2 (rate * finite 100)) ++ newLine ++
  "Dividend %: " ++
    (if dividendYield = finite 0 then ("Not Available" : Text)
      else rt.showDouble (mathRound 2 (dividendYield * finite 100))) ++
    newLine

/-! ## The projection -/

section Projection

variable (rt : Runtime) (ds : DataService) (symbol : Text) (days : ℤ) (action : Bool)

/-- `GetStockProjections` from the conversion of the settings on. -/
def runSimulation (rate1Year volatility : Double) (stock : Stock) : ServiceM (Option (List Double)) := do
  let iterations ← liftM (iterationsSetting ds.exact)
  let price ← liftM (quotedPrice stock)
  let dividendYield := quotedDividendYield stock
  reportStatus action "Running simulation..." .info
  let result ← simulate rt (chooseCall days iterations price rate1Year dividendYield volatility)
  reportStatus action "100% Completed" .success
  reportStatus action (summary rt symbol stock volatility rate1Year dividendYield) .info
  pure (some result)

/-- `GetStockProjections` on the quote of the symbol. -/
def projectQuoted (rate1Year : Double) (stock : Stock) : ServiceM (Option (List Double)) := do
  let volatility ← getVolatility rt ds symbol action
  if volatility = finite 0 then
    reportStatus action ("Unable to estimate volatility for " ++ symbol) .fail
    pure none
  else
    let volatility := mathRound 4 volatility
    reportStatus action (finished (eachPart + eachPart + eachPart) "calculating volatility") .success
    runSimulation rt ds symbol days action rate1Year volatility stock

/-- `StockManager.GetStockProjections`. -/
def getStockProjections : ServiceM (Option (List Double)) := do
  let rate1Year ← liftM ((yearRate ds).map (mathRound 4))
  reportStatus action (finished eachPart "downloading yield curve") .success
  let quote ← liftM (firstQuote ds.exact symbol)
  if isFlagged quote.2 symbol then
    let sb ← liftM (unableToQuote ds.exact symbol)
    reportStatus action sb .fail
    pure none
  else
    reportStatus action (finished (eachPart + eachPart) "downloading stock quote") .success
    projectQuoted rt ds symbol days action rate1Year quote.1

/-- A projection whose first draw is number `draws`: its result, and what it reported and called. -/
def projection (draws : ℕ) : Except Exn (Option (List Double)) × Trace :=
  exec (getStockProjections rt ds symbol days action) ⟨[], [], draws⟩

end Projection

end StockPredictor.Doubles
