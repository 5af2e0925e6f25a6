/-
`YahooEngine.Parse`. For each symbol the first quote element with that symbol fills one `Stock`,
child by child; a symbol is an error when the text of its `Ask` is empty, whatever the decimals come
out as. An element is its name, its attributes and its nodes.
-/
import StockPredictor.Base.Sequence
import StockPredictor.Service.Manager
import StockPredictor.Service.Number

namespace StockPredictor.Yahoo

open Base Service

/-! ## Elements -/

/-- A node of a document. -/
inductive XNode
  | text (value : Text)
  | element (name : Text) (attributes : List (Text × Text)) (nodes : List XNode)

namespace XNode

mutual

/-- `Value`: the texts of a node, in order. -/
def value : XNode → Text
  | .text t => t
  | .element _ _ nodes => values nodes

def values : List XNode → Text
  | [] => []
  | n :: nodes => n.value ++ values nodes

end

def nodes : XNode → List XNode
  | .text _ => []
  | .element _ _ nodes => nodes

/-- Whether a node is an element of that name. -/
def hasName (name : Text) : XNode → Bool
  | .text _ => false
  | .element name' _ _ => name' = name

/-- `Elements(name)`. -/
def elements (n : XNode) (name : Text) : List XNode := n.nodes.filter (hasName name)

/-- `Element(name)`: the first one, or null. -/
def element? (n : XNode) (name : Text) : Option XNode := n.nodes.find? (hasName name)

/-- `Attribute(name).Value`, where there is one. -/
def attribute? (name : Text) : XNode → Option Text
  | .text _ => none
  | .element _ attributes _ => attributes.lookup name

/-- The text of a child, for a child that is there. -/
def childText (n : XNode) (name : Text) : Text := ((n.element? name).map value).getD []

end XNode

/-! ## Data -/

/-- `Stock`. A `decimal` is an exact rational, a date is in ticks. -/
structure Stock where
  symbol : Text
  ask : Option ℚ := none
  bid : Option ℚ := none
  averageDailyVolume : Option ℚ := none
  bookValue : Option ℚ := none
  change : Option ℚ := none
  dividendShare : Option ℚ := none
  lastTradeDate : Option ℤ := none
  earningsShare : Option ℚ := none
  epsEstimateCurrentYear : Option ℚ := none
  epsEstimateNextYear : Option ℚ := none
  epsEstimateNextQuarter : Option ℚ := none
  dailyLow : Option ℚ := none
  dailyHigh : Option ℚ := none
  yearlyLow : Option ℚ := none
  yearlyHigh : Option ℚ := none
  marketCapitalization : Option ℚ := none
  ebitda : Option ℚ := none
  changeFromYearLow : Option ℚ := none
  percentChangeFromYearLow : Option ℚ := none
  changeFromYearHigh : Option ℚ := none
  lastTradePrice : Option ℚ := none
  percentChangeFromYearHigh : Option ℚ := none
  fiftyDayMovingAverage : Option ℚ := none
  twoHunderedDayMovingAverage : Option ℚ := none
  changeFromTwoHundredDayMovingAverage : Option ℚ := none
  percentChangeFromTwoHundredDayMovingAverage : Option ℚ := none
  percentChangeFromFiftyDayMovingAverage : Option ℚ := none
  name : Option Text := none
  openPrice : Option ℚ := none
  previousClose : Option ℚ := none
  changeInPercent : Option ℚ := none
  priceSales : Option ℚ := none
  priceBook : Option ℚ := none
  exDividendDate : Option ℤ := none
  peRatio : Option ℚ := none
  dividendPayDate : Option ℤ := none
  pegRatio : Option ℚ := none
  priceEpsEstimateCurrentYear : Option ℚ := none
  priceEpsEstimateNextYear : Option ℚ := none
  shortRatio : Option ℚ := none
  oneYearPriceTarget : Option ℚ := none
  volume : Option ℚ := none
  stockExchange : Option Text := none
  lastUpdate : ℤ := 0
  dividendYield : Option ℚ := none

/-- What a projection reads of it. -/
def Stock.projected (s : Stock) : Service.Stock := ⟨s.ask, s.bid, s.dividendYield, s.stockExchange⟩

/-- `YahooEngine.GetDecimal`, with the invariant culture as the current one. -/
def getDecimal : Option Text → Option ℚ
  | none => none
  | some input => tryParseDecimal (input.filter (· ≠ '%'))

/-- `YahooEngine.GetDateTime`; `parseDate` is `DateTime.TryParse`. -/
def getDateTime (parseDate : Text → Option ℤ) : Option Text → Option ℤ
  | none => none
  | some input => parseDate input

/-! ## Assignments -/

/-- An assignment to a field of the stock: the children it reads, and what it sets from their
texts. -/
structure Assignment where
  children : List Text
  set : (Text → Text) → Stock → Stock

/-- A field that is the decimal of one child. -/
def Assignment.decimal (child : Text) (set : Option ℚ → Stock → Stock) : Assignment :=
  ⟨[child], fun text => set (getDecimal (some (text child)))⟩

/-- The assignments of `Parse` after the test of `Ask`, in their order. `now` is the clock. -/
def assignments (parseDate : Text → Option ℤ) (now : ℤ) : List Assignment := [
  .decimal "Ask" fun d s => { s with ask := d },
  .decimal "Bid" fun d s => { s with bid := d },
  .decimal "AverageDailyVolume" fun d s => { s with averageDailyVolume := d },
  .decimal "BookValue" fun d s => { s with bookValue := d },
  .decimal "Change" fun d s => { s with change := d },
  .decimal "DividendShare" fun d s => { s with dividendShare := d },
  ⟨["LastTradeDate", "LastTradeTime"], fun text s => { s with
    lastTradeDate := getDateTime parseDate (some (text "LastTradeDate" ++ " " ++ text "LastTradeTime")) }⟩,
  .decimal "EarningsShare" fun d s => { s with earningsShare := d },
  .decimal "EPSEstimateCurrentYear" fun d s => { s with epsEstimateCurrentYear := d },
  .decimal "EPSEstimateNextYear" fun d s => { s with epsEstimateNextYear := d },
  .decimal "EPSEstimateNextQuarter" fun d s => { s with epsEstimateNextQuarter := d },
  .decimal "DaysLow" fun d s => { s with dailyLow := d },
  .decimal "DaysHigh" fun d s => { s with dailyHigh := d },
  .decimal "YearLow" fun d s => { s with yearlyLow := d },
  .decimal "YearHigh" fun d s => { s with yearlyHigh := d },
  .decimal "MarketCapitalization" fun d s => { s with marketCapitalization := d },
  .decimal "EBITDA" fun d s => { s with ebitda := d },
  .decimal "ChangeFromYearLow" fun d s => { s with changeFromYearLow := d },
  .decimal "PercentChangeFromYearLow" fun d s => { s with percentChangeFromYearLow := d },
  .decimal "ChangeFromYearHigh" fun d s => { s with changeFromYearHigh := d },
  .decimal "LastTradePriceOnly" fun d s => { s with lastTradePrice := d },
  .decimal "PercebtChangeFromYearHigh" fun d s => { s with percentChangeFromYearHigh := d },
  .decimal "FiftydayMovingAverage" fun d s => { s with fiftyDayMovingAverage := d },
  .decimal "TwoHundreddayMovingAverage" fun d s => { s with twoHunderedDayMovingAverage := d },
  .decimal "ChangeFromTwoHundreddayMovingAverage" fun d s => { s with changeFromTwoHundredDayMovingAverage := d },
  .decimal "PercentChangeFromTwoHundreddayMovingAverage" fun d s =>
    { s with percentChangeFromTwoHundredDayMovingAverage := d },
  .decimal "PercentChangeFromFiftydayMovingAverage" fun d s => { s with percentChangeFromFiftyDayMovingAverage := d },
  ⟨["Name"], fun text s => { s with name := some (text "Name") }⟩,
  .decimal "Open" fun d s => { s with openPrice := d },
  .decimal "PreviousClose" fun d s => { s with previousClose := d },
  .decimal "ChangeinPercent" fun d s => { s with changeInPercent := d },
  .decimal "PriceSales" fun d s => { s with priceSales := d },
  .decimal "PriceBook" fun d s => { s with priceBook := d },
  ⟨["ExDividendDate"], fun text s => { s with exDividendDate := getDateTime parseDate (some (text "ExDividendDate")) }⟩,
  .decimal "PERatio" fun d s => { s with peRatio := d },
  ⟨["DividendPayDate"], fun text s =>
    { s with dividendPayDate := getDateTime parseDate (some (text "DividendPayDate")) }⟩,
  .decimal "PEGRatio" fun d s => { s with pegRatio := d },
  .decimal "PriceEPSEstimateCurrentYear" fun d s => { s with priceEpsEstimateCurrentYear := d },
  .decimal "PriceEPSEstimateNextYear" fun d s => { s with priceEpsEstimateNextYear := d },
  .decimal "ShortRatio" fun d s => { s with shortRatio := d },
  .decimal "OneyrTargetPrice" fun d s => { s with oneYearPriceTarget := d },
  .decimal "Volume" fun d s => { s with volume := d },
  ⟨["StockExchange"], fun text s => { s with stockExchange := some (text "StockExchange") }⟩,
  ⟨[], fun _ s => { s with lastUpdate := now }⟩,
  .decimal "DividendYield" fun d s => { s with dividendYield := d.map (· / 100) }]

/-- One assignment: a missing child is null. -/
def assign (q : XNode) (s : Stock) (a : Assignment) : Except Exn Stock :=
  if a.children.all fun name => (q.element? name).isSome then .ok (a.set q.childText s) else .error .nullReference

/-! ## The parser -/

/-- Reading a member of what may be null. -/
def deref {α : Type} : Option α → Except Exn α
  | none => .error .nullReference
  | some a => .ok a

/-- `First(w => w.Attribute("symbol").Value == symbol)`: an element without the attribute is an
exception when it is reached. -/
def firstQuote (symbol : Text) : List XNode → Except Exn XNode
  | [] => .error .invalidOperation
  | w :: quotes =>
    match w.attribute? "symbol" with
    | none => .error .nullReference
    | some s => if s = symbol then .ok w else firstQuote symbol quotes

/-- The quotes and the errors of the symbols read so far. -/
structure Parsed where
  quotes : List Stock := []
  errors : Option (List Text) := none

/-- `errors.Add`, which makes the list when there is none. -/
def addError (symbol : Text) (errors : Option (List Text)) : Option (List Text) := some (errors.getD [] ++ [symbol])

/-- One round of the loop over the symbols. -/
def parseSymbol (parseDate : Text → Option ℤ) (now : ℕ → ℤ) (results : Option XNode) (r : Parsed) (symbol : Text) :
    Except Exn Parsed := do
  let results ← deref results
  let q ← firstQuote symbol (results.elements "quote")
  let ask ← deref (q.element? "Ask")
  let errors := if ask.value = [] then addError symbol r.errors else r.errors
  let quote ← (assignments parseDate (now r.quotes.length)).foldlM (assign q) { symbol }
  pure { quotes := r.quotes ++ [quote], errors }

/-- `YahooEngine.Parse` on the root of the document: the quotes and the errors. -/
def parse (parseDate : Text → Option ℤ) (now : ℕ → ℤ) (symbols : List Text) (root : Option XNode) :
    Except Exn (Option (List Stock) × Option (List Text)) :=
  match root with
  | none => .ok (none, none)
  | some root => do
    let r ← symbols.foldlM (parseSymbol parseDate now (root.element? "results")) {}
    pure (some r.quotes, r.errors)

end StockPredictor.Yahoo
