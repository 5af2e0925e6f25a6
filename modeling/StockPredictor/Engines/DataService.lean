/-
`DataService` over its engines: what each of its calls makes of the answers from outside. The two
calls about an unknown symbol make a `NasdaqStockEngine` each, the second in the state that the first
one left. Real numbers stand for doubles only where the doubles are numbers, and there a service
agrees with the code.
-/
import StockPredictor.Quandl.Curve
import StockPredictor.Service.Options
import StockPredictor.Ticker.Session
import StockPredictor.Yahoo.Errors
import StockPredictor.Yahoo.Historical
import StockPredictor.Yahoo.HistoryRequest
import StockPredictor.Yahoo.Page
import StockPredictor.Yahoo.Request

namespace StockPredictor.Engines

open Base Service Yahoo Quandl Ticker

/-! ## The outside -/

/-- The answers from outside during a projection: the yield curve, the documents with quotes by their
url, the pages with options by their parameters, the dates on the two clocks of `FetchHistorical`, the
quotes of a history by its url, the settings, and what the two constructions of a `NasdaqStockEngine`
meet. -/
structure Outside where
  json : JsonLibrary
  yieldCurve : Except Exn (Option Text)
  loadDocument : Text → Except Exn (Option XNode)
  optionPage : Text → Except Exn (Option Text)
  loadHtml : Text → HtmlNode
  today : Date
  today' : Date
  history : Text → Except Exn (Option (List QuoteObject))
  parseDate : Text → Option ℤ
  now : ℕ → ℤ
  appSettings : Text → Option Text
  toLower : Text → Text
  tickers : Ticker.State
  onValidate : Environment
  onLookUp : Environment

/-! ## The calls -/

/-- `YahooEngine.Fetch`. -/
def fetch (o : Outside) (symbols : List Text) : Except Exn (Option (List Yahoo.Stock) × Option (List Text)) := do
  let doc ← o.loadDocument (fetchUrl symbols)
  parse o.parseDate o.now symbols doc

/-- `DataService.GetStockQuote`, with what a projection reads of the stocks. -/
def getStockQuote (o : Outside) (quotes : List Text) :
    Except Exn (Option (List Service.Stock) × Option (List Text)) := do
  let (stocks, errors) ← fetch o quotes
  pure (stocks.map (List.map Yahoo.Stock.projected), errors)

/-- `YahooEngine.FetchHistorical`. -/
def fetchHistorical (o : Outside) (symbol : Text) : Except Exn (List Doubles.HistoricalPrice) := do
  let url ← fetchHistoricalUrl o.today o.today' symbol
  parseHistorical o.parseDate (← o.history url)

/-- `DataService.GetAppSettings`. -/
def getAppSettings (o : Outside) (key defaultValue : Text) : Text :=
  match o.appSettings key with
  | none => defaultValue
  | some returnValue => if returnValue = [] then defaultValue else returnValue

/-- `DataService.IsValidateSymbol`, from the state before the projection. -/
def isValidateSymbol (o : Outside) (symbol : Text) : Except Exn ℤ × Ticker.State :=
  exec (withEngine o.onValidate fun st => Ticker.isValidateSymbol st symbol) o.tickers

/-- `DataService.LookUpStock`, which follows it. -/
def lookUpStock (o : Outside) (symbol : Text) : Except Exn (Option (List Text)) × Ticker.State :=
  exec (withEngine o.onLookUp fun st => Ticker.lookUpStock o.toLower st symbol) (isValidateSymbol o symbol).2

noncomputable section

/-- An `Option` in real numbers. -/
def toOption (q : OptionQuote) : OptionData :=
  ⟨q.contractName, q.strike.toReal, q.impliedVolatility.toReal, q.bid.toReal, q.ask.toReal⟩

/-- A double that is a number. -/
def IsNumber : Double → Prop
  | .finite _ => True
  | _ => False

/-- A service that does what `DataService` does on its engines. Of the two calls whose results are
computed in doubles nothing is said for doubles that are no numbers. -/
structure Serves (o : Outside) (ds : DataService) : Prop where
  yieldCurve : ds.getYieldCurve = o.json.getYieldCurve o.yieldCurve
  stockQuote : ∀ quotes, ds.getStockQuote quotes = getStockQuote o quotes
  impliedVolatility : ∀ symbol options, getOptionData o.optionPage o.loadHtml symbol = .ok options →
    (∀ l ∈ options, ∀ q ∈ l, IsNumber q.impliedVolatility) →
    ds.getImpliedVolatility symbol = getImpliedVolatility (options.map (List.map toOption))
  historicalQuote : ∀ symbol fetched, fetchHistorical o symbol = .ok fetched → (∀ p ∈ fetched, p.close.Positive) →
    ds.getHistoricalQuote symbol = (getHistoricalQuote (fetched.map (·.toPrice))).map some
  validateSymbol : ∀ symbol, ds.isValidateSymbol symbol = (isValidateSymbol o symbol).1
  lookUpStock : ∀ symbol, ds.lookUpStock symbol = (lookUpStock o symbol).1
  appSettings : ∀ key defaultValue, ds.getAppSettings key defaultValue = .ok (some (getAppSettings o key defaultValue))

/-- A service that computes with the real values of all doubles. -/
def dataService (o : Outside) : DataService where
  getYieldCurve := o.json.getYieldCurve o.yieldCurve
  getStockQuote := getStockQuote o
  getHistoricalQuote symbol := do
    let fetched ← fetchHistorical o symbol
    (getHistoricalQuote (fetched.map (·.toPrice))).map some
  getImpliedVolatility symbol := do
    let options ← getOptionData o.optionPage o.loadHtml symbol
    getImpliedVolatility (options.map (List.map toOption))
  isValidateSymbol symbol := (isValidateSymbol o symbol).1
  lookUpStock symbol := (lookUpStock o symbol).1
  getAppSettings key defaultValue := .ok (some (getAppSettings o key defaultValue))

theorem serves_dataService (o : Outside) : Serves o (dataService o) where
  yieldCurve := rfl
  stockQuote _ := rfl
  impliedVolatility symbol options h _ := by
    show getOptionData o.optionPage o.loadHtml symbol >>= _ = _
    rw [h]
    rfl
  historicalQuote symbol fetched h _ := by
    show fetchHistorical o symbol >>= _ = _
    rw [h]
    rfl
  validateSymbol _ := rfl
  lookUpStock _ := rfl
  appSettings _ _ := rfl

end

/-! ## The rate -/

/-- The answer has a rate for one year. -/
def HasRate (o : Outside) (rate : ℝ) : Prop :=
  ∃ columns dataSet cells value, HasDataset o.json o.yieldCurve columns dataSet ∧ Reads o.json columns dataSet cells ∧
    Dictionary.lastValue cells "1 YR".toList = some value ∧ rate = value / (100 : ℕ)

theorem Serves.exists_curve {o : Outside} {ds : DataService} (h : Serves o ds) {rate : ℝ} (hr : HasRate o rate) :
    ∃ curve, ds.getYieldCurve = .ok (some curve) ∧ curve.lookup "1 YR" = some rate := by
  obtain ⟨columns, dataSet, cells, value, hdata, hreads, hlast⟩ := hr
  exact ⟨_, h.yieldCurve.trans (getYieldCurve_eq_ok.2 ⟨columns, dataSet, cells, hdata, hreads, rfl⟩),
    lookup_rates.2 ⟨value, hlast.1, by rw [hlast.2, Nat.cast_ofNat]⟩⟩

theorem Serves.yearRate_eq {o : Outside} {ds : DataService} (h : Serves o ds) {rate : ℝ} (hr : HasRate o rate) :
    yearRate ds = .ok rate := by
  obtain ⟨curve, hcurve, hlookup⟩ := h.exists_curve hr
  unfold yearRate
  rw [hcurve]
  dsimp only
  rw [hlookup]

/-! ## The quote of one symbol -/

section Quote

variable {o : Outside} {ds : DataService} {symbol : Text} {root q : XNode}

/-- The quote of the requested symbol, flagged exactly when the text of its `Ask` is empty. -/
theorem Serves.stockQuote_eq (h : Serves o ds) (hdoc : o.loadDocument (fetchUrl [symbol]) = .ok (some root))
    (hq : HasQuote (root.element? "results") symbol q) :
    ∃ errors, ds.getStockQuote [symbol] = .ok (some [(filled o.parseDate (o.now 0) q symbol).projected], errors) ∧
      (isFlagged errors symbol = true ↔ q.childText "Ask" = []) := by
  obtain ⟨r, hr⟩ : ∃ r, [symbol].foldlM (parseSymbol o.parseDate o.now (root.element? "results")) {} = .ok r :=
    exists_foldlM_parseSymbol (fun s hs => by rw [List.mem_singleton.1 hs]; exact ⟨q, hq⟩) {}
  have hquotes : r.quotes = [filled o.parseDate (o.now 0) q symbol] := by
    rw [List.foldlM_cons, bind_eq_ok] at hr
    obtain ⟨r', hstep, hrest⟩ := hr
    obtain ⟨q', hq', rfl⟩ := parseSymbol_eq_ok.1 hstep
    cases hrest
    rw [hq'.unique hq]
    rfl
  refine ⟨r.errors, ?_, isFlagged_parsed hr List.mem_cons_self hq⟩
  have hparse : parse o.parseDate o.now [symbol] (some root) = .ok (some r.quotes, r.errors) :=
    bind_eq_ok.2 ⟨r, hr, rfl⟩
  rw [h.stockQuote, getStockQuote, fetch, hdoc]
  show parse o.parseDate o.now [symbol] (some root) >>= _ = _
  rw [hparse, hquotes]
  rfl

theorem Serves.firstQuote_eq (h : Serves o ds) (hdoc : o.loadDocument (fetchUrl [symbol]) = .ok (some root))
    (hq : HasQuote (root.element? "results") symbol q) :
    ∃ errors, Service.firstQuote ds symbol = .ok ((filled o.parseDate (o.now 0) q symbol).projected, errors) ∧
      (isFlagged errors symbol = true ↔ q.childText "Ask" = []) := by
  obtain ⟨errors, hquote, hflag⟩ := h.stockQuote_eq hdoc hq
  refine ⟨errors, ?_, hflag⟩
  unfold Service.firstQuote
  rw [hquote]

end Quote

/-! ## An unknown symbol -/

/-- The entries of a directory that contain a text, as `LookUpStock` shows them. -/
def hits (toLower : Text → Text) (d : Directory) (search : Text) : List Text :=
  (d.entries.filter (isMatch toLower search)).map showEntry

/-- What is reported about a symbol without a quote when one directory answers both calls. -/
def rejection (toLower : Text → Text) (d : Directory) (symbol : Text) : Text :=
  let sb : Text := "Unable to retrieve stock quote for " ++ symbol ++ ". "
  if d.containsKey symbol then sb
  else
    let sb := sb ++ "Not a valid symbol. " ++ newLine
    if hits toLower d symbol = [] then sb ++ "No matching symbols found"
    else sb ++ "Did you mean?" ++ newLine ++ ((hits toLower d symbol).take 5).flatMap (· ++ newLine)

theorem lookUpStock_store (toLower : Text → Text) (d : Directory) (search : Text) :
    Ticker.lookUpStock toLower d.store search =
      if hits toLower d search = [] then none else some (hits toLower d search) := by
  unfold Ticker.lookUpStock hits
  simp only [Directory.store, List.map_eq_nil_iff]

section Unknown

variable {o : Outside} {ds : DataService} {n o' : Text} {d : Directory}

/-- The first engine has the directory that the two listings make. -/
theorem isValidateSymbol_eq (hn : listingOf o.onValidate o.tickers.store .nasdaq = .ok (some n))
    (ho : listingOf o.onValidate o.tickers.store .others = .ok (some o')) (hd : directoryOf (some n) (some o') = .ok d)
    (symbol : Text) : isValidateSymbol o symbol = (.ok (if d.containsKey symbol then 1 else 0),
      ⟨(saved o.onValidate o.tickers.store (some n) (some o')).setTickers (some d),
        servedBoth o.onValidate o.tickers⟩) := by
  obtain ⟨t, hconstruct, ht⟩ := construct_listings hn ho
  obtain rfl := ht d hd
  rw [hd] at hconstruct
  unfold isValidateSymbol withEngine
  rw [exec_bind_ok hconstruct, exec_bind_ok (exec_get _), exec_pure]
  rfl

/-- The second engine finds the files that the first one kept, and so the same directory. -/
theorem lookUpStock_eq (hn : listingOf o.onValidate o.tickers.store .nasdaq = .ok (some n))
    (ho : listingOf o.onValidate o.tickers.store .others = .ok (some o')) (hd : directoryOf (some n) (some o') = .ok d)
    (hk : ∀ f, Kept o.onValidate o.tickers.store f)
    (hlate : ∀ f, o.onLookUp.now < expiry o.onValidate o.tickers.store f)
    (symbol : Text) : (lookUpStock o symbol).1 = .ok (Ticker.lookUpStock o.toLower d.store symbol) ∧
      (lookUpStock o symbol).2.served = (isValidateSymbol o symbol).2.served := by
  have hreads : ReadsDirectory fun st => Ticker.lookUpStock o.toLower st symbol := fun _ _ => rfl
  unfold lookUpStock
  rw [isValidateSymbol_eq hn ho hd]
  obtain ⟨t, hexec⟩ := Cached.exec_withEngine hreads
    (s := ⟨(saved o.onValidate o.tickers.store (some n) (some o')).setTickers (some d),
      servedBoth o.onValidate o.tickers⟩) (cached_saved hn ho hk o.onLookUp.now hlate (some d))
  rw [hexec]
  refine ⟨?_, rfl⟩
  show (directoryOf (some n) (some o')).map _ = _
  rw [hd]
  rfl

theorem Serves.unableToQuote_eq (h : Serves o ds)
    (hn : listingOf o.onValidate o.tickers.store .nasdaq = .ok (some n))
    (ho : listingOf o.onValidate o.tickers.store .others = .ok (some o')) (hd : directoryOf (some n) (some o') = .ok d)
    (hk : ∀ f, Kept o.onValidate o.tickers.store f)
    (hlate : ∀ f, o.onLookUp.now < expiry o.onValidate o.tickers.store f)
    (symbol : Text) : unableToQuote ds symbol = .ok (rejection o.toLower d symbol) := by
  unfold unableToQuote rejection
  rw [h.validateSymbol, h.lookUpStock, isValidateSymbol_eq hn ho hd, (lookUpStock_eq hn ho hd hk hlate symbol).1,
    lookUpStock_store]
  by_cases hmem : d.containsKey symbol = true
  · rw [if_pos hmem, if_pos hmem]
    rfl
  · rw [if_neg hmem, if_neg hmem]
    by_cases hnone : hits o.toLower d symbol = []
    · rw [if_pos hnone, if_pos hnone]
      rfl
    · rw [if_neg hnone, if_neg hnone]
      rfl

end Unknown

end StockPredictor.Engines
