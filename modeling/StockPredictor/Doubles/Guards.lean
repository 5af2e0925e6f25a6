/-
Whether the guards of the command line and of the manager imply what the native call requires. They
test neither the days nor the quote, and the volatility only before it is rounded. In doubles a
projection also fails where the prices overflow, vanish or are no numbers, and where the memory runs
out.
-/
import StockPredictor.Doubles.Fixed
import StockPredictor.Doubles.Manager
import StockPredictor.Doubles.Survival

namespace StockPredictor.Doubles

open Base hiding mathRound
open Base.Double
open Service (StatusType Stock Accepts decimalMax firstQuote isFlagged iterationsSetting toInt32 parseInteger isInt32)

/-! ## Services that answer -/

/-- No call of the services throws: there is a rate for one year, a quote of the symbol that is not
flagged, a volatility from one of the two sources, and a text for the number of iterations. -/
structure Answered (rt : Runtime) (ds : DataService) (symbol : Text) (rate : Double) (stock : Stock)
    (volatility : Double) (setting : Text) : Prop where
  rate : ∃ curve, ds.getYieldCurve = .ok (some curve) ∧ curve.lookup "1 YR" = some rate
  quote : ∃ rest errors, ds.getStockQuote [symbol] = .ok (some (stock :: rest), errors) ∧
    ∀ l, errors = some l → symbol ∉ l
  volatility : ds.getImpliedVolatility symbol = .ok (some volatility) ∨
    ds.getImpliedVolatility symbol = .ok none ∧ ∃ prices, ds.getHistoricalQuote symbol = .ok (some prices) ∧
      volatility = Native.getWeightedStandardDeviation rt.library (dailyReturns prices)
  setting : ds.getAppSettings "iterations" "500000" = .ok (some setting)

/-- The call a projection makes, for the values it has got. -/
def callFor (days iterations : ℤ) (price rate volatility : Double) (stock : Stock) : SimulateCall :=
  chooseCall days iterations price (mathRound 4 rate) (quotedDividendYield stock) (mathRound 4 volatility)

/-- What a projection returns when it makes the call. -/
def returned (rt : Runtime) (draws : ℕ) (c : SimulateCall) : Except Exn (Option (List Double)) :=
  ((c.run rt draws).1.mapError Exn.native).map some

theorem returned_ne_none (rt : Runtime) (draws : ℕ) (c : SimulateCall) : returned rt draws c ≠ .ok none := by
  unfold returned
  cases (c.run rt draws).1 with
  | error message => rintro ⟨⟩
  | ok prices => rintro ⟨⟩

section Reports

@[simp] theorem calls_reported (t : Trace) (action : Bool) (status : Text) (statusType : StatusType) :
    (t.reported action status statusType).calls = t.calls := by unfold Trace.reported; split <;> rfl

@[simp] theorem draws_reported (t : Trace) (action : Bool) (status : Text) (statusType : StatusType) :
    (t.reported action status statusType).draws = t.draws := by unfold Trace.reported; split <;> rfl

theorem mem_reported (t : Trace) {action : Bool} (h : action = true) (status : Text) (statusType : StatusType) :
    (status, statusType) ∈ (t.reported action status statusType).reports := by
  unfold Trace.reported
  rw [if_pos h]
  exact List.mem_append_right _ (List.mem_singleton.2 rfl)

theorem exec_reportStatus (action : Bool) (status : Text) (statusType : StatusType) (t : Trace) :
    exec (reportStatus action status statusType) t = (.ok ⟨⟩, t.reported action status statusType) := rfl

theorem exec_simulate (rt : Runtime) (c : SimulateCall) (t : Trace) : exec (simulate rt c) t =
    ((c.run rt t.draws).1.mapError Exn.native, { t with calls := t.calls ++ [c], draws := (c.run rt t.draws).2 }) := by
  unfold simulate
  rw [exec_bind_ok (exec_get t)]
  dsimp only
  rw [exec_bind_ok (exec_modify _ t)]
  rfl

/-- What is left after the call returns only reports. -/
theorem exec_simulate_reports (rt : Runtime) (action : Bool) (c : SimulateCall) (text : Text) (t : Trace) :
    ∃ u, exec (do
        let result ← simulate rt c
        reportStatus action "100% Completed" .success
        reportStatus action text .info
        pure (some result)) t = (returned rt t.draws c, u) ∧ u.calls = t.calls ++ [c] := by
  have hsim := exec_simulate rt c t
  unfold returned
  cases hr : (c.run rt t.draws).1 with
  | error message =>
    rw [hr] at hsim
    rw [exec_bind_error hsim]
    exact ⟨_, rfl, rfl⟩
  | ok prices =>
    rw [hr] at hsim
    rw [exec_bind_ok hsim, exec_bind_ok (exec_reportStatus ..), exec_bind_ok (exec_reportStatus ..)]
    exact ⟨_, rfl, by simp⟩

end Reports

section Answered

variable {rt : Runtime} {ds : DataService} {symbol : Text} {rate : Double} {stock : Stock} {volatility : Double}
  {setting : Text}

theorem Answered.yearRate_eq (h : Answered rt ds symbol rate stock volatility setting) : yearRate ds = .ok rate := by
  obtain ⟨curve, hc, hr⟩ := h.rate
  unfold yearRate
  rw [hc]
  dsimp only
  rw [hr]

theorem Answered.firstQuote_eq (h : Answered rt ds symbol rate stock volatility setting) :
    ∃ errors, firstQuote ds.exact symbol = .ok (stock, errors) ∧ isFlagged errors symbol = false := by
  obtain ⟨rest, errors, hq, hn⟩ := h.quote
  refine ⟨errors, ?_, ?_⟩
  · unfold firstQuote DataService.exact
    dsimp only
    rw [hq]
  · cases errors with
    | none => rfl
    | some l => exact decide_eq_false (hn l rfl)

theorem Answered.iterationsSetting_eq (h : Answered rt ds symbol rate stock volatility setting) :
    iterationsSetting ds.exact = toInt32 (some setting) := by
  unfold iterationsSetting DataService.exact
  dsimp only
  rw [h.setting]

/-- Getting the volatility makes no call. -/
theorem Answered.exec_getVolatility (h : Answered rt ds symbol rate stock volatility setting) (action : Bool)
    (s : Trace) : ∃ t, exec (getVolatility rt ds symbol action) s = (.ok volatility, t) ∧ t.calls = s.calls ∧
      t.draws = s.draws := by
  unfold getVolatility
  rcases h.volatility with hi | ⟨hi, prices, hh, hv⟩
  · rw [hi, exec_bind_ok (exec_lift _ s)]
    exact ⟨s, rfl, rfl, rfl⟩
  · have hhist : historicalVolatility rt ds symbol = .ok volatility := by
      unfold historicalVolatility
      rw [hh, hv]
    rw [hi, exec_bind_ok (exec_lift _ s)]
    dsimp only
    rw [exec_bind_ok (exec_reportStatus ..), exec_lift, hhist]
    exact ⟨_, rfl, calls_reported .., draws_reported ..⟩

/-- The ways a projection ends when the services answer. -/
theorem Answered.ends (h : Answered rt ds symbol rate stock volatility setting) (days : ℤ) (action : Bool)
    (draws : ℕ) :
    (volatility = finite 0 ∧ (projection rt ds symbol days action draws).1 = .ok none ∧
      (action = true → ∃ text, (text, .fail) ∈ (projection rt ds symbol days action draws).2.reports)) ∨
    (volatility ≠ finite 0 ∧ ∃ e, (projection rt ds symbol days action draws).1 = .error e ∧
      (toInt32 (some setting) = .error e ∨ quotedPrice stock = .error e)) ∨
    (volatility ≠ finite 0 ∧ ∃ n price, toInt32 (some setting) = .ok n ∧ quotedPrice stock = .ok price ∧
      (projection rt ds symbol days action draws).1 = returned rt draws (callFor days n price rate volatility stock) ∧
      (projection rt ds symbol days action draws).2.calls = [callFor days n price rate volatility stock]) := by
  obtain ⟨errors, hquote, hflag⟩ := h.firstQuote_eq
  unfold projection getStockProjections
  rw [h.yearRate_eq]
  dsimp only [Except.map]
  rw [exec_bind_ok (exec_lift _ _), exec_bind_ok (exec_reportStatus ..), hquote, exec_bind_ok (exec_lift _ _)]
  dsimp only
  rw [if_neg (by rw [hflag]; exact Bool.false_ne_true), exec_bind_ok (exec_reportStatus ..)]
  unfold projectQuoted
  generalize hs : Trace.reported _ action _ _ = s
  have hcalls : s.calls = [] := by rw [← hs, calls_reported, calls_reported]
  have hdraws : s.draws = draws := by rw [← hs, draws_reported, draws_reported]
  obtain ⟨t, ht, htcalls, htdraws⟩ := h.exec_getVolatility action s
  rw [exec_bind_ok ht]
  by_cases h0 : volatility = finite 0
  · rw [if_pos h0, exec_bind_ok (exec_reportStatus ..)]
    exact .inl ⟨h0, rfl, fun ha => ⟨_, mem_reported t ha _ _⟩⟩
  · refine .inr ?_
    rw [if_neg h0]
    dsimp only
    rw [exec_bind_ok (exec_reportStatus ..)]
    unfold runSimulation
    rw [h.iterationsSetting_eq]
    cases hn : toInt32 (some setting) with
    | error e =>
      rw [exec_bind_error (exec_lift _ _)]
      exact .inl ⟨h0, e, rfl, .inl rfl⟩
    | ok n =>
      rw [exec_bind_ok (exec_lift _ _)]
      cases hp : quotedPrice stock with
      | error e =>
        rw [exec_bind_error (exec_lift _ _)]
        exact .inl ⟨h0, e, rfl, .inr rfl⟩
      | ok price =>
        refine .inr ⟨h0, n, price, rfl, rfl, ?_⟩
        rw [exec_bind_ok (exec_lift _ _)]
        dsimp only
        rw [exec_bind_ok (exec_reportStatus ..)]
        generalize hu : Trace.reported _ action _ _ = u
        have hucalls : u.calls = [] := by rw [← hu, calls_reported, calls_reported, htcalls, hcalls]
        have hudraws : u.draws = draws := by rw [← hu, draws_reported, draws_reported, htdraws, hdraws]
        obtain ⟨v, hv, hvcalls⟩ := exec_simulate_reports rt action (callFor days n price rate volatility stock)
          (summary rt symbol stock (mathRound 4 volatility) (mathRound 4 rate) (quotedDividendYield stock)) u
        rw [hudraws] at hv
        rw [hucalls] at hvcalls
        rw [callFor] at hv
        rw [hv]
        exact ⟨rfl, hvcalls⟩

end Answered

/-! ## One call -/

section Call

variable {rt : Runtime} {days iterations : ℤ} {price rate dividendYield volatility : Double} {draws : ℕ}

/-- A power with the exponent zero is one, so every yearly rate becomes the daily rate zero. -/
theorem getDailyRateFromYearlyRate_eq_zero (hpow : ∀ x, rt.pow x 0 = finite 1) (rate : Double) :
    Native.getDailyRateFromYearlyRate rt.library rate = finite 0 := by
  show rt.pow _ (1 / 365) - ofRat 1 = finite 0
  rw [show (1 / 365 : ℤ) = 0 by norm_num, hpow, ofRat_one, finite_sub, sub_self, ofRat_zero]

theorem getDrift_eq_zero (hpow : ∀ x, rt.pow x 0 = finite 1) (rate dividendYield : Double) :
    Native.getDrift rt.library rate dividendYield = finite 0 := by
  unfold Native.getDrift
  rw [getDailyRateFromYearlyRate_eq_zero hpow, getDailyRateFromYearlyRate_eq_zero hpow]
  show (if ofRat 0 < finite 0 - finite 0 then _ else ofRat 0) = finite 0
  rw [finite_sub, sub_self, ofRat_zero, if_neg (by decide)]

/-- A simulation without drift returns the means of the days. -/
theorem simulateStockPrice_ok_iff (hpow : ∀ x, rt.pow x 0 = finite 1) {prices : List Double} :
    (Native.simulateStockPrice rt.library rt.memory rt.random days iterations price rate dividendYield volatility
        draws).1 = .ok prices ↔
      (Native.validate rt.library days iterations price (finite 0) volatility).1 = true ∧
      rt.memory days iterations = none ∧
      prices = (List.range days.toNat).map fun day =>
        sumOverPaths rt price volatility days.toNat iterations.toNat draws day / ofRat iterations.toNat := by
  have hmean : ∀ sigma, Native.stepMean rt.library (finite 0) sigma = finite 0 := fun sigma => by
    show (if finite 0 ≠ ofRat 0 then _ else ofRat 0) = finite 0
    rw [ofRat_zero, if_neg (by decide)]
  rw [Native.simulateStockPrice_ok_iff, getDrift_eq_zero hpow, hmean]
  rfl

end Call

/-! ## A whole projection -/

/-- The quote has both prices, their sum is a decimal, half of it exceeds half a cent, and it rounds to
this price. -/
def PositiveQuote (stock : Stock) (price : Double) : Prop :=
  ∃ ask bid, stock.ask = some ask ∧ stock.bid = some bid ∧ |ask + bid| < decimalMax + 1 / 2 ∧
    ExceedsHalf 2 (ofRat (ask + bid) / finite 2) ∧ price = mathRound 2 (ofRat (ask + bid) / finite 2)

/-- The quote, the volatility, the days and the iterations are such that the native call accepts its
arguments, the memory suffices, and the prices of every day survive. -/
structure Succeeds (rt : Runtime) (stock : Stock) (volatility : Double) (days iterations : ℤ) (draws : ℕ)
    (price : Double) : Prop where
  days_pos : 0 < days
  iterations_le : iterations ≤ 2147483647
  volatility_exceeds : ExceedsHalf 4 volatility
  quote : PositiveQuote stock price
  memory : rt.memory days iterations = none
  survives : ∀ day < days.toNat, Survives rt price (mathRound 4 volatility) days.toNat iterations.toNat draws day

section Safe

variable {rt : Runtime} {ds : DataService} {symbol : Text} {rate : Double} {stock : Stock} {volatility : Double}
  {setting : Text}

end Safe

/-- Services with one stock, whatever the symbol. -/
def answering (rate : Double) (stock : Stock) (volatility : Double) (setting : Text) : DataService where
  getYieldCurve := .ok (some (Dictionary.empty.set "1 YR" rate))
  getStockQuote _ := .ok (some [stock], some [])
  getHistoricalQuote _ := .ok none
  getImpliedVolatility _ := .ok (some volatility)
  isValidateSymbol _ := .ok 1
  lookUpStock _ := .ok none
  getAppSettings _ _ := .ok (some setting)

theorem answered_answering (rt : Runtime) (rate : Double) (stock : Stock) (volatility : Double)
    (setting symbol : Text) :
    Answered rt (answering rate stock volatility setting) symbol rate stock volatility setting where
  rate := ⟨_, rfl, by rw [Dictionary.lookup_set, if_pos rfl]⟩
  quote := ⟨[], some [], rfl, fun l hl => by cases hl; exact List.not_mem_nil⟩
  volatility := .inl rfl
  setting := rfl

/-- A stock at 100 with or without a bid. -/
def atHundred (bid : Option ℚ) : Stock := ⟨some 100, bid, none, none⟩

/-- The draw zero gives no shock. -/
theorem getInverseCDF_zero (rt : Runtime) : Native.getInverseCDF rt.library (finite 0) = finite 0 := by
  have hzero : ¬ finite 0 < finite 0 := by decide
  have hlow : ¬ ofRat 0.02425 ≤ finite 0 := by decide +kernel
  have hhigh : ¬ ofRat 1 - ofRat 0.02425 < finite 0 := by decide +kernel
  unfold Native.getInverseCDF Native.InverseCDF.approximate
  simp only [library_literal, hzero, hlow, hhigh, false_and, if_false, ofRat_zero]

end StockPredictor.Doubles
