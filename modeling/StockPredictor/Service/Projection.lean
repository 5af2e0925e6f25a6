/-
What a projection can do. It throws before the simulator is called, or reports a failure and
returns null, or makes one call of the simulator and returns what that call returns. Reports change
neither the calls nor the draws.
-/
import StockPredictor.Base.Erfc
import StockPredictor.Service.Manager

namespace StockPredictor.Service

open Base Quant

/-! ## Reports -/

@[simp] theorem calls_reported (t : Trace) (action : Bool) (status : Text) (statusType : StatusType) :
    (t.reported action status statusType).calls = t.calls := by unfold Trace.reported; split <;> rfl

@[simp] theorem draws_reported (t : Trace) (action : Bool) (status : Text) (statusType : StatusType) :
    (t.reported action status statusType).draws = t.draws := by unfold Trace.reported; split <;> rfl

theorem mem_reported (t : Trace) {action : Bool} (h : action = true) (status : Text) (statusType : StatusType) :
    (status, statusType) ∈ (t.reported action status statusType).reports := by
  unfold Trace.reported
  rw [if_pos h]
  exact List.mem_append_right _ (List.mem_singleton.2 rfl)

theorem exec_reportStatus (action : Bool) (status : Text) (statusType : StatusType) (t : Trace) :
    exec (reportStatus action status statusType) t = (.ok ⟨⟩, t.reported action status statusType) := rfl

/-- Between the two traces no call and no draw was made. -/
structure Untouched (s t : Trace) : Prop where
  calls : t.calls = s.calls
  draws : t.draws = s.draws

theorem Untouched.refl (s : Trace) : Untouched s s := ⟨rfl, rfl⟩

theorem Untouched.reported {s t : Trace} (h : Untouched s t) (action : Bool) (status : Text)
    (statusType : StatusType) : Untouched s (t.reported action status statusType) :=
  ⟨(calls_reported ..).trans h.calls, (draws_reported ..).trans h.draws⟩

/-! ## The outcomes -/

noncomputable section

/-- The volatility a projection works with, before rounding. -/
def volatilityOf (ds : DataService) (symbol : Text) : Except Exn ℝ :=
  match ds.getImpliedVolatility symbol with
  | .error e => .error e
  | .ok (some volatility) => .ok volatility
  | .ok none => historicalVolatility ds symbol

/-- The call a projection makes, for the values it has got. -/
def callFor (days iterations : ℤ) (price rate volatility : ℝ) (stock : Stock) : SimulateCall :=
  chooseCall days iterations price (mathRound 4 rate) (quotedDividendYield stock) (mathRound 4 volatility)

/-- What a projection returns when it makes the call. -/
def returned (p : Platform) (draws : ℕ) (c : SimulateCall) : Except Exn (Option (List ℝ)) :=
  ((c.run p draws).1.mapError Exn.native).map some

end

theorem returned_ne_none (p : Platform) (draws : ℕ) (c : SimulateCall) : returned p draws c ≠ .ok none := by
  unfold returned
  cases (c.run p draws).1 with
  | error message => rintro ⟨⟩
  | ok prices => rintro ⟨⟩

/-- The exceptions before the simulator is called. -/
inductive Fails (ds : DataService) (symbol : Text) : Exn → Prop
  | rate {e : Exn} (h : yearRate ds = .error e) : Fails ds symbol e
  | quote {e : Exn} (h : firstQuote ds symbol = .error e) : Fails ds symbol e
  | lookUp {e : Exn} {quote : Stock × Option (List Text)} (hq : firstQuote ds symbol = .ok quote)
      (hf : isFlagged quote.2 symbol = true) (h : unableToQuote ds symbol = .error e) : Fails ds symbol e
  | volatility {e : Exn} (h : volatilityOf ds symbol = .error e) : Fails ds symbol e
  | setting {e : Exn} {volatility : ℝ} (hv : volatilityOf ds symbol = .ok volatility) (h0 : volatility ≠ 0)
      (h : iterationsSetting ds = .error e) : Fails ds symbol e
  | price {e : Exn} {quote : Stock × Option (List Text)} {volatility : ℝ} (hq : firstQuote ds symbol = .ok quote)
      (hv : volatilityOf ds symbol = .ok volatility) (h0 : volatility ≠ 0) (h : quotedPrice quote.1 = .error e) :
      Fails ds symbol e

/-- The ways a projection ends. -/
inductive Ends (p : Platform) (ds : DataService) (symbol : Text) (days : ℤ) (action : Bool) (s : Trace) :
    Except Exn (Option (List ℝ)) × Trace → Prop
  | failed {e : Exn} {t : Trace} (h : Fails ds symbol e) (ht : Untouched s t) :
      Ends p ds symbol days action s (.error e, t)
  | unknown {quote : Stock × Option (List Text)} {text : Text} {t : Trace} (hq : firstQuote ds symbol = .ok quote)
      (hf : isFlagged quote.2 symbol = true) (ht : Untouched s t)
      (hr : action = true → (text, .fail) ∈ t.reports) : Ends p ds symbol days action s (.ok none, t)
  | noVolatility {quote : Stock × Option (List Text)} {text : Text} {t : Trace} (hq : firstQuote ds symbol = .ok quote)
      (hf : isFlagged quote.2 symbol = false) (hv : volatilityOf ds symbol = .ok 0) (ht : Untouched s t)
      (hr : action = true → (text, .fail) ∈ t.reports) : Ends p ds symbol days action s (.ok none, t)
  | simulated {rate volatility price : ℝ} {quote : Stock × Option (List Text)} {iterations : ℤ} {t : Trace}
      (hrate : yearRate ds = .ok rate) (hq : firstQuote ds symbol = .ok quote)
      (hf : isFlagged quote.2 symbol = false) (hv : volatilityOf ds symbol = .ok volatility) (h0 : volatility ≠ 0)
      (hn : iterationsSetting ds = .ok iterations) (hp : quotedPrice quote.1 = .ok price)
      (hc : t.calls = s.calls ++ [callFor days iterations price rate volatility quote.1])
      (hd : t.draws = ((callFor days iterations price rate volatility quote.1).run p s.draws).2) :
      Ends p ds symbol days action s (returned p s.draws (callFor days iterations price rate volatility quote.1), t)

/-! ## The steps -/

section Steps

variable (p : Platform) (ds : DataService) (symbol : Text) (days : ℤ) (action : Bool)

theorem exec_simulate (c : SimulateCall) (s : Trace) : exec (simulate p c) s =
    ((c.run p s.draws).1.mapError Exn.native, { s with calls := s.calls ++ [c], draws := (c.run p s.draws).2 }) := by
  unfold simulate
  rw [exec_bind_ok (exec_get s)]
  dsimp only
  rw [exec_bind_ok (exec_modify _ s)]
  rfl

/-- What is left after the call returns only reports. -/
theorem exec_simulate_reports (c : SimulateCall) (text : Text) (s : Trace) :
    ∃ t, exec (do
        let result ← simulate p c
        reportStatus action "100% Completed" .success
        reportStatus action text .info
        pure (some result)) s = (returned p s.draws c, t) ∧
      t.calls = s.calls ++ [c] ∧ t.draws = (c.run p s.draws).2 := by
  have hsim := exec_simulate p c s
  unfold returned
  cases hr : (c.run p s.draws).1 with
  | error message =>
    rw [hr] at hsim
    rw [exec_bind_error hsim]
    exact ⟨_, rfl, rfl, rfl⟩
  | ok prices =>
    rw [hr] at hsim
    rw [exec_bind_ok hsim, exec_bind_ok (exec_reportStatus ..), exec_bind_ok (exec_reportStatus ..)]
    exact ⟨_, rfl, by simp, by simp⟩

/-- Getting the volatility makes at most one report. -/
theorem exec_getVolatility (s : Trace) :
    ∃ t, exec (getVolatility ds symbol action) s = (volatilityOf ds symbol, t) ∧ Untouched s t := by
  unfold getVolatility volatilityOf
  cases hi : ds.getImpliedVolatility symbol with
  | error e => exact ⟨s, by rw [exec_bind_error (exec_lift _ s)], .refl s⟩
  | ok implied =>
    rw [exec_bind_ok (exec_lift _ s)]
    cases implied with
    | some volatility => exact ⟨s, rfl, .refl s⟩
    | none =>
      dsimp only
      rw [exec_bind_ok (exec_reportStatus ..), exec_lift]
      exact ⟨_, rfl, (Untouched.refl s).reported ..⟩

variable {p ds symbol days action} {s s' : Trace} {rate volatility : ℝ} {quote : Stock × Option (List Text)}

theorem ends_runSimulation (hs : Untouched s s') (hrate : yearRate ds = .ok rate)
    (hq : firstQuote ds symbol = .ok quote) (hf : isFlagged quote.2 symbol = false)
    (hv : volatilityOf ds symbol = .ok volatility) (h0 : volatility ≠ 0) :
    Ends p ds symbol days action s
      (exec (runSimulation p ds symbol days action (mathRound 4 rate) (mathRound 4 volatility) quote.1) s') := by
  unfold runSimulation
  cases hn : iterationsSetting ds with
  | error e =>
    rw [exec_bind_error (exec_lift _ s')]
    exact .failed (.setting hv h0 hn) hs
  | ok iterations =>
    rw [exec_bind_ok (exec_lift _ s')]
    cases hp : quotedPrice quote.1 with
    | error e =>
      rw [exec_bind_error (exec_lift _ s')]
      exact .failed (.price hq hv h0 hp) hs
    | ok price =>
      rw [exec_bind_ok (exec_lift _ s')]
      dsimp only
      rw [exec_bind_ok (exec_reportStatus ..)]
      obtain ⟨t, ht, hcalls, hdraws⟩ := exec_simulate_reports p action
        (callFor days iterations price rate volatility quote.1)
        (summary p symbol quote.1 (mathRound 4 volatility) (mathRound 4 rate) (quotedDividendYield quote.1))
        (s'.reported action "Running simulation..." .info)
      rw [draws_reported, hs.draws] at ht hdraws
      rw [calls_reported, hs.calls] at hcalls
      rw [callFor] at ht
      rw [ht]
      exact .simulated hrate hq hf hv h0 hn hp hcalls hdraws

theorem ends_projectQuoted (hs : Untouched s s') (hrate : yearRate ds = .ok rate)
    (hq : firstQuote ds symbol = .ok quote) (hf : isFlagged quote.2 symbol = false) :
    Ends p ds symbol days action s
      (exec (projectQuoted p ds symbol days action (mathRound 4 rate) quote.1) s') := by
  unfold projectQuoted
  obtain ⟨t, ht, hst⟩ := exec_getVolatility ds symbol action s'
  have hst' : Untouched s t := ⟨hst.calls.trans hs.calls, hst.draws.trans hs.draws⟩
  cases hv : volatilityOf ds symbol with
  | error e =>
    rw [hv] at ht
    rw [exec_bind_error ht]
    exact .failed (.volatility hv) hst'
  | ok volatility =>
    rw [hv] at ht
    rw [exec_bind_ok ht]
    split
    · rename_i h0
      subst h0
      rw [exec_bind_ok (exec_reportStatus ..)]
      exact .noVolatility hq hf hv (hst'.reported ..) fun h => mem_reported t h _ _
    · rename_i h0
      dsimp only
      rw [exec_bind_ok (exec_reportStatus ..)]
      exact ends_runSimulation (hst'.reported ..) hrate hq hf hv h0

end Steps

/-- Every projection ends in one of these ways. -/
theorem ends_getStockProjections (p : Platform) (ds : DataService) (symbol : Text) (days : ℤ) (action : Bool)
    (s : Trace) : Ends p ds symbol days action s (exec (getStockProjections p ds symbol days action) s) := by
  have hs := Untouched.refl s
  unfold getStockProjections
  cases hrate : yearRate ds with
  | error e =>
    dsimp only [Except.map]
    rw [exec_bind_error (exec_lift _ s)]
    exact .failed (.rate hrate) hs
  | ok rate =>
    dsimp only [Except.map]
    rw [exec_bind_ok (exec_lift _ s), exec_bind_ok (exec_reportStatus ..)]
    have hs := hs.reported action (finished eachPart "downloading yield curve") .success
    cases hq : firstQuote ds symbol with
    | error e =>
      rw [exec_bind_error (exec_lift _ _)]
      exact .failed (.quote hq) hs
    | ok quote =>
      rw [exec_bind_ok (exec_lift _ _)]
      split
      · rename_i hf
        cases ht : unableToQuote ds symbol with
        | error e =>
          rw [exec_bind_error (exec_lift _ _)]
          exact .failed (.lookUp hq hf ht) hs
        | ok text =>
          rw [exec_bind_ok (exec_lift _ _), exec_bind_ok (exec_reportStatus ..)]
          exact .unknown hq hf (hs.reported ..) fun h => mem_reported _ h _ _
      · rename_i hf
        rw [exec_bind_ok (exec_reportStatus ..)]
        exact ends_projectQuoted (hs.reported ..) hrate hq (by simpa using hf)

/-! ## Services that answer -/

/-- No call of the services throws: there is a rate for one year, a quote of the symbol that is not
flagged, a volatility from one of the two sources, and a text for the number of iterations. -/
structure Answered (ds : DataService) (symbol : Text) (rate : ℝ) (stock : Stock) (volatility : ℝ) (setting : Text) :
    Prop where
  rate : ∃ curve, ds.getYieldCurve = .ok (some curve) ∧ curve.lookup "1 YR" = some rate
  quote : ∃ rest errors, ds.getStockQuote [symbol] = .ok (some (stock :: rest), errors) ∧
    ∀ l, errors = some l → symbol ∉ l
  volatility : ds.getImpliedVolatility symbol = .ok (some volatility) ∨
    ds.getImpliedVolatility symbol = .ok none ∧ ∃ prices, ds.getHistoricalQuote symbol = .ok (some prices) ∧
      volatility = getWeightedStandardDeviation (dailyReturns prices)
  setting : ds.getAppSettings "iterations" "500000" = .ok (some setting)

section Answered

variable {ds : DataService} {symbol : Text} {rate : ℝ} {stock : Stock} {volatility : ℝ} {setting : Text}

theorem Answered.yearRate_eq (h : Answered ds symbol rate stock volatility setting) : yearRate ds = .ok rate := by
  obtain ⟨curve, hc, hr⟩ := h.rate
  unfold yearRate
  rw [hc]
  dsimp only
  rw [hr]

theorem Answered.firstQuote_eq (h : Answered ds symbol rate stock volatility setting) :
    ∃ errors, firstQuote ds symbol = .ok (stock, errors) ∧ isFlagged errors symbol = false := by
  obtain ⟨rest, errors, hq, hn⟩ := h.quote
  refine ⟨errors, ?_, ?_⟩
  · unfold firstQuote
    rw [hq]
  · cases errors with
    | none => rfl
    | some l => exact decide_eq_false (hn l rfl)

theorem Answered.volatilityOf_eq (h : Answered ds symbol rate stock volatility setting) :
    volatilityOf ds symbol = .ok volatility := by
  unfold volatilityOf
  rcases h.volatility with hi | ⟨hi, prices, hh, hv⟩
  · rw [hi]
  · rw [hi]
    dsimp only
    unfold historicalVolatility
    rw [hh, hv]

theorem Answered.iterationsSetting_eq (h : Answered ds symbol rate stock volatility setting) :
    iterationsSetting ds = toInt32 (some setting) := by
  unfold iterationsSetting
  rw [h.setting]

/-- The ways a projection ends when the services answer. -/
theorem Answered.ends (h : Answered ds symbol rate stock volatility setting) (p : Platform) (days : ℤ) (action : Bool)
    (draws : ℕ) :
    (volatility = 0 ∧ (projection p ds symbol days action draws).1 = .ok none ∧
      (projection p ds symbol days action draws).2.calls = [] ∧
      (action = true → ∃ text, (text, .fail) ∈ (projection p ds symbol days action draws).2.reports)) ∨
    (volatility ≠ 0 ∧ ∃ e, (projection p ds symbol days action draws).1 = .error e ∧
      (projection p ds symbol days action draws).2.calls = [] ∧
      (toInt32 (some setting) = .error e ∨ quotedPrice stock = .error e)) ∨
    (volatility ≠ 0 ∧ ∃ n price, toInt32 (some setting) = .ok n ∧ quotedPrice stock = .ok price ∧
      (projection p ds symbol days action draws).1 = returned p draws (callFor days n price rate volatility stock) ∧
      (projection p ds symbol days action draws).2.calls = [callFor days n price rate volatility stock]) := by
  have hrate := h.yearRate_eq
  obtain ⟨errors, hquote, hflag⟩ := h.firstQuote_eq
  have hvol := h.volatilityOf_eq
  have hset := h.iterationsSetting_eq
  have hout := ends_getStockProjections p ds symbol days action ⟨[], [], draws⟩
  unfold projection
  generalize exec (getStockProjections p ds symbol days action) ⟨[], [], draws⟩ = r at hout ⊢
  cases hout with
  | failed hf ht =>
    -- only the setting and the price are left to fail
    cases hf with
    | rate he => rw [hrate] at he; cases he
    | quote he => rw [hquote] at he; cases he
    | lookUp hq hf' => rw [hquote] at hq; cases hq; rw [hflag] at hf'; cases hf'
    | volatility he => rw [hvol] at he; cases he
    | setting hv h0 he =>
      rw [hvol] at hv; cases hv
      rw [hset] at he
      exact .inr (.inl ⟨h0, _, rfl, ht.calls, .inl he⟩)
    | price hq hv h0 he =>
      rw [hvol] at hv; cases hv
      rw [hquote] at hq; cases hq
      exact .inr (.inl ⟨h0, _, rfl, ht.calls, .inr he⟩)
  | unknown hq hf => rw [hquote] at hq; cases hq; rw [hflag] at hf; cases hf
  | noVolatility hq hf hv ht hr =>
    rw [hvol] at hv; cases hv
    exact .inl ⟨rfl, rfl, ht.calls, fun ha => ⟨_, hr ha⟩⟩
  | simulated hrate' hq hf hv h0 hn hp hc =>
    -- the values the call was made with are those the services answered
    rw [hrate] at hrate'; cases hrate'
    rw [hquote] at hq; cases hq
    rw [hvol] at hv; cases hv
    rw [hset] at hn
    exact .inr (.inr ⟨h0, _, _, hn, hp, rfl, hc⟩)

/-- With a volatility, a number of iterations and a price the projection is one call. -/
theorem Answered.simulates (h : Answered ds symbol rate stock volatility setting) (p : Platform) (days : ℤ)
    (action : Bool) (draws : ℕ) (h0 : volatility ≠ 0) {n : ℤ} {price : ℝ} (hn : toInt32 (some setting) = .ok n)
    (hp : quotedPrice stock = .ok price) :
    (projection p ds symbol days action draws).1 = returned p draws (callFor days n price rate volatility stock) ∧
      (projection p ds symbol days action draws).2.calls = [callFor days n price rate volatility stock] := by
  rcases h.ends p days action draws with ⟨hz, -⟩ | ⟨-, e, -, -, he⟩ | ⟨-, n', price', hn', hp', hout, hcalls⟩
  · exact absurd hz h0
  · rcases he with he | he
    · rw [hn] at he; cases he
    · rw [hp] at he; cases he
  · rw [hn] at hn'; cases hn'
    rw [hp] at hp'; cases hp'
    exact ⟨hout, hcalls⟩

end Answered

/-- Services with one stock, whatever the symbol. -/
noncomputable def answering (rate : ℝ) (stock : Stock) (implied : Option ℝ) (fetched : List HistoricalPrice)
    (setting : Text) : DataService where
  getYieldCurve := .ok (some (Dictionary.empty.set "1 YR" rate))
  getStockQuote _ := .ok (some [stock], some [])
  getHistoricalQuote _ := (getHistoricalQuote fetched).map some
  getImpliedVolatility _ := .ok implied
  isValidateSymbol _ := .ok 1
  lookUpStock _ := .ok none
  getAppSettings _ _ := .ok (some setting)

theorem answered_answering (rate : ℝ) (stock : Stock) (volatility : ℝ) (fetched : List HistoricalPrice)
    (setting symbol : Text) :
    Answered (answering rate stock (some volatility) fetched setting) symbol rate stock volatility setting where
  rate := ⟨_, rfl, by rw [Dictionary.lookup_set, if_pos rfl]⟩
  quote := ⟨[], some [], rfl, fun l hl => by cases hl; exact List.not_mem_nil⟩
  volatility := .inl rfl
  setting := rfl

/-- When there is no implied volatility the history gives one. -/
theorem answered_history (rate : ℝ) (stock : Stock) {fetched prices : List HistoricalPrice}
    (h : getHistoricalQuote fetched = .ok prices) (setting symbol : Text) :
    Answered (answering rate stock none fetched setting) symbol rate stock
      (getWeightedStandardDeviation (dailyReturns prices)) setting where
  rate := ⟨_, rfl, by rw [Dictionary.lookup_set, if_pos rfl]⟩
  quote := ⟨[], some [], rfl, fun l hl => by cases hl; exact List.not_mem_nil⟩
  volatility := .inr ⟨rfl, prices, by rw [answering, h]; rfl, rfl⟩
  setting := rfl

theorem quotedPrice_eq_ok_iff {stock : Stock} {price : ℝ} : quotedPrice stock = .ok price ↔
    ∃ ask bid, stock.ask = some ask ∧ stock.bid = some bid ∧ |ask + bid| < decimalMax + 1 / 2 ∧
      price = mathRound 2 (((ask + bid : ℚ) : ℝ) / 2) := by
  unfold quotedPrice addDecimal
  constructor
  · intro h
    split at h
    · rename_i ask bid ha hb
      split at h
      · rename_i hlt
        exact ⟨ask, bid, ha, hb, hlt, (Except.ok.inj h).symm⟩
      · cases h
    · cases h
  · rintro ⟨ask, bid, ha, hb, hlt, rfl⟩
    rw [ha, hb]
    dsimp only
    rw [if_pos hlt]
    rfl

/-- A stock at 100 that pays this dividend. -/
def atHundred (dividendYield : Option ℚ) : Stock := ⟨some 100, some 100, dividendYield, none⟩

theorem quotedPrice_atHundred (dividendYield : Option ℚ) : quotedPrice (atHundred dividendYield) = .ok 100 := by
  refine quotedPrice_eq_ok_iff.2 ⟨100, 100, rfl, rfl, by norm_num [decimalMax], ?_⟩
  have h := mathRound_div (K := ℝ) 2 10000
  norm_num at h ⊢
  exact h.symm

/-- A platform whose draws are all zero. -/
noncomputable def zeroDraws : Platform :=
  ⟨Base.erfc, getDailyRateFromYearlyRate, fun _ => 0, fun _ => [], fun _ => []⟩

end StockPredictor.Service
