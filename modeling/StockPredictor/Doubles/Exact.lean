/-
The projection in doubles beside the one in real numbers. Whatever the services answer, the two make
the same reports and end alike up to the call of the library; the calls then differ only in how the
numbers are rounded, and the library is one program over either type of numbers.
-/
import StockPredictor.Doubles.Guards
import StockPredictor.Native.Exact
import StockPredictor.Service.Projection

namespace StockPredictor.Doubles

open Base hiding mathRound
open Base.Double
open Service (StatusType Stock firstQuote isFlagged iterationsSetting unableToQuote)

/-- Both traces have the same reports and draws, and no call yet. -/
structure Uncalled (t : Trace) (t' : Service.Trace) : Prop where
  reports : t.reports = t'.reports
  draws : t.draws = t'.draws
  calls : t.calls = []
  calls_exact : t'.calls = []

theorem Uncalled.reported {t : Trace} {t' : Service.Trace} (h : Uncalled t t') (action : Bool) (status : Text)
    (statusType : StatusType) :
    Uncalled (t.reported action status statusType) (t'.reported action status statusType) := by
  unfold Trace.reported Service.Trace.reported
  cases action with
  | false => exact h
  | true => exact ⟨congrArg (· ++ _) h.reports, h.draws, h.calls, h.calls_exact⟩

/-- The volatilities of the two projections are zero alike. -/
structure ZeroAlike (rt : Runtime) (ds : DataService) (symbol : Text) : Prop where
  implied : ∀ v, ds.getImpliedVolatility symbol = .ok (some v) → (v = finite 0 ↔ v.toReal = 0)
  historical : ds.getImpliedVolatility symbol = .ok none → ∀ v v', historicalVolatility rt ds symbol = .ok v →
    Service.historicalVolatility ds.exact symbol = .ok v' → (v = finite 0 ↔ v' = 0)

/-- An implied volatility that is a number is zero in both. -/
theorem ZeroAlike.of_finite {rt : Runtime} {ds : DataService} {symbol : Text} {v : ℚ}
    (h : ds.getImpliedVolatility symbol = .ok (some (finite v))) : ZeroAlike rt ds symbol where
  implied v' hv' := by
    rw [h] at hv'
    cases hv'
    show finite v = finite 0 ↔ (v : ℝ) = 0
    rw [finite.injEq, Rat.cast_eq_zero]
  historical hnone := by
    rw [h] at hnone
    cases hnone

/-- How the two end: with one and the same exception, or both with null, or with a call for the same
number of days and iterations, made of the same quote. -/
inductive EndAlike (days : ℤ) :
    Except Exn (Option (List Double)) × Trace → Except Exn (Option (List ℝ)) × Service.Trace → Prop
  | raised (e : Exn) {t : Trace} {t' : Service.Trace} (ht : Uncalled t t') : EndAlike days (.error e, t) (.error e, t')
  | refused {t : Trace} {t' : Service.Trace} (ht : Uncalled t t') : EndAlike days (.ok none, t) (.ok none, t')
  | called {out : Except Exn (Option (List Double)) × Trace} {out' : Except Exn (Option (List ℝ)) × Service.Trace}
      {n : ℤ} {stock : Stock} {price rate volatility : Double} {price' rate' volatility' : ℝ}
      (hp : quotedPrice stock = .ok price) (hp' : Service.quotedPrice stock = .ok price')
      (hcalls : out.2.calls = [chooseCall days n price rate (quotedDividendYield stock) volatility])
      (hcalls' : out'.2.calls =
        [Service.chooseCall days n price' rate' (Service.quotedDividendYield stock) volatility'])
      (hsome : out.1 ≠ .ok none) (hsome' : out'.1 ≠ .ok none) : EndAlike days out out'

section Steps

variable {rt : Runtime} {p : Service.Platform} {ds : DataService} {symbol : Text} {days : ℤ} {action : Bool}
  {t : Trace} {t' : Service.Trace}

/-- One and the same exception, whatever the type of the results. -/
theorem error_iff_error {α β : Type} {e e' : Exn} :
    (.error e' : Except Exn α) = .error e ↔ (.error e' : Except Exn β) = .error e := by
  rw [Except.error.injEq, Except.error.injEq]

theorem map_error_iff {α β : Type} {r : Except Exn α} {f : α → β} {e : Exn} : r.map f = .error e ↔ r = .error e := by
  cases r with
  | error e' => exact error_iff_error
  | ok a => exact iff_of_false (by rintro ⟨⟩) (by rintro ⟨⟩)

theorem yearRate_error_iff (e : Exn) : yearRate ds = .error e ↔ Service.yearRate ds.exact = .error e := by
  have hcurve : ds.exact.getYieldCurve = ds.getYieldCurve.map (Option.map (Dictionary.map toReal)) := rfl
  unfold yearRate Service.yearRate
  rw [hcurve]
  rcases ds.getYieldCurve with e' | _ | curve
  · exact error_iff_error
  · exact error_iff_error
  · simp only [Except.map, Option.map_some, Dictionary.lookup_map]
    cases curve.lookup "1 YR" with
    | none => exact error_iff_error
    | some rate => exact iff_of_false (by rintro ⟨⟩) (by rintro ⟨⟩)

theorem historicalVolatility_error_iff (e : Exn) : historicalVolatility rt ds symbol = .error e ↔
    Service.historicalVolatility ds.exact symbol = .error e := by
  have hprices : ds.exact.getHistoricalQuote symbol =
      (ds.getHistoricalQuote symbol).map (Option.map (List.map (·.toPrice))) := rfl
  unfold historicalVolatility Service.historicalVolatility
  rw [hprices]
  rcases ds.getHistoricalQuote symbol with e' | _ | prices
  · exact error_iff_error
  · exact error_iff_error
  · exact iff_of_false (by rintro ⟨⟩) (by rintro ⟨⟩)

theorem quotedPrice_error_iff {stock : Stock} (e : Exn) : quotedPrice stock = .error e ↔
    Service.quotedPrice stock = .error e := by
  unfold quotedPrice Service.quotedPrice
  rcases stock.ask with _ | ask
  · exact error_iff_error
  · rcases stock.bid with _ | bid
    · exact error_iff_error
    · dsimp only
      rw [map_error_iff, map_error_iff]
      cases Service.addDecimal ask bid with
      | error e' => exact error_iff_error
      | ok sum => exact iff_of_false (by rintro ⟨⟩) (by rintro ⟨⟩)

/-- Both get a volatility, after the same report if there is no implied one. -/
theorem getVolatility_alike (hz : ZeroAlike rt ds symbol) (ht : Uncalled t t') :
    Alike (fun v v' => v = finite 0 ↔ v' = 0) Uncalled (exec (getVolatility rt ds symbol action) t)
      (exec (Service.getVolatility ds.exact symbol action) t') := by
  have himplied : ds.exact.getImpliedVolatility symbol = (ds.getImpliedVolatility symbol).map (Option.map toReal) := rfl
  unfold getVolatility Service.getVolatility
  rw [himplied]
  cases hi : ds.getImpliedVolatility symbol with
  | error e => exact .error e ht
  | ok implied =>
    cases implied with
    | some v => exact .ok (hz.implied v hi) ht
    | none => exact .lift (ht.reported action _ _) historicalVolatility_error_iff (hz.historical hi)

/-- The last part of both: the settings and the price, then the call. -/
theorem runSimulation_alike (ht : Uncalled t t') (stock : Stock) (rate volatility : Double) (rate' volatility' : ℝ) :
    EndAlike days (exec (runSimulation rt ds symbol days action rate volatility stock) t)
      (exec (Service.runSimulation p ds.exact symbol days action rate' volatility' stock) t') := by
  have hraised : ∀ (e : Exn) t t', Uncalled t t' → EndAlike days (.error e, t) (.error e, t') := fun e _ _ => .raised e
  unfold runSimulation Service.runSimulation
  refine (Alike.lift ht (fun e => Iff.rfl) fun n n' hn hn' => Except.ok.inj (hn.symm.trans hn')).bind _ _ ?_ hraised
  rintro n n' t t' rfl ht
  refine (Alike.lift ht quotedPrice_error_iff fun price price' hp hp' =>
    show quotedPrice stock = .ok price ∧ Service.quotedPrice stock = .ok price' from ⟨hp, hp'⟩).bind _ _ ?_ hraised
  rintro price price' t t' ⟨hp, hp'⟩ ht
  dsimp only
  rw [exec_bind_ok (exec_reportStatus ..), exec_bind_ok (Service.exec_reportStatus ..)]
  have ht := ht.reported action "Running simulation..." .info
  obtain ⟨u, hu, hcalls⟩ := exec_simulate_reports rt action
    (chooseCall days n price rate (quotedDividendYield stock) volatility)
    (summary rt symbol stock volatility rate (quotedDividendYield stock))
    (t.reported action "Running simulation..." .info)
  obtain ⟨u', hu', hcalls', -⟩ := Service.exec_simulate_reports p action
    (Service.chooseCall days n price' rate' (Service.quotedDividendYield stock) volatility')
    (Service.summary p symbol stock volatility' rate' (Service.quotedDividendYield stock))
    (t'.reported action "Running simulation..." .info)
  rw [ht.calls] at hcalls
  rw [ht.calls_exact] at hcalls'
  rw [hu, hu']
  exact .called hp hp' hcalls hcalls' (returned_ne_none _ _ _) (Service.returned_ne_none _ _ _)

theorem projectQuoted_alike (hz : ZeroAlike rt ds symbol) (ht : Uncalled t t') (stock : Stock) (rate : Double)
    (rate' : ℝ) : EndAlike days (exec (projectQuoted rt ds symbol days action rate stock) t)
      (exec (Service.projectQuoted p ds.exact symbol days action rate' stock) t') := by
  unfold projectQuoted Service.projectQuoted
  refine (getVolatility_alike hz ht).bind _ _ ?_ fun e _ _ h => .raised e h
  intro v v' t t' hv ht
  by_cases h0 : v = finite 0
  · rw [if_pos h0, if_pos (hv.1 h0), exec_bind_ok (exec_reportStatus ..), exec_bind_ok (Service.exec_reportStatus ..)]
    exact .refused (ht.reported ..)
  · rw [if_neg h0, if_neg (hv.not.1 h0)]
    dsimp only
    rw [exec_bind_ok (exec_reportStatus ..), exec_bind_ok (Service.exec_reportStatus ..)]
    exact runSimulation_alike (ht.reported ..) ..

end Steps

/-- For all answers of the services for which the volatilities are zero alike, the projection in doubles
and the one in real numbers end alike. -/
theorem projection_alike (rt : Runtime) (p : Service.Platform) {ds : DataService} {symbol : Text}
    (hz : ZeroAlike rt ds symbol) (days : ℤ) (action : Bool) (draws : ℕ) :
    EndAlike days (projection rt ds symbol days action draws)
      (Service.projection p ds.exact symbol days action draws) := by
  have hraised : ∀ (e : Exn) t t', Uncalled t t' → EndAlike days (.error e, t) (.error e, t') := fun e _ _ => .raised e
  have ht : Uncalled ⟨[], [], draws⟩ ⟨[], [], draws⟩ := ⟨rfl, rfl, rfl, rfl⟩
  unfold projection getStockProjections Service.projection Service.getStockProjections
  refine (Alike.lift ht (fun e => map_error_iff.trans ((yearRate_error_iff e).trans map_error_iff.symm))
    fun rate rate' _ _ => trivial).bind _ _ ?_ hraised
  intro rate rate' t t' _ ht
  rw [exec_bind_ok (exec_reportStatus ..), exec_bind_ok (Service.exec_reportStatus ..)]
  refine (Alike.lift (ht.reported ..) (fun e => Iff.rfl)
    fun quote quote' hq hq' => Except.ok.inj (hq.symm.trans hq')).bind _ _ ?_ hraised
  rintro quote quote' t t' rfl ht
  by_cases hf : isFlagged quote.2 symbol = true
  · rw [if_pos hf, if_pos hf]
    refine (Alike.lift ht (fun e => Iff.rfl)
      fun text text' h h' => Except.ok.inj (h.symm.trans h')).bind _ _ ?_ hraised
    rintro text text' t t' rfl ht
    rw [exec_bind_ok (exec_reportStatus ..), exec_bind_ok (Service.exec_reportStatus ..)]
    exact .refused (ht.reported ..)
  · rw [if_neg hf, if_neg hf, exec_bind_ok (exec_reportStatus ..), exec_bind_ok (Service.exec_reportStatus ..)]
    exact projectQuoted_alike hz (ht.reported ..) ..

/-- So the projection in doubles returns null exactly when the one in real numbers does. -/
theorem projection_none_iff (rt : Runtime) (p : Service.Platform) {ds : DataService} {symbol : Text}
    (hz : ZeroAlike rt ds symbol) (days : ℤ) (action : Bool) (draws : ℕ) :
    (projection rt ds symbol days action draws).1 = .ok none ↔
      (Service.projection p ds.exact symbol days action draws).1 = .ok none := by
  have h := projection_alike rt p hz days action draws
  generalize projection rt ds symbol days action draws = out at h ⊢
  generalize Service.projection p ds.exact symbol days action draws = out' at h ⊢
  cases h with
  | raised e => exact iff_of_false (by rintro ⟨⟩) (by rintro ⟨⟩)
  | refused => exact iff_of_true rfl rfl
  | called _ _ _ _ hsome hsome' => exact iff_of_false hsome hsome'

end StockPredictor.Doubles
