/-
`DataService.GetHistoricalQuote` in doubles. The loop divides every close by the one of the day before
and takes the logarithm of the rounded quotient, whatever the two closes are.
-/
import StockPredictor.Base.Double
import StockPredictor.Base.Fill
import StockPredictor.Native.Simulator
import StockPredictor.Service.History

namespace StockPredictor.Doubles

open Base Base.Double

/-- What the program calls outside: the functions of `math.h`, Boost's `erfc`, the generator of draws
with its largest result, the logarithm of .NET, the draws after which a call of the library over that
many days and iterations runs out of memory, and how numbers are printed. -/
structure Runtime where
  exp : Double → Double
  log : Double → Double
  sqrt : Double → Double
  pow : Double → ℤ → Double
  erfc : Double → Double
  rand : ℕ → ℕ
  RAND_MAX : ℕ
  mathLog : Double → Double
  memory : ℤ → ℤ → Option ℕ
  showDouble : Double → Text
  showDecimal : ℚ → Text

/-- The C++ library computes in doubles. -/
def Runtime.library (rt : Runtime) : Native.Library Double := ⟨ofRat, rt.exp, rt.log, rt.sqrt, rt.pow, rt.erfc⟩

@[simp] theorem library_literal (rt : Runtime) (q : ℚ) : rt.library.literal q = ofRat q := rfl

/-- `(double)rand()/(double)RAND_MAX`. -/
def Runtime.random (rt : Runtime) (j : ℕ) : Double := ofRat (rt.rand j) / ofRat rt.RAND_MAX

/-- `HistoricalPrice`; the date is in ticks. -/
structure HistoricalPrice where
  symbol : Text
  date : ℤ
  openPrice : Double
  high : Double
  low : Double
  close : Double
  volume : ℤ
  adjClose : Double
  dailyReturn : Double := .finite 0

/-- The price in real numbers. -/
def HistoricalPrice.toPrice (p : HistoricalPrice) : Service.HistoricalPrice where
  symbol := p.symbol
  date := p.date
  openPrice := p.openPrice.toReal
  high := p.high.toReal
  low := p.low.toReal
  close := p.close.toReal
  volume := p.volume
  adjClose := p.adjClose.toReal
  dailyReturn := p.dailyReturn.toReal

/-- `OrderBy(h => h.Date).ToList()`, a stable sort. -/
def orderByDate (prices : List HistoricalPrice) : List HistoricalPrice :=
  prices.mergeSort fun a b => decide (a.date ≤ b.date)

/-- `prices[i].DailyReturn = Math.Log(prices[i].Close/prices[i - 1].Close)`. -/
def setDailyReturn (rt : Runtime) (i : ℕ) (prices : List HistoricalPrice) : List HistoricalPrice :=
  prices.modify i fun p => { p with dailyReturn := rt.mathLog (p.close / (prices.getD (i - 1) p).close) }

/-- `DataService.GetHistoricalQuote` on the prices `FetchHistorical` delivers. -/
def getHistoricalQuote (rt : Runtime) (fetched : List HistoricalPrice) : Except Exn (List HistoricalPrice) :=
  let prices := orderByDate fetched
  if prices.length = 0 then .error .argumentOutOfRange
  else
    let prices := prices.modify 0 fun p => { p with dailyReturn := .finite 0 }
    .ok (forLoop (fun i prices => setDailyReturn rt (i + 1) prices) prices (prices.length - 1))

/-- The list that `GetStockProjections` hands to `GetWeightedStandardDeviation`. -/
def dailyReturns (prices : List HistoricalPrice) : List Double := prices.map (·.dailyReturn)

/-! ## The series -/

/-- A record without its return. -/
def bare (p : HistoricalPrice) : HistoricalPrice := { p with dailyReturn := .finite 0 }

/-- A record with its return since another one. -/
def since (rt : Runtime) (q p : HistoricalPrice) : HistoricalPrice :=
  { p with dailyReturn := rt.mathLog (p.close / q.close) }

theorem orderByDate_perm (prices : List HistoricalPrice) : (orderByDate prices).Perm prices :=
  List.mergeSort_perm _ _

theorem getHistoricalQuote_nil (rt : Runtime) : getHistoricalQuote rt [] = .error .argumentOutOfRange := by
  unfold getHistoricalQuote
  dsimp only
  rw [if_pos (by simp [orderByDate])]

/-- Every record of a series has the return since the one before it. -/
theorem getHistoricalQuote_eq (rt : Runtime) {fetched : List HistoricalPrice} (h : fetched ≠ []) :
    getHistoricalQuote rt fetched = .ok (filled bare (since rt) (orderByDate fetched)) := by
  have hlen : (orderByDate fetched).length ≠ 0 := by
    rw [(orderByDate_perm fetched).length_eq, ne_eq, List.length_eq_zero_iff]
    exact h
  unfold getHistoricalQuote
  dsimp only
  rw [if_neg hlen, List.length_modify]
  exact congrArg Except.ok (forLoop_fill bare (since rt) (fun _ _ => rfl) (fun _ _ _ => rfl) _)

/-- Filling in the returns changes nothing else. -/
theorem map_series {α : Type} {f : HistoricalPrice → α}
    (hf : ∀ (p : HistoricalPrice) (r : Double), f { p with dailyReturn := r } = f p) (rt : Runtime)
    (prices : List HistoricalPrice) : (filled bare (since rt) prices).map f = prices.map f :=
  map_filled (fun p => hf p _) (fun _ p => hf p _) prices

theorem head_series (rt : Runtime) (prices : List HistoricalPrice) :
    ∀ p ∈ (filled bare (since rt) prices).head?, p.dailyReturn = .finite 0 := by
  intro p hp
  cases prices with
  | nil => cases hp
  | cons q l =>
    rw [filled, List.mapIdx_cons] at hp
    cases hp
    rfl

/-- Every later return is the logarithm of the quotient of its close and the one before. -/
theorem isChain_series (rt : Runtime) (prices : List HistoricalPrice) :
    (filled bare (since rt) prices).IsChain fun q p => p.dailyReturn = rt.mathLog (p.close / q.close) := by
  rw [List.isChain_iff_getElem]
  intro i hi
  have hi' : i < prices.length := by
    rw [filled, List.length_mapIdx] at hi
    omega
  simp only [filled, List.getElem_mapIdx]
  cases i with
  | zero => simp [since, bare, List.getD_eq_getElem?_getD, hi']
  | succ i => simp [since, List.getD_eq_getElem?_getD, hi']

/-- The returns are zero and the logarithms of the quotients. -/
theorem mem_dailyReturns {rt : Runtime} {prices : List HistoricalPrice} {r : Double}
    (h : r ∈ dailyReturns (filled bare (since rt) prices)) :
    r = .finite 0 ∨ ∃ i, ∃ hi : i + 1 < prices.length, r = rt.mathLog (prices[i + 1].close / prices[i].close) := by
  obtain ⟨p, hp, rfl⟩ := List.mem_map.1 h
  obtain ⟨i, hi, rfl⟩ := List.getElem_of_mem hp
  rw [filled, List.length_mapIdx] at hi
  simp only [filled, List.getElem_mapIdx]
  cases i with
  | zero => exact .inl rfl
  | succ i =>
    refine .inr ⟨i, hi, ?_⟩
    have hi' : i < prices.length := by omega
    simp [since, List.getD_eq_getElem?_getD, hi']

end StockPredictor.Doubles
