/-
`DataService.GetHistoricalQuote`: the fetched prices sorted by date, the daily log returns filled
in. The order is oldest first, and `GetEWMA` weighs early positions most, so the historical
volatility weighs old returns most.
-/
import Mathlib.Data.List.Sort
import StockPredictor.Quant.Weights
import StockPredictor.Service.Exn

namespace StockPredictor.Service

open Base Quant

/-- `HistoricalPrice`; the date is in ticks. -/
structure HistoricalPrice where
  symbol : Text := []
  date : ℤ
  openPrice : ℝ := 0
  high : ℝ := 0
  low : ℝ := 0
  close : ℝ
  volume : ℤ := 0
  adjClose : ℝ := 0
  dailyReturn : ℝ := 0

/-- `OrderBy(h => h.Date).ToList()`, a stable sort. -/
def orderByDate (prices : List HistoricalPrice) : List HistoricalPrice :=
  prices.mergeSort fun a b => decide (a.date ≤ b.date)

noncomputable section

/-- `prices[i].DailyReturn = Math.Log(prices[i].Close/prices[i - 1].Close)`. -/
def setDailyReturn (i : ℕ) (prices : List HistoricalPrice) : List HistoricalPrice :=
  prices.modify i fun p =>
    { p with dailyReturn := Real.log (p.close / (prices.getD (i - 1) p).close) }

/-- `DataService.GetHistoricalQuote` on the prices `FetchHistorical` delivers. -/
def getHistoricalQuote (fetched : List HistoricalPrice) : Except Exn (List HistoricalPrice) :=
  let prices := orderByDate fetched
  if prices = [] then .error .argumentOutOfRange
  else
    let prices := prices.modify 0 fun p => { p with dailyReturn := 0 }
    .ok (forLoop (fun i prices => setDailyReturn (i + 1) prices) prices (prices.length - 1))

/-- The list that `GetStockProjections` hands to `GetWeightedStandardDeviation`. -/
def dailyReturns (prices : List HistoricalPrice) : List ℝ := prices.map (·.dailyReturn)

end

/-! ## Order -/

theorem orderByDate_perm (prices : List HistoricalPrice) : (orderByDate prices).Perm prices :=
  List.mergeSort_perm _ _

theorem orderByDate_sorted (prices : List HistoricalPrice) :
    ((orderByDate prices).map (·.date)).Pairwise (· ≤ ·) := by
  rw [List.pairwise_map]
  have h : (orderByDate prices).Pairwise fun a b => decide (a.date ≤ b.date) = true :=
    List.pairwise_mergeSort (fun a b c hab hbc => by simp only [decide_eq_true_eq] at *; omega)
      (fun a b => by simp only [Bool.or_eq_true, decide_eq_true_eq]; omega) prices
  exact h.imp fun hab => by simpa using hab

theorem modify_dailyReturn_dates (f : HistoricalPrice → ℝ) (prices : List HistoricalPrice) (i : ℕ) :
    (prices.modify i fun p => { p with dailyReturn := f p }).map (·.date) = prices.map (·.date) := by
  apply List.ext_getElem?
  intro n
  simp only [List.getElem?_map, List.getElem?_modify]
  split
  · cases prices[n]? <;> rfl
  · cases prices[n]? <;> rfl

/-- Filling in the returns changes no date. -/
theorem getHistoricalQuote_dates {fetched quotes : List HistoricalPrice} (h : getHistoricalQuote fetched = .ok quotes) :
    quotes.map (·.date) = (orderByDate fetched).map (·.date) := by
  unfold getHistoricalQuote at h
  dsimp only at h
  split at h
  · cases h
  · cases h
    refine forLoop_inv
      (fun _ (prices : List HistoricalPrice) => prices.map (·.date) = (orderByDate fetched).map (·.date)) ?_ ?_
    · exact modify_dailyReturn_dates (fun _ => 0) _ 0
    · intro i _ prices ih
      rw [setDailyReturn, modify_dailyReturn_dates]
      exact ih

/-- With distinct dates the quotes are in strictly increasing order of date. -/
theorem getHistoricalQuote_sorted {fetched quotes : List HistoricalPrice}
    (h : getHistoricalQuote fetched = .ok quotes) (hd : (fetched.map (·.date)).Nodup) :
    (quotes.map (·.date)).Pairwise (· < ·) := by
  rw [getHistoricalQuote_dates h]
  have hnd : ((orderByDate fetched).map (·.date)).Nodup := ((orderByDate_perm fetched).map _).nodup_iff.2 hd
  exact ((orderByDate_sorted fetched).and hnd).imp fun hab => lt_of_le_of_ne hab.1 hab.2

/-! ## Old returns weigh most -/

/-- For every history with distinct dates: position `j > i` is the more recent one, exchanging the
returns at `i` and `j` leaves the mean unchanged, and if the return at `i` deviates more from it,
the exchange strictly lowers the weighted standard deviation. -/
theorem exchange_recent_lowers {fetched quotes : List HistoricalPrice} (h : getHistoricalQuote fetched = .ok quotes)
    (hd : (fetched.map (·.date)).Nodup) {i j : ℕ} (hij : i < j) (hj : j < quotes.length)
    (hdev : |(dailyReturns quotes).getD i 0 - getMean (dailyReturns quotes)| >
      |(dailyReturns quotes).getD j 0 - getMean (dailyReturns quotes)|) :
    (quotes.map (·.date)).Pairwise (· < ·) ∧
    getMean (exchange (dailyReturns quotes) i j 0) = getMean (dailyReturns quotes) ∧
    ¬ getWeightedStandardDeviation (dailyReturns quotes) ≤
      getWeightedStandardDeviation (exchange (dailyReturns quotes) i j 0) := by
  have hj' : j < (dailyReturns quotes).length := by simpa [dailyReturns] using hj
  exact ⟨getHistoricalQuote_sorted h hd, getMean_exchange hij hj',
    not_le.2 (getWeightedStandardDeviation_exchange_lt hij hj' hdev)⟩

/-- Three days on which the price doubles and then stays. -/
def doubling : List HistoricalPrice :=
  [{ date := 1, close := 1 }, { date := 2, close := 2 }, { date := 3, close := 2 }]

theorem getHistoricalQuote_doubling : getHistoricalQuote doubling =
    .ok [{ date := 1, close := 1, dailyReturn := 0 }, { date := 2, close := 2, dailyReturn := Real.log 2 },
      { date := 3, close := 2, dailyReturn := 0 }] := by
  have hs : orderByDate doubling = doubling := List.mergeSort_of_pairwise (by simp [doubling])
  unfold getHistoricalQuote
  rw [hs]
  simp [doubling, setDailyReturn]

/-- The second return deviates more from the mean than the third. -/
theorem doubling_deviates : |([0, Real.log 2, 0] : List ℝ).getD 1 0 - getMean [0, Real.log 2, 0]| >
    |([0, Real.log 2, 0] : List ℝ).getD 2 0 - getMean [0, Real.log 2, 0]| := by
  have hl : 0 < Real.log 2 := Real.log_pos (by norm_num)
  rw [getMean_eq]
  norm_num [abs_of_pos hl, abs_div]
  rw [abs_of_pos (by linarith)]
  linarith

theorem exchange_recent_lowers_doubling :
    ¬ getWeightedStandardDeviation [0, Real.log 2, 0] ≤
      getWeightedStandardDeviation (exchange [0, Real.log 2, 0] 1 2 0) :=
  (exchange_recent_lowers (i := 1) (j := 2) getHistoricalQuote_doubling (by simp [doubling]) (by decide) (by decide)
    doubling_deviates).2.2

/-- With the larger return moved to the more recent day the deviation is lower than before. -/
theorem doubling_exchange_lower :
    (getHistoricalQuote doubling).map dailyReturns = .ok [0, Real.log 2, 0] ∧
    getMean (exchange [0, Real.log 2, 0] 1 2 0) = getMean [0, Real.log 2, 0] ∧
    ¬ getWeightedStandardDeviation [0, Real.log 2, 0] ≤
      getWeightedStandardDeviation (exchange [0, Real.log 2, 0] 1 2 0) :=
  ⟨by rw [getHistoricalQuote_doubling]; rfl, getMean_exchange (by decide) (by simp),
    not_le.2 (getWeightedStandardDeviation_exchange_lt (by decide) (by simp) doubling_deviates)⟩

end StockPredictor.Service
