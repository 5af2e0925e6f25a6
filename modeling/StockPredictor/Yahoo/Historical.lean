/-
`YahooEngine.ParseHistorical`. A quote object is what the parser reads of it: the texts of its
properties. A number that does not parse is zero, also for the close, and every quote becomes a
price.
-/
import StockPredictor.Base.Dictionary
import StockPredictor.Base.Sequence
import StockPredictor.Service.Number
import StockPredictor.Doubles.Fixed

namespace StockPredictor.Yahoo

open Base Base.Double Doubles
open Service (tryParseDouble tryParseDouble_of_no_digit tryParseInt32)

/-- A quote of the history: its properties with `ToString()` of their values. -/
abbrev QuoteObject := Dictionary Text Text

/-- `quote[name].ToString()`; a missing property is null. -/
def property (quote : QuoteObject) (name : Text) : Except Exn Text :=
  match quote.lookup name with
  | none => .error .nullReference
  | some t => .ok t

/-- The double that `double.TryParse` leaves in its out parameter, with the invariant culture as the
current one. -/
def outDouble (t : Text) : Double := (tryParseDouble t).getD (.finite 0)

/-- One round of the loop. `parseDate` is `DateTime.TryParse`; a failure leaves the date zero. -/
def parseQuote (parseDate : Text → Option ℤ) (quote : QuoteObject) : Except Exn HistoricalPrice := do
  let symbol ← property quote "Symbol"
  let date ← property quote "Date"
  let openPrice ← property quote "Open"
  let high ← property quote "High"
  let low ← property quote "Low"
  let close ← property quote "Close"
  let volume ← property quote "Volume"
  let adjClose ← property quote "Adj_Close"
  pure { symbol, date := (parseDate date).getD 0, openPrice := outDouble openPrice, high := outDouble high,
         low := outDouble low, close := outDouble close, volume := (tryParseInt32 volume).getD 0,
         adjClose := outDouble adjClose }

/-- `YahooEngine.ParseHistorical` on `historical["query"]["results"]["quote"]`; when the results are
null they have no member to read. -/
def parseHistorical (parseDate : Text → Option ℤ) : Option (List QuoteObject) → Except Exn (List HistoricalPrice)
  | none => .error .invalidOperation
  | some quotes => quotes.mapM (parseQuote parseDate)

/-! ## Quotes that are complete -/

def propertyNames : List Text := ["Symbol", "Date", "Open", "High", "Low", "Close", "Volume", "Adj_Close"]

/-- Every property that is read is there. -/
def Complete (quote : QuoteObject) : Prop := ∀ name ∈ propertyNames, (quote.lookup name).isSome

/-- The text of a property that is there. -/
def textOf (quote : QuoteObject) (name : Text) : Text := (quote.lookup name).getD []

/-- The date and the close that the texts of a quote leave. -/
def dateOf (parseDate : Text → Option ℤ) (quote : QuoteObject) : ℤ := (parseDate (textOf quote "Date")).getD 0

def closeOf (quote : QuoteObject) : Double := outDouble (textOf quote "Close")

/-- The price of a complete quote. -/
def priceOf (parseDate : Text → Option ℤ) (quote : QuoteObject) : HistoricalPrice where
  symbol := textOf quote "Symbol"
  date := dateOf parseDate quote
  openPrice := outDouble (textOf quote "Open")
  high := outDouble (textOf quote "High")
  low := outDouble (textOf quote "Low")
  close := closeOf quote
  volume := (tryParseInt32 (textOf quote "Volume")).getD 0
  adjClose := outDouble (textOf quote "Adj_Close")

theorem property_eq_ok {quote : QuoteObject} {name t : Text} :
    property quote name = .ok t ↔ (quote.lookup name).isSome ∧ t = textOf quote name := by
  unfold property textOf
  cases quote.lookup name with
  | none => simp
  | some t' => simp [eq_comm]

/-- A quote parses exactly when it is complete, to what its texts leave. -/
theorem parseQuote_eq_ok {parseDate : Text → Option ℤ} {quote : QuoteObject} {p : HistoricalPrice} :
    parseQuote parseDate quote = .ok p ↔ Complete quote ∧ p = priceOf parseDate quote := by
  unfold parseQuote Complete propertyNames
  simp only [bind_eq_ok, property_eq_ok, List.forall_mem_cons, List.not_mem_nil, false_imp_iff, implies_true, and_true]
  constructor
  · rintro ⟨_, ⟨ha, rfl⟩, _, ⟨hb, rfl⟩, _, ⟨hc, rfl⟩, _, ⟨hd, rfl⟩, _, ⟨he, rfl⟩, _, ⟨hf, rfl⟩, _, ⟨hg, rfl⟩,
      _, ⟨hh, rfl⟩, hp⟩
    cases hp
    exact ⟨⟨ha, hb, hc, hd, he, hf, hg, hh⟩, rfl⟩
  · rintro ⟨⟨ha, hb, hc, hd, he, hf, hg, hh⟩, rfl⟩
    exact ⟨_, ⟨ha, rfl⟩, _, ⟨hb, rfl⟩, _, ⟨hc, rfl⟩, _, ⟨hd, rfl⟩, _, ⟨he, rfl⟩, _, ⟨hf, rfl⟩, _, ⟨hg, rfl⟩,
      _, ⟨hh, rfl⟩, rfl⟩

/-- A history parses exactly when every quote is complete. -/
theorem parseHistorical_eq_ok {parseDate : Text → Option ℤ} {quotes : List QuoteObject}
    {prices : List HistoricalPrice} :
    parseHistorical parseDate (some quotes) = .ok prices ↔
      (∀ quote ∈ quotes, Complete quote) ∧ prices = quotes.map (priceOf parseDate) :=
  mapM_eq_ok_iff fun _ _ => parseQuote_eq_ok

/-! ## Prices that have a return -/

/-- The text of the close is there and is a number above zero. -/
def PositiveClose (quote : QuoteObject) : Prop :=
  ∃ t d, quote.lookup "Close" = some t ∧ tryParseDouble t = some d ∧ Positive d

/-- A close without a digit is not positive. -/
theorem not_positiveClose_of_no_digit {quote : QuoteObject} {t : Text} (ht : quote.lookup "Close" = some t)
    (h : ∀ c ∈ t, c.isDigit = false) : ¬ PositiveClose quote := by
  rintro ⟨t', d, ht', hd, hpos⟩
  rw [ht] at ht'
  cases ht'
  cases d with
  | finite v => exact tryParseDouble_of_no_digit h v hd
  | posInfinity | negInfinity | nan => exact hpos

theorem positive_outDouble_iff (t : Text) : Positive (outDouble t) ↔ ∃ d, tryParseDouble t = some d ∧ Positive d := by
  unfold outDouble
  cases tryParseDouble t with
  | none => simp [Positive]
  | some d => simp

/-- The prices of a history: of each quote that parses and has a positive close. -/
def positivePrices (parseDate : Text → Option ℤ) (quotes : Option (List QuoteObject)) : List HistoricalPrice :=
  (quotes.getD []).filterMap fun quote =>
    match parseQuote parseDate quote with
    | .ok p => if Positive p.close then some p else none
    | .error _ => none

/-- The closes of complete quotes in order of date. -/
def closesByDate (parseDate : Text → Option ℤ) (quotes : List QuoteObject) : List Double :=
  (quotes.mergeSort fun a b => decide (dateOf parseDate a ≤ dateOf parseDate b)).map closeOf

/-- The quotient of two closes is in the range of the doubles above zero. -/
def QuotientInRange : Double → Double → Prop
  | .finite a, .finite b => 2 ^ (-1075 : ℤ) < b / a ∧ b / a < overflowThreshold
  | _, _ => False

instance : DecidableRel QuotientInRange := fun a b => match a, b with
  | .finite a, .finite b => inferInstanceAs (Decidable (2 ^ (-1075 : ℤ) < b / a ∧ b / a < overflowThreshold))
  | .posInfinity, _ | .negInfinity, _ | .nan, _ => inferInstanceAs (Decidable False)
  | .finite _, .posInfinity | .finite _, .negInfinity | .finite _, .nan => inferInstanceAs (Decidable False)

/-- The text of a close that is there says that the close is positive. -/
theorem positive_closeOf_iff {quote : QuoteObject} (h : Complete quote) :
    Positive (closeOf quote) ↔ PositiveClose quote := by
  obtain ⟨t, ht⟩ := Option.isSome_iff_exists.1 (h "Close" (by decide))
  have htext : textOf quote "Close" = t := by rw [textOf, ht]; rfl
  rw [closeOf, htext, positive_outDouble_iff]
  constructor
  · rintro ⟨d, hd, hpos⟩
    exact ⟨t, d, ht, hd, hpos⟩
  · rintro ⟨t', d, ht', hd, hpos⟩
    rw [ht] at ht'; cases ht'
    exact ⟨d, hd, hpos⟩

/-- Nothing is left out exactly when every close is positive. -/
theorem eq_positivePrices_iff {parseDate : Text → Option ℤ} {quotes : List QuoteObject}
    (h : ∀ quote ∈ quotes, Complete quote) :
    quotes.map (priceOf parseDate) = positivePrices parseDate (some quotes) ↔
      ∀ quote ∈ quotes, Positive (closeOf quote) := by
  have hfilter : positivePrices parseDate (some quotes) =
      (quotes.map (priceOf parseDate)).filter fun p => decide (Positive p.close) := by
    unfold positivePrices
    rw [Option.getD_some, List.filter_map, ← List.filterMap_eq_map, List.filterMap_filter]
    refine List.filterMap_congr fun quote hq => ?_
    rw [parseQuote_eq_ok.2 ⟨h quote hq, rfl⟩]
    simp [Function.comp]
  rw [hfilter, eq_comm, List.filter_eq_self]
  simp only [List.forall_mem_map, decide_eq_true_eq]
  rfl

/-! ## When the returns are defined -/

/-- What is owed to the quotes of a history: they parse, those without a positive close are left
out, the returns are computed on the rest (zero, then the logarithm of every quotient of neighbouring
closes), every such quotient has a divisor other than zero and is, as a double, a number above zero,
and so the volatility is a number. -/
structure DefinedReturns (rt : Runtime) (parseDate : Text → Option ℤ) (quotes : Option (List QuoteObject))
    (prices series : List HistoricalPrice) : Prop where
  parsed : parseHistorical parseDate quotes = .ok prices
  leftOut : prices = positivePrices parseDate quotes
  returned : getHistoricalQuote rt prices = .ok series
  records : (series.map bare).Perm (prices.map bare)
  first : ∀ p ∈ series.head?, p.dailyReturn = .finite 0
  returns : series.IsChain fun q p => p.dailyReturn = rt.mathLog (p.close / q.close)
  quotients : (series.map (·.close)).IsChain fun a b => a ≠ .finite 0 ∧ Positive (b / a)
  volatility : ∃ v, Native.getWeightedStandardDeviation rt.library (dailyReturns series) = .finite v

theorem positive_div_iff {a b : Double} (ha : Positive a) (hb : Positive b) :
    (a ≠ .finite 0 ∧ Positive (b / a)) ↔ QuotientInRange a b := by
  obtain ⟨x, rfl, hx⟩ := positive_iff.1 ha
  obtain ⟨y, rfl, hy⟩ := positive_iff.1 hb
  rw [finite_div y hx.ne', positive_ofRat_iff, and_iff_right (by simp [hx.ne'])]
  rfl

/-- The quotients of positive closes are defined exactly when they are in range. -/
theorem isChain_iff {closes : List Double} (h : ∀ c ∈ closes, Positive c) :
    (closes.IsChain fun a b => a ≠ .finite 0 ∧ Positive (b / a)) ↔ closes.IsChain QuotientInRange := by
  rw [List.isChain_iff_getElem, List.isChain_iff_getElem]
  refine forall_congr' fun i => forall_congr' fun hi => ?_
  exact positive_div_iff (h _ (List.getElem_mem _)) (h _ (List.getElem_mem _))

/-- The closes in order of date are those of the quotes in order of date. -/
theorem map_close_orderByDate (parseDate : Text → Option ℤ) (quotes : List QuoteObject) :
    (orderByDate (quotes.map (priceOf parseDate))).map (·.close) = closesByDate parseDate quotes := by
  unfold orderByDate closesByDate
  rw [← List.map_mergeSort (r := fun a b => decide (dateOf parseDate a ≤ dateOf parseDate b)) fun _ _ _ _ => rfl,
    List.map_map]
  rfl

theorem mem_closesByDate {parseDate : Text → Option ℤ} {quotes : List QuoteObject} {c : Double} :
    c ∈ closesByDate parseDate quotes ↔ ∃ quote ∈ quotes, closeOf quote = c := by
  unfold closesByDate
  simp only [List.mem_map, List.mem_mergeSort]

/-- Complete quotes with positive closes in range have defined returns. -/
theorem exists_definedReturns {rt : Runtime} (hrt : rt.Accurate) {parseDate : Text → Option ℤ} {l : List QuoteObject}
    (hne : l ≠ []) (hcomplete : ∀ quote ∈ l, Complete quote) (hpos : ∀ quote ∈ l, Positive (closeOf quote))
    (hrange : (closesByDate parseDate l).IsChain QuotientInRange) :
    ∃ prices series, DefinedReturns rt parseDate (some l) prices series := by
  have hnil : l.map (priceOf parseDate) ≠ [] := fun h => hne (List.map_eq_nil_iff.1 h)
  have hcloses : ∀ c ∈ closesByDate parseDate l, Positive c := by
    intro c hc
    obtain ⟨quote, hq, rfl⟩ := mem_closesByDate.1 hc
    exact hpos quote hq
  have hchain := (isChain_iff hcloses).2 hrange
  rw [← map_close_orderByDate] at hchain
  refine ⟨_, _, parseHistorical_eq_ok.2 ⟨hcomplete, rfl⟩, (eq_positivePrices_iff hcomplete).2 hpos,
    getHistoricalQuote_eq rt hnil, ?_, head_series _ _, isChain_series _ _, ?_, ?_⟩
  · rw [map_series fun _ _ => rfl]
    exact (orderByDate_perm _).map bare
  · rwa [map_series fun _ _ => rfl]
  · refine hrt.exists_getWeightedStandardDeviation ?_ fun r hr => ?_
    · intro h
      have hlen := congrArg List.length h
      simp [dailyReturns, filled, (orderByDate_perm _).length_eq, hne] at hlen
    · rcases mem_dailyReturns hr with rfl | ⟨i, hi, rfl⟩
      · exact ⟨0, rfl, by norm_num⟩
      · have hstep := List.isChain_iff_getElem.1 hchain i (by simpa using hi)
        rw [List.getElem_map, List.getElem_map] at hstep
        exact hrt.isReturn hstep.2

/-- For every answer of the history service: the returns are defined exactly when there is a quote, all
quotes are complete and have a positive close, and the quotient of every two closes that follow each
other by date is neither too small nor too large for a double. -/
theorem definedReturns_iff {rt : Runtime} (hrt : rt.Accurate) (parseDate : Text → Option ℤ)
    (quotes : Option (List QuoteObject)) :
    (∃ prices series, DefinedReturns rt parseDate quotes prices series) ↔
      ∃ l, quotes = some l ∧ l ≠ [] ∧ (∀ quote ∈ l, Complete quote ∧ PositiveClose quote) ∧
        (closesByDate parseDate l).IsChain QuotientInRange := by
  constructor
  · rintro ⟨prices, series, h⟩
    cases quotes with
    | none => cases h.parsed
    | some l =>
      obtain ⟨hcomplete, rfl⟩ := parseHistorical_eq_ok.1 h.parsed
      have hpos := (eq_positivePrices_iff hcomplete).1 h.leftOut
      have hne : l ≠ [] := by
        rintro rfl
        have hnil := h.returned
        rw [List.map_nil, getHistoricalQuote_nil] at hnil
        cases hnil
      have hseries := h.returned
      rw [getHistoricalQuote_eq rt fun hnil => hne (List.map_eq_nil_iff.1 hnil)] at hseries
      cases hseries
      have hchain := h.quotients
      rw [map_series fun _ _ => rfl, map_close_orderByDate, isChain_iff fun c hc => by
        obtain ⟨quote, hq, rfl⟩ := mem_closesByDate.1 hc
        exact hpos quote hq] at hchain
      exact ⟨l, rfl, hne, fun quote hq => ⟨hcomplete quote hq, (positive_closeOf_iff (hcomplete quote hq)).1
        (hpos quote hq)⟩, hchain⟩
  · rintro ⟨l, rfl, hne, hgood, hrange⟩
    exact exists_definedReturns hrt hne (fun quote hq => (hgood quote hq).1)
      (fun quote hq => (positive_closeOf_iff (hgood quote hq).1).2 (hgood quote hq).2) hrange

/-! ## A close that is no number -/

/-- A complete quote of the day `date` with this text for its close. -/
def quoteOf (date close : Text) : QuoteObject where
  entries := [("Symbol", "A"), ("Date", date), ("Open", "1"), ("High", "1"), ("Low", "1"), ("Close", close),
    ("Volume", "1"), ("Adj_Close", "1")]
  nodup := by
    show (["Symbol", "Date", "Open", "High", "Low", "Close", "Volume", "Adj_Close"] : List Text).Nodup
    decide

/-- Two days in order have their closes in order. -/
theorem closesByDate_pair {parseDate : Text → Option ℤ} {q r : QuoteObject}
    (h : dateOf parseDate q ≤ dateOf parseDate r) :
    closesByDate parseDate [q, r] = [closeOf q, closeOf r] := by
  unfold closesByDate
  rw [List.mergeSort_of_pairwise (by simpa using h)]
  rfl

/-- Two days with the closes 5 and 6. -/
theorem definedReturns_five_six : ∃ prices series,
    DefinedReturns fixedRuntime tryParseInt32 (some [quoteOf "1" "5", quoteOf "2" "6"]) prices series := by
  have hfive : Complete (quoteOf "1" "5") ∧ PositiveClose (quoteOf "1" "5") :=
    ⟨by unfold Complete; decide, "5", .finite 5, by decide, by decide +kernel, by decide +kernel⟩
  have hsix : Complete (quoteOf "2" "6") ∧ PositiveClose (quoteOf "2" "6") :=
    ⟨by unfold Complete; decide, "6", .finite 6, by decide, by decide +kernel, by decide +kernel⟩
  refine (definedReturns_iff accurate_fixedRuntime tryParseInt32 _).2 ⟨_, rfl, by simp, ?_, ?_⟩
  · rintro quote hq
    rcases List.mem_pair.1 hq with rfl | rfl
    · exact hfive
    · exact hsix
  · rw [closesByDate_pair (by decide)]
    decide +kernel

/-- The close `N/A` enters the series as zero, the divisor of the next day's return; a history without
a quote ends in an exception; and a fall from `1e200` to `1e-200` makes the quotient zero. -/
theorem definedReturns_fails :
    (parseHistorical tryParseInt32 (some [quoteOf "1" "N/A", quoteOf "2" "5"])).map (List.map (·.close)) =
      .ok [.finite 0, .finite 5] ∧
    (¬ ∃ prices series,
      DefinedReturns fixedRuntime tryParseInt32 (some [quoteOf "1" "N/A", quoteOf "2" "5"]) prices series) ∧
    (¬ ∃ prices series, DefinedReturns fixedRuntime tryParseInt32 (some []) prices series) ∧
    ¬ ∃ prices series,
      DefinedReturns fixedRuntime tryParseInt32 (some [quoteOf "1" "1e200", quoteOf "2" "1e-200"]) prices series := by
  refine ⟨by decide +kernel, ?_, ?_, ?_⟩
  · rw [definedReturns_iff accurate_fixedRuntime]
    rintro ⟨l, hl, -, hgood, -⟩
    cases hl
    exact not_positiveClose_of_no_digit (by rfl) (by simp) (hgood _ List.mem_cons_self).2
  · rw [definedReturns_iff accurate_fixedRuntime]
    rintro ⟨l, hl, hne, -⟩
    cases hl
    exact hne rfl
  · rw [definedReturns_iff accurate_fixedRuntime]
    rintro ⟨l, hl, -, -, hrange⟩
    cases hl
    rw [closesByDate_pair (by decide)] at hrange
    revert hrange
    decide +kernel

end StockPredictor.Yahoo
