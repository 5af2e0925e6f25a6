/-
The url of `YahooEngine.FetchHistorical`: a query for one symbol and the dates from a year ago to
yesterday, percent-encoded by hand around them. The service reads the symbol and the two dates back
exactly if the symbol is plain.
-/
import StockPredictor.Base.Calendar
import StockPredictor.Base.Template
import StockPredictor.Service.Exn
import StockPredictor.Yahoo.Request

namespace StockPredictor.Yahoo

open Base

/-! ## Dates as texts -/

/-- `DateTime.ToString("yyyy-MM-dd")`. -/
def formatDate (d : Date) : Text :=
  [Nat.digitChar (d.year / 1000), Nat.digitChar (d.year / 100 % 10), Nat.digitChar (d.year / 10 % 10),
    Nat.digitChar (d.year % 10), '-', Nat.digitChar (d.month / 10), Nat.digitChar (d.month % 10), '-',
    Nat.digitChar (d.day / 10), Nat.digitChar (d.day % 10)]

theorem digitChar_injective {m n : ℕ} (hm : m < 10) (hn : n < 10) (h : Nat.digitChar m = Nat.digitChar n) : m = n := by
  have hcode := congrArg Char.toNat h
  rw [Nat.toNat_digitChar_of_lt_ten hm, Nat.toNat_digitChar_of_lt_ten hn] at hcode
  omega

/-- A date is known from its text. -/
theorem formatDate_injective {d e : Date} (h : formatDate d = formatDate e) : d = e := by
  have hdy := d.year_mem
  have hdm := d.month_mem
  have hdd := d.day_mem.2.trans (daysInMonth_le d.year d.month)
  have hey := e.year_mem
  have hem := e.month_mem
  have hed := e.day_mem.2.trans (daysInMonth_le e.year e.month)
  unfold formatDate at h
  simp only [List.cons.injEq, true_and, and_true] at h
  obtain ⟨y1, y2, y3, y4, m1, m2, d1, d2⟩ := h
  have hy1 := digitChar_injective (by omega) (by omega) y1
  have hy2 := digitChar_injective (by omega) (by omega) y2
  have hy3 := digitChar_injective (by omega) (by omega) y3
  have hy4 := digitChar_injective (by omega) (by omega) y4
  have hm1 := digitChar_injective (by omega) (by omega) m1
  have hm2 := digitChar_injective (by omega) (by omega) m2
  have hd1 := digitChar_injective (by omega) (by omega) d1
  have hd2 := digitChar_injective (by omega) (by omega) d2
  ext
  · omega
  · omega
  · omega

/-- The characters of a date. -/
theorem mem_formatDate {d : Date} {c : Char} (h : c ∈ formatDate d) : c = '-' ∨ c.isDigit = true := by
  have hyear := d.year_mem
  have hmonth := d.month_mem
  have hday := d.day_mem.2.trans (daysInMonth_le d.year d.month)
  have hdigit : ∀ {n : ℕ}, n < 10 → (Nat.digitChar n).isDigit = true := fun hn => by
    rw [Nat.isDigit_digitChar, decide_eq_true hn]
  unfold formatDate at h
  simp only [List.mem_cons, List.not_mem_nil, or_false] at h
  rcases h with rfl | rfl | rfl | rfl | rfl | rfl | rfl | rfl | rfl | rfl
  · exact .inr (hdigit (by omega))
  · exact .inr (hdigit (by omega))
  · exact .inr (hdigit (by omega))
  · exact .inr (hdigit (by omega))
  · exact .inl rfl
  · exact .inr (hdigit (by omega))
  · exact .inr (hdigit (by omega))
  · exact .inl rfl
  · exact .inr (hdigit (by omega))
  · exact .inr (hdigit (by omega))

theorem notMem_formatDate {c : Char} (hdash : c ≠ '-') (hdigit : c.isDigit = false) (d : Date) :
    c ∉ formatDate d := by
  intro h
  rcases mem_formatDate h with hc | hc
  · exact hdash hc
  · rw [hdigit] at hc
    cases hc

/-- An escape character that is in no date. -/
def NotInDates (escape : Option Char) : Prop := ∀ c ∈ escape, c ≠ '-' ∧ c.isDigit = false

theorem plain_formatDate {escape : Option Char} (h : NotInDates escape) (d : Date) : Plain escape (formatDate d) :=
  ⟨notMem_formatDate (by decide) (by decide) d, fun c hc => notMem_formatDate (h c hc).1 (h c hc).2 d⟩

/-! ## The url -/

/-- `String.Format(HistoricalUrl, symbol, startDate, endDate)`. -/
def historicalUrl (symbol startDate endDate : Text) : Text :=
  "https://query.yahooapis.com/v1/public/yql?q=select%20*%20".toList ++
    "from%20yahoo.finance.historicaldata%20where%20symbol%20%3D%20%22".toList ++ symbol ++
    "%22%20and%20startDate%20%3D%20%22".toList ++ startDate ++ "%22%20and%20endDate%20%3D%20%22".toList ++ endDate ++
    "%".toList ++ "22&format=json&env=store%3A%2F%2Fdatatables.org%2Falltableswithkeys&callback=".toList

/-- A result of `AddYears` or `AddDays`, which throw when there is no such date. -/
def inRange : Option Date → Except Exn Date
  | some d => .ok d
  | none => .error .argumentOutOfRange

/-- The url that `YahooEngine.FetchHistorical` requests, from the dates of its two `DateTime.Now`. -/
def fetchHistoricalUrl (now now' : Date) (symbol : Text) : Except Exn Text := do
  let startDate ← inRange now.yearBefore
  let endDate ← inRange now'.dayBefore
  pure (historicalUrl symbol (formatDate startDate) (formatDate endDate))

/-! ## What the service reads -/

def selectHistory : Text := "select * from yahoo.finance.historicaldata where symbol = ".toList

def fromDate : Text := " and startDate = ".toList

def toDate : Text := " and endDate = ".toList

/-- The query for the prices of a symbol. -/
def historyQuery (symbol startDate endDate : Text) : Text :=
  renderFields [(selectHistory, symbol), (fromDate, startDate), (toDate, endDate)]

/-- The request is the query for the symbol and the two dates, and the query names them; format and
tables are as they should be. The literals may have an escape character. -/
structure NamesHistory (escape : Option Char) (symbol : Text) (startDate endDate : Date) (url : Text) : Prop where
  request : (parameter "q".toList url).map percentDecode =
    some (utf8 (historyQuery symbol (formatDate startDate) (formatDate endDate)))
  literals : readFields escape [selectHistory, fromDate, toDate]
    (historyQuery symbol (formatDate startDate) (formatDate endDate)) =
      some [symbol, formatDate startDate, formatDate endDate]
  format : parameter "format".toList url = some "json".toList
  env : parameter "env".toList url = some tables

/-! ## Decoding -/

def encodedSelectHistory : Text :=
  "select%20*%20from%20yahoo.finance.historicaldata%20where%20symbol%20%3D%20".toList

def encodedFromDate : Text := "%20and%20startDate%20%3D%20".toList

def encodedToDate : Text := "%20and%20endDate%20%3D%20".toList

/-- The value of `q` in the url, as long as no symbol ends it. -/
def encodedHistory (symbol startDate endDate : Text) : Text :=
  encodeFields [(encodedSelectHistory, symbol), (encodedFromDate, startDate), (encodedToDate, endDate)]

/-- What follows it. -/
def otherParameters : Text :=
  "format".toList ++ '=' :: ("json".toList ++ '&' :: ("env".toList ++ '=' :: (tables ++ '&' :: "callback=".toList)))

theorem historicalUrl_eq (symbol startDate endDate : Text) :
    historicalUrl symbol startDate endDate = "https://query.yahooapis.com/v1/public/yql".toList ++
      '?' :: ("q".toList ++ '=' :: (encodedHistory symbol startDate endDate ++ '&' :: otherParameters)) := by
  have hselect : "https://query.yahooapis.com/v1/public/yql?q=select%20*%20".toList ++
      "from%20yahoo.finance.historicaldata%20where%20symbol%20%3D%20%22".toList =
      "https://query.yahooapis.com/v1/public/yql".toList ++
        '?' :: ("q".toList ++ '=' :: (encodedSelectHistory ++ ['%', '2', '2'])) := by decide +kernel
  have hfrom : "%22%20and%20startDate%20%3D%20%22".toList =
      '%' :: '2' :: '2' :: (encodedFromDate ++ ['%', '2', '2']) := by decide +kernel
  have hto : "%22%20and%20endDate%20%3D%20%22".toList = '%' :: '2' :: '2' :: (encodedToDate ++ ['%', '2', '2']) := by
    decide +kernel
  have hother : "%".toList ++ "22&format=json&env=store%3A%2F%2Fdatatables.org%2Falltableswithkeys&callback=".toList =
      '%' :: '2' :: '2' :: '&' :: otherParameters := by decide +kernel
  unfold historicalUrl encodedHistory
  rw [hselect, hfrom, hto, List.append_assoc _ "%".toList, hother]
  simp only [encodeFields, List.append_assoc, List.cons_append, List.nil_append]

/-! ## The query -/

theorem percentDecode_names : percentDecode encodedSelectHistory = utf8 selectHistory ∧
    percentDecode encodedFromDate = utf8 fromDate ∧ percentDecode encodedToDate = utf8 toDate := by decide +kernel

theorem hasEscape_formatDate (d : Date) : hasEscape (formatDate d) = false := by
  apply hasEscape_of_notMem
  exact notMem_formatDate (by decide) (by decide) d

theorem length_utf8_formatDate (d : Date) : (utf8 (formatDate d)).length = 10 := by
  refine (length_utf8_of_ascii fun c hc => ?_).trans rfl
  rcases mem_formatDate hc with rfl | hdigit
  · decide
  · rw [Char.isDigit, Bool.and_eq_true, decide_eq_true_iff, decide_eq_true_iff] at hdigit
    exact UInt32.le_trans hdigit.2 (by decide)

/-- The window of the query. -/
def windowFields (startDate endDate : Date) : List (Text × Text) :=
  [(fromDate, formatDate startDate), (toDate, formatDate endDate)]

theorem percentDecode_encodedHistory (symbol : Text) (startDate endDate : Date) :
    percentDecode (encodedHistory symbol (formatDate startDate) (formatDate endDate)) =
      utf8 selectHistory ++ 34 :: (percentDecode symbol ++ [34]) ++
        utf8 (renderFields (windowFields startDate endDate)) := by
  obtain ⟨hselect, hfrom, hto⟩ := percentDecode_names
  have hdate : ∀ d, percentDecode (formatDate d) = utf8 (formatDate d) :=
    fun d => percentDecode_eq_utf8 (hasEscape_formatDate d)
  rw [encodedHistory, percentDecode_encodeFields, utf8_renderFields]
  simp only [fieldBytes, windowFields, List.flatMap_cons, List.flatMap_nil, hselect, hfrom, hto, hdate]

theorem utf8_historyQuery (symbol : Text) (startDate endDate : Date) :
    utf8 (historyQuery symbol (formatDate startDate) (formatDate endDate)) =
      utf8 selectHistory ++ 34 :: (utf8 symbol ++ [34]) ++ utf8 (renderFields (windowFields startDate endDate)) := by
  rw [historyQuery, utf8_renderFields, utf8_renderFields]
  rfl

theorem length_windowFields (startDate endDate : Date) :
    (utf8 (renderFields (windowFields startDate endDate))).length = 56 := by
  have hnames : (utf8 fromDate).length = 17 ∧ (utf8 toDate).length = 15 := by decide +kernel
  rw [utf8_renderFields]
  simp [fieldBytes, windowFields, length_utf8_formatDate, hnames.1, hnames.2]

/-- The dates of a window are known from its text. -/
theorem windowFields_injective {s e s' e' : Date}
    (h : renderFields (windowFields s e) = renderFields (windowFields s' e')) : s = s' ∧ e = e' := by
  have hdate : ∀ d, Plain none (formatDate d) := plain_formatDate fun c hc => by cases hc
  have hplain : ∀ s e : Date, ∀ f ∈ windowFields s e, Plain none f.2 := by
    intro s e f hf
    rcases List.mem_pair.1 hf with rfl | rfl
    · exact hdate s
    · exact hdate e
  have hread := (readFields_renderFields_iff (windowFields s e)).2 (hplain s e)
  have hread' := (readFields_renderFields_iff (windowFields s' e')).2 (hplain s' e')
  rw [h] at hread
  have hvalues := Option.some.inj (hread.symm.trans hread')
  simp only [windowFields, List.map_cons, List.map_nil, List.cons.injEq, and_true] at hvalues
  exact ⟨formatDate_injective hvalues.1, formatDate_injective hvalues.2⟩

/-- The query decodes to one for the symbol and some dates exactly if the symbol has no escape and the
dates are its own. -/
theorem percentDecode_encodedHistory_eq_iff (symbol : Text) (s e s' e' : Date) :
    percentDecode (encodedHistory symbol (formatDate s) (formatDate e)) =
      utf8 (historyQuery symbol (formatDate s') (formatDate e')) ↔ hasEscape symbol = false ∧ s = s' ∧ e = e' := by
  rw [percentDecode_encodedHistory, utf8_historyQuery]
  constructor
  · intro h
    obtain ⟨hleft, hright⟩ := List.append_inj' h (by rw [length_windowFields, length_windowFields])
    rw [List.append_cancel_left_eq, List.cons.injEq, List.append_cancel_right_eq] at hleft
    exact ⟨(length_percentDecode_eq_iff symbol).1 (congrArg List.length hleft.2),
      windowFields_injective (utf8_injective hright)⟩
  · rintro ⟨hescape, rfl, rfl⟩
    rw [percentDecode_eq_utf8 hescape]

theorem length_encodedHistory_le (symbol : Text) (s e s' e' : Date) :
    (percentDecode (encodedHistory symbol (formatDate s) (formatDate e))).length ≤
      (utf8 (historyQuery symbol (formatDate s') (formatDate e'))).length := by
  have hle := length_percentDecode_le symbol
  rw [percentDecode_encodedHistory, utf8_historyQuery]
  simp only [List.length_append, List.length_cons, length_windowFields]
  omega

/-! ## The parameters -/

/-- The separators in the query are those in the symbol. -/
theorem encodedHistory_separators (symbol : Text) (s e : Date) :
    (∀ c ∈ encodedHistory symbol (formatDate s) (formatDate e), NoSeparator c) ↔ ∀ c ∈ symbol, NoSeparator c := by
  have hnames : (encodedSelectHistory ++ encodedFromDate ++ encodedToDate).all (fun c => NoSeparator c) = true := by
    decide +kernel
  have hdate : ∀ d, ∀ c ∈ formatDate d, NoSeparator c := by
    intro d c hc
    refine ⟨?_, ?_⟩
    · rintro rfl
      exact notMem_formatDate (by decide) (by decide) d hc
    · rintro rfl
      exact notMem_formatDate (by decide) (by decide) d hc
  rw [List.all_append, List.all_append, Bool.and_eq_true, Bool.and_eq_true] at hnames
  simp only [List.all_eq_true, decide_eq_true_eq] at hnames
  obtain ⟨⟨hselect, hfrom⟩, hto⟩ := hnames
  rw [encodedHistory, forall_mem_encodeFields (by decide)]
  · rw [List.forall_mem_cons, List.forall_mem_cons, List.forall_mem_singleton]
    exact and_iff_left ⟨hdate s, hdate e⟩
  · rw [List.forall_mem_cons, List.forall_mem_cons, List.forall_mem_singleton]
    exact ⟨hselect, hfrom, hto⟩

/-- What the service gets for `q` ends at the first separator. -/
theorem parameter_history (symbol startDate endDate : Text) :
    parameter "q".toList (historicalUrl symbol startDate endDate) =
      some ((encodedHistory symbol startDate endDate ++ '&' :: otherParameters).takeWhile fun c => NoSeparator c) := by
  rw [historicalUrl_eq]
  exact parameter_first (by simp) (by simp [NoSeparator]) _

/-- The request is the query for the symbol and some dates exactly if the symbol has no separator and no
escape, and the dates are those of the url. -/
theorem request_history_iff (symbol : Text) (s e s' e' : Date) :
    (parameter "q".toList (historicalUrl symbol (formatDate s) (formatDate e))).map percentDecode =
        some (utf8 (historyQuery symbol (formatDate s') (formatDate e'))) ↔
      (∀ c ∈ symbol, NoSeparator c) ∧ hasEscape symbol = false ∧ s = s' ∧ e = e' := by
  rw [parameter_history, Option.map_some, Option.some.injEq]
  by_cases hsep : ∀ c ∈ symbol, NoSeparator c
  · have hquery := (encodedHistory_separators symbol s e).2 hsep
    rw [List.takeWhile_append_of_pos fun c hc => decide_eq_true (hquery c hc), List.takeWhile_cons_of_neg (by decide),
      List.append_nil, percentDecode_encodedHistory_eq_iff]
    exact (and_iff_right hsep).symm
  · refine iff_of_false (fun h => ?_) fun h => hsep h.1
    have hshort := length_percentDecode_takeWhile_lt (fun hall => hsep ((encodedHistory_separators symbol s e).1 hall))
      ('&' :: otherParameters)
    have hle := length_encodedHistory_le symbol s e s' e'
    rw [h] at hshort
    omega

/-- The other parameters are found behind the query. -/
theorem parameter_other {name symbol : Text} (hname : ∀ t, valueOf? name ("q".toList ++ '=' :: t) = none)
    (h : ∀ c ∈ symbol, NoSeparator c) (s e : Date) :
    parameter name (historicalUrl symbol (formatDate s) (formatDate e)) =
      parameter name ("https://query.yahooapis.com/v1/public/yql".toList ++ '?' :: otherParameters) := by
  have hpart : ∀ c ∈ "q".toList ++ '=' :: encodedHistory symbol (formatDate s) (formatDate e), NoSeparator c := by
    rw [List.forall_mem_append, List.forall_mem_cons]
    exact ⟨by simp [NoSeparator], by simp [NoSeparator], (encodedHistory_separators symbol s e).2 h⟩
  have hsplit : historicalUrl symbol (formatDate s) (formatDate e) =
      "https://query.yahooapis.com/v1/public/yql".toList ++ '?' ::
        (("q".toList ++ '=' :: encodedHistory symbol (formatDate s) (formatDate e)) ++ '&' :: otherParameters) := by
    rw [historicalUrl_eq, List.append_assoc, List.cons_append]
  rw [hsplit, parameter_skip (by simp) hpart (hname _)]

/-! ## The request -/

theorem literals_history_iff {escape : Option Char} (h : NotInDates escape) (symbol : Text) (s e : Date) :
    readFields escape [selectHistory, fromDate, toDate] (historyQuery symbol (formatDate s) (formatDate e)) =
      some [symbol, formatDate s, formatDate e] ↔ Plain escape symbol := by
  refine (readFields_renderFields_iff
    [(selectHistory, symbol), (fromDate, formatDate s), (toDate, formatDate e)]).trans ?_
  rw [List.forall_mem_cons, List.forall_mem_cons, List.forall_mem_singleton]
  exact and_iff_left ⟨plain_formatDate h s, plain_formatDate h e⟩

theorem inRange_eq_ok_iff {found : Option Date} {d : Date} : inRange found = .ok d ↔ found = some d := by
  cases found with
  | none => exact iff_of_false (fun h => by cases h) fun h => by cases h
  | some d' => simp [inRange]

theorem fetchHistoricalUrl_eq_ok {now now' : Date} {symbol url : Text} :
    fetchHistoricalUrl now now' symbol = .ok url ↔ ∃ s e, now.yearBefore = some s ∧ now'.dayBefore = some e ∧
      url = historicalUrl symbol (formatDate s) (formatDate e) := by
  unfold fetchHistoricalUrl
  constructor
  · intro h
    rcases hs : inRange now.yearBefore with e | s
    · rw [hs] at h; cases h
    · rcases he : inRange now'.dayBefore with e | e
      · rw [hs, he] at h; cases h
      · rw [hs, he] at h
        cases h
        exact ⟨s, e, inRange_eq_ok_iff.1 hs, inRange_eq_ok_iff.1 he, rfl⟩
  · rintro ⟨s, e, hs, he, rfl⟩
    rw [hs, he]
    rfl

theorem namesHistory_iff {escape : Option Char} (hescape : NotInDates escape) {now now' : Date} {symbol url : Text}
    (h : fetchHistoricalUrl now now' symbol = .ok url) (startDate endDate : Date) :
    NamesHistory escape symbol startDate endDate url ↔
      PlainSymbol escape symbol ∧ now.yearBefore = some startDate ∧ now'.dayBefore = some endDate := by
  obtain ⟨s, e, hs, he, rfl⟩ := fetchHistoricalUrl_eq_ok.1 h
  rw [hs, he, Option.some.injEq, Option.some.injEq]
  constructor
  · intro hnames
    obtain ⟨hsep, hnone, hstart, hend⟩ := (request_history_iff symbol s e startDate endDate).1 hnames.request
    exact ⟨⟨hsep, hnone, (literals_history_iff hescape symbol startDate endDate).1 hnames.literals⟩, hstart, hend⟩
  · rintro ⟨⟨hsep, hnone, hplain⟩, rfl, rfl⟩
    refine ⟨(request_history_iff symbol s e s e).2 ⟨hsep, hnone, rfl, rfl⟩,
      (literals_history_iff hescape symbol s e).2 hplain, ?_, ?_⟩
    · rw [parameter_other (fun t => by simp [valueOf?]) hsep]
      decide +kernel
    · rw [parameter_other (fun t => by simp [valueOf?]) hsep]
      decide +kernel

/-- The days that a service reads from a window. -/
theorem dayNumber_window {now now' startDate endDate : Date} (hstart : now.yearBefore = some startDate)
    (hend : now'.dayBefore = some endDate) (hle : now.dayNumber ≤ now'.dayNumber) :
    (Date.LeapDayBetween startDate now →
        endDate.dayNumber + 1 = startDate.dayNumber + 366 + (now'.dayNumber - now.dayNumber)) ∧
      (¬ Date.LeapDayBetween startDate now →
        endDate.dayNumber + 1 = startDate.dayNumber + 365 + (now'.dayNumber - now.dayNumber)) := by
  obtain ⟨hleap, hnone⟩ := Date.dayNumber_of_yearBefore hstart
  have hbefore := Date.dayNumber_dayBefore hend
  constructor
  · intro hday
    have hyear := hleap hday
    omega
  · intro hday
    have hyear := hnone hday
    omega

/-- The request for a history names exactly the symbol and two dates if and only if the symbol is plain
and the dates are that of a year ago and yesterday's. When the first clock is read no later than the
second, these are 365 days, or 366 with a leap day in the year before the first clock, and one more for
each midnight between the clocks. -/
theorem historical_request_iff {escape : Option Char} (hescape : NotInDates escape) {now now' : Date}
    {symbol url : Text} (h : fetchHistoricalUrl now now' symbol = .ok url) (startDate endDate : Date) :
    (NamesHistory escape symbol startDate endDate url ↔
      PlainSymbol escape symbol ∧ now.yearBefore = some startDate ∧ now'.dayBefore = some endDate) ∧
    (NamesHistory escape symbol startDate endDate url → now.dayNumber ≤ now'.dayNumber →
      (Date.LeapDayBetween startDate now →
        endDate.dayNumber + 1 = startDate.dayNumber + 366 + (now'.dayNumber - now.dayNumber)) ∧
      (¬ Date.LeapDayBetween startDate now →
        endDate.dayNumber + 1 = startDate.dayNumber + 365 + (now'.dayNumber - now.dayNumber))) := by
  refine ⟨namesHistory_iff hescape h startDate endDate, fun hnames hle => ?_⟩
  obtain ⟨-, hstart, hend⟩ := (namesHistory_iff hescape h startDate endDate).1 hnames
  exact dayNumber_window hstart hend hle

/-- The day after a leap day. -/
def firstOfMarch : Date := ⟨2016, 3, 1, by decide, by decide, by decide⟩

theorem historical_request_iff_march : ∃ url startDate endDate,
    fetchHistoricalUrl firstOfMarch firstOfMarch "MSFT".toList = .ok url ∧
      NamesHistory (some '\\') "MSFT".toList startDate endDate url ∧
        endDate.dayNumber + 1 = startDate.dayNumber + 366 := by
  have hescape : NotInDates (some '\\') := by
    rintro c hc
    cases hc
    decide
  have hplain : PlainSymbol (some '\\') "MSFT".toList := ⟨by simp [NoSeparator], by decide, by simp [Plain]⟩
  obtain ⟨startDate, hstart⟩ : ∃ s, firstOfMarch.yearBefore = some s := ⟨_, rfl⟩
  obtain ⟨endDate, hend⟩ : ∃ e, firstOfMarch.dayBefore = some e := ⟨_, rfl⟩
  have hleap : Date.LeapDayBetween startDate firstOfMarch := (Date.leapDayBetween_iff hstart).2 (by decide)
  have hurl : fetchHistoricalUrl firstOfMarch firstOfMarch "MSFT".toList = .ok _ :=
    fetchHistoricalUrl_eq_ok.2 ⟨startDate, endDate, hstart, hend, rfl⟩
  obtain ⟨hiff, hwindow⟩ := historical_request_iff hescape hurl startDate endDate
  have hnames := hiff.2 ⟨hplain, hstart, hend⟩
  have hdays := (hwindow hnames le_rfl).1 hleap
  rw [Nat.sub_self, Nat.add_zero] at hdays
  exact ⟨_, startDate, endDate, hurl, hnames, hdays⟩

end StockPredictor.Yahoo
