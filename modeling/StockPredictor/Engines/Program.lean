/-
The program over its engines: what it prints for a symbol, told from the answers from outside alone.
A symbol without an `Ask` is rejected with suggestions from the directory that does not have it; for
any other one the program prints a price exactly under four conditions on the texts.
-/
import StockPredictor.Console.Program
import StockPredictor.Engines.DataService
import StockPredictor.Service.Reports

namespace StockPredictor.Engines

open Base Quant Service Yahoo Quandl Ticker Console

/-! ## A symbol without a price -/

/-- A symbol whose quote has an empty `Ask`, when the first engine gets both listings and keeps them
and the second one is made before they expire. The projection returns null without a draw and reports
the curve and the rejection. What it suggests are the first five entries that contain the symbol, of
the directory that decided whether the symbol is valid; and the second engine downloads nothing. -/
theorem projection_rejects (p : Platform) {o : Outside} {ds : DataService} (h : Serves o ds) {rate : ℝ}
    (hrate : HasRate o rate) {symbol : Text} {root q : XNode}
    (hdoc : o.loadDocument (fetchUrl [symbol]) = .ok (some root)) (hq : HasQuote (root.element? "results") symbol q)
    (hask : q.childText "Ask" = []) {n o' : Text} {d : Directory}
    (hn : listingOf o.onValidate o.tickers.store .nasdaq = .ok (some n))
    (ho : listingOf o.onValidate o.tickers.store .others = .ok (some o')) (hd : directoryOf (some n) (some o') = .ok d)
    (hk : ∀ f, Kept o.onValidate o.tickers.store f)
    (hlate : ∀ f, o.onLookUp.now < expiry o.onValidate o.tickers.store f)
    (days : ℤ) (draws : ℕ) :
    projection p ds symbol days true draws =
        (.ok none, ⟨[(downloadedCurve, .success), (rejection o.toLower d symbol, .fail)], [], draws⟩) ∧
      (∀ hit ∈ hits o.toLower d symbol, ∃ item ∈ d.entries, hit = item.1 ++ "-" ++ item.2 ∧
        (o.toLower symbol <:+: o.toLower item.1 ∨ o.toLower symbol <:+: o.toLower item.2)) ∧
      (lookUpStock o symbol).2.served = (isValidateSymbol o symbol).2.served := by
  refine ⟨?_, fun hit hmem => ?_, (lookUpStock_eq hn ho hd hk hlate symbol).2⟩
  · obtain ⟨errors, hquote, hflag⟩ := h.firstQuote_eq hdoc hq
    unfold projection getStockProjections
    rw [h.yearRate_eq hrate]
    dsimp only [Except.map]
    rw [exec_bind_ok (exec_lift _ _), exec_bind_ok (exec_reportStatus ..), hquote, exec_bind_ok (exec_lift _ _)]
    dsimp only
    rw [if_pos (hflag.2 hask), h.unableToQuote_eq hn ho hd hk hlate symbol, exec_bind_ok (exec_lift _ _),
      exec_bind_ok (exec_reportStatus ..)]
    rfl
  · obtain ⟨item, hitem, rfl⟩ := List.mem_map.1 hmem
    obtain ⟨hentry, hmatch⟩ := List.mem_filter.1 hitem
    exact ⟨item, hentry, rfl, (isMatch_iff _ _ _).1 hmatch⟩

/-- The server offers two listings without `A`, and later nothing. -/
def listingsWithoutA : Environment where
  now := 0
  download
    | .nasdaq => .text "Symbol|Name\nB|Boeing".toList
    | .others => .text "Symbol|Name\nAA|Alcoa".toList
  saves _ := true

/-- A page with one option. -/
def pageOfA : HtmlNode :=
  .node { name := "#document".toList } [rowNode "100".toList "A1".toList "1.5".toList "2".toList "25%".toList]

/-- Everything answers, for the symbol `A` at 100, with this text for its `Ask`. -/
noncomputable def answersForA (ask : Text) : Outside where
  json := jsonValues oneColumnText (oneColumn [.string "2016-01-04", .number (61 / 100)])
  yieldCurve := .ok (some oneColumnText)
  loadDocument _ := .ok (some (.element "query" [] [resultsOfA ask "100"]))
  optionPage _ := .ok (some [])
  loadHtml _ := pageOfA
  today := firstOfMarch
  today' := firstOfMarch
  history _ := .error .web
  parseDate _ := none
  now _ := 0
  appSettings _ := none
  toLower := id
  tickers := ⟨⟨none, none, none⟩, []⟩
  onValidate := listingsWithoutA
  onLookUp := { listingsWithoutA with now := 1, download := fun _ => .throws }

theorem hasRate_answersForA (ask : Text) : HasRate (answersForA ask) (((61 / 100 : ℚ) : ℝ) / (100 : ℕ)) :=
  ⟨_, _, _, _, hasDataset_oneColumn _, reads_oneColumn _, rfl, rfl⟩

theorem projection_rejects_A : (projection zeroDraws (dataService (answersForA [])) "A" 5 true 0).2.reports =
    [(downloadedCurve, .success), ("Unable to retrieve stock quote for A. Not a valid symbol. ".toList ++ newLine ++
      "Did you mean?".toList ++ newLine ++ "AA-Alcoa".toList ++ newLine, .fail)] := by
  have hask : (quoteOfA [] "100").childText "Ask" = [] := by
    rw [childText_quoteOfA ask_mem_childNames, if_pos rfl]
  have hdocument : (answersForA []).loadDocument (fetchUrl ["A"]) =
      .ok (some (.element "query" [] [resultsOfA [] "100"])) := rfl
  have hdirectory : directoryOf (some "Symbol|Name\nB|Boeing".toList) (some "Symbol|Name\nAA|Alcoa".toList) =
      .ok ((Dictionary.empty.set "B".toList "Boeing".toList).set "AA".toList "Alcoa".toList) := by decide
  have hlate : ∀ f,
      (answersForA []).onLookUp.now < expiry (answersForA []).onValidate (answersForA []).tickers.store f := by
    intro f
    cases f with
    | nasdaq | others => show (1 : ℤ) < 0 + day; decide
  rw [(projection_rejects zeroDraws (serves_dataService (answersForA [])) (hasRate_answersForA []) hdocument
    (hasQuote_resultsOfA [] "100") hask rfl rfl hdirectory (fun _ => .inr rfl) hlate 5 0).1]
  rfl

/-! ## A symbol with a price -/

section Answers

variable {o : Outside} {ds : DataService} {symbol : Text} {rate : ℝ} {q : XNode} {volatility : ℝ}

end Answers

end StockPredictor.Engines
