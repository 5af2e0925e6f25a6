/-
A projection without a quote. The document with the quotes may have none for the symbol, or one
without a child that `Parse` reads; the projection then ends in an exception right after the yield
curve, and which one it is tells the two cases apart.
-/
import StockPredictor.Engines.Program

namespace StockPredictor.Engines

open Base Service Yahoo Quandl

/-! ## The exceptions of the parser -/

/-- All quotes are named, and none by the symbol. -/
def OtherSymbols (symbol : Text) (quotes : List XNode) : Prop :=
  ∀ w ∈ quotes, ∃ s, w.attribute? "symbol" = some s ∧ s ≠ symbol

theorem not_otherSymbols_of_isFirst {symbol : Text} {quotes : List XNode} {q : XNode} (h : IsFirst symbol quotes q) :
    ¬ OtherSymbols symbol quotes := by
  obtain ⟨before, after, rfl, hq, -⟩ := h
  intro hother
  obtain ⟨s, hs, hne⟩ := hother q (by simp)
  rw [hq] at hs
  exact hne (Option.some.inj hs).symm

/-- `First` finds nothing, or fails at an element without the attribute. -/
theorem firstQuote_eq_error {symbol : Text} {quotes : List XNode} {e : Exn}
    (h : Yahoo.firstQuote symbol quotes = .error e) :
    e = .invalidOperation ∧ OtherSymbols symbol quotes ∨ e = .nullReference ∧ ¬ OtherSymbols symbol quotes := by
  induction quotes with
  | nil =>
    cases h
    exact .inl ⟨rfl, fun w hw => by cases hw⟩
  | cons w quotes ih =>
    rw [Yahoo.firstQuote] at h
    split at h
    · rename_i hnone
      cases h
      refine .inr ⟨rfl, fun hother => ?_⟩
      obtain ⟨s, hs, -⟩ := hother w List.mem_cons_self
      rw [hnone] at hs
      cases hs
    · rename_i s hs
      split at h
      · cases h
      · rename_i hne
        have hcons : OtherSymbols symbol (w :: quotes) ↔ OtherSymbols symbol quotes := by
          unfold OtherSymbols
          rw [List.forall_mem_cons]
          exact and_iff_right ⟨s, hs, hne⟩
        rw [hcons]
        exact ih h

/-- The assignments fail only at a child that is missing. -/
theorem fill_eq_error {q : XNode} {as : List Assignment} {s : Yahoo.Stock} {e : Exn}
    (h : as.foldlM (assign q) s = .error e) : e = .nullReference := by
  obtain ⟨a, -, s', hstep⟩ := foldlM_eq_error h
  unfold assign at hstep
  split at hstep
  · cases hstep
  · cases hstep
    rfl

theorem deref_eq_error {α : Type} {found : Option α} {e : Exn} (h : deref found = .error e) :
    found = none ∧ e = .nullReference := by
  cases found with
  | none =>
    cases h
    exact ⟨rfl, rfl⟩
  | some a => cases h

/-- A round fails with one of two exceptions; one of them says that the document names other symbols
only. -/
theorem parseSymbol_eq_error {parseDate : Text → Option ℤ} {now : ℕ → ℤ} {results : Option XNode} {symbol : Text}
    {r : Parsed} {e : Exn} (h : parseSymbol parseDate now results r symbol = .error e) :
    (e = .invalidOperation ∨ e = .nullReference) ∧
      (e = .invalidOperation ↔ ∃ root, results = some root ∧ OtherSymbols symbol (root.elements "quote")) := by
  unfold parseSymbol at h
  rcases bind_eq_error.1 h with hresults | ⟨root, hresults, hround⟩
  · obtain ⟨hnone, rfl⟩ := deref_eq_error hresults
    refine ⟨.inr rfl, iff_of_false (by decide) ?_⟩
    rintro ⟨root, hroot, -⟩
    rw [hnone] at hroot
    cases hroot
  · rw [deref_eq_ok] at hresults
    subst hresults
    have hothers : (∃ root', some root = some root' ∧ OtherSymbols symbol (root'.elements "quote")) ↔
        OtherSymbols symbol (root.elements "quote") := by
      constructor
      · rintro ⟨root', hroot, hother⟩
        cases hroot
        exact hother
      · exact fun hother => ⟨root, rfl, hother⟩
    rw [hothers]
    rcases bind_eq_error.1 hround with hfirst | ⟨q, hfirst, hquote⟩
    · rcases firstQuote_eq_error hfirst with ⟨rfl, hother⟩ | ⟨rfl, hother⟩
      · exact ⟨.inl rfl, iff_of_true rfl hother⟩
      · exact ⟨.inr rfl, iff_of_false (by decide) hother⟩
    · -- the quote is there, so only a child can be missing
      have hother := not_otherSymbols_of_isFirst (firstQuote_eq_ok.1 hfirst)
      suffices hnull : e = .nullReference by
        subst hnull
        exact ⟨.inr rfl, iff_of_false (by decide) hother⟩
      rcases bind_eq_error.1 hquote with hask | ⟨ask, -, hstock⟩
      · exact (deref_eq_error hask).2
      · rcases bind_eq_error.1 hstock with hfill | ⟨quote, -, hpure⟩
        · exact fill_eq_error hfill
        · cases hpure

/-! ## The projection -/

/-- A document without a complete quote of the symbol. The projection ends in an exception right after
the yield curve, without a draw: an `InvalidOperationException` exactly when the document has quotes of
other symbols only, all of them named, and else a `NullReferenceException`. -/
theorem projection_without_quote (p : Platform) {o : Outside} {ds : DataService} (h : Serves o ds) {rate : ℝ}
    (hrate : HasRate o rate) {symbol : Text} {root : XNode}
    (hdoc : o.loadDocument (fetchUrl [symbol]) = .ok (some root))
    (hnone : ∀ q, ¬ HasQuote (root.element? "results") symbol q) (days : ℤ) (draws : ℕ) :
    ∃ e, projection p ds symbol days true draws = (.error e, ⟨[(downloadedCurve, .success)], [], draws⟩) ∧
      (e = .invalidOperation ∨ e = .nullReference) ∧
      (e = .invalidOperation ↔ ∃ results, root.element? "results" = some results ∧
        OtherSymbols symbol (results.elements "quote")) := by
  rcases hparse : parseSymbol o.parseDate o.now (root.element? "results") {} symbol with e | r
  · refine ⟨e, ?_, parseSymbol_eq_error hparse⟩
    have hquote : ds.getStockQuote [symbol] = .error e := by
      rw [h.stockQuote, getStockQuote, fetch, hdoc]
      show ([symbol].foldlM (parseSymbol o.parseDate o.now (root.element? "results")) {} >>= _) >>= _ = _
      rw [List.foldlM_cons, hparse]
      rfl
    have hfirst : Service.firstQuote ds symbol = .error e := by
      unfold Service.firstQuote
      rw [hquote]
    unfold projection getStockProjections
    rw [h.yearRate_eq hrate]
    dsimp only [Except.map]
    rw [exec_bind_ok (exec_lift _ _), exec_bind_ok (exec_reportStatus ..), hfirst]
    rfl
  · obtain ⟨q, hq, -⟩ := parseSymbol_eq_ok.1 hparse
    exact absurd hq (hnone q)

theorem otherSymbols_resultsOfA (ask bid : Text) : OtherSymbols "B" ((resultsOfA ask bid).elements "quote") := by
  intro w hw
  have hquotes : (resultsOfA ask bid).elements "quote" = [quoteOfA ask bid] := rfl
  rw [hquotes, List.mem_singleton] at hw
  subst hw
  exact ⟨"A".toList, rfl, by decide⟩

theorem projection_without_quote_B : projection zeroDraws (dataService (answersForA "100")) "B" 5 true 0 =
    (.error .invalidOperation, ⟨[(downloadedCurve, .success)], [], 0⟩) := by
  have hother := otherSymbols_resultsOfA "100" "100"
  have hdocument : (answersForA "100").loadDocument (fetchUrl ["B"]) =
      .ok (some (.element "query" [] [resultsOfA "100" "100"])) := rfl
  have hnone : ∀ q, ¬ HasQuote (some (resultsOfA "100" "100")) "B" q := by
    intro q hq
    obtain ⟨r, hr, hfirst⟩ := hq.first
    cases hr
    exact not_otherSymbols_of_isFirst hfirst hother
  obtain ⟨e, hends, -, hiff⟩ := projection_without_quote zeroDraws (serves_dataService (answersForA "100"))
    (hasRate_answersForA "100") hdocument hnone 5 0
  rw [hends, hiff.2 ⟨_, rfl, hother⟩]

end StockPredictor.Engines
