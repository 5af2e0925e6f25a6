/-
The errors of `YahooEngine.Parse`. What a successful parse returns: one stock for each symbol, filled
from its first quote, and as errors the symbols whose `Ask` text is empty. The decimals are not looked
at, so the errors are exact only when every other `Ask`, and its `Bid`, is a decimal.
-/
import StockPredictor.Service.Projection
import StockPredictor.Yahoo.Quotes

namespace StockPredictor.Yahoo

open Base Service

/-! ## The fields -/

/-- All children that `Parse` reads of a quote. -/
def childNames : List Text := (assignments (fun _ => none) 0).flatMap (·.children)

/-- The quote has all of them. -/
def HasChildren (q : XNode) : Prop := ∀ name ∈ childNames, (q.element? name).isSome

/-- The stock that the assignments make of a quote. -/
def filled (parseDate : Text → Option ℤ) (now : ℤ) (q : XNode) (symbol : Text) : Stock :=
  (assignments parseDate now).foldl (fun s a => a.set q.childText s) { symbol }

theorem filled_ask (parseDate : Text → Option ℤ) (now : ℤ) (q : XNode) (symbol : Text) :
    (filled parseDate now q symbol).ask = getDecimal (some (q.childText "Ask")) := rfl

theorem filled_bid (parseDate : Text → Option ℤ) (now : ℤ) (q : XNode) (symbol : Text) :
    (filled parseDate now q symbol).bid = getDecimal (some (q.childText "Bid")) := rfl

/-- An assignment succeeds exactly when every child it reads is there. -/
theorem assign_eq_ok (q : XNode) (s : Stock) (a : Assignment) (s' : Stock) : assign q s a = .ok s' ↔
    (∀ name ∈ a.children, (q.element? name).isSome) ∧ s' = a.set q.childText s := by
  rw [assign, ← List.all_eq_true]
  by_cases h : (a.children.all fun name => (q.element? name).isSome) = true
  · rw [if_pos h]
    exact ⟨fun heq => ⟨h, (Except.ok.inj heq).symm⟩, fun heq => congrArg _ heq.2.symm⟩
  · rw [if_neg h]
    exact ⟨fun heq => (by cases heq), fun heq => absurd heq.1 h⟩

theorem fill_eq_ok (parseDate : Text → Option ℤ) (now : ℤ) (q : XNode) (symbol : Text) {s : Stock} :
    (assignments parseDate now).foldlM (assign q) { symbol } = .ok s ↔
      HasChildren q ∧ s = filled parseDate now q symbol := by
  have hnames : (assignments parseDate now).flatMap (·.children) = childNames := rfl
  rw [foldlM_eq_ok (assign_eq_ok q), HasChildren, ← hnames]
  simp only [List.mem_flatMap, forall_exists_index, and_imp]
  exact and_congr ⟨fun h name a ha hn => h a ha name hn, fun h a ha name hn => h name a ha hn⟩ Iff.rfl

/-! ## The first quote -/

/-- `q` is the first of the quotes with the symbol, and all before it have an attribute with
another one. -/
def IsFirst (symbol : Text) (quotes : List XNode) (q : XNode) : Prop :=
  ∃ before after, quotes = before ++ q :: after ∧ q.attribute? "symbol" = some symbol ∧
    ∀ w ∈ before, ∃ s, w.attribute? "symbol" = some s ∧ s ≠ symbol

theorem firstQuote_eq_ok {symbol : Text} {quotes : List XNode} {q : XNode} :
    firstQuote symbol quotes = .ok q ↔ IsFirst symbol quotes q := by
  induction quotes with
  | nil =>
    refine iff_of_false (fun h => by cases h) ?_
    rintro ⟨before, after, h, -⟩
    exact absurd h.symm (by simp)
  | cons w quotes ih =>
    rw [firstQuote]
    constructor
    · intro h
      split at h
      · cases h
      · rename_i s hs
        split at h
        · rename_i heq
          cases h
          exact ⟨[], quotes, rfl, heq ▸ hs, by simp⟩
        · rename_i hne
          obtain ⟨before, after, rfl, hq, hbefore⟩ := ih.1 h
          exact ⟨w :: before, after, rfl, hq, List.forall_mem_cons.2 ⟨⟨s, hs, hne⟩, hbefore⟩⟩
    · rintro ⟨before, after, hsplit, hq, hbefore⟩
      cases before with
      | nil =>
        cases hsplit
        rw [hq]
        exact if_pos rfl
      | cons w' before =>
        cases hsplit
        obtain ⟨⟨s, hs, hne⟩, hbefore⟩ := List.forall_mem_cons.1 hbefore
        rw [hs]
        dsimp only
        rw [if_neg hne]
        exact ih.2 ⟨before, after, rfl, hq, hbefore⟩

/-- The quote that a document has for a symbol, with all children. -/
structure HasQuote (results : Option XNode) (symbol : Text) (q : XNode) : Prop where
  first : ∃ r, results = some r ∧ IsFirst symbol (r.elements "quote") q
  children : HasChildren q

theorem HasQuote.unique {results : Option XNode} {symbol : Text} {q q' : XNode} (h : HasQuote results symbol q)
    (h' : HasQuote results symbol q') : q = q' := by
  obtain ⟨r, rfl, hq⟩ := h.first
  obtain ⟨r', hr', hq'⟩ := h'.first
  cases hr'
  exact Except.ok.inj ((firstQuote_eq_ok.2 hq).symm.trans (firstQuote_eq_ok.2 hq'))

/-! ## The run -/

/-- Whether the text of `Ask` is empty, which is all the parser looks at. -/
def AskEmpty (results : Option XNode) (symbol : Text) : Prop :=
  ∃ q, HasQuote results symbol q ∧ q.childText "Ask" = []

theorem HasQuote.askEmpty_iff {results : Option XNode} {symbol : Text} {q : XNode} (h : HasQuote results symbol q) :
    AskEmpty results symbol ↔ q.childText "Ask" = [] := by
  constructor
  · rintro ⟨q', hq', he⟩
    rwa [h.unique hq']
  · exact fun he => ⟨q, h, he⟩

theorem isFlagged_addError (symbol s : Text) (errors : Option (List Text)) :
    isFlagged (addError symbol errors) s = true ↔ isFlagged errors s = true ∨ s = symbol := by
  cases errors <;> simp [isFlagged, addError]

/-- A conditional error flags its symbol under the condition only. -/
theorem isFlagged_ite {c : Prop} [Decidable c] (symbol s : Text) (errors : Option (List Text)) :
    isFlagged (if c then addError symbol errors else errors) s = true ↔ isFlagged errors s = true ∨ s = symbol ∧ c := by
  split
  · rename_i hc
    rw [isFlagged_addError]
    simp [hc]
  · rename_i hc
    simp [hc]

theorem ask_mem_childNames : ("Ask" : Text) ∈ childNames :=
  List.mem_flatMap.2 ⟨_, List.mem_cons_self, List.mem_singleton_self _⟩

variable {parseDate : Text → Option ℤ} {now : ℕ → ℤ} {results : Option XNode}

theorem deref_eq_ok {α : Type} {o : Option α} {a : α} : deref o = .ok a ↔ o = some a := by
  cases o <;> simp [deref]

/-- One round adds one stock, from the first quote, and flags the symbol when its `Ask` is empty. -/
theorem parseSymbol_eq_ok {r r' : Parsed} {symbol : Text} :
    parseSymbol parseDate now results r symbol = .ok r' ↔ ∃ q, HasQuote results symbol q ∧
      r' = ⟨r.quotes ++ [filled parseDate (now r.quotes.length) q symbol],
        if q.childText "Ask" = [] then addError symbol r.errors else r.errors⟩ := by
  unfold parseSymbol
  simp only [bind_eq_ok, deref_eq_ok, firstQuote_eq_ok, fill_eq_ok]
  constructor
  · rintro ⟨root, hroot, q, hq, ask, ha, stock, ⟨hc, rfl⟩, hr⟩
    cases hr
    have hchild : q.childText "Ask" = ask.value := by unfold XNode.childText; rw [ha]; rfl
    rw [← hchild]
    exact ⟨q, ⟨⟨root, hroot, hq⟩, hc⟩, rfl⟩
  · rintro ⟨q, ⟨⟨root, hroot, hq⟩, hc⟩, rfl⟩
    obtain ⟨ask, ha⟩ := Option.isSome_iff_exists.1 (hc _ ask_mem_childNames)
    have hchild : q.childText "Ask" = ask.value := by unfold XNode.childText; rw [ha]; rfl
    rw [hchild]
    exact ⟨root, hroot, q, hq, ask, ha, _, ⟨hc, rfl⟩, rfl⟩

/-- A stock filled from the first quote of its symbol, at some reading of the clock. -/
def FilledFrom (parseDate : Text → Option ℤ) (now : ℕ → ℤ) (results : Option XNode) (symbol : Text) (stock : Stock) :
    Prop :=
  ∃ q i, HasQuote results symbol q ∧ stock = filled parseDate (now i) q symbol

/-- The whole loop: the stocks of the symbols in order, and the symbols whose `Ask` is empty. -/
theorem foldlM_parseSymbol {symbols : List Text} {r r' : Parsed}
    (h : symbols.foldlM (parseSymbol parseDate now results) r = .ok r') :
    (∃ quotes, r'.quotes = r.quotes ++ quotes ∧ List.Forall₂ (FilledFrom parseDate now results) symbols quotes) ∧
    ∀ s, isFlagged r'.errors s = true ↔ isFlagged r.errors s = true ∨ s ∈ symbols ∧ AskEmpty results s := by
  induction symbols generalizing r with
  | nil =>
    cases h
    exact ⟨⟨[], (List.append_nil _).symm, .nil⟩, by simp⟩
  | cons symbol symbols ih =>
    rw [List.foldlM_cons, bind_eq_ok] at h
    obtain ⟨r₁, hstep, hrun⟩ := h
    obtain ⟨q, hq, rfl⟩ := parseSymbol_eq_ok.1 hstep
    obtain ⟨⟨quotes, hquotes, hfilled⟩, hflags⟩ := ih hrun
    refine ⟨⟨_, hquotes.trans (List.append_assoc _ _ _), .cons ⟨q, _, hq, rfl⟩ hfilled⟩, fun s => ?_⟩
    rw [hflags, isFlagged_ite, List.mem_cons]
    constructor
    · rintro ((hs | ⟨rfl, he⟩) | ⟨hs, ha⟩)
      · exact .inl hs
      · exact .inr ⟨.inl rfl, hq.askEmpty_iff.2 he⟩
      · exact .inr ⟨.inr hs, ha⟩
    · rintro (hs | ⟨rfl | hs, ha⟩)
      · exact .inl (.inl hs)
      · exact .inl (.inr ⟨rfl, hq.askEmpty_iff.1 ha⟩)
      · exact .inr ⟨hs, ha⟩

/-- After a run from the start a requested symbol is flagged when its `Ask` is empty. -/
theorem isFlagged_parsed {symbols : List Text} {r : Parsed}
    (hr : symbols.foldlM (parseSymbol parseDate now results) {} = .ok r) {symbol : Text} {q : XNode}
    (hs : symbol ∈ symbols) (hq : HasQuote results symbol q) :
    isFlagged r.errors symbol = true ↔ q.childText "Ask" = [] := by
  rw [(foldlM_parseSymbol hr).2 symbol, hq.askEmpty_iff]
  simp [isFlagged, hs]

/-- The loop succeeds when every symbol has its quote. -/
theorem exists_foldlM_parseSymbol {symbols : List Text} (h : ∀ s ∈ symbols, ∃ q, HasQuote results s q) (r : Parsed) :
    ∃ r', symbols.foldlM (parseSymbol parseDate now results) r = .ok r' := by
  refine exists_foldlM_eq_ok (fun s hs r => ?_) r
  obtain ⟨q, hq⟩ := h s hs
  exact ⟨_, parseSymbol_eq_ok.2 ⟨q, hq, rfl⟩⟩

/-! ## When the errors are exact -/

/-- What is owed to a symbol: a stock from its first quote, an error exactly when a price is missing,
and else a mid price. -/
structure Served (parseDate : Text → Option ℤ) (now : ℕ → ℤ) (results : Option XNode) (errors : Option (List Text))
    (symbol : Text) (stock : Stock) : Prop where
  filled : FilledFrom parseDate now results symbol stock
  flag : isFlagged errors symbol = true ↔ stock.ask = none ∨ stock.bid = none
  price : isFlagged errors symbol = false → ∃ price, quotedPrice stock.projected = .ok price

/-- A list of stocks, one for each symbol in order, with exact errors. -/
structure ExactErrors (parseDate : Text → Option ℤ) (now : ℕ → ℤ) (symbols : List Text) (root : Option XNode)
    (quotes : List Stock) (errors : Option (List Text)) : Prop where
  parsed : parse parseDate now symbols root = .ok (some quotes, errors)
  served : List.Forall₂ (Served parseDate now (root.bind (·.element? "results")) errors) symbols quotes

/-- The texts of `Ask` and `Bid` are decimals, whose sum is one. -/
def HasPrices (q : XNode) : Prop :=
  ∃ ask bid, getDecimal (some (q.childText "Ask")) = some ask ∧ getDecimal (some (q.childText "Bid")) = some bid ∧
    |ask + bid| < decimalMax + 1 / 2

theorem quotedPrice_filled_iff (parseDate : Text → Option ℤ) (now : ℤ) (q : XNode) (symbol : Text) :
    (∃ price, quotedPrice (filled parseDate now q symbol).projected = .ok price) ↔ HasPrices q := by
  simp only [quotedPrice_eq_ok_iff, Stock.projected, filled_ask, filled_bid, HasPrices]
  constructor
  · rintro ⟨_, ask, bid, ha, hb, hlt, -⟩
    exact ⟨ask, bid, ha, hb, hlt⟩
  · rintro ⟨ask, bid, ha, hb, hlt⟩
    exact ⟨_, ask, bid, ha, hb, hlt, rfl⟩

theorem getDecimal_nil : getDecimal (some []) = none := tryParseDecimal_of_no_digit (by simp)

/-- A symbol is served exactly when the `Ask` of its quote is empty, or both prices are there. -/
theorem served_iff {errors : Option (List Text)} {symbol : Text} {q : XNode} {i : ℕ} (hq : HasQuote results symbol q)
    (hflag : isFlagged errors symbol = true ↔ q.childText "Ask" = []) :
    Served parseDate now results errors symbol (filled parseDate (now i) q symbol) ↔
      q.childText "Ask" = [] ∨ HasPrices q := by
  rw [← quotedPrice_filled_iff parseDate (now i) q symbol]
  constructor
  · intro h
    by_cases he : q.childText "Ask" = []
    · exact .inl he
    · exact .inr (h.price (Bool.eq_false_iff.2 fun hf => he (hflag.1 hf)))
  · intro h
    refine ⟨⟨q, i, hq, rfl⟩, ?_, fun hf => h.resolve_left fun he => by rw [hflag.2 he] at hf; cases hf⟩
    rw [hflag, filled_ask, filled_bid]
    constructor
    · intro he
      rw [he]
      exact .inl getDecimal_nil
    · intro hnone
      rcases h with he | hprice
      · exact he
      · obtain ⟨ask, bid, ha, hb, -⟩ := (quotedPrice_filled_iff parseDate (now i) q symbol).1 hprice
        rw [ha, hb] at hnone
        simp at hnone

/-- With exact errors every symbol has its quote, with no `Ask` or with both prices. -/
theorem ExactErrors.quote {symbols : List Text} {root : XNode} {quotes : List Stock} {errors : Option (List Text)}
    (h : ExactErrors parseDate now symbols (some root) quotes errors) : ∀ symbol ∈ symbols, ∃ q,
      HasQuote (root.element? "results") symbol q ∧ (q.childText "Ask" = [] ∨ HasPrices q) := by
  intro symbol hs
  obtain ⟨r, hr, hres⟩ := bind_eq_ok.1 h.parsed
  cases hres
  obtain ⟨stock, -, hstock⟩ := exists_right_of_mem h.served hs
  obtain ⟨q, i, hq, rfl⟩ := hstock.filled
  exact ⟨q, hq, (served_iff hq (isFlagged_parsed hr hs hq)).1 hstock⟩

theorem exists_exactErrors (parseDate : Text → Option ℤ) (now : ℕ → ℤ) {symbols : List Text} {root : XNode}
    (hall : ∀ symbol ∈ symbols, ∃ q, HasQuote (root.element? "results") symbol q ∧
      (q.childText "Ask" = [] ∨ HasPrices q)) :
    ∃ quotes errors, ExactErrors parseDate now symbols (some root) quotes errors := by
  obtain ⟨r, hr⟩ : ∃ r, symbols.foldlM (parseSymbol parseDate now (root.element? "results")) {} = .ok r :=
    exists_foldlM_parseSymbol (fun s hs => (hall s hs).imp fun q hq => hq.1) {}
  obtain ⟨quotes, hquotes, hfilled⟩ := (foldlM_parseSymbol hr).1
  refine ⟨r.quotes, r.errors, bind_eq_ok.2 ⟨r, hr, rfl⟩, ?_⟩
  rw [hquotes, List.nil_append]
  refine ((List.forall₂_and_left _ _).2 ⟨fun s hs => hs, hfilled⟩).imp ?_
  rintro symbol stock ⟨hs, q, i, hq, rfl⟩
  obtain ⟨q', hq', h⟩ := hall symbol hs
  rw [hq'.unique hq] at h
  exact (served_iff hq (isFlagged_parsed hr hs hq)).2 h

/-- For all symbols and every document: the parser returns one stock for each symbol with exact
errors if and only if each symbol has a first quote with all children, no quote before it lacks the
symbol attribute, and its `Ask` is empty or both of its prices are decimals. -/
theorem exactErrors_iff (parseDate : Text → Option ℤ) (now : ℕ → ℤ) (symbols : List Text) (root : Option XNode) :
    (∃ quotes errors, ExactErrors parseDate now symbols root quotes errors) ↔
      ∃ r, root = some r ∧ ∀ symbol ∈ symbols, ∃ q, HasQuote (r.element? "results") symbol q ∧
        (q.childText "Ask" = [] ∨ HasPrices q) := by
  constructor
  · rintro ⟨quotes, errors, h⟩
    cases root with
    | none => cases h.parsed
    | some root => exact ⟨root, rfl, h.quote⟩
  · rintro ⟨root, rfl, hall⟩
    exact exists_exactErrors parseDate now hall

/-! ## An ask that is no decimal -/

/-- A quote of `A` with these prices, and a one in every other child. -/
def quoteOfA (ask bid : Text) : XNode :=
  .element "quote" [("symbol", "A")] (childNames.map fun name =>
    .element name [] [.text (if name = "Ask" then ask else if name = "Bid" then bid else "1")])

def resultsOfA (ask bid : Text) : XNode := .element "results" [] [quoteOfA ask bid]

theorem hasQuote_resultsOfA (ask bid : Text) : HasQuote (some (resultsOfA ask bid)) "A" (quoteOfA ask bid) where
  first := ⟨_, rfl, [], [], rfl, rfl, by simp⟩
  children := by
    intro name hn
    rw [XNode.element?, List.find?_isSome]
    exact ⟨_, List.mem_map.2 ⟨name, hn, rfl⟩, decide_eq_true rfl⟩

theorem childText_quoteOfA {name : Text} (h : name ∈ childNames) (ask bid : Text) :
    (quoteOfA ask bid).childText name = if name = "Ask" then ask else if name = "Bid" then bid else "1" := by
  have hsome : (childNames.find? fun n => decide (n = name)).isSome := by
    rw [List.find?_isSome]
    exact ⟨name, h, decide_eq_true rfl⟩
  obtain ⟨n, hn⟩ := Option.isSome_iff_exists.1 hsome
  obtain rfl : n = name := by simpa using List.find?_some hn
  unfold XNode.childText XNode.element? quoteOfA
  dsimp only [XNode.nodes]
  rw [List.find?_map]
  show (((childNames.find? fun m => decide (m = n)).map _).map _).getD _ = _
  rw [hn]
  simp [XNode.value, XNode.values]

/-- With `N/A` for the ask the stock has none, and the symbol is no error. -/
theorem exactErrors_fails : HasQuote (some (resultsOfA "N/A" "1")) "A" (quoteOfA "N/A" "1") ∧
    ∃ stock, parse (fun _ => none) (fun _ => 0) ["A"] (some (.element "query" [] [resultsOfA "N/A" "1"])) =
      .ok (some [stock], none) ∧ stock.ask = none := by
  have hq := hasQuote_resultsOfA "N/A" "1"
  have hask : (quoteOfA "N/A" "1").childText "Ask" = "N/A".toList := by
    rw [childText_quoteOfA ask_mem_childNames, if_pos rfl]
  have hstep : parseSymbol (fun _ => none) (fun _ => 0) (some (resultsOfA "N/A" "1")) {} "A".toList = .ok _ :=
    parseSymbol_eq_ok.2 ⟨_, hq, rfl⟩
  rw [hask, if_neg (by decide)] at hstep
  have hrun : ["A".toList].foldlM (parseSymbol (fun _ => none) (fun _ => 0) (some (resultsOfA "N/A" "1"))) {} =
      .ok ⟨[filled (fun _ => none) 0 (quoteOfA "N/A" "1") "A"], none⟩ := by
    rw [List.foldlM_cons, hstep]
    rfl
  refine ⟨hq, _, bind_eq_ok.2 ⟨_, hrun, rfl⟩, ?_⟩
  rw [filled_ask, hask]
  exact tryParseDecimal_of_no_digit (by simp)

end StockPredictor.Yahoo
