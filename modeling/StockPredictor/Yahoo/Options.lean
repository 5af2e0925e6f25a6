/-
`YahooEngine.Parse` of the option page. The page is what the parser finds in the document: the rows
in the money, each with its `td` cells. The tests on the texts come after every cell of the row was
read, so a row with a bad text is skipped and one with a missing cell or element is an exception.
-/
import StockPredictor.Base.Sequence
import StockPredictor.Service.Number

namespace StockPredictor.Yahoo

open Base Service

/-! ## Page and options -/

/-- A `td` cell: the inner texts of its first `a` and of its first `div`, where there is one. -/
structure Cell where
  a : Option Text := none
  div : Option Text := none

/-- A row in the money: its cells. -/
abbrev Row := List Cell

/-- `Option`. -/
structure OptionQuote where
  contractName : Text
  strike : Double
  impliedVolatility : Double
  bid : Double
  ask : Double
deriving DecidableEq

/-- `vol/100`. -/
def percent (vol : Double) : Double := vol / .finite 100

/-! ## The parser -/

/-- `htmlNodes[i]`. -/
def htmlNode (row : Row) (i : ℕ) : Except Exn Cell :=
  match row[i]? with
  | none => .error .indexOutOfRange
  | some cell => .ok cell

/-- `First(..).InnerHtml` on what elements of the name there are. -/
def firstInnerHtml : Option Text → Except Exn Text
  | none => .error .invalidOperation
  | some t => .ok t

/-- The test on the texts of a row, and the option added if they pass it. -/
def addOption (optionList : List OptionQuote) (strikeHtml volHtml contractName bidHtml askHtml : Text) :
    List OptionQuote :=
  match tryParseDouble strikeHtml, tryParseDouble volHtml, tryParseDouble bidHtml, tryParseDouble askHtml with
  | some strike, some vol, some bid, some ask =>
    if contractName = [] then optionList
    else optionList ++ [{ contractName, strike, impliedVolatility := percent vol, bid, ask }]
  | _, _, _, _ => optionList

/-- One round of the loop over the rows. -/
def parseRow (optionList : List OptionQuote) (tr : Row) : Except Exn (List OptionQuote) := do
  let strikeHtml ← firstInnerHtml (← htmlNode tr 0).a
  let volHtml ← firstInnerHtml (← htmlNode tr 9).div
  let contractName ← firstInnerHtml (← htmlNode tr 1).a
  let bidHtml ← firstInnerHtml (← htmlNode tr 3).div
  let askHtml ← firstInnerHtml (← htmlNode tr 4).div
  pure (addOption optionList strikeHtml (volHtml.filter (· ≠ '%')) contractName bidHtml askHtml)

/-- `YahooEngine.Parse` on the rows of the page. -/
def parseOptions (trs : List Row) : Except Exn (List OptionQuote) := trs.foldlM parseRow []

/-! ## Rows that are options -/

/-- The text of the first `a` of a cell, if the row has the cell and the cell the element. -/
def linkText (row : Row) (i : ℕ) : Option Text := row[i]?.bind (·.a)

/-- The text of the first `div` of a cell. -/
def boxText (row : Row) (i : ℕ) : Option Text := row[i]?.bind (·.div)

/-- The option of a row that has the five cells with texts that parse. -/
def optionOf? (row : Row) : Option OptionQuote := do
  let strike ← (linkText row 0).bind tryParseDouble
  let contractName ← (linkText row 1).filter (· ≠ [])
  let bid ← (boxText row 3).bind tryParseDouble
  let ask ← (boxText row 4).bind tryParseDouble
  let vol ← (boxText row 9).bind fun t => tryParseDouble (t.filter (· ≠ '%'))
  pure { contractName, strike, impliedVolatility := percent vol, bid, ask }

/-- The parser returns the options of the rows that have one, in order. -/
def SkipsMalformed (trs : List Row) : Prop := parseOptions trs = .ok (trs.filterMap optionOf?)

/-- The row has the five cells with their elements, whatever the texts are. -/
structure HasElements (row : Row) : Prop where
  strike : (linkText row 0).isSome
  contract : (linkText row 1).isSome
  bid : (boxText row 3).isSome
  ask : (boxText row 4).isSome
  volatility : (boxText row 9).isSome

theorem firstInnerHtml_eq_ok {o : Option Text} {t : Text} : firstInnerHtml o = .ok t ↔ o = some t := by
  unfold firstInnerHtml
  cases o <;> simp

theorem htmlNode_eq_ok {row : Row} {i : ℕ} {cell : Cell} : htmlNode row i = .ok cell ↔ row[i]? = some cell := by
  unfold htmlNode
  cases row[i]? <;> simp

theorem link_eq_ok {row : Row} {i : ℕ} {t : Text} :
    (∃ cell, htmlNode row i = .ok cell ∧ firstInnerHtml cell.a = .ok t) ↔ linkText row i = some t := by
  simp only [htmlNode_eq_ok, firstInnerHtml_eq_ok, linkText, Option.bind_eq_some_iff]

theorem box_eq_ok {row : Row} {i : ℕ} {t : Text} :
    (∃ cell, htmlNode row i = .ok cell ∧ firstInnerHtml cell.div = .ok t) ↔ boxText row i = some t := by
  simp only [htmlNode_eq_ok, firstInnerHtml_eq_ok, boxText, Option.bind_eq_some_iff]

/-- The test adds the option that the row is, if it is one. -/
theorem addOption_eq {row : Row} {strike contract bid ask vol : Text} (hs : linkText row 0 = some strike)
    (hc : linkText row 1 = some contract) (hb : boxText row 3 = some bid) (ha : boxText row 4 = some ask)
    (hv : boxText row 9 = some vol) (optionList : List OptionQuote) :
    addOption optionList strike (vol.filter (· ≠ '%')) contract bid ask =
      optionList ++ (optionOf? row).toList := by
  unfold addOption optionOf?
  rw [hs, hc, hb, ha, hv]
  simp only [Option.bind_some]
  by_cases hne : contract = [] <;> cases tryParseDouble strike <;> cases tryParseDouble (vol.filter (· ≠ '%')) <;>
    cases tryParseDouble bid <;> cases tryParseDouble ask <;> simp [hne, Option.filter]

/-- A row is read when it has the five elements, and then adds the option that it is. -/
theorem parseRow_eq_ok (optionList : List OptionQuote) (row : Row) (optionList' : List OptionQuote) :
    parseRow optionList row = .ok optionList' ↔
      HasElements row ∧ optionList' = optionList ++ (optionOf? row).toList := by
  unfold parseRow
  -- each of the five reads is one of a link or of a box
  simp only [← bind_assoc]
  simp only [bind_eq_ok, link_eq_ok, box_eq_ok]
  constructor
  · rintro ⟨strike, hs, vol, hv, contract, hc, bid, hb, ask, ha, h⟩
    cases h
    refine ⟨⟨?_, ?_, ?_, ?_, ?_⟩, addOption_eq hs hc hb ha hv optionList⟩
    · rw [hs]; rfl
    · rw [hc]; rfl
    · rw [hb]; rfl
    · rw [ha]; rfl
    · rw [hv]; rfl
  · rintro ⟨he, rfl⟩
    obtain ⟨strike, hs⟩ := Option.isSome_iff_exists.1 he.strike
    obtain ⟨contract, hc⟩ := Option.isSome_iff_exists.1 he.contract
    obtain ⟨bid, hb⟩ := Option.isSome_iff_exists.1 he.bid
    obtain ⟨ask, ha⟩ := Option.isSome_iff_exists.1 he.ask
    obtain ⟨vol, hv⟩ := Option.isSome_iff_exists.1 he.volatility
    rw [← addOption_eq hs hc hb ha hv]
    exact ⟨strike, hs, vol, hv, contract, hc, bid, hb, ask, ha, rfl⟩

theorem parseOptions_eq_ok {trs : List Row} {options : List OptionQuote} :
    parseOptions trs = .ok options ↔ (∀ row ∈ trs, HasElements row) ∧ options = trs.filterMap optionOf? := by
  unfold parseOptions
  rw [foldlM_eq_ok parseRow_eq_ok, foldl_filterMap List.append_nil fun b l l' => (List.append_assoc b l l').symm,
    List.nil_append]

/-- Malformed rows are skipped exactly on the pages whose rows all have the five elements, with
whatever texts. -/
theorem skipsMalformed_iff (trs : List Row) : SkipsMalformed trs ↔ ∀ row ∈ trs, HasElements row := by
  unfold SkipsMalformed
  rw [parseOptions_eq_ok]
  exact and_iff_left rfl

/-- A row of ten cells with the texts of an option. -/
def wellFormedRow : Row :=
  [{ a := some "100".toList }, { a := some "MSFT1".toList }, {}, { div := some "1.5".toList },
    { div := some "2".toList }, {}, {}, {}, {}, { div := some "25%".toList }]

/-- One row without cells makes the parser lose the option of the other. -/
theorem skipsMalformed_fails : parseOptions [wellFormedRow, []] = .error .indexOutOfRange ∧
    [wellFormedRow, []].filterMap optionOf? =
      [⟨"MSFT1".toList, .finite 100, .finite (1 / 4), .finite (3 / 2), .finite 2⟩] ∧
    ¬ SkipsMalformed [wellFormedRow, []] := by
  have herror : parseOptions [wellFormedRow, []] = .error .indexOutOfRange := by decide +kernel
  refine ⟨herror, by decide +kernel, fun h => ?_⟩
  rw [SkipsMalformed, herror] at h
  cases h

end StockPredictor.Yahoo
