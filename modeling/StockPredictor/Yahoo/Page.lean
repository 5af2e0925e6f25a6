/-
`YahooEngine.GetOptionData` and the document that its `Parse` looks through. The rows in the money are
taken from anywhere in the document, in document order, each with its own `td` children and what
stands below those. So a document is parsed part by part, and markup around the rows changes nothing.
-/
import StockPredictor.Base.Rose
import StockPredictor.Yahoo.Options

namespace StockPredictor.Yahoo

open Base Service

/-! ## Documents -/

/-- What the code reads of an `HtmlNode`: its name, the value of its attribute `class` if it has one,
and its inner text. -/
structure HtmlLabel where
  name : Text
  classAttribute : Option Text := none
  innerHtml : Text := []

/-- `HtmlNode`. -/
abbrev HtmlNode := Rose HtmlLabel

/-- The condition of `trs`. -/
def isInTheMoney (x : HtmlNode) : Bool :=
  decide (x.label.name = "tr".toList) &&
    x.label.classAttribute.any fun value => decide ("in-the-money".toList <:+: value)

/-- `resultat.DocumentNode.Descendants().Where(..)`. -/
def rowsInTheMoney (document : HtmlNode) : List HtmlNode := document.descendants.filter isInTheMoney

/-- `Descendants().First(x => x.Name == name).InnerHtml`, where there is one. -/
def firstBelow (name : Text) (x : HtmlNode) : Option Text :=
  (x.descendants.find? fun y => decide (y.label.name = name)).map (·.label.innerHtml)

def cellOf (td : HtmlNode) : Cell := { a := firstBelow "a".toList td, div := firstBelow "div".toList td }

/-- `tr.ChildNodes.Where(d => d.Name == "td")`. -/
def rowOf (tr : HtmlNode) : Row := (tr.children.filter fun d => decide (d.label.name = "td".toList)).map cellOf

/-- `YahooEngine.Parse` on a document. -/
def parseDocument (document : HtmlNode) : Except Exn (List OptionQuote) :=
  parseOptions ((rowsInTheMoney document).map rowOf)

/-- The parameters of the request. -/
def optionParameters (symbol : Text) : Text := "q/op?s=".toList ++ symbol ++ "+Option".toList

/-- `YahooEngine.GetOptionData`. The answer to a request is the text of a success, null of any other
status; `loadHtml` decodes a text and makes a document of it. -/
def getOptionData (get : Text → Except Exn (Option Text)) (loadHtml : Text → HtmlNode) (symbol : Text) :
    Except Exn (Option (List OptionQuote)) := do
  match ← get (optionParameters symbol) with
  | none => pure none
  | some dom => pure (some (← parseDocument (loadHtml dom)))

/-! ## Parts -/

theorem addOption_append (optionList : List OptionQuote) (strikeHtml volHtml contractName bidHtml askHtml : Text) :
    addOption optionList strikeHtml volHtml contractName bidHtml askHtml =
      optionList ++ addOption [] strikeHtml volHtml contractName bidHtml askHtml := by
  unfold addOption
  cases tryParseDouble strikeHtml <;> cases tryParseDouble volHtml <;> cases tryParseDouble bidHtml <;>
    cases tryParseDouble askHtml <;> simp
  by_cases hname : contractName = []
  · rw [if_pos hname, if_pos hname, List.append_nil]
  · rw [if_neg hname, if_neg hname]

/-- The options found so far only stand in front. -/
theorem parseRow_append (optionList : List OptionQuote) (row : Row) :
    parseRow optionList row = (optionList ++ ·) <$> parseRow [] row := by
  unfold parseRow
  simp only [map_bind, map_pure, ← addOption_append]

theorem foldlM_parseRow (optionList : List OptionQuote) (trs : List Row) :
    trs.foldlM parseRow optionList = (optionList ++ ·) <$> parseOptions trs := by
  unfold parseOptions
  induction trs generalizing optionList with
  | nil =>
    rw [List.foldlM_nil, List.foldlM_nil, map_pure, List.append_nil]
  | cons row trs ih =>
    rw [List.foldlM_cons, List.foldlM_cons, parseRow_append, bind_map_left, map_bind]
    congr 1
    funext options
    rw [ih, ih options, Functor.map_map]
    simp only [List.append_assoc]

/-- Rows in two parts: the options of the first, then those of the second. -/
theorem parseOptions_append (trs trs' : List Row) : parseOptions (trs ++ trs') = (do
    let options ← parseOptions trs
    let options' ← parseOptions trs'
    pure (options ++ options')) := by
  rw [parseOptions, List.foldlM_append]
  congr 1
  funext options
  rw [foldlM_parseRow, map_eq_pure_bind]

theorem rowsInTheMoney_append (a : HtmlLabel) (parts parts' : List HtmlNode) :
    rowsInTheMoney (.node a (parts ++ parts')) = rowsInTheMoney (.node a parts) ++ rowsInTheMoney (.node a parts') := by
  unfold rowsInTheMoney Rose.descendants
  rw [Rose.forest_append, List.filter_append]

/-- The children of a node that is no row itself stand for the node. -/
theorem rowsInTheMoney_unwrap {x : HtmlNode} (h : isInTheMoney x = false) (a : HtmlLabel) :
    rowsInTheMoney (.node a [x]) = rowsInTheMoney x := by
  unfold rowsInTheMoney
  rw [Rose.descendants, Rose.forest, Rose.forest, List.append_nil, List.filter_cons_of_neg (by rw [h]; decide)]

/-- A document is parsed part by part, whatever stands around the parts: the options of the first part
and then those of the second, or the exception of the first part that raises one. An element that is
no row in the money itself stands for its children. -/
theorem parseDocument_parts (a b c : HtmlLabel) {l : HtmlLabel} {parts : List HtmlNode} (parts' : List HtmlNode)
    (hl : isInTheMoney (.node l parts) = false) :
    parseDocument (.node a (.node l parts :: parts')) = (do
      let options ← parseDocument (.node b parts)
      let options' ← parseDocument (.node c parts')
      pure (options ++ options')) := by
  unfold parseDocument
  rw [← List.singleton_append, rowsInTheMoney_append, rowsInTheMoney_unwrap hl, List.map_append, parseOptions_append]
  rfl

/-- A row in the money with the texts of an option in ten cells. -/
def rowNode (strike contract bid ask vol : Text) : HtmlNode :=
  let td (name text : Text) : HtmlNode :=
    .node { name := "td".toList } [.node { name := "strong".toList } [.node { name, innerHtml := text } []]]
  let empty : HtmlNode := .node { name := "td".toList } []
  .node { name := "tr".toList, classAttribute := some "in-the-money even".toList }
    [td "a".toList strike, td "a".toList contract, empty, td "div".toList bid, td "div".toList ask, empty, empty, empty,
      empty, td "div".toList vol]

/-- A table in front of a row. -/
theorem parseDocument_parts_table :
    parseDocument (.node { name := "#document".toList } [.node { name := "table".toList }
      [rowNode "100".toList "MSFT1".toList "1.5".toList "2".toList "25%".toList],
      rowNode "90".toList "MSFT2".toList "1".toList "2".toList "50%".toList]) =
    .ok [⟨"MSFT1".toList, .finite 100, .finite (1 / 4), .finite (3 / 2), .finite 2⟩,
      ⟨"MSFT2".toList, .finite 90, .finite (1 / 2), .finite 1, .finite 2⟩] :=
  (parseDocument_parts _ { name := [] } { name := [] } _ (by rfl)).trans (by decide +kernel)

/-- The options of a document are those of its rows in the money, wherever they stand; there is a
list exactly when each of these rows has the five elements. -/
theorem parseDocument_eq_ok {document : HtmlNode} {options : List OptionQuote} :
    parseDocument document = .ok options ↔
      (∀ tr, Rose.Below document tr → isInTheMoney tr = true → HasElements (rowOf tr)) ∧
        options = (rowsInTheMoney document).filterMap fun tr => optionOf? (rowOf tr) := by
  unfold parseDocument
  rw [parseOptions_eq_ok, List.filterMap_map]
  refine and_congr ?_ Iff.rfl
  constructor
  · intro h tr hbelow hmoney
    apply h
    exact List.mem_map_of_mem (List.mem_filter.2 ⟨Rose.mem_descendants.2 hbelow, hmoney⟩)
  · intro h row hrow
    obtain ⟨tr, htr, rfl⟩ := List.mem_map.1 hrow
    obtain ⟨hmem, hmoney⟩ := List.mem_filter.1 htr
    exact h tr (Rose.mem_descendants.1 hmem) hmoney

end StockPredictor.Yahoo
