/-
`QuandlEngine.GetYieldCurve`: the names of the columns with the values of the first row, a hundredth
of each. The JSON library is a parameter: what reading a member, an element or a value gives. Every
column after the first is read, so one that cannot be read loses the rates of all others.
-/
import StockPredictor.Base.Sequence
import StockPredictor.Service.Projection

namespace StockPredictor.Quandl

open Base Service

/-- What the code uses of the JSON library: `JObject.Parse`, the two indexers, the number of children,
and `Value<string>()` and `Value<double>()`. A reading may be null. -/
structure JsonLibrary where
  JToken : Type
  parse : Text → Except Exn JToken
  item : JToken → Text → Except Exn (Option JToken)
  itemAt : JToken → ℕ → Except Exn (Option JToken)
  count : JToken → ℕ
  stringValue : JToken → Except Exn (Option Text)
  doubleValue : JToken → Except Exn ℝ

/-- A use of what may be null, with the exception that null raises. -/
def unlessNull {α : Type} (e : Exn) : Option α → Except Exn α
  | none => .error e
  | some a => .ok a

noncomputable section

namespace JsonLibrary

variable (json : JsonLibrary)

/-- `token[name]` on what may be null. -/
def member (token : Option json.JToken) (name : Text) : Except Exn (Option json.JToken) := do
  json.item (← unlessNull .nullReference token) name

/-- `token[i]` on what may be null. -/
def element (token : Option json.JToken) (i : ℕ) : Except Exn (Option json.JToken) := do
  json.itemAt (← unlessNull .nullReference token) i

/-- `jobject["dataset"]["column_names"]`, whose children are counted, and
`jobject["dataset"]["data"][0]`. -/
def dataset (jobject : json.JToken) : Except Exn (json.JToken × Option json.JToken) := do
  let columns ← json.member (← json.item jobject "dataset") "column_names"
  let dataSet ← json.element (← json.member (← json.item jobject "dataset") "data") 0
  pure (← unlessNull .argumentNull columns, dataSet)

/-- `columns[i].Value<string>()` and `dataSet[i].Value<double>()/100`. A null name is no key, which
shows last. -/
def column (columns : json.JToken) (dataSet : Option json.JToken) (i : ℕ) : Except Exn (Text × ℝ) := do
  let name ← json.stringValue (← unlessNull .argumentNull (← json.itemAt columns i))
  let value ← json.doubleValue (← unlessNull .argumentNull (← json.element dataSet i))
  pure (← unlessNull .argumentNull name, value / (100 : ℕ))

/-- One round of the loop, `yieldCurve[..] = ..`. -/
def addColumn (columns : json.JToken) (dataSet : Option json.JToken) (yieldCurve : Dictionary Text ℝ) (i : ℕ) :
    Except Exn (Dictionary Text ℝ) := do
  let rate ← json.column columns dataSet i
  pure (yieldCurve.set rate.1 rate.2)

/-- The columns that the loop goes through: all but the first, the dates. -/
def columnIndices (columns : json.JToken) : List ℕ := List.range' 1 (json.count columns - 1)

/-- `QuandlEngine.GetYieldCurve`; the answer to the request is the text of a success, null of any
other status. -/
def getYieldCurve (response : Except Exn (Option Text)) : Except Exn (Option (Dictionary Text ℝ)) := do
  match ← response with
  | none => pure none
  | some jsonString =>
    let (columns, dataSet) ← json.dataset (← json.parse jsonString)
    let yieldCurve ← (json.columnIndices columns).foldlM (json.addColumn columns dataSet) .empty
    pure (some yieldCurve)

end JsonLibrary

end

/-! ## What is read -/

section Read

variable {json : JsonLibrary}

/-- The dataset of a successful answer: the columns, and the first row. -/
def HasDataset (json : JsonLibrary) (response : Except Exn (Option Text)) (columns : json.JToken)
    (dataSet : Option json.JToken) : Prop :=
  ∃ jsonString jobject, response = .ok (some jsonString) ∧ json.parse jsonString = .ok jobject ∧
    json.dataset jobject = .ok (columns, dataSet)

/-- The cell of a column: the column's name, and the number in the first row. -/
def ReadsCell (json : JsonLibrary) (columns : json.JToken) (dataSet : Option json.JToken) (i : ℕ)
    (cell : Text × ℝ) : Prop :=
  ∃ name value, json.itemAt columns i = .ok (some name) ∧ json.stringValue name = .ok (some cell.1) ∧
    json.element dataSet i = .ok (some value) ∧ json.doubleValue value = .ok cell.2

/-- Every column after the first is read. -/
def Reads (json : JsonLibrary) (columns : json.JToken) (dataSet : Option json.JToken)
    (cells : List (Text × ℝ)) : Prop :=
  List.Forall₂ (ReadsCell json columns dataSet) (json.columnIndices columns) cells

theorem unlessNull_eq_ok {α : Type} {e : Exn} {found : Option α} {a : α} :
    unlessNull e found = .ok a ↔ found = some a := by
  cases found with
  | none => exact iff_of_false nofun nofun
  | some b => exact ⟨fun h => congrArg some (Except.ok.inj h), fun h => congrArg _ (Option.some.inj h)⟩

section Loop

variable {columns : json.JToken} {dataSet : Option json.JToken} {yieldCurve curve : Dictionary Text ℝ}

/-- What a column gives is its name with a hundredth of its cell. -/
theorem column_eq_ok {i : ℕ} {rate : Text × ℝ} : json.column columns dataSet i = .ok rate ↔
    ∃ cell, ReadsCell json columns dataSet i cell ∧ rate = (cell.1, cell.2 / 100) := by
  unfold JsonLibrary.column
  simp only [bind_eq_ok, unlessNull_eq_ok]
  constructor
  · rintro ⟨_, hname, name, rfl, _, hstring, _, htoken, token, rfl, value, hdouble, text, rfl, h⟩
    cases h
    exact ⟨(text, value), ⟨name, token, hname, hstring, htoken, hdouble⟩, by norm_num⟩
  · rintro ⟨cell, ⟨name, token, hname, hstring, htoken, hdouble⟩, rfl⟩
    refine ⟨_, hname, name, rfl, _, hstring, _, htoken, token, rfl, cell.2, hdouble, cell.1, rfl, ?_⟩
    show Except.ok _ = _
    norm_num

theorem forall₂_column {l : List ℕ} {rates : List (Text × ℝ)} :
    List.Forall₂ (fun i rate => json.column columns dataSet i = .ok rate) l rates ↔
      ∃ cells, List.Forall₂ (ReadsCell json columns dataSet) l cells ∧
        rates = cells.map fun cell => (cell.1, cell.2 / 100) := by
  induction l generalizing rates with
  | nil => simp
  | cons i l ih =>
    simp only [List.forall₂_cons_left_iff]
    constructor
    · rintro ⟨_, _, hrate, hrates, rfl⟩
      obtain ⟨cell, hcell, rfl⟩ := column_eq_ok.1 hrate
      obtain ⟨cells, hcells, rfl⟩ := ih.1 hrates
      exact ⟨cell :: cells, ⟨cell, cells, hcell, hcells, rfl⟩, rfl⟩
    · rintro ⟨_, ⟨cell, cells, hcell, hcells, rfl⟩, rfl⟩
      exact ⟨_, _, column_eq_ok.2 ⟨cell, hcell, rfl⟩, ih.2 ⟨cells, hcells, rfl⟩, rfl⟩

/-- The loop assigns what it reads, column by column. -/
theorem foldlM_addColumn {l : List ℕ} : l.foldlM (json.addColumn columns dataSet) yieldCurve = .ok curve ↔
    ∃ rates, List.Forall₂ (fun i rate => json.column columns dataSet i = .ok rate) l rates ∧
      curve = yieldCurve.setAll rates := by
  induction l generalizing yieldCurve with
  | nil =>
    simp only [List.foldlM_nil, List.forall₂_nil_left_iff, exists_eq_left]
    exact ⟨fun h => (Except.ok.inj h).symm, fun h => congrArg _ h.symm⟩
  | cons i l ih =>
    rw [List.foldlM_cons, bind_eq_ok]
    constructor
    · rintro ⟨curve', hstep, h⟩
      obtain ⟨rate, hrate, hset⟩ := bind_eq_ok.1 hstep
      cases hset
      obtain ⟨rates, hrates, rfl⟩ := ih.1 h
      exact ⟨rate :: rates, .cons hrate hrates, rfl⟩
    · rintro ⟨_, hrates, rfl⟩
      obtain ⟨rate, rates, hrate, hrest, rfl⟩ := List.forall₂_cons_left_iff.1 hrates
      refine ⟨yieldCurve.set rate.1 rate.2, ?_, ih.2 ⟨rates, hrest, rfl⟩⟩
      exact bind_eq_ok.2 ⟨rate, hrate, rfl⟩

/-- The first column that cannot be read ends the loop. -/
theorem foldlM_addColumn_error {before after : List ℕ} {i : ℕ} {e : Exn}
    (hbefore : ∀ j ∈ before, ∃ rate, json.column columns dataSet j = .ok rate)
    (h : json.column columns dataSet i = .error e) :
    (before ++ i :: after).foldlM (json.addColumn columns dataSet) yieldCurve = .error e := by
  induction before generalizing yieldCurve with
  | nil =>
    rw [List.nil_append, List.foldlM_cons, JsonLibrary.addColumn, h]
    rfl
  | cons j before ih =>
    obtain ⟨rate, hrate⟩ := hbefore j List.mem_cons_self
    rw [List.cons_append, List.foldlM_cons, JsonLibrary.addColumn, hrate]
    exact ih fun j' hj' => hbefore j' (List.mem_cons_of_mem j hj')

end Loop

/-- There is a curve exactly when every column after the first is read; it has a hundredth of what was
read, the last column of a name counting. -/
theorem getYieldCurve_eq_ok {response : Except Exn (Option Text)} {curve : Dictionary Text ℝ} :
    json.getYieldCurve response = .ok (some curve) ↔ ∃ columns dataSet cells, HasDataset json response columns dataSet ∧
      Reads json columns dataSet cells ∧
        curve = Dictionary.empty.setAll (cells.map fun cell => (cell.1, cell.2 / 100)) := by
  unfold JsonLibrary.getYieldCurve
  rw [bind_eq_ok]
  constructor
  · rintro ⟨_ | jsonString, hresponse, h⟩
    · cases h
    · obtain ⟨jobject, hparse, h⟩ := bind_eq_ok.1 h
      obtain ⟨⟨columns, dataSet⟩, hdata, h⟩ := bind_eq_ok.1 h
      obtain ⟨curve', hloop, h⟩ := bind_eq_ok.1 h
      cases h
      obtain ⟨rates, hrates, rfl⟩ := foldlM_addColumn.1 hloop
      obtain ⟨cells, hcells, rfl⟩ := forall₂_column.1 hrates
      exact ⟨columns, dataSet, cells, ⟨jsonString, jobject, hresponse, hparse, hdata⟩, hcells, rfl⟩
  · rintro ⟨columns, dataSet, cells, ⟨jsonString, jobject, hresponse, hparse, hdata⟩, hcells, rfl⟩
    refine ⟨some jsonString, hresponse, ?_⟩
    apply bind_eq_ok.2
    refine ⟨jobject, hparse, bind_eq_ok.2 ⟨(columns, dataSet), hdata, ?_⟩⟩
    exact bind_eq_ok.2 ⟨_, foldlM_addColumn.2 ⟨_, forall₂_column.2 ⟨cells, hcells, rfl⟩, rfl⟩, rfl⟩

/-- The rate of a maturity is a hundredth of the last cell of that name. -/
theorem lookup_rates {cells : List (Text × ℝ)} {maturity : Text} {rate : ℝ} :
    (Dictionary.empty.setAll (cells.map fun cell => (cell.1, cell.2 / 100))).lookup maturity = some rate ↔
      ∃ value, Dictionary.lastValue cells maturity = some value ∧ rate = value / 100 := by
  rw [Dictionary.lookup_setAll_empty, Dictionary.lastValue_map (· / 100), Option.map_eq_some_iff]
  simp only [eq_comm]

end Read

/-! ## The rate of a projection -/

/-- The yearly rate that a projection uses: there is one exactly when the answer has a dataset, all
columns after the first are read, and one of them is named `1 YR`; it is a hundredth of the value of
the first row in the last such column. -/
theorem yearRate_iff (json : JsonLibrary) {ds : DataService} {response : Except Exn (Option Text)}
    (h : ds.getYieldCurve = json.getYieldCurve response) (rate : ℝ) :
    yearRate ds = .ok rate ↔ ∃ columns dataSet cells value, HasDataset json response columns dataSet ∧
      Reads json columns dataSet cells ∧ Dictionary.lastValue cells "1 YR".toList = some value ∧
      rate = value / 100 := by
  unfold yearRate
  rw [h]
  constructor
  · intro hrate
    cases hcurve : json.getYieldCurve response with
    | error e => rw [hcurve] at hrate; cases hrate
    | ok found =>
      rw [hcurve] at hrate
      cases found with
      | none => cases hrate
      | some curve =>
        obtain ⟨columns, dataSet, cells, hdata, hreads, rfl⟩ := getYieldCurve_eq_ok.1 hcurve
        dsimp only at hrate
        split at hrate
        · cases hrate
        · rename_i rate' hlookup
          cases hrate
          obtain ⟨value, hlast, rfl⟩ := lookup_rates.1 hlookup
          exact ⟨columns, dataSet, cells, value, hdata, hreads, hlast, rfl⟩
  · rintro ⟨columns, dataSet, cells, value, hdata, hreads, hlast⟩
    rw [getYieldCurve_eq_ok.2 ⟨columns, dataSet, cells, hdata, hreads, rfl⟩]
    dsimp only
    rw [lookup_rates.2 ⟨value, hlast⟩]

/-- A JSON value. -/
inductive JsonValue
  | number (v : ℚ)
  | string (t : Text)
  | array (elements : List JsonValue)
  | object (members : List (Text × JsonValue))

/-- The library on JSON values, for one text. -/
noncomputable def jsonValues (text : Text) (root : JsonValue) : JsonLibrary where
  JToken := JsonValue
  parse t := if t = text then .ok root else .error .format
  item
    | .object members, name => .ok (members.lookup name)
    | _, _ => .error .invalidOperation
  itemAt
    | .array elements, i => unlessNull .argumentOutOfRange (elements[i]?.map some)
    | _, _ => .error .invalidOperation
  count
    | .array elements => elements.length
    | .object members => members.length
    | _ => 0
  stringValue
    | .string t => .ok (some t)
    | _ => .error .format
  doubleValue
    | .number v => .ok v
    | _ => .error .format

/-- The dataset with the columns `Date` and `1 YR` and one row. -/
def oneColumn (row : List JsonValue) : JsonValue :=
  .object [("dataset", .object [("column_names", .array [.string "Date", .string "1 YR"]),
    ("data", .array [.array row])])]

def oneColumnText : Text :=
  "\x7b\"dataset\":\x7b\"column_names\":[\"Date\",\"1 YR\"],\"data\":[[\"2016-01-04\",0.61]]\x7d\x7d".toList

/-- The answer read with that row, and no other service. -/
noncomputable def oneColumnService (row : List JsonValue) : DataService where
  getYieldCurve := (jsonValues oneColumnText (oneColumn row)).getYieldCurve (.ok (some oneColumnText))
  getStockQuote _ := .error .web
  getHistoricalQuote _ := .error .web
  getImpliedVolatility _ := .error .web
  isValidateSymbol _ := .error .web
  lookUpStock _ := .error .web
  getAppSettings _ _ := .error .web

theorem hasDataset_oneColumn (row : List JsonValue) : HasDataset (jsonValues oneColumnText (oneColumn row))
    (.ok (some oneColumnText)) (JsonValue.array [.string "Date", .string "1 YR"]) (some (JsonValue.array row)) := by
  have hparse : (jsonValues oneColumnText (oneColumn row)).parse oneColumnText = .ok (oneColumn row) := by
    unfold jsonValues
    dsimp only
    rw [if_pos rfl]
  exact ⟨oneColumnText, oneColumn row, rfl, hparse, rfl⟩

theorem reads_oneColumn (value : ℚ) : Reads (jsonValues oneColumnText (oneColumn [.string "2016-01-04", .number value]))
    (JsonValue.array [.string "Date", .string "1 YR"]) (some (JsonValue.array [.string "2016-01-04", .number value]))
    [("1 YR".toList, (value : ℝ))] :=
  List.Forall₂.cons ⟨JsonValue.string "1 YR".toList, JsonValue.number value, rfl, rfl, rfl, rfl⟩ .nil

theorem yearRate_oneColumn :
    yearRate (oneColumnService [.string "2016-01-04", .number (61 / 100)]) =
      .ok (((61 / 100 : ℚ) : ℝ) / 100) := by
  refine (yearRate_iff _ rfl _).2 ⟨_, _, _, _, hasDataset_oneColumn _, reads_oneColumn _, rfl, rfl⟩

/-- One cell that cannot be read loses the projection. When the columns before it are read and a column
raises an exception, of whatever maturity it is, the projection ends with that exception, before any
report and without a draw. -/
theorem projection_unreadable_column (json : JsonLibrary) (p : Platform) {ds : DataService}
    {response : Except Exn (Option Text)} (h : ds.getYieldCurve = json.getYieldCurve response)
    {columns : json.JToken} {dataSet : Option json.JToken} (hdata : HasDataset json response columns dataSet)
    {i : ℕ} (h1 : 1 ≤ i) (hi : i < json.count columns)
    (hbefore : ∀ j, 1 ≤ j → j < i → ∃ rate, json.column columns dataSet j = .ok rate) {e : Exn}
    (he : json.column columns dataSet i = .error e) (symbol : Text) (days : ℤ) (action : Bool) (draws : ℕ) :
    projection p ds symbol days action draws = (.error e, ⟨[], [], draws⟩) := by
  obtain ⟨jsonString, jobject, hresponse, hparse, hdataset⟩ := hdata
  have hsplit : json.columnIndices columns =
      List.range' 1 (i - 1) ++ i :: List.range' (i + 1) (json.count columns - 1 - i) := by
    have hcons : i :: List.range' (i + 1) (json.count columns - 1 - i) = List.range' i (json.count columns - i) := by
      rw [show json.count columns - i = json.count columns - 1 - i + 1 by omega, List.range'_succ]
    rw [hcons, JsonLibrary.columnIndices, show json.count columns - 1 = i - 1 + (json.count columns - i) by omega,
      ← List.range'_append_1, show 1 + (i - 1) = i by omega]
  have hcurve : json.getYieldCurve response = .error e := by
    unfold JsonLibrary.getYieldCurve
    rw [hresponse]
    show json.parse jsonString >>= _ = _
    rw [hparse]
    show json.dataset jobject >>= _ = _
    rw [hdataset]
    show (json.columnIndices columns).foldlM (json.addColumn columns dataSet) .empty >>= _ = _
    rw [hsplit, foldlM_addColumn_error (fun j hj => ?_) he]
    · rfl
    · rw [List.mem_range'_1] at hj
      exact hbefore j hj.1 (by omega)
  have hrate : yearRate ds = .error e := by
    unfold yearRate
    rw [h, hcurve]
  unfold projection getStockProjections
  rw [hrate]
  rfl

/-- The row ends before the column. -/
theorem projection_unreadable_column_short :
    projection zeroDraws (oneColumnService [.string "2016-01-04"]) "A" 1 true 0 =
      (.error .argumentOutOfRange, ⟨[], [], 0⟩) :=
  projection_unreadable_column _ zeroDraws rfl (hasDataset_oneColumn _) (i := 1) le_rfl (show 1 < 2 by decide)
    (fun j h1 hj => by omega) rfl "A" 1 true 0

end StockPredictor.Quandl
