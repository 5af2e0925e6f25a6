/-
The lines of a listing that are not records: lines without a bar, and the trailer with the time
of creation that closes a listing. The parser drops neither: a line without a bar is an exception
unless it is empty, and a trailer is assigned like a record, so only a listing that has no such
line, or a trailer that says what a record says, is read as its records alone.
-/
import StockPredictor.Ticker.Records

namespace StockPredictor.Ticker

open Base

/-! ## Record lines -/

/-- `File Creation Time: ..|||..`. -/
def isTrailer (line : Text) : Bool :=
  decide ("File Creation Time: ".toList <+: line) && decide ("|||".toList <:+: line)

/-- The lines after the header that have a bar. -/
def barLines (data : Text) : List Text := (bodyLines data).filter fun line => decide ('|' ∈ line)

/-- The trailer that closes a listing, if there is one. -/
def trailer? (data : Text) : Option Text := (barLines data).getLast?.filter isTrailer

/-- The lines with a bar but the closing trailer. -/
def recordLines (data : Text) : List Text :=
  if (trailer? data).isSome then (barLines data).dropLast else barLines data

/-- The symbols and names of the record lines. -/
def recordEntries (data : Text) : List (Text × Text) := (recordLines data).filterMap pair?

/-- The parser returns the map of the record lines alone. -/
def IgnoresOthers (data : Text) : Prop := processData (some data) = .ok (Dictionary.empty.setAll (recordEntries data))

/-- Every line that is not empty has a bar, and a closing trailer repeats the name that the last
record of its first field has. -/
structure RecordsOnly (data : Text) : Prop where
  bars : ∀ line ∈ bodyLines data, line ≠ [] → '|' ∈ line
  repeats : ∀ line e, trailer? data = some line → pair? line = some e →
    Dictionary.lastValue (recordEntries data) e.1 = some e.2

/-- The lines without a bar have no entry. -/
theorem filterMap_barLines (data : Text) : (barLines data).filterMap pair? = (bodyLines data).filterMap pair? := by
  unfold barLines
  rw [List.filterMap_filter]
  refine List.filterMap_congr fun line _ => ?_
  by_cases hbar : '|' ∈ line
  · rw [if_pos (decide_eq_true hbar)]
  · rw [if_neg (by simpa using hbar), pair?_of_notMem hbar]

theorem recordLines_of_none {data : Text} (h : trailer? data = none) : recordLines data = barLines data := by
  unfold recordLines
  rw [h]
  rfl

theorem recordLines_append {data line : Text} (h : trailer? data = some line) :
    recordLines data ++ [line] = barLines data := by
  have hlast := (Option.filter_eq_some_iff.1 h).1
  unfold recordLines
  rw [h, if_pos Option.isSome_some]
  exact List.dropLast_append_getLast? line hlast

/-- A closing trailer has a bar, so the parser finds an entry in it. -/
theorem exists_pair?_trailer {data line : Text} (h : trailer? data = some line) : ∃ e, pair? line = some e := by
  have hmem := List.mem_of_getLast? (Option.filter_eq_some_iff.1 h).1
  exact exists_pair?_of_mem (of_decide_eq_true (List.mem_filter.1 hmem).2)

/-- The parser assigns the trailer after the records. -/
theorem setAll_bodyLines_trailer {data line : Text} {e : Text × Text} (h : trailer? data = some line)
    (he : pair? line = some e) : (Dictionary.empty : Directory).setAll ((bodyLines data).filterMap pair?) =
      (Dictionary.empty.setAll (recordEntries data)).set e.1 e.2 := by
  rw [← filterMap_barLines, ← recordLines_append h, List.filterMap_append, Dictionary.setAll_append,
    List.filterMap_cons_some he]
  rfl

theorem setAll_bodyLines_of_none {data : Text} (h : trailer? data = none) :
    (Dictionary.empty : Directory).setAll ((bodyLines data).filterMap pair?) =
      Dictionary.empty.setAll (recordEntries data) := by
  rw [recordEntries, recordLines_of_none h, filterMap_barLines]

/-- A listing is read as its record lines alone exactly if it has records only. -/
theorem ignoresOthers_iff (data : Text) : IgnoresOthers data ↔ RecordsOnly data := by
  unfold IgnoresOthers
  rw [processData_eq_ok]
  cases h : trailer? data with
  | none =>
    rw [setAll_bodyLines_of_none h]
    constructor
    · rintro ⟨hbars, -⟩
      exact ⟨hbars, fun line e hline => by rw [h] at hline; cases hline⟩
    · intro hr
      exact ⟨hr.bars, rfl⟩
  | some line =>
    obtain ⟨e, he⟩ := exists_pair?_trailer h
    rw [setAll_bodyLines_trailer h he, eq_comm, Dictionary.set_eq_self_iff, Dictionary.lookup_setAll_empty]
    constructor
    · rintro ⟨hbars, hrep⟩
      refine ⟨hbars, fun line' e' hline' he' => ?_⟩
      rw [h] at hline'
      cases hline'
      rw [he] at he'
      cases he'
      exact hrep
    · intro hr
      exact ⟨hr.bars, hr.repeats line e h he⟩

/-! ## The directory -/

/-- The symbols of the record lines. -/
def recordSymbols (data : Text) : List Text := (recordEntries data).map Prod.fst

/-- The parser returns the map of the record lines alone exactly on the listings of records only, and
a construction that gets two of them succeeds and accepts exactly the symbols of their records. -/
theorem records_alone (n o : Text) : (IgnoresOthers n ↔ RecordsOnly n) ∧
    ∀ (env : Environment) (s : State), listingOf env s.store .nasdaq = .ok (some n) →
      listingOf env s.store .others = .ok (some o) → RecordsOnly n → RecordsOnly o →
      ∃ s', exec (construct env) s = (.ok ⟨⟩, s') ∧ ∀ symbol,
        isValidateSymbol s'.store symbol = 1 ↔ symbol ∈ recordSymbols n ∨ symbol ∈ recordSymbols o := by
  refine ⟨ignoresOthers_iff n, fun env s hn ho hrn hro => ?_⟩
  have hdn : IgnoresOthers n := (ignoresOthers_iff n).2 hrn
  have hdo : IgnoresOthers o := (ignoresOthers_iff o).2 hro
  refine ⟨_, exec_construct_loaded env s hn ho hdn hdo, fun symbol => ?_⟩
  rw [isValidateSymbol_merge, Dictionary.mem_keys_setAll_empty, Dictionary.mem_keys_setAll_empty]
  rfl

/-- A server whose listings are two given texts. -/
def serverOf (nasdaq others : Text) : Environment where
  now := 0
  download
    | .nasdaq => .text nasdaq
    | .others => .text others
  saves _ := true

/-- Before the first construction there is no directory and no file. -/
def noState : State := ⟨⟨none, none, none⟩, []⟩

theorem records_alone_listings :
    ∃ s', exec (construct (serverOf "S|N\nA|Agilent\n".toList "S|N\nB|Barnes".toList)) noState = (.ok ⟨⟩, s') ∧
      isValidateSymbol s'.store "B".toList = 1 ∧ isValidateSymbol s'.store "S".toList ≠ 1 := by
  have hn : RecordsOnly "S|N\nA|Agilent\n".toList :=
    (ignoresOthers_iff _).1 (show processData _ = .ok _ by decide +kernel)
  have ho : RecordsOnly "S|N\nB|Barnes".toList :=
    (ignoresOthers_iff _).1 (show processData _ = .ok _ by decide +kernel)
  obtain ⟨s', hs', hvalid⟩ := (records_alone "S|N\nA|Agilent\n".toList "S|N\nB|Barnes".toList).2
    (serverOf "S|N\nA|Agilent\n".toList "S|N\nB|Barnes".toList) noState rfl rfl hn ho
  refine ⟨s', hs', (hvalid _).2 (by decide +kernel), fun h => ?_⟩
  exact absurd ((hvalid _).1 h) (by decide +kernel)

/-- A listing with CRLF line ends, whose last line is a lone carriage return. -/
def crlfListing : Text := "S|N\r\nA|Agilent\r\n\r".toList

/-- A listing with its trailer. -/
def trailerListing : Text := "S|N\nA|Agilent\nFile Creation Time: 07162013|||\n".toList

/-- The carriage return loses the directory, and the trailer becomes a symbol. -/
theorem records_alone_fails : ¬ IgnoresOthers crlfListing ∧ ¬ IgnoresOthers trailerListing ∧
    processData (some crlfListing) = .error .indexOutOfRange ∧
    (exec (construct (serverOf crlfListing [])) noState).1 = .error .indexOutOfRange ∧
    recordSymbols trailerListing = ["A".toList] ∧
    isValidateSymbol (exec (construct (serverOf trailerListing [])) noState).2.store
      "File Creation Time: 07162013".toList = 1 := by
  have hcrlf : processData (some crlfListing) = .error .indexOutOfRange := by decide +kernel
  have hkeys : (Dictionary.empty : Directory).setAll (recordEntries trailerListing) =
      Dictionary.empty.set "A".toList "Agilent".toList := by decide +kernel
  refine ⟨fun h => ?_, fun h => ?_, hcrlf, by decide +kernel, by decide +kernel, by decide +kernel⟩
  · rw [IgnoresOthers, hcrlf] at h
    cases h
  · rw [IgnoresOthers, hkeys] at h
    exact absurd h (by decide +kernel)

end StockPredictor.Ticker
