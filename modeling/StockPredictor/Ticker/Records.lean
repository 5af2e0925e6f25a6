/-
The listing format and what `ProcessData` makes of it. A record is a symbol, a name and further
fields, a listing a header line and one line for each record; parsing a rendered listing gives the
name of the last record of each symbol. A line without a bar is an exception unless it is empty,
and the trailer line that closes a listing becomes an entry.
-/
import StockPredictor.Base.Sequence
import StockPredictor.Ticker.Directory

namespace StockPredictor.Ticker

open Base

/-! ## Lines -/

/-- The lines after the header. -/
def bodyLines (data : Text) : List Text := (data.splitOn '\n').drop 1

/-- The symbol and the name of a line, if it has two fields. -/
def pair? (line : Text) : Option (Text × Text) :=
  match line.splitOn '|' with
  | symbol :: name :: _ => some (symbol, name)
  | _ => none

theorem pair?_of_notMem {line : Text} (h : '|' ∉ line) : pair? line = none := by
  unfold pair?
  rw [List.splitOn_eq_singleton h]

theorem exists_pair?_of_mem {line : Text} (h : '|' ∈ line) : ∃ e, pair? line = some e := by
  obtain ⟨before, after, rfl⟩ := List.append_of_mem h
  obtain ⟨symbol, l, hl⟩ := List.exists_cons_of_ne_nil (List.splitOn_ne_nil '|' before)
  obtain ⟨name, l', hl'⟩ := List.exists_cons_of_ne_nil (List.splitOn_ne_nil '|' after)
  unfold pair?
  rw [List.splitOn_append_cons_self, hl, hl']
  cases l with
  | nil => exact ⟨_, rfl⟩
  | cons _ _ => exact ⟨_, rfl⟩

/-- A line is parsed unless it has characters but no bar. -/
theorem processLine_eq_ok (d : Directory) (line : Text) (d' : Directory) :
    processLine d line = .ok d' ↔ (line ≠ [] → '|' ∈ line) ∧ d' = d.setAll (pair? line).toList := by
  unfold processLine
  split
  · rename_i hnil
    subst hnil
    simp [pair?, Dictionary.setAll, eq_comm]
  · rename_i hne
    by_cases hbar : '|' ∈ line
    · obtain ⟨e, he⟩ := exists_pair?_of_mem hbar
      rw [he]
      unfold pair? at he
      split at he
      · rename_i hl
        cases he
        simp [hl, hbar, Dictionary.setAll, eq_comm]
      · cases he
    · rw [List.splitOn_eq_singleton hbar]
      simp [hne, hbar]

/-- What a successful parse returns: the entries of the lines after the header, the later ones over
the earlier ones. -/
theorem processData_eq_ok {data : Text} {d : Directory} : processData (some data) = .ok d ↔
    (∀ line ∈ bodyLines data, line ≠ [] → '|' ∈ line) ∧
      d = Dictionary.empty.setAll ((bodyLines data).filterMap pair?) := by
  have htake : ((data.splitOn '\n').drop 1).take ((data.splitOn '\n').length - 1) = bodyLines data := by
    rw [← List.length_drop, List.take_length]
    rfl
  unfold processData
  dsimp only
  rw [htake, foldlM_eq_ok processLine_eq_ok, foldl_filterMap (fun _ => rfl) Dictionary.setAll_append]

/-! ## The listing format -/

/-- A field of a record, free of both separators. -/
abbrev Field := { t : Text // '|' ∉ t ∧ '\n' ∉ t }

/-- A record of a listing: its first two fields and any number of further ones. -/
structure Record where
  symbol : Field
  name : Field
  further : List Field

def Record.fields (r : Record) : List Text := (r.symbol :: r.name :: r.further).map (·.val)

/-- `symbol|name|..`. -/
def Record.render (r : Record) : Text := ['|'].intercalate r.fields

/-- The header and the records as the lines of a text, with or without a newline at the end. -/
def renderListing (header : Text) (records : List Record) (final : Bool) : Text :=
  ['\n'].intercalate (header :: records.map (·.render)) ++ if final then ['\n'] else []

/-- The name of the last record of a symbol. -/
def lastName (records : List Record) (symbol : Text) : Option Text :=
  (records.reverse.find? fun r => decide (r.symbol.val = symbol)).map (·.name.val)

theorem Record.splitOn_render (r : Record) : r.render.splitOn '|' = r.fields := by
  refine List.splitOn_intercalate '|' (fun l hl => ?_) (List.cons_ne_nil _ _)
  obtain ⟨f, -, rfl⟩ := List.mem_map.1 hl
  exact f.2.1

theorem Record.pair?_render (r : Record) : pair? r.render = some (r.symbol.val, r.name.val) := by
  unfold pair?
  rw [r.splitOn_render]
  rfl

theorem Record.bar_mem_render (r : Record) : '|' ∈ r.render := by
  by_contra h
  have hnone := pair?_of_notMem h
  rw [r.pair?_render] at hnone
  cases hnone

theorem Record.newline_notMem_render (r : Record) : '\n' ∉ r.render := by
  refine notMem_intercalate (by decide) fun l hl => ?_
  obtain ⟨f, -, rfl⟩ := List.mem_map.1 hl
  exact f.2.2

/-- The lines of a rendered listing are its records, and an empty one after a final newline. -/
theorem bodyLines_renderListing {header : Text} (h : '\n' ∉ header) (records : List Record) (final : Bool) :
    bodyLines (renderListing header records final) = records.map (·.render) ++ if final then [[]] else [] := by
  have hlines : (['\n'].intercalate (header :: records.map (·.render))).splitOn '\n' =
      header :: records.map (·.render) := by
    refine List.splitOn_intercalate '\n' (List.forall_mem_cons.2 ⟨h, fun l hl => ?_⟩) (List.cons_ne_nil _ _)
    obtain ⟨r, -, rfl⟩ := List.mem_map.1 hl
    exact r.newline_notMem_render
  unfold bodyLines renderListing
  cases final with
  | true =>
    rw [if_pos rfl, List.splitOn_append_cons_self, hlines]
    rfl
  | false =>
    rw [if_neg Bool.false_ne_true, List.append_nil, hlines]
    exact (List.append_nil _).symm

/-- For every listing the parser returns the names of the last records of their symbols, and
nothing from the header. -/
theorem processData_renderListing {header : Text} (h : '\n' ∉ header) (records : List Record) (final : Bool) :
    ∃ d, processData (some (renderListing header records final)) = .ok d ∧
      (∀ symbol, d.lookup symbol = lastName records symbol) ∧
      ∀ symbol, symbol ∈ d.keys ↔ ∃ r ∈ records, r.symbol.val = symbol := by
  have hentries : (bodyLines (renderListing header records final)).filterMap pair? =
      records.map fun r => (r.symbol.val, r.name.val) := by
    have hfinal : (if final then [[]] else [] : List Text).filterMap pair? = [] := by cases final <;> rfl
    rw [bodyLines_renderListing h, List.filterMap_append, hfinal, List.append_nil, List.filterMap_map,
      ← List.filterMap_eq_map]
    exact List.filterMap_congr fun r _ => r.pair?_render
  refine ⟨_, processData_eq_ok.2 ⟨fun line hl hne => ?_, rfl⟩, fun symbol => ?_, fun symbol => ?_⟩
  · rw [bodyLines_renderListing h, List.mem_append] at hl
    rcases hl with hl | hl
    · obtain ⟨r, -, rfl⟩ := List.mem_map.1 hl
      exact r.bar_mem_render
    · cases final with
      | true => exact absurd (List.mem_singleton.1 hl) hne
      | false => cases hl
  · rw [hentries, Dictionary.lookup_setAll_empty, Dictionary.lastValue, ← List.map_reverse, List.find?_map,
      Option.map_map]
    rfl
  · rw [hentries, Dictionary.mem_keys_setAll_empty, List.map_map, List.mem_map]
    rfl

/-- Two records of the symbol `A`, the first with a further field and an empty name. -/
def repeatedRecords : List Record :=
  [⟨⟨"A".toList, by decide⟩, ⟨[], by decide⟩, [⟨"N".toList, by decide⟩]⟩,
    ⟨⟨"A".toList, by decide⟩, ⟨"Agilent".toList, by decide⟩, []⟩]

theorem processData_renderListing_repeated :
    renderListing "Symbol|Name".toList repeatedRecords true = "Symbol|Name\nA||N\nA|Agilent\n".toList ∧
      ∃ d, processData (some (renderListing "Symbol|Name".toList repeatedRecords true)) = .ok d ∧
        d.lookup "A".toList = some "Agilent".toList ∧ "Symbol".toList ∉ d.keys := by
  obtain ⟨d, hd, hlookup, hkeys⟩ :=
    processData_renderListing (show '\n' ∉ "Symbol|Name".toList by decide) repeatedRecords true
  refine ⟨by decide, d, hd, ?_, ?_⟩
  · rw [hlookup]
    decide
  · rw [hkeys]
    decide

end StockPredictor.Ticker
