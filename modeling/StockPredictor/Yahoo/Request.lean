/-
The url of `YahooEngine.Fetch`. The query is percent-encoded by hand, the symbols go into it as they
are: the service reads them back exactly if none of them has a separator of the url, an escape, a
quote or an escape character of the literals.
-/
import StockPredictor.Base.Literal
import StockPredictor.Base.Url

namespace StockPredictor.Yahoo

open Base

/-! ## The url -/

/-- `String.Format(BaseUrl, symbolList)`. -/
def baseUrl (symbolList : Text) : Text :=
  "http://query.yahooapis.com/v1/public/yql?q=".toList ++
    "select%20*%20from%20yahoo.finance.quotes%20where%20symbol%20in%20(".toList ++ symbolList ++ ")".toList ++
    "&env=store%3A%2F%2Fdatatables.org%2Falltableswithkeys".toList

/-- The symbols between encoded quotes, with encoded commas between. -/
def symbolList (symbols : List Text) : Text :=
  "%2C".toList.intercalate (symbols.map fun w => "%22".toList ++ w ++ "%22".toList)

/-- The url that `YahooEngine.Fetch` loads. -/
def fetchUrl (symbols : List Text) : Text := baseUrl (symbolList symbols)

/-! ## What the service reads -/

def selectQuotes : Text := "select * from yahoo.finance.quotes where symbol in (".toList

/-- The query for some symbols. -/
def quotesQuery (symbols : List Text) : Text := selectQuotes ++ renderLiterals symbols ++ [')']

/-- The symbols that a query for quotes names. -/
def namedSymbols (escape : Option Char) (text : Text) : Option (List Text) :=
  if selectQuotes <+: text ∧ text.getLast? = some ')' then
    readLiterals escape (text.drop selectQuotes.length).dropLast
  else none

/-- The request is the query for the symbols, the query names them, and the tables are the same. The
literals may have an escape character. -/
structure NamesExactly (escape : Option Char) (symbols : List Text) : Prop where
  request : (parameter "q".toList (fetchUrl symbols)).map percentDecode = some (utf8 (quotesQuery symbols))
  literals : namedSymbols escape (quotesQuery symbols) = some symbols
  env : parameter "env".toList (fetchUrl symbols) =
    some "store%3A%2F%2Fdatatables.org%2Falltableswithkeys".toList

/-- A symbol without a character that one of the three syntaxes reserves. -/
structure PlainSymbol (escape : Option Char) (symbol : Text) : Prop where
  separators : ∀ c ∈ symbol, NoSeparator c
  escapes : hasEscape symbol = false
  literal : Plain escape symbol

/-! ## Decoding -/

/-- Literals of bytes, one for each symbol. -/
def byteLiterals (bytes : Text → List UInt8) (symbols : List Text) : List UInt8 :=
  [44].intercalate (symbols.map fun s => 34 :: (bytes s ++ [34]))

theorem byteLiterals_singleton (bytes : Text → List UInt8) (s : Text) :
    byteLiterals bytes [s] = 34 :: (bytes s ++ [34]) := List.intercalate_singleton

theorem byteLiterals_cons_cons (bytes : Text → List UInt8) (s s' : Text) (symbols : List Text) :
    byteLiterals bytes (s :: s' :: symbols) = 34 :: (bytes s ++ [34]) ++ 44 :: byteLiterals bytes (s' :: symbols) := by
  unfold byteLiterals
  rw [List.map_cons, List.map_cons, List.intercalate_cons_cons, List.append_assoc]
  rfl

theorem symbolList_singleton (s : Text) : symbolList [s] = "%22".toList ++ s ++ "%22".toList :=
  List.intercalate_singleton

theorem symbolList_cons_cons (s s' : Text) (symbols : List Text) : symbolList (s :: s' :: symbols) =
    symbolList [s] ++ '%' :: '2' :: 'C' :: symbolList (s' :: symbols) := by
  rw [symbolList_singleton]
  unfold symbolList
  rw [List.map_cons, List.map_cons, List.intercalate_cons_cons, List.append_assoc]
  rfl

theorem hexValue_percent : hexValue '%' = none := by decide

/-- A symbol between encoded quotes. -/
theorem percentDecode_symbolList_singleton (s : Text) :
    percentDecode (symbolList [s]) = 34 :: (percentDecode s ++ [34]) := by
  have hquote : escaped? '%' '2' '2' = some 34 := by decide
  have hsplit : symbolList [s] = '%' :: '2' :: '2' :: (s ++ '%' :: ['2', '2']) := by
    rw [symbolList_singleton]
    simp
  rw [hsplit, percentDecode_escaped hquote, percentDecode_append s hexValue_percent, percentDecode_escaped hquote]
  rfl

/-- No escape goes from a symbol into what the code adds, so each symbol is decoded by itself. -/
theorem percentDecode_symbolList (symbols : List Text) :
    percentDecode (symbolList symbols) = byteLiterals percentDecode symbols := by
  have hcomma : escaped? '%' '2' 'C' = some 44 := by decide
  induction symbols with
  | nil => rfl
  | cons s symbols ih =>
    cases symbols with
    | nil => rw [percentDecode_symbolList_singleton, byteLiterals_singleton]
    | cons s' symbols =>
      rw [symbolList_cons_cons, percentDecode_append _ hexValue_percent, percentDecode_escaped hcomma,
        percentDecode_symbolList_singleton, ih, byteLiterals_cons_cons]

theorem utf8_renderLiterals (symbols : List Text) : utf8 (renderLiterals symbols) = byteLiterals utf8 symbols := by
  have hquoted : ∀ t, utf8 (quoted t) = 34 :: (utf8 t ++ [34]) := by
    intro t
    rw [quoted, utf8_cons, utf8_append]
    rfl
  induction symbols with
  | nil => rfl
  | cons s symbols ih =>
    cases symbols with
    | nil => rw [renderLiterals_singleton, hquoted, byteLiterals_singleton]
    | cons s' symbols =>
      rw [renderLiterals_cons_cons, utf8_append, hquoted, utf8_cons, ih, byteLiterals_cons_cons]
      rfl

/-- The literals of the decoded symbols are as long as those of the symbols only without escapes. -/
theorem length_byteLiterals (symbols : List Text) :
    (byteLiterals percentDecode symbols).length ≤ (byteLiterals utf8 symbols).length ∧
      ((byteLiterals percentDecode symbols).length = (byteLiterals utf8 symbols).length ↔
        ∀ s ∈ symbols, hasEscape s = false) := by
  induction symbols with
  | nil => exact ⟨le_rfl, iff_of_true rfl fun _ h => by cases h⟩
  | cons s symbols ih =>
    have hle := length_percentDecode_le s
    rw [List.forall_mem_cons, ← length_percentDecode_eq_iff s]
    cases symbols with
    | nil => simpa [byteLiterals_singleton] using hle
    | cons s' symbols =>
      rw [byteLiterals_cons_cons, byteLiterals_cons_cons, ← ih.2]
      simp only [List.length_append, List.length_cons, List.length_nil]
      omega

theorem byteLiterals_eq {symbols : List Text} (h : ∀ s ∈ symbols, hasEscape s = false) :
    byteLiterals percentDecode symbols = byteLiterals utf8 symbols := by
  unfold byteLiterals
  rw [List.map_congr_left fun s hs => by rw [percentDecode_eq_utf8 (h s hs)]]

/-! ## The parameters -/

/-- The constant part of the query, encoded by hand, up to the parenthesis. -/
def encodedSelect : Text := "select%20*%20from%20yahoo.finance.quotes%20where%20symbol%20in%20".toList

/-- The value of `q` in the url, as long as no symbol ends it. -/
def encodedQuery (symbols : List Text) : Text := encodedSelect ++ '(' :: (symbolList symbols ++ [')'])

/-- The value of `env`. -/
def tables : Text := "store%3A%2F%2Fdatatables.org%2Falltableswithkeys".toList

theorem fetchUrl_eq (symbols : List Text) : fetchUrl symbols = "http://query.yahooapis.com/v1/public/yql".toList ++
    '?' :: ("q".toList ++ '=' :: (encodedQuery symbols ++ '&' :: ("env".toList ++ '=' :: tables))) := by
  unfold fetchUrl baseUrl encodedQuery encodedSelect tables
  simp

theorem percentDecode_encodedQuery (symbols : List Text) :
    percentDecode (encodedQuery symbols) = utf8 selectQuotes ++ byteLiterals percentDecode symbols ++ [41] := by
  have hselect : percentDecode encodedSelect ++ String.utf8EncodeChar '(' = utf8 selectQuotes := by decide +kernel
  have hclose : percentDecode [')'] = [41] := by decide
  rw [encodedQuery, percentDecode_append _ (by decide), percentDecode_cons_of_ne (by decide), ← List.append_assoc,
    hselect, percentDecode_append _ (by decide), percentDecode_symbolList, List.append_assoc, hclose]

theorem utf8_quotesQuery (symbols : List Text) :
    utf8 (quotesQuery symbols) = utf8 selectQuotes ++ byteLiterals utf8 symbols ++ [41] := by
  rw [quotesQuery, utf8_append, utf8_append, utf8_renderLiterals]
  rfl

/-- What holds of the characters that the code adds holds of the text exactly if it does of the
symbols. -/
theorem forall_mem_symbolList {P : Char → Prop} (hP : ∀ c ∈ "%2C".toList, P c) (symbols : List Text) :
    (∀ c ∈ symbolList symbols, P c) ↔ ∀ s ∈ symbols, ∀ c ∈ s, P c := by
  have hliteral : ∀ s, (∀ c ∈ symbolList [s], P c) ↔ ∀ c ∈ s, P c := by
    intro s
    have hquote : ∀ c ∈ "%22".toList, P c := by simpa using ⟨hP '%' (by simp), hP '2' (by simp)⟩
    rw [symbolList_singleton, List.forall_mem_append, List.forall_mem_append, and_iff_left hquote, and_iff_right hquote]
  induction symbols with
  | nil => simp [symbolList]
  | cons s symbols ih =>
    cases symbols with
    | nil => rw [hliteral, List.forall_mem_singleton]
    | cons s' symbols =>
      rw [symbolList_cons_cons, List.forall_mem_append, hliteral, List.forall_mem_cons, List.forall_mem_cons,
        List.forall_mem_cons, and_iff_right (hP '%' (by simp)), and_iff_right (hP '2' (by simp)),
        and_iff_right (hP 'C' (by simp)), List.forall_mem_cons (l := s' :: symbols)]
      exact and_congr_right fun _ => ih

/-- The separators in the query are those in the symbols. -/
theorem encodedQuery_separators (symbols : List Text) :
    (∀ c ∈ encodedQuery symbols, NoSeparator c) ↔ ∀ s ∈ symbols, ∀ c ∈ s, NoSeparator c := by
  have hselect : encodedSelect.all (fun c => NoSeparator c) = true := by decide +kernel
  rw [encodedQuery, List.forall_mem_append, List.forall_mem_cons, List.forall_mem_append,
    forall_mem_symbolList (by simp [NoSeparator]), and_iff_right (by simpa [List.all_eq_true] using hselect)]
  simp [NoSeparator]

/-- What the service gets for `q` ends at the first separator. -/
theorem parameter_q (symbols : List Text) : parameter "q".toList (fetchUrl symbols) =
    some ((encodedQuery symbols ++ '&' :: ("env".toList ++ '=' :: tables)).takeWhile fun c => NoSeparator c) := by
  rw [fetchUrl_eq]
  exact parameter_first (by simp) (by simp [NoSeparator]) _

theorem parameter_q_eq {symbols : List Text} (h : ∀ s ∈ symbols, ∀ c ∈ s, NoSeparator c) :
    parameter "q".toList (fetchUrl symbols) = some (encodedQuery symbols) := by
  have hquery := (encodedQuery_separators symbols).2 h
  rw [parameter_q, List.takeWhile_append_of_pos fun c hc => decide_eq_true (hquery c hc),
    List.takeWhile_cons_of_neg (by decide), List.append_nil]

theorem parameter_env_eq {symbols : List Text} (h : ∀ s ∈ symbols, ∀ c ∈ s, NoSeparator c) :
    parameter "env".toList (fetchUrl symbols) = some tables := by
  have hquery := (encodedQuery_separators symbols).2 h
  have hpart : ∀ c ∈ "q".toList ++ '=' :: encodedQuery symbols, NoSeparator c := by
    rw [List.forall_mem_append, List.forall_mem_cons]
    exact ⟨by simp [NoSeparator], by simp [NoSeparator], hquery⟩
  have hnone : valueOf? "env".toList ("q".toList ++ '=' :: encodedQuery symbols) = none := by
    simp [valueOf?]
  have htables : tables.takeWhile (fun c => NoSeparator c) = tables := by decide +kernel
  have hsplit : fetchUrl symbols = "http://query.yahooapis.com/v1/public/yql".toList ++
      '?' :: (("q".toList ++ '=' :: encodedQuery symbols) ++ '&' :: ("env".toList ++ '=' :: tables)) := by
    rw [fetchUrl_eq, List.append_assoc, List.cons_append]
  rw [hsplit, parameter_skip (by simp) hpart hnone, parameter_first (by simp) (by simp [NoSeparator]), htables]

/-- With a separator in a symbol the request is cut short. -/
theorem parameter_q_short {symbols : List Text} (h : ¬ ∀ s ∈ symbols, ∀ c ∈ s, NoSeparator c) :
    ∃ value, parameter "q".toList (fetchUrl symbols) = some value ∧
      (percentDecode value).length < (percentDecode (encodedQuery symbols)).length := by
  rw [← encodedQuery_separators] at h
  obtain ⟨c, hc, hsep⟩ : ∃ c ∈ encodedQuery symbols, ¬ NoSeparator c := by
    by_contra hall
    exact h fun c hc => by_contra fun hsep => hall ⟨c, hc, hsep⟩
  -- the first separator cuts the query
  obtain ⟨x, hfind⟩ := Option.isSome_iff_exists.1
    ((List.find?_isSome (p := fun c => decide (¬ NoSeparator c))).2 ⟨c, hc, decide_eq_true hsep⟩)
  obtain ⟨hx, value, rest, hquery, hvalue⟩ := List.find?_eq_some_iff_append.1 hfind
  have hxsep : ¬ NoSeparator x := of_decide_eq_true hx
  have hxhex : hexValue x = none ∧ x ≠ '%' := by
    rcases not_and_or.1 hxsep with h | h
    · rw [not_not.1 h]
      decide
    · rw [not_not.1 h]
      decide
  refine ⟨value, ?_, ?_⟩
  · rw [parameter_q, hquery, List.append_assoc, List.takeWhile_append_of_pos (by simpa using hvalue), List.cons_append,
      List.takeWhile_cons_of_neg (by simpa using hxsep), List.append_nil]
  · rw [hquery]
    exact length_percentDecode_lt_append value hxhex.1 hxhex.2 rest

/-! ## The request -/

/-- The query decodes to the one for the symbols exactly if there is no escape in them. -/
theorem percentDecode_encodedQuery_eq_iff (symbols : List Text) :
    percentDecode (encodedQuery symbols) = utf8 (quotesQuery symbols) ↔ ∀ s ∈ symbols, hasEscape s = false := by
  rw [percentDecode_encodedQuery, utf8_quotesQuery, List.append_assoc, List.append_assoc, List.append_cancel_left_eq,
    List.append_cancel_right_eq]
  exact ⟨fun h => (length_byteLiterals symbols).2.1 (congrArg List.length h), byteLiterals_eq⟩

theorem request_iff (symbols : List Text) :
    (parameter "q".toList (fetchUrl symbols)).map percentDecode = some (utf8 (quotesQuery symbols)) ↔
      ∀ s ∈ symbols, (∀ c ∈ s, NoSeparator c) ∧ hasEscape s = false := by
  by_cases hsep : ∀ s ∈ symbols, ∀ c ∈ s, NoSeparator c
  · rw [parameter_q_eq hsep, Option.map_some, Option.some.injEq, percentDecode_encodedQuery_eq_iff]
    exact forall₂_congr fun s hs => (and_iff_right (hsep s hs)).symm
  · refine iff_of_false (fun h => ?_) fun h => hsep fun s hs => (h s hs).1
    obtain ⟨value, hvalue, hshort⟩ := parameter_q_short hsep
    rw [hvalue, Option.map_some, Option.some.injEq] at h
    have hle := (length_byteLiterals symbols).1
    rw [h, percentDecode_encodedQuery, utf8_quotesQuery] at hshort
    simp only [List.length_append] at hshort
    omega

theorem namedSymbols_iff (escape : Option Char) (symbols : List Text) :
    namedSymbols escape (quotesQuery symbols) = some symbols ↔ ∀ s ∈ symbols, Plain escape s := by
  have hselect : selectQuotes <+: quotesQuery symbols :=
    ⟨renderLiterals symbols ++ [')'], by rw [quotesQuery, List.append_assoc]⟩
  have hlast : (quotesQuery symbols).getLast? = some ')' := List.getLast?_concat
  have hinner : ((quotesQuery symbols).drop selectQuotes.length).dropLast = renderLiterals symbols := by
    rw [quotesQuery, List.append_assoc, List.drop_left, List.dropLast_concat]
  unfold namedSymbols
  rw [if_pos ⟨hselect, hlast⟩, hinner, readLiterals_renderLiterals_iff]

theorem namesExactly_iff (escape : Option Char) (symbols : List Text) :
    NamesExactly escape symbols ↔ ∀ s ∈ symbols, PlainSymbol escape s := by
  constructor
  · intro h s hs
    have hrequest := (request_iff symbols).1 h.request s hs
    exact ⟨hrequest.1, hrequest.2, (namedSymbols_iff escape symbols).1 h.literals s hs⟩
  · intro h
    exact ⟨(request_iff symbols).2 fun s hs => ⟨(h s hs).separators, (h s hs).escapes⟩,
      (namedSymbols_iff escape symbols).2 fun s hs => (h s hs).literal,
      parameter_env_eq fun s hs => (h s hs).separators⟩

/-- Two lists that are named exactly have different urls. -/
theorem NamesExactly.injective {escape : Option Char} {symbols symbols' : List Text} (h : NamesExactly escape symbols)
    (h' : NamesExactly escape symbols') (hurl : fetchUrl symbols = fetchUrl symbols') : symbols = symbols' := by
  have hbytes := h.request
  rw [hurl, h'.request, Option.some.injEq] at hbytes
  have hliterals := h.literals
  rw [← utf8_injective hbytes, h'.literals, Option.some.injEq] at hliterals
  exact hliterals.symm

/-- The request names exactly the symbols if and only if every symbol is plain, whatever the escape
character of the literals is, and no other list of plain symbols has the same url. -/
theorem request_names_plain (escape : Option Char) (symbols : List Text) :
    (NamesExactly escape symbols ↔ ∀ s ∈ symbols, PlainSymbol escape s) ∧
    ∀ symbols', (∀ s ∈ symbols, PlainSymbol escape s) → (∀ s ∈ symbols', PlainSymbol escape s) →
      fetchUrl symbols = fetchUrl symbols' → symbols = symbols' :=
  ⟨namesExactly_iff escape symbols, fun symbols' h h' => NamesExactly.injective
    ((namesExactly_iff escape symbols).2 h) ((namesExactly_iff escape symbols').2 h')⟩

theorem plainSymbol_letters : ∀ s ∈ ["MSFT".toList, "^GSPC".toList], PlainSymbol none s := by
  rw [List.forall_mem_cons, List.forall_mem_singleton]
  exact ⟨⟨by simp [NoSeparator], by decide, by simp [Plain]⟩, ⟨by simp [NoSeparator], by decide, by simp [Plain]⟩⟩

theorem request_names_plain_letters : NamesExactly none ["MSFT".toList, "^GSPC".toList] ∧
    fetchUrl ["MSFT".toList, "^GSPC".toList] ≠ fetchUrl ["MSFT".toList] := by
  refine ⟨(request_names_plain none _).1.2 plainSymbol_letters, fun h => ?_⟩
  have hmsft : ∀ s ∈ ["MSFT".toList], PlainSymbol none s := fun s hs => plainSymbol_letters s (by simp_all)
  exact absurd ((request_names_plain none _).2 _ plainSymbol_letters hmsft h) (by decide)

/-- The ampersand of `AT&T` ends the query, a quote ends a literal, and a symbol with encoded quotes
and a comma is taken for two. -/
theorem request_names_plain_fails : ¬ NamesExactly none ["AT&T".toList] ∧
    ¬ NamesExactly none ["A\"".toList] ∧ ¬ NamesExactly none ["A%22%2C%22B".toList] ∧
    parameter "q".toList (fetchUrl ["AT&T".toList]) =
      some "select%20*%20from%20yahoo.finance.quotes%20where%20symbol%20in%20(%22AT".toList ∧
    namedSymbols none (quotesQuery ["A\"".toList]) = none ∧
    fetchUrl ["A%22%2C%22B".toList] = fetchUrl ["A".toList, "B".toList] := by
  refine ⟨fun h => ?_, fun h => ?_, fun h => ?_, by decide +kernel, by decide +kernel, by decide +kernel⟩
  · have hplain := (namesExactly_iff _ _).1 h "AT&T".toList (List.mem_singleton_self _)
    exact absurd (hplain.separators '&' (by decide)) (by decide)
  · have hplain := (namesExactly_iff _ _).1 h "A\"".toList (List.mem_singleton_self _)
    exact absurd hplain.literal.1 (by decide)
  · have hplain := (namesExactly_iff _ _).1 h "A%22%2C%22B".toList (List.mem_singleton_self _)
    exact absurd hplain.escapes (by decide)

end StockPredictor.Yahoo
