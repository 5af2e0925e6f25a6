/-
The directory a construction builds and its two queries. The Nasdaq listing wins over the other
one, the exact query answers 1 exactly on the keys of the two, and the search returns exactly the
entries that contain the text ignoring case, so it finds every symbol the exact query accepts.
-/
import StockPredictor.Ticker.Load

namespace StockPredictor.Ticker

open Base

theorem isMatch_iff (toLower : Text → Text) (search : Text) (item : Text × Text) :
    isMatch toLower search item = true ↔
      toLower search <:+: toLower item.1 ∨ toLower search <:+: toLower item.2 := by
  simp [isMatch]

theorem isValidateSymbol_eq_one_iff (st : Store) (symbol : Text) :
    isValidateSymbol st symbol = 1 ↔ ∃ d, st.tickers = some d ∧ symbol ∈ d.keys := by
  unfold isValidateSymbol
  cases st.tickers with
  | none => simp
  | some d => by_cases h : symbol ∈ d.keys <;> simp [h]

theorem lookUpStock_eq_none_iff {toLower : Text → Text} {st : Store} {d : Directory} (h : st.tickers = some d)
    (search : Text) : lookUpStock toLower st search = none ↔
      ∀ item ∈ d.entries, ¬ (toLower search <:+: toLower item.1 ∨ toLower search <:+: toLower item.2) := by
  unfold lookUpStock
  rw [h]
  dsimp only
  rw [ite_eq_left_iff]
  simp only [reduceCtorEq, imp_false, not_not, List.filter_eq_nil_iff, isMatch_iff]

theorem lookUpStock_eq_some {toLower : Text → Text} {st : Store} {d : Directory} (h : st.tickers = some d)
    {search : Text} {hits : List Text} (hl : lookUpStock toLower st search = some hits) :
    hits = (d.entries.filter (isMatch toLower search)).map showEntry := by
  unfold lookUpStock at hl
  rw [h] at hl
  dsimp only at hl
  split at hl
  · cases hl
  · exact (Option.some.inj hl).symm

/-- A symbol of the directory is found by its own name, whatever the lower case. -/
theorem lookUpStock_self (toLower : Text → Text) (st : Store) {d : Directory} (h : st.tickers = some d)
    {symbol name : Text} (hs : d.lookup symbol = some name) :
    ∃ hits, lookUpStock toLower st symbol = some hits ∧ showEntry (symbol, name) ∈ hits := by
  have hm : (symbol, name) ∈ d.entries.filter (isMatch toLower symbol) :=
    List.mem_filter.2 ⟨Dictionary.lookup_eq_some_iff.1 hs, (isMatch_iff _ _ _).2 (.inl (List.infix_refl _))⟩
  unfold lookUpStock
  rw [h]
  dsimp only
  rw [if_neg (List.ne_nil_of_mem hm)]
  exact ⟨_, rfl, List.mem_map_of_mem hm⟩

/-- When both listings a construction gets can be parsed, it succeeds with the merged directory. -/
theorem exec_construct_loaded (env : Environment) (s : State) {n o : Option Text} {dn d' : Directory}
    (hn : listingOf env s.store .nasdaq = .ok n) (ho : listingOf env s.store .others = .ok o)
    (hdn : processData n = .ok dn) (hdo : processData o = .ok d') : exec (construct env) s =
      (.ok ⟨⟩, ⟨(saved env s.store n o).setTickers (some (dn.merge d')), servedBoth env s⟩) := by
  have hout := exec_construct env s
  generalize exec (construct env) s = r at hout
  cases hout with
  | nasdaqDownload h => rw [hn] at h; cases h
  | othersDownload _ h => rw [ho] at h; cases h
  | nasdaqParse hn' _ h => rw [hn] at hn'; cases hn'; rw [hdn] at h; cases h
  | othersParse _ ho' _ h => rw [ho] at ho'; cases ho'; rw [hdo] at h; cases h
  | loaded hn' ho' hdn' hdo' =>
    rw [hn] at hn'; cases hn'
    rw [ho] at ho'; cases ho'
    rw [hdn] at hdn'; cases hdn'
    rw [hdo] at hdo'; cases hdo'
    rfl

/-- The exact query on a merged directory. -/
theorem isValidateSymbol_merge (st : Store) (dn d' : Directory) (symbol : Text) :
    isValidateSymbol (st.setTickers (some (dn.merge d'))) symbol = 1 ↔ symbol ∈ dn.keys ∨ symbol ∈ d'.keys := by
  rw [isValidateSymbol_eq_one_iff, ← Dictionary.mem_keys_merge]
  simp

/-- When both listings a construction gets can be parsed, it succeeds, and the directory and its
queries mean what they should. -/
theorem directory_meaning (toLower : Text → Text) (env : Environment) (s : State) {n o : Option Text}
    {dn d' : Directory} (hn : listingOf env s.store .nasdaq = .ok n) (ho : listingOf env s.store .others = .ok o)
    (hdn : processData n = .ok dn) (hdo : processData o = .ok d') :
    ∃ d s', exec (construct env) s = (.ok ⟨⟩, s') ∧ s'.store.tickers = some d ∧ d.keys.Nodup ∧
      (∀ k, d.lookup k = (dn.lookup k).or (d'.lookup k)) ∧
      ∀ search,
        (isValidateSymbol s'.store search = 1 ↔ search ∈ dn.keys ∨ search ∈ d'.keys) ∧
        (lookUpStock toLower s'.store search = none ↔ ∀ item ∈ d.entries,
          ¬ (toLower search <:+: toLower item.1 ∨ toLower search <:+: toLower item.2)) ∧
        (∀ hits, lookUpStock toLower s'.store search = some hits →
          hits = (d.entries.filter (isMatch toLower search)).map fun item : Text × Text => item.1 ++ "-" ++ item.2) ∧
        (isValidateSymbol s'.store search = 1 → ∃ name hits, d.lookup search = some name ∧
          lookUpStock toLower s'.store search = some hits ∧ search ++ "-" ++ name ∈ hits) := by
  have hv := isValidateSymbol_merge (saved env s.store n o) dn d'
  refine ⟨dn.merge d', _, exec_construct_loaded env s hn ho hdn hdo, rfl, (dn.merge d').nodup,
    Dictionary.lookup_merge dn d', fun search =>
    ⟨hv search, lookUpStock_eq_none_iff rfl search, fun hits => lookUpStock_eq_some rfl, fun h => ?_⟩⟩
  have hk := (Dictionary.mem_keys_merge dn d' search).2 ((hv search).1 h)
  obtain ⟨name, hname⟩ := Option.isSome_iff_exists.1 (Dictionary.lookup_isSome_iff.2 hk)
  obtain ⟨hits, hl, hm⟩ :=
    lookUpStock_self toLower ((saved env s.store n o).setTickers (some (dn.merge d'))) rfl hname
  exact ⟨name, hits, hname, hl, hm⟩

/-- Listings that share the symbol `A`. -/
def sharedListings : Environment where
  now := 0
  download
    | .nasdaq => .text "Symbol|Name\nA|Apple".toList
    | .others => .text "Symbol|Name\nA|Agilent\nB|Barnes".toList
  saves _ := true

theorem directory_meaning_shared : ∃ d s', exec (construct sharedListings) ⟨⟨none, none, none⟩, []⟩ = (.ok ⟨⟩, s') ∧
    s'.store.tickers = some d ∧ d.lookup "A".toList = some "Apple".toList ∧
    d.lookup "B".toList = some "Barnes".toList := by
  obtain ⟨d, s', h1, h2, -, h3, -⟩ := directory_meaning (fun t => t.map Char.toLower) sharedListings
    ⟨⟨none, none, none⟩, []⟩ (n := some "Symbol|Name\nA|Apple".toList)
    (o := some "Symbol|Name\nA|Agilent\nB|Barnes".toList)
    (by decide) (by decide)
    (show processData _ = .ok (Dictionary.empty.set "A".toList "Apple".toList) by decide)
    (show processData _ = .ok ((Dictionary.empty.set "A".toList "Agilent".toList).set "B".toList "Barnes".toList)
      by decide)
  refine ⟨d, s', h1, h2, ?_, ?_⟩
  · rw [h3]; decide
  · rw [h3]; decide

end StockPredictor.Ticker
