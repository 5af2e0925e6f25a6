/-
The ticker queries of `DataService`. Each makes an engine of its own, so each runs the load again.
The load saves the listings before it reads them, so what it makes of the two texts, a directory or
an exception, is what every query makes of them until one of the files is a day old.
-/
import StockPredictor.Ticker.Directory

namespace StockPredictor.Ticker

open Base

/-! ## Queries -/

/-- The calls of `DataService` that make a `NasdaqStockEngine`. -/
inductive Query
  | getStockTickers
  | lookUpStock (search : Text)
  | isValidateSymbol (symbol : Text)

/-- What the three return. -/
inductive Answer
  | tickers (d : Option Directory)
  | found (l : Option (List Text))
  | validity (n : ℤ)
deriving DecidableEq

/-- The answer of an engine to a query. -/
def Query.answer (toLower : Text → Text) (st : Store) : Query → Answer
  | .getStockTickers => .tickers (Ticker.getStockTickers st)
  | .lookUpStock search => .found (Ticker.lookUpStock toLower st search)
  | .isValidateSymbol symbol => .validity (Ticker.isValidateSymbol st symbol)

/-- `new NasdaqStockEngine()`, then a query. -/
def withEngine {α : Type} (env : Environment) (query : Store → α) : EngineM α := do
  construct env
  let s ← get
  pure (query s.store)

/-- `DataService.GetStockTickers`, `LookUpStock` and `IsValidateSymbol`. -/
def ask (toLower : Text → Text) (env : Environment) (q : Query) : EngineM Answer := withEngine env (q.answer toLower)

/-- Queries one after the other, each with what its construction meets; an exception ends only the
query that raised it. -/
def session (toLower : Text → Text) (s : State) : List (Environment × Query) → List (Except Exn Answer) × State
  | [] => ([], s)
  | (env, q) :: qs =>
    let r := exec (ask toLower env q) s
    let rest := session toLower r.2 qs
    (r.1 :: rest.1, rest.2)

/-! ## What the listings say -/

/-- The directory two listings make, or the exception of the first that cannot be read. -/
def directoryOf (nasdaqListing otherListing : Option Text) : Except Exn Directory := do
  let dn ← processData nasdaqListing
  let d' ← processData otherListing
  pure (dn.merge d')

/-- A directory without files. -/
def Directory.store (d : Directory) : Store := ⟨some d, none, none⟩

/-- The query reads the directory only. -/
def ReadsDirectory {α : Type} (query : Store → α) : Prop :=
  ∀ (st : Store) (d : Directory), query (st.setTickers (some d)) = query d.store

theorem readsDirectory_answer (toLower : Text → Text) (q : Query) : ReadsDirectory (q.answer toLower) := by
  intro st d
  cases q <;> rfl

/-- A construction that gets both listings ends as they say. -/
theorem construct_listings {env : Environment} {s : State} {n o : Option Text}
    (hn : listingOf env s.store .nasdaq = .ok n) (ho : listingOf env s.store .others = .ok o) :
    ∃ t, exec (construct env) s =
        ((directoryOf n o).map fun _ => ⟨⟩, ⟨(saved env s.store n o).setTickers t, servedBoth env s⟩) ∧
      ∀ d, directoryOf n o = .ok d → t = some d := by
  have hout := exec_construct env s
  unfold directoryOf
  generalize exec (construct env) s = r at hout
  cases hout with
  | nasdaqDownload h => rw [hn] at h; cases h
  | othersDownload _ h => rw [ho] at h; cases h
  | nasdaqParse hn' ho' h =>
    rw [hn] at hn'; cases hn'
    rw [ho] at ho'; cases ho'
    rw [h]
    exact ⟨some .empty, rfl, nofun⟩
  | othersParse hn' ho' hdn h =>
    rw [hn] at hn'; cases hn'
    rw [ho] at ho'; cases ho'
    rw [hdn, h]
    exact ⟨_, rfl, nofun⟩
  | loaded hn' ho' hdn hdo =>
    rw [hn] at hn'; cases hn'
    rw [ho] at ho'; cases ho'
    rw [hdn, hdo]
    refine ⟨_, rfl, fun d hd => ?_⟩
    cases hd
    rfl

/-! ## Two fresh files -/

/-- Both files are there and fresh. -/
structure Cached (now : ℤ) (st : Store) (n o : CachedFile) : Prop where
  nasdaq : st.fresh now .nasdaq = some n
  others : st.fresh now .others = some o

namespace Cached

variable {now : ℤ} {st : Store} {n o : CachedFile}

/-- What is fresh now was fresh before. -/
theorem mono (h : Cached now st n o) {before : ℤ} (hle : before ≤ now) : Cached before st n o := by
  have hkeep : ∀ {f c}, st.fresh now f = some c → st.fresh before f = some c := by
    intro f c hf
    obtain ⟨hc, hfresh⟩ := Option.filter_eq_some_iff.1 hf
    refine Option.filter_eq_some_iff.2 ⟨hc, decide_eq_true ?_⟩
    have := of_decide_eq_true hfresh
    omega
  exact ⟨hkeep h.nasdaq, hkeep h.others⟩

theorem setTickers (h : Cached now st n o) (t : Option Directory) : Cached now (st.setTickers t) n o := by
  obtain ⟨hn, ho⟩ := h
  constructor
  · rw [fresh_setTickers]; exact hn
  · rw [fresh_setTickers]; exact ho

/-- A construction saves the fresh files over themselves. -/
theorem saved_eq {env : Environment} (h : Cached env.now st n o) :
    (saved env st (some n.text) (some o.text)).setTickers st.tickers = st := by
  have hlist : ∀ {f c}, st.fresh env.now f = some c → listingOf env st f = .ok (some c.text) := by
    intro f c hf
    unfold listingOf
    rw [hf]
  have hn := file_saved_fresh (n := some n.text) (o := some o.text) (hlist h.nasdaq) h.nasdaq
  have ho := file_saved_fresh (n := some n.text) (o := some o.text) (hlist h.others) h.others
  apply Store.ext
  · rfl
  · exact hn.trans (Option.filter_eq_some_iff.1 h.nasdaq).1.symm
  · exact ho.trans (Option.filter_eq_some_iff.1 h.others).1.symm

/-- A query while both files are fresh: the answer is what they say, and nothing is downloaded. -/
theorem exec_withEngine {α : Type} {query : Store → α} (hquery : ReadsDirectory query) {env : Environment} {s : State}
    (h : Cached env.now s.store n o) : ∃ t, exec (withEngine env query) s =
      ((directoryOf (some n.text) (some o.text)).map fun d => query d.store, ⟨s.store.setTickers t, s.served⟩) := by
  have hn : listingOf env s.store .nasdaq = .ok (some n.text) := by unfold listingOf; rw [h.nasdaq]
  have ho : listingOf env s.store .others = .ok (some o.text) := by unfold listingOf; rw [h.others]
  have hserved : servedBoth env s = s.served := by
    unfold servedBoth deliveries
    rw [h.nasdaq, h.others]
    simp
  obtain ⟨t, hexec, ht⟩ := construct_listings hn ho
  have hstore : (saved env s.store (some n.text) (some o.text)).setTickers t = s.store.setTickers t := by
    rw [← setTickers_setTickers _ s.store.tickers t, h.saved_eq]
  rw [hserved, hstore] at hexec
  refine ⟨t, ?_⟩
  unfold withEngine
  cases hd : directoryOf (some n.text) (some o.text) with
  | error e =>
    rw [hd] at hexec
    rw [exec_bind_error hexec]
    rfl
  | ok d =>
    rw [hd] at hexec
    rw [exec_bind_ok hexec, exec_bind_ok (exec_get _), exec_pure, ht d hd]
    exact Prod.ext (congrArg Except.ok (hquery _ _)) rfl

/-- Queries while both files are fresh. -/
theorem session (toLower : Text → Text) {s : State} (h : Cached now s.store n o) (qs : List (Environment × Query))
    (hq : ∀ q ∈ qs, q.1.now ≤ now) :
    (session toLower s qs).1 =
        qs.map (fun q => (directoryOf (some n.text) (some o.text)).map fun d => q.2.answer toLower d.store) ∧
      (session toLower s qs).2.served = s.served ∧ ∀ f, (session toLower s qs).2.store.file f = s.store.file f := by
  induction qs generalizing s with
  | nil => exact ⟨rfl, rfl, fun _ => rfl⟩
  | cons q qs ih =>
    obtain ⟨env, q⟩ := q
    obtain ⟨t, hask⟩ := (h.mono (hq _ List.mem_cons_self)).exec_withEngine (readsDirectory_answer toLower q)
    obtain ⟨hanswers, hserved, hfiles⟩ := ih (s := ⟨s.store.setTickers t, s.served⟩) (h.setTickers t)
      fun q' hq' => hq q' (List.mem_cons_of_mem _ hq')
    unfold Ticker.session ask
    dsimp only at hask ⊢
    rw [hask]
    refine ⟨?_, hserved, fun f => ?_⟩
    · rw [hanswers]
      rfl
    · rw [hfiles, file_setTickers]

end Cached

/-! ## The day after a load -/

/-- The listing was in a fresh file, or a save of it succeeds. -/
def Kept (env : Environment) (st : Store) (f : Listing) : Prop := (st.fresh env.now f).isSome ∨ env.saves f = true

/-- When the file that a construction leaves for a listing is a day old. -/
def expiry (env : Environment) (st : Store) (f : Listing) : ℤ := creationTime env.now (st.fresh env.now f) + day

/-- The file that a construction leaves for a listing. -/
theorem fresh_saved {env : Environment} {st : Store} {n o : Option Text} {f : Listing} {now : ℤ}
    (hl : listingOf env st f = .ok (f.pick n o)) (hk : Kept env st f) (hnow : now < expiry env st f) :
    (saved env st n o).fresh now f = some ⟨(f.pick n o).getD [], creationTime env.now (st.fresh env.now f)⟩ := by
  refine Option.filter_eq_some_iff.2 ⟨?_, ?_⟩
  · cases hf : st.fresh env.now f with
    | some c =>
      have ht : f.pick n o = some c.text := by
        unfold listingOf at hl
        rw [hf] at hl
        exact (Except.ok.inj hl).symm
      rw [file_saved_fresh hl hf, ht]
      rfl
    | none =>
      have hsave : env.saves f = true := by
        rcases hk with h | h
        · rw [hf] at h; cases h
        · exact h
      rw [file_saved_stale hf, if_pos hsave]
      rfl
  · refine decide_eq_true ?_
    unfold expiry at hnow
    dsimp only
    omega

/-- After a construction that gets both listings and keeps them, both files are fresh until they expire. -/
theorem cached_saved {env : Environment} {st : Store} {n o : Option Text} (hn : listingOf env st .nasdaq = .ok n)
    (ho : listingOf env st .others = .ok o) (hk : ∀ f, Kept env st f) (now : ℤ) (hnow : ∀ f, now < expiry env st f)
    (t : Option Directory) : Cached now ((saved env st n o).setTickers t)
      ⟨n.getD [], creationTime env.now (st.fresh env.now .nasdaq)⟩
      ⟨o.getD [], creationTime env.now (st.fresh env.now .others)⟩ := by
  apply Cached.setTickers
  exact ⟨fresh_saved (n := n) (o := o) hn (hk _) (hnow _), fresh_saved (n := n) (o := o) ho (hk _) (hnow _)⟩

/-- A load decides the answers of a day. When a construction, from any state, gets both listings and
keeps them, every query before one of the two files is a day old answers from their texts, whatever
the server offers by then and whichever saves fail: with the directory they make, or with the
exception of the listing that cannot be read; and no query downloads anything. If neither listing is
null, that is how the construction itself ended. -/
theorem load_lasts (toLower : Text → Text) {env : Environment} {s : State} {n o : Option Text}
    (hn : listingOf env s.store .nasdaq = .ok n) (ho : listingOf env s.store .others = .ok o)
    (hk : ∀ f, Kept env s.store f) (qs : List (Environment × Query))
    (hq : ∀ q ∈ qs, ∀ f, q.1.now < expiry env s.store f) :
    (session toLower (exec (construct env) s).2 qs).1 =
        qs.map (fun q => (directoryOf (some (n.getD [])) (some (o.getD []))).map fun d => q.2.answer toLower d.store) ∧
      (session toLower (exec (construct env) s).2 qs).2.served = (exec (construct env) s).2.served ∧
      (n.isSome → o.isSome →
        (exec (construct env) s).1 = (directoryOf (some (n.getD [])) (some (o.getD []))).map fun _ => ⟨⟩) := by
  obtain ⟨t, hexec, -⟩ := construct_listings hn ho
  rw [hexec]
  -- the queries are before the earlier of the two expiries
  have hlast : ∀ q ∈ qs, q.1.now ≤ min (expiry env s.store .nasdaq) (expiry env s.store .others) - 1 := by
    intro q hmem
    have h1 := hq q hmem .nasdaq
    have h2 := hq q hmem .others
    omega
  have hcached := cached_saved hn ho hk (min (expiry env s.store .nasdaq) (expiry env s.store .others) - 1)
    (by intro f; cases f <;> omega) t
  obtain ⟨hanswers, hserved, -⟩ := hcached.session toLower
    (s := ⟨(saved env s.store n o).setTickers t, servedBoth env s⟩) qs hlast
  refine ⟨hanswers, hserved, fun h1 h2 => ?_⟩
  obtain ⟨n, rfl⟩ := Option.isSome_iff_exists.1 h1
  obtain ⟨o, rfl⟩ := Option.isSome_iff_exists.1 h2
  rfl

/-- A load at time 0 that gets a Nasdaq listing with a line without a name. -/
def malformedLoad : Environment where
  now := 0
  download
    | .nasdaq => .text "Symbol|Name\nA".toList
    | .others => .text "Symbol|Name\nB|Barnes".toList
  saves _ := true

/-- The listings are complete a moment later, but no query sees them. -/
def queriesAfterwards : List (Environment × Query) :=
  [({ sharedListings with now := 1 }, .isValidateSymbol "A".toList),
    ({ sharedListings with now := 2 }, .getStockTickers)]

theorem load_lasts_malformed : (session id (exec (construct malformedLoad) ⟨⟨none, none, none⟩, []⟩).2
    queriesAfterwards).1 = [.error .indexOutOfRange, .error .indexOutOfRange] := by
  have hq : ∀ q ∈ queriesAfterwards, ∀ f, q.1.now < expiry malformedLoad ⟨none, none, none⟩ f := by
    intro q hq f
    have hexpiry : expiry malformedLoad ⟨none, none, none⟩ f = day := by cases f <;> rfl
    rw [hexpiry]
    rcases List.mem_pair.1 hq with rfl | rfl <;> decide
  exact (load_lasts id (s := ⟨⟨none, none, none⟩, []⟩) (n := some "Symbol|Name\nA".toList)
    (o := some "Symbol|Name\nB|Barnes".toList) (by decide) (by decide) (fun _ => .inr rfl) queriesAfterwards hq).1

end StockPredictor.Ticker
