/-
What a failed construction leaves. The constructor drops the directory and deletes a stale file
before it downloads, so a failure does not undo everything; but a file that was fresh is left
exactly as it was, no stale text is kept under a new date, no file is new when a download fails,
and the directory is exactly that of the Nasdaq listing just read, or empty.
-/
import StockPredictor.Ticker.Directory

namespace StockPredictor.Ticker

open Base

/-- The states reached by constructions, from no directory and no files. -/
inductive Reachable : State → Prop
  | start : Reachable ⟨⟨none, none, none⟩, []⟩
  | construct {s : State} (env : Environment) (h : Reachable s) : Reachable (exec (construct env) s).2

section Left

variable {env : Environment} {s s' : State} {e : Exn}

/-- The directory a failure leaves: that of the Nasdaq listing when both listings were got and it
could be read, and an empty one otherwise. -/
theorem failed_tickers (h : exec (construct env) s = (.error e, s')) :
    (∀ n o d, listingOf env s.store .nasdaq = .ok n → listingOf env s.store .others = .ok o → processData n = .ok d →
      s'.store.tickers = some d) ∧
    ((¬ ∃ n o d, listingOf env s.store .nasdaq = .ok n ∧ listingOf env s.store .others = .ok o ∧
      processData n = .ok d) → s'.store.tickers = some .empty) := by
  have hout := exec_construct env s
  rw [h] at hout
  cases hout with
  | nasdaqDownload hn =>
    refine ⟨fun n o d hn' => ?_, fun _ => rfl⟩
    rw [hn] at hn'
    cases hn'
  | othersDownload _ ho =>
    refine ⟨fun n o d _ ho' => ?_, fun _ => rfl⟩
    rw [ho] at ho'
    cases ho'
  | nasdaqParse hn ho hp =>
    refine ⟨fun n o d hn' _ hd => ?_, fun _ => rfl⟩
    rw [hn] at hn'
    cases hn'
    rw [hp] at hd
    cases hd
  | othersParse hn ho hdn =>
    refine ⟨fun n o d hn' _ hd => ?_, fun hno => absurd ⟨_, _, _, hn, ho, hdn⟩ hno⟩
    rw [hn] at hn'
    cases hn'
    rw [hdn] at hd
    cases hd
    rfl

/-- When both listings were got, a file that was not fresh is new, or gone if its save failed. -/
theorem failed_saved (h : exec (construct env) s = (.error e, s')) {n o : Option Text}
    (hn : listingOf env s.store .nasdaq = .ok n) (ho : listingOf env s.store .others = .ok o) {f : Listing}
    (hf : s.store.fresh env.now f = none) :
    s'.store.file f = if env.saves f = true then some ⟨(f.pick n o).getD [], env.now⟩ else none := by
  have hout := exec_construct env s
  rw [h] at hout
  cases hout with
  | nasdaqDownload hn' => rw [hn'] at hn; cases hn
  | othersDownload _ ho' => rw [ho'] at ho; cases ho
  | nasdaqParse hn' ho' =>
    cases hn'.symm.trans hn
    cases ho'.symm.trans ho
    exact file_saved_stale hf
  | othersParse hn' ho' =>
    cases hn'.symm.trans hn
    cases ho'.symm.trans ho
    rw [file_setTickers]
    exact file_saved_stale hf

/-- When the first download failed, its file is gone and the other untouched. -/
theorem failed_nasdaqDownload (h : exec (construct env) s = (.error e, s')) {e' : Exn}
    (hn : listingOf env s.store .nasdaq = .error e') :
    s'.store.file .nasdaq = none ∧ s'.store.file .others = s.store.file .others := by
  have hstale : s.store.fresh env.now .nasdaq = none := by
    unfold listingOf at hn
    split at hn
    · cases hn
    · assumption
  have hout := exec_construct env s
  rw [h] at hout
  cases hout with
  | nasdaqDownload =>
    rw [file_setTickers, file_setTickers]
    exact ⟨(file_afterRead_self ..).trans hstale, file_afterRead_of_ne env _ (by decide)⟩
  | othersDownload hn' => rw [hn'] at hn; cases hn
  | nasdaqParse hn' => rw [hn'] at hn; cases hn
  | othersParse hn' => rw [hn'] at hn; cases hn

/-- When only the second download failed, every file that was not fresh is gone. -/
theorem failed_othersDownload (h : exec (construct env) s = (.error e, s')) {n : Option Text} {e' : Exn}
    (hn : listingOf env s.store .nasdaq = .ok n) (ho : listingOf env s.store .others = .error e') {f : Listing}
    (hf : s.store.fresh env.now f = none) : s'.store.file f = none := by
  have hout := exec_construct env s
  rw [h] at hout
  cases hout with
  | nasdaqDownload hn' => rw [hn'] at hn; cases hn
  | othersDownload => rw [file_setTickers, file_afterReads, hf]
  | nasdaqParse _ ho' => rw [ho'] at ho; cases ho
  | othersParse _ ho' => rw [ho'] at ho; cases ho

end Left

/-- A failed construction, from any state, leaves exactly this. The directory is that of the Nasdaq
listing when both listings were got and it could be read, and an empty one otherwise. A file that was
fresh is what it was. A file that was not is, when both listings were got, new with the text got, or
gone if its save failed. If a download failed, no file is new: after the first one the Nasdaq file is
gone and the other untouched, after the second one every file that was not fresh is gone. -/
theorem failed_construct {env : Environment} {s s' : State} {e : Exn}
    (h : exec (construct env) s = (.error e, s')) :
    (∀ n o d, listingOf env s.store .nasdaq = .ok n → listingOf env s.store .others = .ok o → processData n = .ok d →
      s'.store.tickers = some d) ∧
    ((¬ ∃ n o d, listingOf env s.store .nasdaq = .ok n ∧ listingOf env s.store .others = .ok o ∧
      processData n = .ok d) → s'.store.tickers = some .empty) ∧
    (∀ symbol, isValidateSymbol s'.store symbol = 1 ↔ ∃ n o d, listingOf env s.store .nasdaq = .ok n ∧
      listingOf env s.store .others = .ok o ∧ processData n = .ok d ∧ symbol ∈ d.keys) ∧
    (∀ f c, s.store.fresh env.now f = some c → s'.store.file f = some c ∧ s.store.file f = some c) ∧
    (∀ n o, listingOf env s.store .nasdaq = .ok n → listingOf env s.store .others = .ok o →
      (s.store.fresh env.now .nasdaq = none → s'.store.file .nasdaq =
        if env.saves .nasdaq = true then some ⟨n.getD [], env.now⟩ else none) ∧
      (s.store.fresh env.now .others = none → s'.store.file .others =
        if env.saves .others = true then some ⟨o.getD [], env.now⟩ else none)) ∧
    (∀ e', listingOf env s.store .nasdaq = .error e' →
      s'.store.file .nasdaq = none ∧ s'.store.file .others = s.store.file .others) ∧
    (∀ n e', listingOf env s.store .nasdaq = .ok n → listingOf env s.store .others = .error e' →
      ∀ f, s.store.fresh env.now f = none → s'.store.file f = none) := by
  have hs' : (exec (construct env) s).2 = s' := congrArg Prod.snd h
  obtain ⟨hread, hempty⟩ := failed_tickers h
  refine ⟨hread, hempty, fun symbol => ?_,
    fun f c hf => ⟨hs' ▸ construct_fresh hf, (Option.filter_eq_some_iff.1 hf).1⟩,
    fun n o hn ho => ⟨fun hf => failed_saved h hn ho hf, fun hf => failed_saved h hn ho hf⟩,
    fun e' hn => failed_nasdaqDownload h hn, fun n e' hn ho f hf => failed_othersDownload h hn ho hf⟩
  rw [isValidateSymbol_eq_one_iff]
  constructor
  · rintro ⟨d, hd, hk⟩
    by_cases hgot : ∃ n o d, listingOf env s.store .nasdaq = .ok n ∧ listingOf env s.store .others = .ok o ∧
        processData n = .ok d
    · obtain ⟨n, o, d', hn, ho, hd'⟩ := hgot
      rw [hread n o d' hn ho hd'] at hd
      cases hd
      exact ⟨n, o, d, hn, ho, hd', hk⟩
    · -- an empty directory answers for no symbol
      rw [hempty hgot] at hd
      cases hd
      simp at hk
  · rintro ⟨n, o, d, hn, ho, hd, hk⟩
    exact ⟨d, hread n o d hn ho hd, hk⟩

/-- The server does not answer. -/
def serverDown (now : ℤ) : Environment where
  now := now
  download _ := .throws
  saves _ := true

/-- A first construction at time 0, with both listings saved or only the second one. -/
def firstLoad (saves : Listing → Bool) : State :=
  (exec (construct { sharedListings with saves }) ⟨⟨none, none, none⟩, []⟩).2

/-- The first listing arrives, the second one as a null stream. -/
def othersMissing : Environment where
  now := 0
  download
    | .nasdaq => .text "Symbol|Name\nA|Apple".toList
    | .others => .nullStream
  saves _ := true

/-- A failed download keeps a fresh file and empties the directory; a failed parse of the second
listing leaves the directory of the first, and both files new. -/
theorem failed_construct_both :
    (exec (construct (serverDown 1)) (firstLoad (· = .others))).2.store.file .others =
      some ⟨"Symbol|Name\nA|Agilent\nB|Barnes".toList, 0⟩ ∧
    (exec (construct (serverDown 1)) (firstLoad (· = .others))).2.store.tickers = some .empty ∧
    (exec (construct othersMissing) ⟨⟨none, none, none⟩, []⟩).2.store.tickers =
      some (Dictionary.empty.set "A".toList "Apple".toList) ∧
    (exec (construct othersMissing) ⟨⟨none, none, none⟩, []⟩).2.store.file .others = some ⟨[], 0⟩ := by
  obtain ⟨-, hempty, -, hfresh, -⟩ :=
    failed_construct (show exec (construct (serverDown 1)) (firstLoad (· = .others)) =
      (.error .web, (exec (construct (serverDown 1)) (firstLoad (· = .others))).2) by decide +kernel)
  obtain ⟨hread, -, -, -, hsaved, -⟩ :=
    failed_construct (show exec (construct othersMissing) ⟨⟨none, none, none⟩, []⟩ =
      (.error .nullReference, (exec (construct othersMissing) ⟨⟨none, none, none⟩, []⟩).2) by decide +kernel)
  have hn : listingOf othersMissing ⟨none, none, none⟩ .nasdaq = .ok (some "Symbol|Name\nA|Apple".toList) := rfl
  have ho : listingOf othersMissing ⟨none, none, none⟩ .others = .ok none := rfl
  refine ⟨(hfresh .others ⟨"Symbol|Name\nA|Agilent\nB|Barnes".toList, 0⟩ (by decide +kernel)).1, hempty ?_,
    hread _ _ _ hn ho (by decide), ?_⟩
  · rintro ⟨n, o, d, hdown, -⟩
    exact absurd hdown (by simp [listingOf, serverDown, show (firstLoad (· = .others)).store.fresh 1 .nasdaq = none
      by decide +kernel])
  · rw [(hsaved _ _ hn ho).2 rfl]
    rfl

/-- A load two days after the first fails at its first download: the symbol `A` was valid and is
not any more, and the cached Nasdaq listing is gone. -/
theorem failed_construct_changes :
    Reachable (firstLoad fun _ => true) ∧
    isValidateSymbol (firstLoad fun _ => true).store "A".toList = 1 ∧
    (firstLoad fun _ => true).store.nasdaq = some ⟨"Symbol|Name\nA|Apple".toList, 0⟩ ∧
    (exec (construct (serverDown (2 * day))) (firstLoad fun _ => true)).1 = .error .web ∧
    isValidateSymbol (exec (construct (serverDown (2 * day))) (firstLoad fun _ => true)).2.store "A".toList = 0 ∧
    (exec (construct (serverDown (2 * day))) (firstLoad fun _ => true)).2.store.nasdaq = none :=
  ⟨.construct _ .start, by decide +kernel, by decide +kernel, by decide +kernel, by decide +kernel,
    by decide +kernel⟩

end StockPredictor.Ticker
