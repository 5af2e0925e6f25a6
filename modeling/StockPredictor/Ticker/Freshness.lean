/-
Runs of constructions while the clock goes on, the server changes its listings, downloads fail
and saves fail. The invariant ties the text of every cached file to a delivery at its creation
time, so a directory never holds a listing older than a day.
-/
import StockPredictor.Base.Run
import StockPredictor.Ticker.Load

namespace StockPredictor.Ticker

open Base

/-! ## Runs -/

/-- The clock, the listings on the server, and the state of the engine. -/
structure World where
  clock : ℤ
  server : Listing → Text
  state : State

/-- No cached files and no directory yet. -/
def World.start (clock : ℤ) (server : Listing → Text) : World := ⟨clock, server, ⟨⟨none, none, none⟩, []⟩⟩

/-- What can happen. In a construction `up` says which listings can be downloaded and `saves` which
files can be written. -/
inductive Event
  | wait (ticks : ℕ)
  | publish (f : Listing) (t : Text)
  | construct (up saves : Listing → Bool)

/-- What a construction meets: a download throws or delivers the text now on the server. -/
def World.environment (w : World) (up saves : Listing → Bool) : Environment where
  now := w.clock
  download f := if up f then .text (w.server f) else .throws
  saves := saves

def step (w : World) : Event → World
  | .wait ticks => { w with clock := w.clock + ticks }
  | .publish f t => { w with server := Function.update w.server f t }
  | .construct up saves => { w with state := (exec (construct (w.environment up saves)) w.state).2 }

/-- In the run, a construction found the server up for the listing, with this text at this time. -/
def Offered (w : World) (es : List Event) (d : Delivery) : Prop :=
  ∃ es₁ up saves, es₁ ++ [.construct up saves] <+: es ∧ up d.listing = true ∧
    (run step w es₁).clock = d.time ∧ (run step w es₁).server d.listing = d.text

theorem Offered.mono {w : World} {es : List Event} {d : Delivery} (h : Offered w es d) (e : Event) :
    Offered w (es ++ [e]) d := by
  obtain ⟨es₁, up, saves, hp, h⟩ := h
  exact ⟨es₁, up, saves, hp.trans (List.prefix_append _ _), h⟩

/-- Every cached text was delivered at the creation time of its file, and every delivery is one the
server offered, not in the future. -/
structure Traced (w₀ : World) (es : List Event) (w : World) : Prop where
  cached : ∀ f c, w.state.store.file f = some c → ⟨f, c.created, c.text⟩ ∈ w.state.served
  past : ∀ d ∈ w.state.served, d.time ≤ w.clock
  offered : ∀ d ∈ w.state.served, Offered w₀ es d

theorem traced_start (clock : ℤ) (server : Listing → Text) :
    Traced (.start clock server) [] (.start clock server) where
  cached f c h := by cases f <;> cases h
  past d hd := by cases hd
  offered d hd := by cases hd

/-! ## One construction -/

section Construct

variable {w : World} {up saves : Listing → Bool} {f : Listing}

theorem mem_deliveries {d : Delivery} (h : d ∈ deliveries (w.environment up saves) w.state.store f) :
    up d.listing = true ∧ d = ⟨d.listing, w.clock, w.server d.listing⟩ := by
  unfold deliveries at h
  split at h
  · rename_i t _ ht
    rw [List.mem_singleton] at h
    subst h
    by_cases hu : up f = true
    · simp only [World.environment, hu, if_true, Download.text.injEq] at ht
      exact ⟨hu, by rw [← ht]; rfl⟩
    · simp [World.environment, hu] at ht
  · cases h

/-- A listing that is not read from a fresh file is delivered. -/
theorem deliveries_of_listingOf {t : Option Text} (hf : w.state.store.fresh w.clock f = none)
    (h : listingOf (w.environment up saves) w.state.store f = .ok t) :
    t = some (w.server f) ∧
      ⟨f, w.clock, w.server f⟩ ∈ deliveries (w.environment up saves) w.state.store f := by
  have hf' : w.state.store.fresh (w.environment up saves).now f = none := hf
  unfold listingOf at h
  unfold deliveries
  rw [hf'] at h ⊢
  by_cases hu : up f = true
  · simp only [World.environment, hu, if_true] at h ⊢
    exact ⟨(Except.ok.inj h).symm, List.mem_singleton.2 rfl⟩
  · simp [World.environment, hu] at h

theorem mem_servedBoth {env : Environment} {s : State} {d : Delivery} (h : d ∈ deliveries env s.store f) :
    d ∈ servedBoth env s := by
  unfold servedBoth
  cases f with
  | nasdaq => exact List.mem_append_left _ (List.mem_append_right _ h)
  | others => exact List.mem_append_right _ h

end Construct

/-- A construction keeps the invariant, whatever fails in it. -/
theorem traced_construct {w₀ w : World} {es : List Event} (hw : w = run step w₀ es) (h : Traced w₀ es w)
    (up saves : Listing → Bool) :
    Traced w₀ (es ++ [.construct up saves]) (step w (.construct up saves)) := by
  obtain ⟨hpre, hnew⟩ := construct_served (w.environment up saves) w.state
  have hdeliv : ∀ d ∈ (step w (.construct up saves)).state.served,
      d ∈ w.state.served ∨ up d.listing = true ∧ d = ⟨d.listing, w.clock, w.server d.listing⟩ := by
    intro d hd
    rcases hnew d hd with hd | ⟨f, hd⟩
    · exact .inl hd
    · exact .inr (mem_deliveries hd)
  constructor
  case cached =>
    intro f c hc
    cases hf : w.state.store.fresh w.clock f with
    | some c' =>
      -- a fresh file is kept, and so is the delivery it goes back to
      have hf' : w.state.store.fresh (w.environment up saves).now f = some c' := hf
      have hkeep := construct_fresh hf'
      obtain rfl : c' = c := Option.some.inj (hkeep.symm.trans hc)
      exact hpre.subset (h.cached f _ (Option.filter_eq_some_iff.1 hf).1)
    | none =>
      have hf' : w.state.store.fresh (w.environment up saves).now f = none := hf
      rcases construct_stale hf' with hkeep | hgone | ⟨t, ht, hfile, hserved⟩
      · exact hpre.subset (h.cached f c (hkeep ▸ hc))
      · cases hgone.symm.trans hc
      · -- a new file is dated now and holds what was delivered now
        obtain ⟨rfl, hmem⟩ := deliveries_of_listingOf hf ht
        obtain rfl := Option.some.inj (hfile.symm.trans hc)
        show _ ∈ (exec (construct (w.environment up saves)) w.state).2.served
        rw [hserved]
        exact mem_servedBoth hmem
  case past =>
    intro d hd
    rcases hdeliv d hd with hd | ⟨-, hd⟩
    · exact h.past d hd
    · rw [hd]; exact Int.le_refl w.clock
  case offered =>
    intro d hd
    rcases hdeliv d hd with hd | ⟨hup, hd⟩
    · exact (h.offered d hd).mono _
    · refine ⟨es, up, saves, List.prefix_refl _, hup, ?_, ?_⟩
      · rw [← hw, hd]
      · rw [← hw, hd]

theorem traced_step {w₀ w : World} {es : List Event} (hw : w = run step w₀ es) (h : Traced w₀ es w) (e : Event) :
    Traced w₀ (es ++ [e]) (step w e) := by
  cases e with
  | wait ticks =>
    exact ⟨h.cached, fun d hd => by have := h.past d hd; show d.time ≤ w.clock + ticks; omega,
      fun d hd => (h.offered d hd).mono _⟩
  | publish f t => exact ⟨h.cached, h.past, fun d hd => (h.offered d hd).mono _⟩
  | construct up saves => exact traced_construct hw h up saves

theorem traced_run (clock : ℤ) (server : Listing → Text) (es : List Event) :
    Traced (.start clock server) es (run step (.start clock server) es) :=
  run_inv step (traced_start clock server) (fun _ e h => traced_step rfl h e) es

/-! ## The directory of a successful construction -/

/-- The construction after a run does not throw. -/
def Succeeds (w : World) (up saves : Listing → Bool) : Prop :=
  (exec (construct (w.environment up saves)) w.state).1 = .ok ⟨⟩

instance (w : World) (up saves : Listing → Bool) : Decidable (Succeeds w up saves) :=
  inferInstanceAs (Decidable ((exec (construct (w.environment up saves)) w.state).1 = .ok ⟨⟩))

/-- The listing a construction gets is one delivered less than a day ago, or now. -/
theorem listing_recent {w₀ w : World} {es : List Event} (h : Traced w₀ es w) {up saves : Listing → Bool}
    {f : Listing} {t : Option Text} (ht : listingOf (w.environment up saves) w.state.store f = .ok t) :
    ∃ d ∈ servedBoth (w.environment up saves) w.state, d.listing = f ∧ t = some d.text ∧ w.clock - day < d.time := by
  cases hf : w.state.store.fresh w.clock f with
  | some c =>
    obtain ⟨hc, hfresh⟩ := Option.filter_eq_some_iff.1 hf
    have hmem := h.cached f c hc
    have hf' : w.state.store.fresh (w.environment up saves).now f = some c := hf
    unfold listingOf at ht
    rw [hf'] at ht
    refine ⟨⟨f, c.created, c.text⟩, ?_, rfl, (Except.ok.inj ht).symm, of_decide_eq_true hfresh⟩
    exact List.mem_append_left _ (List.mem_append_left _ hmem)
  | none =>
    obtain ⟨rfl, hmem⟩ := deliveries_of_listingOf hf ht
    refine ⟨⟨f, w.clock, w.server f⟩, mem_servedBoth hmem, rfl, rfl, ?_⟩
    show w.clock - day < w.clock
    have : 0 < day := by decide
    omega

/-- After every successful construction of every run, the directory is the merge, the Nasdaq listing
first, of two listings each of which the server delivered less than a day ago. -/
theorem directory_recent (clock : ℤ) (server : Listing → Text) (es : List Event) (up saves : Listing → Bool)
    (hs : Succeeds (run step (.start clock server) es) up saves) :
    let es' := es ++ [.construct up saves]
    let w := run step (.start clock server) es'
    ∃ (n o : Delivery) (dn d' : Directory), n.listing = .nasdaq ∧ o.listing = .others ∧
      processData (some n.text) = .ok dn ∧ processData (some o.text) = .ok d' ∧
      w.state.store.tickers = some (dn.merge d') ∧
      ∀ d ∈ [n, o], d ∈ w.state.served ∧ Offered (.start clock server) es' d ∧ w.clock - day < d.time ∧
        d.time ≤ w.clock := by
  intro es' w'
  have htr := traced_run clock server es
  have htr' : Traced (.start clock server) es' w' := traced_run clock server es'
  have hw' : w' = step (run step (.start clock server) es) (.construct up saves) := run_concat step _ es _
  clear_value w'
  subst hw'
  generalize run step (.start clock server) es = w at hs htr htr' ⊢
  unfold Succeeds at hs
  have hout := exec_construct (w.environment up saves) w.state
  generalize hr : exec (construct (w.environment up saves)) w.state = r at hs hout
  cases hout with
  | loaded hn ho hdn hdo =>
    have hstate : (step w (.construct up saves)).state = _ := congrArg Prod.snd hr
    obtain ⟨n, hnmem, hnl, rfl, hnt⟩ := listing_recent htr hn
    obtain ⟨o, homem, hol, rfl, hot⟩ := listing_recent htr ho
    refine ⟨n, o, _, _, hnl, hol, hdn, hdo, by rw [hstate]; rfl, fun d hd => ?_⟩
    have hmem : d ∈ (step w (.construct up saves)).state.served ∧ w.clock - day < d.time := by
      rw [hstate]
      rcases List.mem_cons.1 hd with rfl | hd
      · exact ⟨hnmem, hnt⟩
      · rw [List.mem_singleton] at hd
        subst hd
        exact ⟨homem, hot⟩
    exact ⟨hmem.1, htr'.offered d hmem.1, hmem.2, htr'.past d hmem.1⟩
  | nasdaqDownload | othersDownload | nasdaqParse | othersParse => cases hs

/-- A first load at time 0, then the server publishes another listing, to which no download gets. -/
def downAfterLoad : List Event :=
  [.construct (fun _ => true) (fun _ => true), .wait 1, .publish .nasdaq "Symbol|Name\nB|Boeing".toList]

def sharedServer : Listing → Text
  | .nasdaq => "Symbol|Name\nA|Apple".toList
  | .others => "Symbol|Name\nA|Agilent\nB|Barnes".toList

theorem directory_recent_cached : ∃ (n o : Delivery) (dn d' : Directory), n.listing = .nasdaq ∧ o.listing = .others ∧
    processData (some n.text) = .ok dn ∧ processData (some o.text) = .ok d' ∧
    (run step (.start 0 sharedServer)
        (downAfterLoad ++ [.construct (fun _ => false) (fun _ => false)])).state.store.tickers =
      some (dn.merge d') ∧
    (dn.merge d').lookup "A".toList = some "Apple".toList ∧ (dn.merge d').lookup "B".toList = some "Barnes".toList ∧
    1 - day < n.time ∧ n.time ≤ 1 := by
  obtain ⟨n, o, dn, d', hn, ho, hdn, hdo, hd, hserved⟩ := directory_recent 0 sharedServer downAfterLoad
    (fun _ => false) (fun _ => false) (by decide +kernel)
  obtain ⟨-, -, hlow, hhigh⟩ := hserved n (List.mem_cons_self ..)
  -- the entries the second construction loads from the two cached files
  have hentries : (run step (.start 0 sharedServer)
      (downAfterLoad ++ [.construct (fun _ => false) (fun _ => false)])).state.store.tickers.map
        (fun d => (d.lookup "A".toList, d.lookup "B".toList)) = some (some "Apple".toList, some "Barnes".toList) := by
    decide +kernel
  rw [hd, Option.map_some] at hentries
  obtain ⟨hA, hB⟩ := Prod.mk.inj (Option.some.inj hentries)
  exact ⟨n, o, dn, d', hn, ho, hdn, hdo, hd, hA, hB, hlow, hhigh⟩

end StockPredictor.Ticker
