/-
What one construction of a `NasdaqStockEngine` can do. Each part of `Init` runs as a function of
the store, and the construction ends in one of five ways: it loads, or one of the two downloads or
of the two parses fails. The files afterwards are described listing by listing: a fresh file stays
as it is, any other is deleted and, unless a download fails, written anew.
-/
import StockPredictor.Ticker.Engine

namespace StockPredictor.Ticker

open Base

/-! ## Store fields -/

@[simp] theorem file_setTickers (st : Store) (t : Option Directory) (f : Listing) :
    (st.setTickers t).file f = st.file f := by cases f <;> rfl

@[simp] theorem tickers_setTickers (st : Store) (t : Option Directory) : (st.setTickers t).tickers = t := rfl

@[simp] theorem setTickers_setTickers (st : Store) (t t' : Option Directory) :
    (st.setTickers t).setTickers t' = st.setTickers t' := rfl

@[simp] theorem tickers_setFile (st : Store) (f : Listing) (c : Option CachedFile) :
    (st.setFile f c).tickers = st.tickers := by cases f <;> rfl

theorem file_setFile (st : Store) (f g : Listing) (c : Option CachedFile) :
    (st.setFile f c).file g = if g = f then c else st.file g := by
  cases f <;> cases g <;> rfl

@[simp] theorem setFile_setTickers (st : Store) (f : Listing) (c : Option CachedFile) (t : Option Directory) :
    (st.setTickers t).setFile f c = (st.setFile f c).setTickers t := by cases f <;> rfl

/-! ## The parts of the load -/

/-- The text a construction gets for a listing, from its fresh file or from the download. -/
def listingOf (env : Environment) (st : Store) (f : Listing) : Except Exn (Option Text) :=
  match st.fresh env.now f with
  | some c => .ok (some c.text)
  | none =>
    match env.download f with
    | .throws => .error .web
    | .nullStream => .ok none
    | .text t => .ok (some t)

/-- The store after a listing was read: a file that is not fresh is gone. -/
def afterRead (env : Environment) (st : Store) (f : Listing) : Store :=
  match st.fresh env.now f with
  | some _ => st
  | none => st.setFile f none

/-- What reading a listing makes the server deliver. -/
def deliveries (env : Environment) (st : Store) (f : Listing) : List Delivery :=
  match st.fresh env.now f, env.download f with
  | none, .text t => [⟨f, env.now, t⟩]
  | _, _ => []

/-- The store after an attempt to save a listing. -/
def afterSave (env : Environment) (st : Store) (f : Listing) (data : Option Text) : Store :=
  if env.saves f then st.writeAllText env.now f data else st

theorem exec_processFiles (env : Environment) (f : Listing) (s : State) : exec (processFiles env f) s =
    (listingOf env s.store f, ⟨afterRead env s.store f, s.served ++ deliveries env s.store f⟩) := by
  unfold processFiles listingOf afterRead deliveries
  rw [exec_bind_ok (exec_get s)]
  cases s.store.fresh env.now f with
  | some c => simp
  | none =>
    dsimp only
    rw [modifyStore, exec_bind_ok (exec_modify _ s)]
    unfold getTickers
    cases env.download f with
    | throws => simp
    | nullStream => simp
    | text t =>
      dsimp only
      rw [exec_bind_ok (exec_modify _ _)]
      rfl

theorem exec_trySaveFile (env : Environment) (f : Listing) (data : Option Text) (s : State) :
    exec (trySaveFile env f data) s = (.ok (env.saves f), { s with store := afterSave env s.store f data }) := by
  unfold trySaveFile afterSave
  cases env.saves f with
  | true => rw [if_pos rfl, if_pos rfl, modifyStore, exec_bind_ok (exec_modify _ s)]; rfl
  | false => rfl

/-- The loop over the second listing merges it into the directory and never meets a present key. -/
theorem exec_addOthers : ∀ (l : List (Text × Text)) (s : State) (d : Directory), s.store.tickers = some d →
    exec (addOthers l) s =
      (.ok ⟨⟩, { s with store := s.store.setTickers (some (l.foldl Dictionary.insertNew d)) })
  | [], s, d, h => by
    have hs : s.store.setTickers (some d) = s.store := by rw [← h]; rfl
    simp [addOthers, hs]
  | item :: l, s, d, h => by
    have hitem : exec (addOther item) s =
        (.ok ⟨⟩, { s with store := s.store.setTickers (some (d.insertNew item)) }) := by
      unfold addOther
      rw [exec_bind_ok (exec_get s), h]
      dsimp only
      -- the filter runs before `Add`, so a present key is skipped and an absent one appended
      by_cases hk : item.1 ∈ d.keys
      · have hs : s.store.setTickers (some d) = s.store := by rw [← h]; rfl
        rw [if_pos (by simpa using hk), exec_pure, Dictionary.insertNew_of_mem hk, hs]
      · rw [if_neg (by simpa using hk), Dictionary.add_eq_insertNew hk]
        rfl
    rw [addOthers, exec_bind_ok hitem, exec_addOthers l _ _ rfl, List.foldl_cons]
    rfl

/-! ## The outcomes -/

/-- The store once both listings are read, both saves tried, and the directory empty. -/
def saved (env : Environment) (st : Store) (nasdaqListing otherListing : Option Text) : Store :=
  (afterSave env (afterSave env (afterRead env (afterRead env st .nasdaq) .others) .nasdaq nasdaqListing)
    .others otherListing).setTickers (some .empty)

/-- What the server has delivered once both listings are read. -/
def servedBoth (env : Environment) (s : State) : List Delivery :=
  s.served ++ deliveries env s.store .nasdaq ++ deliveries env s.store .others

/-- The five ways a construction ends. -/
inductive Outcome (env : Environment) (s : State) : Except Exn PUnit × State → Prop
  | nasdaqDownload {e : Exn} (h : listingOf env s.store .nasdaq = .error e) :
    Outcome env s (.error e, ⟨(afterRead env s.store .nasdaq).setTickers (some .empty),
      s.served ++ deliveries env s.store .nasdaq⟩)
  | othersDownload {n : Option Text} {e : Exn} (hn : listingOf env s.store .nasdaq = .ok n)
      (h : listingOf env s.store .others = .error e) :
    Outcome env s (.error e, ⟨(afterRead env (afterRead env s.store .nasdaq) .others).setTickers (some .empty),
      servedBoth env s⟩)
  | nasdaqParse {n o : Option Text} {e : Exn} (hn : listingOf env s.store .nasdaq = .ok n)
      (ho : listingOf env s.store .others = .ok o) (h : processData n = .error e) :
    Outcome env s (.error e, ⟨saved env s.store n o, servedBoth env s⟩)
  | othersParse {n o : Option Text} {dn : Directory} {e : Exn} (hn : listingOf env s.store .nasdaq = .ok n)
      (ho : listingOf env s.store .others = .ok o) (hdn : processData n = .ok dn) (h : processData o = .error e) :
    Outcome env s (.error e, ⟨(saved env s.store n o).setTickers (some dn), servedBoth env s⟩)
  | loaded {n o : Option Text} {dn d' : Directory} (hn : listingOf env s.store .nasdaq = .ok n)
      (ho : listingOf env s.store .others = .ok o) (hdn : processData n = .ok dn) (hdo : processData o = .ok d') :
    Outcome env s (.ok ⟨⟩, ⟨(saved env s.store n o).setTickers (some (dn.merge d')), servedBoth env s⟩)

theorem fresh_setTickers (st : Store) (t : Option Directory) (now : ℤ) (f : Listing) :
    (st.setTickers t).fresh now f = st.fresh now f := by unfold Store.fresh; rw [file_setTickers]

theorem afterRead_setTickers (env : Environment) (st : Store) (t : Option Directory) (f : Listing) :
    afterRead env (st.setTickers t) f = (afterRead env st f).setTickers t := by
  unfold afterRead
  rw [fresh_setTickers]
  split
  · rfl
  · simp

theorem afterSave_setTickers (env : Environment) (st : Store) (t : Option Directory) (f : Listing)
    (data : Option Text) : afterSave env (st.setTickers t) f data = (afterSave env st f data).setTickers t := by
  unfold afterSave
  split
  · simp [Store.writeAllText]
  · rfl

/-- Reading one listing leaves the other's file. -/
theorem file_afterRead_of_ne (env : Environment) (st : Store) {f g : Listing} (h : g ≠ f) :
    (afterRead env st f).file g = st.file g := by
  unfold afterRead
  split
  · rfl
  · rw [file_setFile, if_neg h]

theorem fresh_afterRead_of_ne (env : Environment) (st : Store) {f g : Listing} (h : g ≠ f) :
    (afterRead env st f).fresh env.now g = st.fresh env.now g := by
  unfold Store.fresh; rw [file_afterRead_of_ne env st h]

/-- What a construction gets and what is delivered depend on the store through the fresh file only. -/
theorem listingOf_of_fresh {env : Environment} {st st' : Store} {f : Listing}
    (h : st'.fresh env.now f = st.fresh env.now f) : listingOf env st' f = listingOf env st f := by
  unfold listingOf; rw [h]

theorem deliveries_of_fresh {env : Environment} {st st' : Store} {f : Listing}
    (h : st'.fresh env.now f = st.fresh env.now f) : deliveries env st' f = deliveries env st f := by
  unfold deliveries; rw [h]

/-- The first read, whatever the directory is. -/
theorem exec_read_nasdaq (env : Environment) (s : State) (t : Option Directory) :
    exec (processFiles env .nasdaq) ⟨s.store.setTickers t, s.served⟩ = (listingOf env s.store .nasdaq,
      ⟨(afterRead env s.store .nasdaq).setTickers t, s.served ++ deliveries env s.store .nasdaq⟩) := by
  have hf := fresh_setTickers s.store t env.now .nasdaq
  rw [exec_processFiles, listingOf_of_fresh hf, deliveries_of_fresh hf, afterRead_setTickers]

/-- The second read finds its file as it was before the first. -/
theorem exec_read_others (env : Environment) (s : State) (t : Option Directory) :
    exec (processFiles env .others) ⟨(afterRead env s.store .nasdaq).setTickers t,
      s.served ++ deliveries env s.store .nasdaq⟩ = (listingOf env s.store .others,
      ⟨(afterRead env (afterRead env s.store .nasdaq) .others).setTickers t, servedBoth env s⟩) := by
  have hf : ((afterRead env s.store .nasdaq).setTickers t).fresh env.now .others = s.store.fresh env.now .others := by
    rw [fresh_setTickers, fresh_afterRead_of_ne env s.store (by decide)]
  rw [exec_processFiles, listingOf_of_fresh hf, deliveries_of_fresh hf, afterRead_setTickers]
  rfl

theorem exec_construct (env : Environment) (s : State) : Outcome env s (exec (construct env) s) := by
  unfold construct init
  rw [modifyStore, exec_bind_ok (exec_modify _ s), exec_bind_ok (exec_get _)]
  simp only [tickers_setTickers, Option.isSome_none, Bool.false_eq_true, if_false]
  rw [modifyStore, exec_bind_ok (exec_modify _ _)]
  dsimp only
  rw [setTickers_setTickers]
  have h1 := exec_read_nasdaq env s (some .empty)
  cases hn : listingOf env s.store .nasdaq with
  | error e =>
    rw [hn] at h1
    rw [exec_bind_error h1]
    exact .nasdaqDownload hn
  | ok n =>
    rw [hn] at h1
    rw [exec_bind_ok h1]
    have h2 := exec_read_others env s (some .empty)
    cases ho : listingOf env s.store .others with
    | error e =>
      rw [ho] at h2
      rw [exec_bind_error h2]
      exact .othersDownload hn ho
    | ok o =>
      rw [ho] at h2
      rw [exec_bind_ok h2, exec_bind_ok (exec_trySaveFile env .nasdaq n _),
        exec_bind_ok (exec_trySaveFile env .others o _)]
      simp only [afterSave_setTickers]
      unfold parseListings
      cases hdn : processData n with
      | error e =>
        rw [exec_bind_error (exec_lift _ _)]
        exact .nasdaqParse hn ho hdn
      | ok dn =>
        rw [exec_bind_ok (exec_lift _ _), modifyStore, exec_bind_ok (exec_modify _ _)]
        cases hdo : processData o with
        | error e =>
          rw [exec_bind_error (exec_lift _ _)]
          exact .othersParse hn ho hdn hdo
        | ok d' =>
          rw [exec_bind_ok (exec_lift _ _), exec_addOthers _ _ dn rfl]
          exact .loaded hn ho hdn hdo

/-! ## The files afterwards -/

/-- Reading a listing leaves its file exactly if it is fresh. -/
theorem file_afterRead_self (env : Environment) (st : Store) (f : Listing) :
    (afterRead env st f).file f = st.fresh env.now f := by
  unfold afterRead
  split
  · rename_i c hc
    rw [hc]
    exact (Option.filter_eq_some_iff.1 hc).1
  · rename_i hc
    rw [file_setFile, if_pos rfl, hc]

theorem file_afterSave (env : Environment) (st : Store) (f g : Listing) (data : Option Text) :
    (afterSave env st f data).file g = if g = f ∧ env.saves f = true then
      some ⟨data.getD [], creationTime env.now (st.file f)⟩ else st.file g := by
  unfold afterSave
  by_cases hs : env.saves f = true
  · rw [if_pos hs, Store.writeAllText, file_setFile]
    by_cases hg : g = f
    · rw [if_pos hg, if_pos ⟨hg, hs⟩]
    · rw [if_neg hg, if_neg fun h => hg h.1]
  · rw [if_neg hs, if_neg fun h => hs h.2]

/-- The one of two values that belongs to a listing. -/
def Listing.pick {α : Type} (f : Listing) (n o : α) : α :=
  match f with
  | .nasdaq => n
  | .others => o

/-- Each of the two reads keeps its own file only if it is fresh, and touches no other. -/
theorem file_afterReads (env : Environment) (st : Store) (f : Listing) :
    (afterRead env (afterRead env st .nasdaq) .others).file f = st.fresh env.now f := by
  cases f with
  | nasdaq => rw [file_afterRead_of_ne env _ (by decide), file_afterRead_self]
  | others => rw [file_afterRead_self, fresh_afterRead_of_ne env st (by decide)]

/-- The file of a listing after both reads and both saves. -/
theorem file_saved (env : Environment) (st : Store) (n o : Option Text) (f : Listing) :
    (saved env st n o).file f = if env.saves f = true then
      some ⟨(f.pick n o).getD [], creationTime env.now (st.fresh env.now f)⟩ else st.fresh env.now f := by
  unfold saved
  rw [file_setTickers]
  cases f with
  | nasdaq => simp [file_afterSave, file_afterReads, Listing.pick]
  | others => simp [file_afterSave, file_afterReads, Listing.pick]

/-- A fresh file gets back its own text under its own creation time. -/
theorem file_saved_fresh {env : Environment} {st : Store} {f : Listing} {c : CachedFile} {n o : Option Text}
    (hl : listingOf env st f = .ok (f.pick n o)) (hf : st.fresh env.now f = some c) :
    (saved env st n o).file f = some c := by
  have ht : f.pick n o = some c.text := by
    unfold listingOf at hl
    rw [hf] at hl
    exact (Except.ok.inj hl).symm
  rw [file_saved, hf, ht]
  split <;> rfl

/-- Any other file is new, or absent when its save failed. -/
theorem file_saved_stale {env : Environment} {st : Store} {f : Listing} {n o : Option Text}
    (hf : st.fresh env.now f = none) : (saved env st n o).file f =
      if env.saves f = true then some ⟨(f.pick n o).getD [], env.now⟩ else none := by
  rw [file_saved, hf]
  rfl

theorem listingOf_pick {env : Environment} {st : Store} {n o : Option Text}
    (hn : listingOf env st .nasdaq = .ok n) (ho : listingOf env st .others = .ok o) (f : Listing) :
    listingOf env st f = .ok (f.pick n o) := by
  cases f with
  | nasdaq => exact hn
  | others => exact ho

theorem file_afterRead_or (env : Environment) (st : Store) (f g : Listing) :
    (afterRead env st g).file f = st.file f ∨ (afterRead env st g).file f = none := by
  by_cases hg : f = g
  · subst hg
    rw [file_afterRead_self, Store.fresh]
    cases st.file f with
    | none => exact .inl rfl
    | some c => by_cases hc : isFresh env.now c = true <;> simp [hc]
  · exact .inl (file_afterRead_of_ne env st hg)

theorem file_afterRead_fresh {env : Environment} {st : Store} {f : Listing} {c : CachedFile}
    (hf : st.fresh env.now f = some c) (g : Listing) : (afterRead env st g).file f = some c := by
  by_cases hg : f = g
  · rw [← hg, file_afterRead_self, hf]
  · rw [file_afterRead_of_ne env _ hg]
    exact (Option.filter_eq_some_iff.1 hf).1

/-- A fresh file survives every construction with its text and its creation time. -/
theorem construct_fresh {env : Environment} {s : State} {f : Listing} {c : CachedFile}
    (hf : s.store.fresh env.now f = some c) : (exec (construct env) s).2.store.file f = some c := by
  have hout := exec_construct env s
  generalize exec (construct env) s = r at hout ⊢
  cases hout with
  | nasdaqDownload => rw [file_setTickers, file_afterRead_fresh hf]
  | othersDownload =>
    rw [file_setTickers]
    refine file_afterRead_fresh ?_ _
    unfold Store.fresh
    rw [file_afterRead_fresh hf]
    exact Option.filter_eq_some_iff.2 ⟨rfl, (Option.filter_eq_some_iff.1 hf).2⟩
  | nasdaqParse hn ho => exact file_saved_fresh (listingOf_pick hn ho f) hf
  | othersParse hn ho => rw [file_setTickers]; exact file_saved_fresh (listingOf_pick hn ho f) hf
  | loaded hn ho => rw [file_setTickers]; exact file_saved_fresh (listingOf_pick hn ho f) hf

/-- Any other file is afterwards as it was, gone, or new with the text of this construction. -/
theorem construct_stale {env : Environment} {s : State} {f : Listing} (hf : s.store.fresh env.now f = none) :
    (exec (construct env) s).2.store.file f = s.store.file f ∨ (exec (construct env) s).2.store.file f = none ∨
      ∃ t, listingOf env s.store f = .ok t ∧
        (exec (construct env) s).2.store.file f = some ⟨t.getD [], env.now⟩ ∧
        (exec (construct env) s).2.served = servedBoth env s := by
  have hsaved : ∀ {n o : Option Text}, listingOf env s.store .nasdaq = .ok n → listingOf env s.store .others = .ok o →
      (saved env s.store n o).file f = none ∨
        ∃ t, listingOf env s.store f = .ok t ∧ (saved env s.store n o).file f = some ⟨t.getD [], env.now⟩ ∧
          servedBoth env s = servedBoth env s := by
    intro n o hn ho
    rw [file_saved_stale hf]
    split
    · exact .inr ⟨_, listingOf_pick hn ho f, rfl, rfl⟩
    · exact .inl rfl
  have hout := exec_construct env s
  generalize exec (construct env) s = r at hout ⊢
  cases hout with
  | nasdaqDownload => rw [file_setTickers]; exact (file_afterRead_or env _ f _).imp id .inl
  | othersDownload =>
    rw [file_setTickers]
    rcases file_afterRead_or env (afterRead env s.store .nasdaq) f .others with h | h
    · rw [h]; exact (file_afterRead_or env _ f _).imp id .inl
    · exact .inr (.inl h)
  | nasdaqParse hn ho => exact .inr (hsaved hn ho)
  | othersParse hn ho => rw [file_setTickers]; exact .inr (hsaved hn ho)
  | loaded hn ho => rw [file_setTickers]; exact .inr (hsaved hn ho)

/-- What the server delivers during a construction. -/
theorem construct_served (env : Environment) (s : State) :
    s.served <+: (exec (construct env) s).2.served ∧
    ∀ d ∈ (exec (construct env) s).2.served, d ∈ s.served ∨ ∃ f, d ∈ deliveries env s.store f := by
  have hboth : s.served <+: servedBoth env s ∧
      ∀ d ∈ servedBoth env s, d ∈ s.served ∨ ∃ f, d ∈ deliveries env s.store f := by
    unfold servedBoth
    rw [List.append_assoc]
    refine ⟨List.prefix_append _ _, fun d hd => ?_⟩
    simp only [List.mem_append] at hd
    rcases hd with hd | hd | hd
    · exact .inl hd
    · exact .inr ⟨_, hd⟩
    · exact .inr ⟨_, hd⟩
  have hout := exec_construct env s
  generalize exec (construct env) s = r at hout ⊢
  cases hout with
  | nasdaqDownload =>
    exact ⟨List.prefix_append _ _, fun d hd => (List.mem_append.1 hd).imp id fun h => ⟨_, h⟩⟩
  | othersDownload => exact hboth
  | nasdaqParse => exact hboth
  | othersParse => exact hboth
  | loaded => exact hboth

end StockPredictor.Ticker
