/-
The daily returns of `GetHistoricalQuote` in closed form. The loop overwrites every return with the
logarithm of the quotient of two neighbouring closes of the sorted list, so the returns telescope,
do not see the order of the feed, and do not see the unit of the prices.
-/
import StockPredictor.Base.Fill
import StockPredictor.Service.History

namespace StockPredictor.Service

open Base Quant Finset

noncomputable section

/-- The return of the day with index `i`, for the closes in order of date. -/
def dailyLogReturn (closes : List ℝ) (i : ℕ) : ℝ :=
  if i = 0 then 0 else Real.log (closes.getD i 0 / closes.getD (i - 1) 0)

/-- A list of prices with its returns filled in. -/
def withReturns (prices : List HistoricalPrice) : List HistoricalPrice :=
  prices.mapIdx fun i p => { p with dailyReturn := dailyLogReturn (prices.map (·.close)) i }

/-- A record without its return. -/
def bare (p : HistoricalPrice) : HistoricalPrice := { p with dailyReturn := 0 }

/-- A record with its return since another one. -/
def since (q p : HistoricalPrice) : HistoricalPrice := { p with dailyReturn := Real.log (p.close / q.close) }

end

/-! ## The loop -/

/-- Without a price there is no first one. -/
theorem getHistoricalQuote_nil : getHistoricalQuote [] = .error .argumentOutOfRange := by
  unfold getHistoricalQuote
  dsimp only
  rw [if_pos (by simp [orderByDate])]

/-- The loop fills in the returns one by one, and no return is read by the next. -/
theorem filled_eq_withReturns (prices : List HistoricalPrice) :
    filled bare since prices = withReturns prices := by
  apply List.ext_getElem?
  intro i
  rw [getElem?_filled, withReturns, List.getElem?_mapIdx]
  rcases lt_or_ge i prices.length with hi | hi
  · rw [List.getElem?_eq_getElem hi, Option.map_some, Option.map_some]
    unfold dailyLogReturn
    split
    · rfl
    · simp [since, List.getD_eq_getElem?_getD, hi, show i - 1 < prices.length by omega]
  · rw [List.getElem?_eq_none hi]
    rfl

/-- `GetHistoricalQuote` in closed form. -/
theorem getHistoricalQuote_eq {fetched : List HistoricalPrice} (h : fetched ≠ []) :
    getHistoricalQuote fetched = .ok (withReturns (orderByDate fetched)) := by
  have hne : orderByDate fetched ≠ [] := by
    intro hnil
    have hperm := orderByDate_perm fetched
    rw [hnil, List.nil_perm] at hperm
    exact h hperm
  unfold getHistoricalQuote
  dsimp only
  rw [if_neg hne, List.length_modify, ← filled_eq_withReturns]
  exact congrArg Except.ok (forLoop_fill bare since (fun _ _ => rfl) (fun _ _ _ => rfl) _)

/-! ## The records -/

theorem map_withReturns {α : Type} (f : HistoricalPrice → α)
    (hf : ∀ (p : HistoricalPrice) (r : ℝ), f { p with dailyReturn := r } = f p) (prices : List HistoricalPrice) :
    (withReturns prices).map f = prices.map f := by
  apply List.ext_getElem?
  intro i
  rw [List.getElem?_map, withReturns, List.getElem?_mapIdx, List.getElem?_map, Option.map_map]
  exact congrFun (congrArg _ (funext fun p => hf p _)) _

theorem dailyReturns_withReturns (prices : List HistoricalPrice) :
    dailyReturns (withReturns prices) = (List.range prices.length).map (dailyLogReturn (prices.map (·.close))) := by
  apply List.ext_getElem?
  intro i
  rw [dailyReturns, List.getElem?_map, withReturns, List.getElem?_mapIdx, List.getElem?_map]
  rcases lt_or_ge i prices.length with hi | hi
  · rw [List.getElem?_eq_getElem hi, List.getElem?_range hi]
    rfl
  · rw [List.getElem?_eq_none hi, List.getElem?_eq_none (by simpa using hi)]
    rfl

/-! ## The sums -/

/-- The returns of positive closes telescope. -/
theorem sum_dailyLogReturn {closes : List ℝ} (hpos : ∀ c ∈ closes, 0 < c) {i : ℕ} (hi : i < closes.length) :
    ∑ j ∈ range (i + 1), dailyLogReturn closes j = Real.log (closes.getD i 0 / closes.getD 0 0) := by
  have hne : ∀ j < closes.length, closes.getD j 0 ≠ 0 := by
    intro j hj
    rw [List.getD_eq_getElem?_getD, List.getElem?_eq_getElem hj]
    exact (hpos _ (List.getElem_mem hj)).ne'
  have h0 := hne 0 (by omega)
  induction i with
  | zero => simp [dailyLogReturn]
  | succ i ih =>
    have hi0 := hne i (by omega)
    rw [sum_range_succ, ih (by omega), dailyLogReturn, if_neg (by omega), Nat.add_sub_cancel,
      Real.log_div hi0 h0, Real.log_div (hne _ hi) hi0, Real.log_div (hne _ hi) h0]
    ring

theorem dailyLogReturn_scale (closes : List ℝ) {k : ℝ} (hk : k ≠ 0) (i : ℕ) :
    dailyLogReturn (closes.map (k * ·)) i = dailyLogReturn closes i := by
  have hget : ∀ j, (closes.map (k * ·)).getD j 0 = k * closes.getD j 0 := by
    intro j
    rw [List.getD_eq_getElem?_getD, List.getElem?_map, List.getD_eq_getElem?_getD]
    cases closes[j]? <;> simp
  unfold dailyLogReturn
  rw [hget, hget, mul_div_mul_left _ _ hk]

/-! ## The order of the feed -/

/-- With distinct dates the sorted list does not depend on the order of the feed. -/
theorem orderByDate_of_perm {fetched fetched' : List HistoricalPrice} (h : fetched'.Perm fetched)
    (hd : (fetched.map (·.date)).Nodup) : orderByDate fetched' = orderByDate fetched := by
  have hperm : (orderByDate fetched').Perm (orderByDate fetched) :=
    (orderByDate_perm fetched').trans (h.trans (orderByDate_perm fetched).symm)
  have hsorted := fun prices => List.pairwise_map.1 (orderByDate_sorted prices)
  refine hperm.eq_of_pairwise (fun a b ha hb hab hba => ?_) (hsorted fetched') (hsorted fetched)
  exact List.inj_on_of_nodup_map hd (h.subset ((orderByDate_perm fetched').subset ha))
    ((orderByDate_perm fetched).subset hb) (le_antisymm hab hba)

/-- A record with its close in another unit. -/
def scaleClose (k : ℝ) (p : HistoricalPrice) : HistoricalPrice := { p with close := k * p.close }

theorem orderByDate_scaleClose (k : ℝ) (fetched : List HistoricalPrice) :
    orderByDate (fetched.map (scaleClose k)) = (orderByDate fetched).map (scaleClose k) :=
  (List.map_mergeSort (f := scaleClose k) fun _ _ _ _ => rfl).symm

/-! ## The returns of a history -/

/-- What the returns of a history owe the prices it was fetched from. -/
structure Telescopes (fetched quotes : List HistoricalPrice) : Prop where
  records : (quotes.map bare).Perm (fetched.map bare)
  dates : (quotes.map (·.date)).Pairwise (· < ·)
  first : (dailyReturns quotes).head? = some 0
  sums : ∀ i < quotes.length, ∑ j ∈ range (i + 1), (dailyReturns quotes).getD j 0 =
    Real.log ((quotes.map (·.close)).getD i 0 / (quotes.map (·.close)).getD 0 0)

/-- The returns filled into the sorted prices telescope. -/
theorem telescopes_withReturns {fetched : List HistoricalPrice} (hne : fetched ≠ [])
    (hd : (fetched.map (·.date)).Nodup) (hpos : ∀ p ∈ fetched, 0 < p.close) :
    Telescopes fetched (withReturns (orderByDate fetched)) := by
  have hperm := orderByDate_perm fetched
  have hclose : (withReturns (orderByDate fetched)).map (·.close) = (orderByDate fetched).map (·.close) :=
    map_withReturns _ (fun _ _ => rfl) _
  have hlen : 0 < (orderByDate fetched).length := by
    rw [hperm.length_eq]
    exact List.length_pos_of_ne_nil hne
  refine ⟨?_, getHistoricalQuote_sorted (getHistoricalQuote_eq hne) hd, ?_, fun i hi => ?_⟩
  · rw [map_withReturns bare fun _ _ => rfl]
    exact hperm.map bare
  · rw [dailyReturns_withReturns, List.head?_map, List.head?_range, if_neg hlen.ne']
    rfl
  · have hpos' : ∀ c ∈ (orderByDate fetched).map (·.close), 0 < c := by
      intro c hc
      obtain ⟨p, hp, rfl⟩ := List.mem_map.1 hc
      exact hpos p (hperm.subset hp)
    have hi' : i < ((orderByDate fetched).map (·.close)).length := by simpa [withReturns] using hi
    rw [hclose, ← sum_dailyLogReturn hpos' hi', dailyReturns_withReturns]
    refine sum_congr rfl fun j hj => ?_
    rw [List.length_map] at hi'
    have hj' : j < (orderByDate fetched).length := by
      have := mem_range.1 hj
      omega
    simp [List.getD_eq_getElem?_getD, hj']

/-- Another unit of the prices leaves the returns as they are. -/
theorem dailyReturns_scaleClose (fetched : List HistoricalPrice) {k : ℝ} (hk : k ≠ 0) :
    dailyReturns (withReturns (orderByDate (fetched.map (scaleClose k)))) =
      dailyReturns (withReturns (orderByDate fetched)) := by
  have hscaled : ((orderByDate fetched).map (scaleClose k)).map (·.close) =
      ((orderByDate fetched).map (·.close)).map (k * ·) := by
    rw [List.map_map, List.map_map]
    rfl
  rw [dailyReturns_withReturns, dailyReturns_withReturns, orderByDate_scaleClose, hscaled, List.length_map]
  exact List.map_congr_left fun i _ => dailyLogReturn_scale _ hk i

/-- For every history with distinct dates and positive closes the returns telescope; every order of
the feed gives the same quotes, and every unit of the prices the same returns. -/
theorem getHistoricalQuote_telescopes {fetched : List HistoricalPrice} (hne : fetched ≠ [])
    (hd : (fetched.map (·.date)).Nodup) (hpos : ∀ p ∈ fetched, 0 < p.close) :
    ∃ quotes, getHistoricalQuote fetched = .ok quotes ∧ Telescopes fetched quotes ∧
      (∀ fetched', fetched'.Perm fetched → getHistoricalQuote fetched' = .ok quotes) ∧
      ∀ k > 0, ∃ quotes', getHistoricalQuote (fetched.map (scaleClose k)) = .ok quotes' ∧
        dailyReturns quotes' = dailyReturns quotes := by
  refine ⟨_, getHistoricalQuote_eq hne, telescopes_withReturns hne hd hpos, fun fetched' h => ?_, fun k hk => ?_⟩
  · rw [getHistoricalQuote_eq fun hnil => hne (by rwa [hnil, List.nil_perm] at h), orderByDate_of_perm h hd]
  · exact ⟨_, getHistoricalQuote_eq (by simpa using hne), dailyReturns_scaleClose fetched hk.ne'⟩

theorem getHistoricalQuote_telescopes_doubling : ∃ quotes, getHistoricalQuote doubling = .ok quotes ∧
    Telescopes doubling quotes ∧ getHistoricalQuote doubling.reverse = .ok quotes := by
  have hne : doubling ≠ [] := by simp [doubling]
  obtain ⟨quotes, hok, ht, hperm, -⟩ := getHistoricalQuote_telescopes hne (by simp [doubling]) (by simp [doubling])
  exact ⟨quotes, hok, ht, hperm _ (List.reverse_perm doubling)⟩

end StockPredictor.Service
