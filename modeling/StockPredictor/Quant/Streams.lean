/-
Runs over related streams of draws. A stream and its mirror project prices whose product is at least
the square of the drifted price, so at most half of the streams project a fall; and one draw moves
the prices of its own day and of the days after it, in its own direction, and no others.
-/
import StockPredictor.Quant.Sampler
import StockPredictor.Quant.Variance

namespace StockPredictor.Quant

open Base Finset
open scoped BigOperators

/-! ## Mirrored streams -/

/-- Every draw replaced by its mirror. -/
def mirror (random : ℕ → ℝ) (j : ℕ) : ℝ := 1 - random j

section Mirror

variable {erfc : ℝ → ℝ} (random : ℕ → ℝ) (mean sigma : ℝ)

/-- The log returns of mirrored draws. -/
theorem closedForm_mirror (hsym : ∀ y, erfc (-y) = 2 - erfc y) (currentPrice : ℝ) (days iterations draws day : ℕ) :
    closedForm erfc (mirror random) mean sigma currentPrice days iterations draws day =
      currentPrice / iterations * ∑ i ∈ range iterations, Real.exp ((day + 1) * mean -
        sigma * ∑ k ∈ range (day + 1), getInverseCDF erfc (random (draws + i * days + k))) := by
  unfold closedForm mirror
  simp only [getInverseCDF_mirror hsym, sum_neg_distrib, mul_neg, ← sub_eq_add_neg]

/-- A price and the mirrored one: their product is at least the square of the drifted price. -/
theorem sq_le_closedForm_mul_mirror (hsym : ∀ y, erfc (-y) = 2 - erfc y) (currentPrice : ℝ) (days : ℕ)
    {iterations : ℕ} (hi : 0 < iterations) (draws day : ℕ) :
    (currentPrice * Real.exp ((day + 1) * mean)) ^ 2 ≤
      closedForm erfc random mean sigma currentPrice days iterations draws day *
        closedForm erfc (mirror random) mean sigma currentPrice days iterations draws day := by
  rw [closedForm_mirror random mean sigma hsym]
  unfold closedForm
  set S : ℕ → ℝ := fun i => ∑ k ∈ range (day + 1), getInverseCDF erfc (random (draws + i * days + k))
  have hn : (0 : ℝ) < iterations := Nat.cast_pos.2 hi
  -- path by path the product is the square of the drifted growth
  have hpath : ∀ i ∈ range iterations, Real.exp ((day + 1) * mean) ^ 2 ≤
      Real.exp ((day + 1) * mean + sigma * S i) * Real.exp ((day + 1) * mean - sigma * S i) := by
    intro i _
    rw [← Real.exp_add, sq, ← Real.exp_add]
    exact (congrArg Real.exp (by ring)).le
  have hsum := sum_sq_le_sum_mul_sum_of_sq_le_mul (range iterations) (fun i _ => (Real.exp_pos _).le)
    (fun i _ => (Real.exp_pos _).le) hpath
  rw [sum_const, card_range, nsmul_eq_mul] at hsum
  calc (currentPrice * Real.exp ((day + 1) * mean)) ^ 2
      = (currentPrice / iterations) ^ 2 * (iterations * Real.exp ((day + 1) * mean)) ^ 2 := by field_simp
    _ ≤ (currentPrice / iterations) ^ 2 * ((∑ i ∈ range iterations, Real.exp ((day + 1) * mean + sigma * S i)) *
          ∑ i ∈ range iterations, Real.exp ((day + 1) * mean - sigma * S i)) :=
        mul_le_mul_of_nonneg_left hsum (sq_nonneg _)
    _ = _ := by ring

/-- Without drift a price and the mirrored one are not both below the current price. -/
theorem closedForm_not_both_lt (hsym : ∀ y, erfc (-y) = 2 - erfc y) {currentPrice : ℝ} (hp : 0 < currentPrice)
    (days : ℕ) {iterations : ℕ} (hi : 0 < iterations) (draws day : ℕ) :
    ¬ (closedForm erfc random 0 sigma currentPrice days iterations draws day < currentPrice ∧
      closedForm erfc (mirror random) 0 sigma currentPrice days iterations draws day < currentPrice) := by
  rintro ⟨h, h'⟩
  have hprod := sq_le_closedForm_mul_mirror random 0 sigma hsym currentPrice days hi draws day
  rw [mul_zero, Real.exp_zero, mul_one] at hprod
  -- two prices below the current one have a smaller product
  have hlt := mul_lt_mul'' h h' (closedForm_pos erfc random 0 sigma days hp hi draws day).le
    (closedForm_pos erfc (mirror random) 0 sigma days hp hi draws day).le
  rw [← sq] at hlt
  exact absurd hprod (not_le.2 hlt)

end Mirror

/-- The prices of a run and of the run over the mirrored draws: on every day their product is at
least the square of the current price grown by the mean alone. So with the code's conversion the two
are on no day both below the current price. -/
theorem mirrored_runs {erfc : ℝ → ℝ} (hsym : ∀ y, erfc (-y) = 2 - erfc y) {conv : ℝ → ℝ} (random : ℕ → ℝ) (draws : ℕ)
    {days iterations : ℤ} {currentPrice rate dividendYield volatility : ℝ} {prices mirrored : List ℝ}
    (h : (simulateStockPrice erfc conv random days iterations currentPrice rate dividendYield volatility draws).1 =
      .ok prices)
    (h' : (simulateStockPrice erfc conv (mirror random) days iterations currentPrice rate dividendYield volatility
      draws).1 = .ok mirrored) :
    prices.length = mirrored.length ∧ ∀ (d : ℕ) (hd : d < prices.length) (hd' : d < mirrored.length),
      (currentPrice * Real.exp ((d + 1) * stepMean (getDrift conv rate dividendYield) (volatility / √252))) ^ 2
        ≤ prices[d] * mirrored[d] ∧
      (conv = getDailyRateFromYearlyRate → ¬ (prices[d] < currentPrice ∧ mirrored[d] < currentPrice)) := by
  obtain ⟨hv, rfl⟩ := simulateStockPrice_ok_iff.1 h
  obtain ⟨-, rfl⟩ := simulateStockPrice_ok_iff.1 h'
  have hi : 0 < iterations.toNat := by have := hv.iterations; omega
  refine ⟨by simp, fun d hd hd' => ?_⟩
  rw [List.getElem_map, List.getElem_map, List.getElem_range]
  refine ⟨sq_le_closedForm_mul_mirror random _ _ hsym currentPrice _ hi draws d, ?_⟩
  rintro rfl
  rw [getDrift_code, stepMean_zero]
  exact closedForm_not_both_lt random _ hsym hv.price _ hi draws d

/-- A stream of quarters and its mirror, whose shocks are not zero. -/
theorem mirrored_runs_quarter : getInverseCDF Base.erfc (1 / 4) < 0 ∧ ∃ prices mirrored : List ℝ,
    (simulateStockPrice Base.erfc getDailyRateFromYearlyRate (fun _ => 1 / 4) 2 1 100 (1 / 20) 0 (1 / 5) 0).1 =
      .ok prices ∧
    (simulateStockPrice Base.erfc getDailyRateFromYearlyRate (fun _ => 3 / 4) 2 1 100 (1 / 20) 0 (1 / 5) 0).1 =
      .ok mirrored ∧
    prices.length = 2 ∧ mirrored.length = 2 ∧
    ∀ (d : ℕ) (hd : d < prices.length) (hd' : d < mirrored.length),
      (100 * Real.exp ((d + 1) * stepMean (getDrift getDailyRateFromYearlyRate (1 / 20) 0) (1 / 5 / √252))) ^ 2
        ≤ prices[d] * mirrored[d] ∧ ¬ (prices[d] < 100 ∧ mirrored[d] < 100) := by
  have hv : Valid 2 1 100 (getDrift getDailyRateFromYearlyRate (1 / 20) 0) (1 / 5) :=
    ⟨by norm_num, by norm_num, by norm_num, by simp, by norm_num⟩
  have hmirror : mirror (fun _ => 1 / 4) = fun _ => 3 / 4 := by
    funext j
    norm_num [mirror]
  refine ⟨(getInverseCDF_neg_iff (by norm_num)).2 (by norm_num), _, _, simulateStockPrice_ok_iff.2 ⟨hv, rfl⟩,
    simulateStockPrice_ok_iff.2 ⟨hv, rfl⟩, by simp, by simp, fun d hd hd' => ?_⟩
  obtain ⟨-, hdays⟩ := mirrored_runs erfc_neg (fun _ => 1 / 4) 0 (simulateStockPrice_ok_iff.2 ⟨hv, rfl⟩)
    (by rw [hmirror]; exact simulateStockPrice_ok_iff.2 ⟨hv, rfl⟩)
  exact ⟨(hdays d hd hd').1, (hdays d hd hd').2 rfl⟩

/-! ## Streams that project a fall -/

/-- The mirror of every draw of a stream. -/
def Draws.rev {n RAND_MAX : ℕ} : Draws n RAND_MAX ≃ Draws n RAND_MAX := Equiv.arrowCongr (Equiv.refl _) Fin.revPerm

theorem Draws.rev_apply {n RAND_MAX : ℕ} (u : Draws n RAND_MAX) (j : Fin n) : Draws.rev u j = (u j).rev := rfl

/-- Within a stream its mirror is the stream of the mirrored draws. -/
theorem randomOf_rev {n RAND_MAX : ℕ} (hR : 0 < RAND_MAX) (u : Draws n RAND_MAX) {j : ℕ} (hj : j < n) :
    randomOf RAND_MAX (Draws.rev u).rand j = mirror (randomOf RAND_MAX u.rand) j := by
  have hne : (RAND_MAX : ℝ) ≠ 0 := Nat.cast_ne_zero.2 hR.ne'
  unfold mirror randomOf
  rw [Draws.rand_of_lt _ hj, Draws.rand_of_lt _ hj, Draws.rev_apply, Fin.val_rev, Nat.add_sub_add_right,
    Nat.cast_sub (Nat.lt_succ_iff.1 (u ⟨j, hj⟩).2), sub_div, div_self hne]

/-- The closed form reads the draws of its paths only. -/
theorem closedForm_congr (erfc : ℝ → ℝ) {random random' : ℕ → ℝ} (mean sigma currentPrice : ℝ) {days iterations day : ℕ}
    (hd : day < days) (h : ∀ j < days * iterations, random j = random' j) :
    closedForm erfc random mean sigma currentPrice days iterations 0 day =
      closedForm erfc random' mean sigma currentPrice days iterations 0 day := by
  unfold closedForm
  congr 1
  refine sum_congr rfl fun i hi => ?_
  congr 3
  refine sum_congr rfl fun k hk => ?_
  rw [mem_range] at hi hk
  rw [zero_add, h _ (draw_lt hi (by omega))]

/-- With the code's conversion a stream and its mirror do not both project a fall. -/
theorem not_fall_of_fall {erfc : ℝ → ℝ} (hsym : ∀ y, erfc (-y) = 2 - erfc y) {RAND_MAX : ℕ} (hR : 0 < RAND_MAX)
    {days iterations : ℤ} {currentPrice rate dividendYield volatility : ℝ} {day : ℕ} (h : Valid days iterations
      currentPrice (getDrift getDailyRateFromYearlyRate rate dividendYield) volatility) (hd : day < days.toNat)
    (u : Draws (days.toNat * iterations.toNat) RAND_MAX)
    (hfall : dayPrice erfc getDailyRateFromYearlyRate RAND_MAX days iterations currentPrice rate dividendYield
      volatility day u < currentPrice) :
    ¬ dayPrice erfc getDailyRateFromYearlyRate RAND_MAX days iterations currentPrice rate dividendYield volatility
      day (Draws.rev u) < currentPrice := by
  have hi : 0 < iterations.toNat := by have := h.iterations; omega
  rw [dayPrice_eq erfc _ RAND_MAX h hd] at hfall ⊢
  rw [closedForm_congr erfc _ _ currentPrice hd fun j hj => randomOf_rev hR u hj]
  rw [getDrift_code, stepMean_zero] at hfall ⊢
  exact fun hfall' => closedForm_not_both_lt (randomOf RAND_MAX u.rand) (dailyVolatility volatility) hsym h.price
    days.toNat hi 0 day ⟨hfall, hfall'⟩

/-- At most half of all streams project a price below the current one for a day, whatever the rate
and the dividend yield are. -/
theorem falls_at_most_half {erfc : ℝ → ℝ} (hsym : ∀ y, erfc (-y) = 2 - erfc y) {RAND_MAX : ℕ} (hR : 0 < RAND_MAX)
    {days iterations : ℤ} {currentPrice rate dividendYield volatility : ℝ} {day : ℕ} (h : Valid days iterations
      currentPrice (getDrift getDailyRateFromYearlyRate rate dividendYield) volatility) (hd : day < days.toNat) :
    share (fun u => dayPrice erfc getDailyRateFromYearlyRate RAND_MAX days iterations currentPrice rate dividendYield
      volatility day u < currentPrice) ≤ 1 / 2 :=
  share_le_half Draws.rev (not_fall_of_fall hsym hR h hd)

theorem falls_at_most_half_small : share (fun u => dayPrice Base.erfc getDailyRateFromYearlyRate 32767 1 500000 100
    (1 / 20) (1 / 2) (1 / 5) 0 u < 100) ≤ 1 / 2 :=
  falls_at_most_half erfc_neg (by norm_num) ⟨by norm_num, by norm_num, by norm_num, by simp, by norm_num⟩ (by decide)

/-! ## One draw -/

section Update

variable (erfc : ℝ → ℝ) (random : ℕ → ℝ) {days draws path day : ℕ} (q : ℝ)

/-- The sum of the shocks of a path's first days, after one draw of one path is replaced. -/
theorem sum_update {i d : ℕ} (hd : d < days) (hday : day < days) :
    ∑ k ∈ range (d + 1),
        getInverseCDF erfc (Function.update random (draws + path * days + day) q (draws + i * days + k)) =
      ∑ k ∈ range (d + 1), getInverseCDF erfc (random (draws + i * days + k)) +
        if i = path ∧ day ≤ d then
          getInverseCDF erfc q - getInverseCDF erfc (random (draws + path * days + day)) else 0 := by
  have hterm : ∀ k ∈ range (d + 1),
      getInverseCDF erfc (Function.update random (draws + path * days + day) q (draws + i * days + k)) =
        getInverseCDF erfc (random (draws + i * days + k)) + if i = path ∧ k = day then
          getInverseCDF erfc q - getInverseCDF erfc (random (draws + path * days + day)) else 0 := by
    intro k hk
    rw [mem_range] at hk
    -- the draw of a day of a path is no other day's and no other path's
    have hindex : draws + i * days + k = draws + path * days + day ↔ i = path ∧ k = day := by
      constructor
      · intro h
        have hpath : i = path := by
          by_contra hne
          rcases Nat.lt_or_gt_of_ne hne with hlt | hlt
          · have := Nat.mul_le_mul_right days (Nat.succ_le_of_lt hlt)
            rw [Nat.succ_mul] at this
            omega
          · have := Nat.mul_le_mul_right days (Nat.succ_le_of_lt hlt)
            rw [Nat.succ_mul] at this
            omega
        subst hpath
        exact ⟨rfl, by omega⟩
      · rintro ⟨rfl, rfl⟩
        rfl
    by_cases h : i = path ∧ k = day
    · rw [if_pos h, hindex.2 h, Function.update_self, add_sub_cancel]
    · rw [if_neg h, Function.update_of_ne fun he => h (hindex.1 he), add_zero]
  rw [sum_congr rfl hterm, sum_add_distrib]
  congr 1
  by_cases hi : i = path
  · simp [hi]
  · simp [hi]

theorem closedForm_update_of_lt (mean sigma currentPrice : ℝ) (iterations : ℕ) {d : ℕ} (hday : day < days)
    (hlt : d < day) :
    closedForm erfc (Function.update random (draws + path * days + day) q) mean sigma currentPrice days iterations draws
      d = closedForm erfc random mean sigma currentPrice days iterations draws d := by
  unfold closedForm
  simp only [sum_update erfc random q (hlt.trans hday) hday, not_le.2 hlt, and_false, if_false, add_zero]

/-- From its day on, a draw moves the price in its own direction. -/
theorem closedForm_lt_update_iff {mean sigma currentPrice : ℝ} (hs : 0 < sigma) (hp : 0 < currentPrice)
    {iterations d : ℕ} (hpath : path < iterations) (hday : day < days) (hle : day ≤ d) (hd : d < days) :
    closedForm erfc random mean sigma currentPrice days iterations draws d <
        closedForm erfc (Function.update random (draws + path * days + day) q) mean sigma currentPrice days iterations
          draws d ↔
      getInverseCDF erfc (random (draws + path * days + day)) < getInverseCDF erfc q := by
  unfold closedForm
  simp only [sum_update erfc random q hd hday, hle, and_true]
  have hn : (0 : ℝ) < currentPrice / iterations := div_pos hp (Nat.cast_pos.2 (by omega))
  rw [mul_lt_mul_iff_right₀ hn, ← add_sum_erase _ _ (mem_range.2 hpath), ← add_sum_erase _ _ (mem_range.2 hpath)]
  -- the other paths stay as they are
  have hrest : ∑ i ∈ (range iterations).erase path, Real.exp ((d + 1) * mean + sigma *
        (∑ k ∈ range (d + 1), getInverseCDF erfc (random (draws + i * days + k)) + if i = path then
          getInverseCDF erfc q - getInverseCDF erfc (random (draws + path * days + day)) else 0)) =
      ∑ i ∈ (range iterations).erase path, Real.exp ((d + 1) * mean + sigma *
        ∑ k ∈ range (d + 1), getInverseCDF erfc (random (draws + i * days + k))) := by
    refine sum_congr rfl fun i hi => ?_
    rw [if_neg (ne_of_mem_erase hi), add_zero]
  rw [hrest, add_lt_add_iff_right, if_pos rfl, Real.exp_lt_exp, add_lt_add_iff_left, mul_lt_mul_iff_right₀ hs,
    lt_add_iff_pos_right, sub_pos]

end Update

/-- The influence of one draw of `rand()`. Replacing the draw of one day of one path by a larger one
leaves the prices of the days before it as they are; it raises the prices of that day and of every
day after it exactly where the order of the two draws is kept by the sampler. -/
theorem raise_draw {conv : ℝ → ℝ} (random : ℕ → ℝ) (draws path day : ℕ) {days iterations : ℤ}
    {currentPrice rate dividendYield volatility : ℝ} {prices raised : List ℝ} {q : ℝ}
    (hpath : path < iterations.toNat) (hday : day < days.toNat)
    (hp : 0 ≤ random (draws + path * days.toNat + day))
    (hpq : random (draws + path * days.toNat + day) < q) (hq : q ≤ 1)
    (h : (simulateStockPrice erfc conv random days iterations currentPrice rate dividendYield volatility draws).1 =
      .ok prices)
    (h' : (simulateStockPrice erfc conv (Function.update random (draws + path * days.toNat + day) q) days iterations
      currentPrice rate dividendYield volatility draws).1 = .ok raised) :
    prices.take day = raised.take day ∧
    ∀ (d : ℕ) (hd : d < prices.length) (hd' : d < raised.length), day ≤ d →
      (prices[d] < raised[d] ↔ OrderKept (random (draws + path * days.toNat + day)) q) := by
  obtain ⟨hv, rfl⟩ := simulateStockPrice_ok_iff.1 h
  obtain ⟨-, rfl⟩ := simulateStockPrice_ok_iff.1 h'
  constructor
  · rw [← List.map_take, ← List.map_take, List.take_range]
    refine List.map_congr_left fun d hd => ?_
    rw [List.mem_range] at hd
    exact (closedForm_update_of_lt erfc random q _ _ currentPrice _ hday (by omega)).symm
  · intro d hd hd' hle
    rw [List.length_map, List.length_range] at hd
    rw [List.getElem_map, List.getElem_map, List.getElem_range,
      closedForm_lt_update_iff erfc random q (dailyVolatility_pos hv.volatility) hv.price hpath hday hle hd,
      orderKept_iff hp hpq hq]

/-- The second of two draws raised from a quarter to three quarters: the price of the first day stays,
that of the second one rises. -/
theorem raise_draw_second : ∃ prices raised : List ℝ,
    (simulateStockPrice Base.erfc getDailyRateFromYearlyRate (fun _ => 1 / 4) 2 1 100 (1 / 20) 0 (1 / 5) 0).1 =
      .ok prices ∧
    (simulateStockPrice Base.erfc getDailyRateFromYearlyRate (Function.update (fun _ => 1 / 4) 1 (3 / 4)) 2 1 100
      (1 / 20) 0 (1 / 5) 0).1 = .ok raised ∧
    prices.length = 2 ∧ raised.length = 2 ∧ prices.take 1 = raised.take 1 ∧
    ∀ (hd : 1 < prices.length) (hd' : 1 < raised.length), prices[1] < raised[1] := by
  have hv : Valid 2 1 100 (getDrift getDailyRateFromYearlyRate (1 / 20) 0) (1 / 5) :=
    ⟨by norm_num, by norm_num, by norm_num, by simp, by norm_num⟩
  have hrun : (simulateStockPrice Base.erfc getDailyRateFromYearlyRate (fun _ => 1 / 4) 2 1 100 (1 / 20) 0 (1 / 5)
    0).1 = .ok _ := simulateStockPrice_ok_iff.2 ⟨hv, rfl⟩
  have hraised : (simulateStockPrice Base.erfc getDailyRateFromYearlyRate (Function.update (fun _ => 1 / 4) 1 (3 / 4))
    2 1 100 (1 / 20) 0 (1 / 5) 0).1 = .ok _ := simulateStockPrice_ok_iff.2 ⟨hv, rfl⟩
  obtain ⟨hbefore, hafter⟩ := raise_draw (fun _ => 1 / 4) 0 0 1 (show 0 < (1 : ℤ).toNat by decide)
    (show 1 < (2 : ℤ).toNat by decide) (by norm_num) (by norm_num) (by norm_num) hrun hraised
  exact ⟨_, _, hrun, hraised, by simp, by simp, hbefore, fun hd hd' =>
    (hafter 1 hd hd' le_rfl).2 (.inl (by norm_num))⟩

end StockPredictor.Quant
