/-
When a day of a simulation ends in a price. The mean of a day is a number above zero exactly when no
path has become infinite or no number, the sum of the paths does not overflow, and the mean does not
vanish. It is so when the current price and the factors of the draws are not too extreme for the
number of days.
-/
import StockPredictor.Doubles.History

namespace StockPredictor.Doubles

open Base Base.Double Native

variable (rt : Runtime) (price volatility : Double) (days iterations draws day : ℕ)

/-- The price of path `i` after the day, for a simulation without drift. -/
def priceOnPath (i : ℕ) : Double :=
  pathPrice rt.library rt.random (finite 0) (dailyVolatility rt.library volatility) price (draws + i * days) (day + 1)

/-- The running sum of the prices of the paths after the day. -/
def sumOverPaths : Double :=
  daySum rt.library rt.random (finite 0) (dailyVolatility rt.library volatility) price days draws day iterations

/-- Nothing overflows, becomes no number or vanishes up to the mean of the day. -/
structure Survives : Prop where
  paths : ∀ i < iterations, ∃ v, priceOnPath rt price volatility days draws day i = finite v
  mean : ∃ s, sumOverPaths rt price volatility days iterations draws day = finite s ∧
    2 ^ (-1075 : ℤ) < s / iterations

theorem sumOverPaths_succ : sumOverPaths rt price volatility days (iterations + 1) draws day =
    sumOverPaths rt price volatility days iterations draws day +
      priceOnPath rt price volatility days draws day iterations :=
  rfl

variable {iterations}

/-- The current price is within `2^-a` and `2^a`, the factor of every draw within `2^-k` and `2^k`, and so
many days do not lead out of the range of the doubles. -/
structure Moderate (iterations a k : ℕ) : Prop where
  price : ∃ p, price = finite p ∧ 2 ^ (-a : ℤ) ≤ p ∧ p ≤ 2 ^ (a : ℤ)
  factors : ∀ j, draws ≤ j → j < draws + iterations * days → ∃ f,
    dayFactor rt.library rt.random (finite 0) (dailyVolatility rt.library volatility) j = finite f ∧
      2 ^ (-k : ℤ) ≤ f ∧ f ≤ 2 ^ (k : ℤ)
  range : a + k * days ≤ 969

section Moderate

variable {rt price volatility days draws day} {a k : ℕ}

/-- Each day widens the range of the prices of a path by the range of one factor. -/
theorem Moderate.pathPrice_bounded (h : Moderate rt price volatility days draws iterations a k) {i : ℕ}
    (hi : i < iterations) : ∀ d ≤ days, ∃ v,
      pathPrice rt.library rt.random (finite 0) (dailyVolatility rt.library volatility) price (draws + i * days) d =
        finite v ∧ 2 ^ (-(a + k * d : ℕ) : ℤ) ≤ v ∧ v ≤ 2 ^ ((a + k * d : ℕ) : ℤ) := by
  intro d hd
  induction d with
  | zero =>
    obtain ⟨p, hp, hlow, hhigh⟩ := h.price
    exact ⟨p, hp, by simpa using hlow, by simpa using hhigh⟩
  | succ d ih =>
    obtain ⟨v, hv, hvlow, hvhigh⟩ := ih (by omega)
    have hj : draws + i * days + d < draws + iterations * days := by
      have := Nat.mul_le_mul_right days (Nat.succ_le_of_lt hi)
      rw [Nat.succ_mul] at this
      omega
    obtain ⟨f, hf, hflow, hfhigh⟩ := h.factors (draws + i * days + d) (by omega) hj
    have hrange : a + k * (d + 1) ≤ 969 := (Nat.add_le_add_left (Nat.mul_le_mul_left k hd) a).trans h.range
    have hexp : a + k * (d + 1) = a + k * d + k := by ring
    have hv0 : 0 < v := (two_zpow_pos _).trans_le hvlow
    have hlow : (2 : ℚ) ^ (-(a + k * (d + 1) : ℕ) : ℤ) ≤ v * f := by
      rw [hexp, Nat.cast_add, neg_add, zpow_add₀ two_ne_zero]
      exact mul_le_mul hvlow hflow (two_zpow_pos _).le hv0.le
    have hhigh : v * f ≤ 2 ^ ((a + k * (d + 1) : ℕ) : ℤ) := by
      rw [hexp, Nat.cast_add, zpow_add₀ two_ne_zero]
      exact mul_le_mul hvhigh hfhigh ((two_zpow_pos _).le.trans hflow) (two_zpow_pos _).le
    refine ⟨roundToUlp (v * f), ?_, two_zpow_le_roundToUlp (by omega) hlow, roundToUlp_le_two_zpow (by omega) hhigh⟩
    show pathPrice _ _ _ _ _ _ d * dayFactor _ _ _ _ _ = _
    rw [hv, hf]
    exact (ofRat_of_abs_le (by omega) (by omega) ((abs_of_pos ((two_zpow_pos _).trans_le hlow)).trans_le hhigh)).1

/-- A simulation with a moderate price and moderate factors survives every day. -/
theorem Moderate.survives (h : Moderate rt price volatility days draws iterations a k) (hn : 0 < iterations)
    (hn' : iterations ≤ 2147483647) (hday : day < days) : Survives rt price volatility days iterations draws day := by
  have hrange : a + k * (day + 1) ≤ 969 :=
    (Nat.add_le_add_left (Nat.mul_le_mul_left k (Nat.succ_le_of_lt hday)) a).trans h.range
  have hpath := fun i (hi : i < iterations) => h.pathPrice_bounded hi (day + 1) (Nat.succ_le_of_lt hday)
  generalize a + k * (day + 1) = m at hrange hpath
  -- the running sum is a number, and no less than the smallest price once there is one
  have hsum : ∀ n ≤ iterations, ∃ s, sumOverPaths rt price volatility days n draws day = finite s ∧ 0 ≤ s ∧
      |s| ≤ 2 ^ ((m : ℤ) + 54) ∧ (0 < n → 2 ^ (-m : ℤ) ≤ s) := by
    intro n hle
    induction n with
    | zero =>
      refine ⟨0, ofRat_zero, le_rfl, ?_, fun h => absurd h (lt_irrefl 0)⟩
      rw [abs_zero]
      exact (two_zpow_pos _).le
    | succ n ih =>
      obtain ⟨s, hs, hs0, hsbound, -⟩ := ih (by omega)
      obtain ⟨v, hv, hvlow, hvhigh⟩ := hpath n (by omega)
      have hv0 : 0 < v := (two_zpow_pos _).trans_le hvlow
      obtain ⟨hadd, hbound⟩ := saturated_add (by omega) (by omega) hsbound ((abs_of_pos hv0).trans_le hvhigh)
      rw [sumOverPaths_succ, hs, priceOnPath, hv]
      exact ⟨_, hadd, roundToUlp_nonneg (by linarith), hbound, fun _ => two_zpow_le_roundToUlp (by omega) (by linarith)⟩
  obtain ⟨s, hs, -, -, hlow⟩ := hsum iterations le_rfl
  refine ⟨fun i hi => let ⟨v, hv, _⟩ := hpath i hi; ⟨v, hv⟩, s, hs, ?_⟩
  have hpos : (0 : ℚ) < iterations := Nat.cast_pos.2 hn
  have hcount : (iterations : ℚ) ≤ 2 ^ (31 : ℤ) := by
    have : (iterations : ℚ) ≤ 2147483647 := by exact_mod_cast hn'
    exact this.trans (by norm_num)
  rw [lt_div_iff₀ hpos]
  calc (2 : ℚ) ^ (-1075 : ℤ) * iterations ≤ 2 ^ (-1075 : ℤ) * 2 ^ (31 : ℤ) :=
        mul_le_mul_of_nonneg_left hcount (two_zpow_pos _).le
    _ = 2 ^ (-1044 : ℤ) := by rw [← zpow_add₀ two_ne_zero]; norm_num
    _ < 2 ^ (-m : ℤ) := zpow_lt_zpow_right₀ (by norm_num) (by omega)
    _ ≤ s := hlow hn

end Moderate

end StockPredictor.Doubles
