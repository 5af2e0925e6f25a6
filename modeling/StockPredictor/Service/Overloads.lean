/-
The choice of the overload in a projection. It takes the short one when the rate or the dividend is
zero: that is right for a zero rate, and wrong for a stock that pays no dividend under a positive
rate.
-/
import StockPredictor.Base.Erfc
import StockPredictor.Quant.Overloads
import StockPredictor.Service.Projection

namespace StockPredictor.Service

open Base Quant

theorem mapError_map_injective {x y : Except Text (List ℝ)}
    (h : (x.mapError Exn.native).map some = (y.mapError Exn.native).map some) : x = y := by
  cases x <;> cases y <;> cases h <;> rfl

section Choice

variable {p : Platform} {days iterations : ℤ} {price rate dividendYield volatility : ℝ} (draws : ℕ)

/-- With both rates nonnegative, the call of a projection has the drift of the long overload exactly
when the rate is zero or the dividend is not. -/
theorem chooseCall_drift_iff (hmono : StrictMono p.conv) (h0 : p.conv 0 = 0) (hr : 0 ≤ rate) (hd : 0 ≤ dividendYield) :
    (chooseCall days iterations price rate dividendYield volatility).drift p.conv =
      max 0 (p.conv rate - p.conv dividendYield) ↔ rate = 0 ∨ dividendYield ≠ 0 := by
  unfold chooseCall
  split
  · rename_i hz
    show getDrift p.conv 0 0 = _ ↔ _
    rw [getDrift_self]
    rcases hr.eq_or_lt with rfl | hr
    · -- without a rate the dividend can only lower the drift
      have hle : p.conv 0 ≤ p.conv dividendYield := hmono.monotone hd
      have hmax : max 0 (p.conv 0 - p.conv dividendYield) = 0 := max_eq_left (by linarith)
      rw [hmax]
      simp
    · have hd0 : dividendYield = 0 := hz.resolve_right hr.ne'
      have hpos : 0 < p.conv rate := by rw [← h0]; exact hmono hr
      rw [hd0, h0, sub_zero, max_eq_right hpos.le]
      simp [hpos.ne, hr.ne']
  · rename_i hz
    push Not at hz
    exact ⟨fun _ => .inr hz.1, fun _ => getDrift_eq_max _ _ _⟩

/-- And it returns what the long overload returns in these cases, and besides when the drift of the
long one is half the variance of a day. -/
theorem chooseCall_run_iff (hmono : StrictMono p.conv) (h0 : p.conv 0 = 0) (hr : 0 ≤ rate) (hd : 0 ≤ dividendYield)
    (hdays : 0 < days) (hiterations : 0 < iterations) (hprice : 0 < price) (hvolatility : 0 < volatility) :
    ((chooseCall days iterations price rate dividendYield volatility).run p draws).1 =
      (simulateStockPrice p.erfc p.conv p.random days iterations price rate dividendYield volatility draws).1 ↔
    rate = 0 ∨ dividendYield ≠ 0 ∨ (p.conv rate = dailyVolatility volatility ^ 2 / 2 ∧ p.conv rate ≤ 1) := by
  unfold chooseCall
  split
  · rename_i hz
    show (simulateStockPrice₄ p.erfc p.conv p.random days iterations price volatility draws).1 = _ ↔ _
    rw [simulateStockPrice₄_eq_iff p.erfc p.random draws hdays hiterations hprice hvolatility, stepMean_eq_zero_iff]
    rcases hr.eq_or_lt with rfl | hr
    · have hle : p.conv 0 ≤ p.conv dividendYield := hmono.monotone hd
      have hdrift : getDrift p.conv 0 dividendYield = 0 := by
        rw [getDrift_eq_max]; exact max_eq_left (by linarith)
      simp [hdrift]
    · have hd0 : dividendYield = 0 := hz.resolve_right hr.ne'
      have hpos : 0 < p.conv rate := by rw [← h0]; exact hmono hr
      have hdrift : getDrift p.conv rate dividendYield = p.conv rate := by
        rw [getDrift_eq_max, hd0, h0, sub_zero, max_eq_right hpos.le]
      rw [hdrift]
      simp [hpos.ne', hr.ne', hd0, and_comm]
  · rename_i hz
    push Not at hz
    exact ⟨fun _ => .inr (.inl hz.1), fun _ => rfl⟩

end Choice

/-- The result of a projection and the drift that reaches the simulation, against the overload with
six arguments. Both agree with it exactly when the rate is zero or the dividend is not; the result
alone also does when the daily rate happens to be half the variance of a day, and at most one. -/
theorem projection_overloads_agree (p : Platform) (hmono : StrictMono p.conv) (h0 : p.conv 0 = 0) {ds : DataService}
    {symbol : Text} {rate : ℝ} {stock : Stock} {volatility : ℝ} {setting : Text}
    (h : Answered ds symbol rate stock volatility setting) {days iterations : ℤ} {price : ℝ} (action : Bool)
    (draws : ℕ) (hn : toInt32 (some setting) = .ok iterations) (hp : quotedPrice stock = .ok price)
    (hdays : 0 < days) (hiterations : 0 < iterations) (hprice : 0 < price) (hvolatility : 0 < mathRound 4 volatility)
    (hr : 0 ≤ mathRound 4 rate) (hd : 0 ≤ quotedDividendYield stock) :
    let r := mathRound 4 rate
    let d := quotedDividendYield stock
    let sigma := mathRound 4 volatility / √252
    let out := projection p ds symbol days action draws
    let six := simulateStockPrice p.erfc p.conv p.random days iterations price r d (mathRound 4 volatility) draws
    (out.1 = (six.1.mapError Exn.native).map some ∧
      (∃ c, out.2.calls = [c] ∧ c.drift p.conv = max 0 (p.conv r - p.conv d)) ↔ r = 0 ∨ d ≠ 0) ∧
    (out.1 = (six.1.mapError Exn.native).map some ↔
      r = 0 ∨ d ≠ 0 ∨ (p.conv r = sigma ^ 2 / 2 ∧ p.conv r ≤ 1)) := by
  intro r d sigma out six
  have hv0 : volatility ≠ 0 := by
    rintro rfl
    rw [mathRound_pos_iff] at hvolatility
    norm_num at hvolatility
  obtain ⟨hout, hcalls⟩ : out.1 = returned p draws (callFor days iterations price rate volatility stock) ∧
      out.2.calls = [callFor days iterations price rate volatility stock] :=
    h.simulates p days action draws hv0 hn hp
  have hsame : out.1 = (six.1.mapError Exn.native).map some ↔
      r = 0 ∨ d ≠ 0 ∨ (p.conv r = sigma ^ 2 / 2 ∧ p.conv r ≤ 1) := by
    show _ ↔ r = 0 ∨ d ≠ 0 ∨ (p.conv r = dailyVolatility (mathRound 4 volatility) ^ 2 / 2 ∧ p.conv r ≤ 1)
    rw [hout, ← chooseCall_run_iff draws hmono h0 hr hd hdays hiterations hprice hvolatility]
    exact ⟨mapError_map_injective, fun he => by unfold returned callFor; rw [he]⟩
  have hdrift : (∃ c, out.2.calls = [c] ∧ c.drift p.conv = max 0 (p.conv r - p.conv d)) ↔ r = 0 ∨ d ≠ 0 := by
    rw [← chooseCall_drift_iff hmono h0 hr hd, hcalls]
    constructor
    · rintro ⟨c, hc, he⟩
      obtain rfl := List.singleton_injective hc
      exact he
    · exact fun he => ⟨_, rfl, he⟩
  refine ⟨?_, hsame⟩
  rw [hsame, hdrift]
  constructor
  · rintro ⟨-, hz⟩
    exact hz
  · exact fun hz => ⟨hz.imp id .inl, hz⟩

/-- A platform whose conversion divides by the days of the year. -/
noncomputable def dividing : Platform := ⟨erfc, fun x => x / 365, fun _ => 0, fun _ => [], fun _ => []⟩

theorem dividing_strictMono : StrictMono dividing.conv := fun x y h => by
  show x / 365 < y / 365
  linarith

theorem quotedDividendYield_atHundred : quotedDividendYield (atHundred none) = 0 ∧
    quotedDividendYield (atHundred (some (1 / 50))) = 1 / 50 := by
  have h0 := mathRound_div (K := ℝ) 4 0
  have h1 := mathRound_div (K := ℝ) 4 200
  unfold quotedDividendYield atHundred
  norm_num at h0 h1 ⊢
  exact ⟨h0, h1⟩

theorem mathRound_fractions : mathRound 4 (1 / 20 : ℝ) = 1 / 20 ∧ mathRound 4 (1 / 5 : ℝ) = 1 / 5 := by
  have h0 := mathRound_div (K := ℝ) 4 500
  have h1 := mathRound_div (K := ℝ) 4 2000
  norm_num at h0 h1 ⊢
  exact ⟨h0, h1⟩

theorem projection_overloads_agree_dividend :
    (projection dividing (answering (1 / 20) (atHundred (some (1 / 50))) (some (1 / 5)) [] "1") "A" 1 true 0).1 =
      ((simulateStockPrice dividing.erfc dividing.conv dividing.random 1 1 100 (mathRound 4 (1 / 20))
        (quotedDividendYield (atHundred (some (1 / 50)))) (mathRound 4 (1 / 5)) 0).1.mapError Exn.native).map some := by
  obtain ⟨hr, hv⟩ := mathRound_fractions
  obtain ⟨-, hd⟩ := quotedDividendYield_atHundred
  refine (projection_overloads_agree dividing dividing_strictMono (by simp [dividing])
    (answered_answering (1 / 20) (atHundred (some (1 / 50))) (1 / 5) [] "1" "A") true 0 (by decide)
    (quotedPrice_atHundred _) (by norm_num) (by norm_num) (by norm_num) ?_ ?_ ?_).2.2 (.inr (.inl ?_))
  · rw [hv]; norm_num
  · rw [hr]; norm_num
  · rw [hd]; norm_num
  · rw [hd]; norm_num

/-- At a rate of 5 % and without a dividend the drift that reaches the simulation is zero and the
result is not that of the overload with six arguments. -/
theorem projection_without_dividend :
    let out := projection dividing (answering (1 / 20) (atHundred none) (some (1 / 5)) [] "1") "A" 1 true 0
    mathRound 4 (1 / 20 : ℝ) = 1 / 20 ∧ quotedDividendYield (atHundred none) = 0 ∧
    out.1 ≠ ((simulateStockPrice dividing.erfc dividing.conv dividing.random 1 1 100 (1 / 20) 0 (1 / 5)
      0).1.mapError Exn.native).map some ∧
    (∃ c, out.2.calls = [c] ∧ c.drift dividing.conv = 0) ∧
    max 0 (dividing.conv (1 / 20) - dividing.conv 0) ≠ 0 := by
  intro out
  obtain ⟨hr, hv⟩ := mathRound_fractions
  obtain ⟨hd, -⟩ := quotedDividendYield_atHundred
  obtain ⟨hout, hcalls⟩ := (answered_answering (1 / 20) (atHundred none) (1 / 5) [] "1" "A").simulates dividing 1 true 0
    (by norm_num) (n := 1) (by decide) (quotedPrice_atHundred none)
  have hc0 : dividing.conv 0 = 0 := by simp [dividing]
  have hc1 : dividing.conv (1 / 20) = 1 / 7300 := by norm_num [dividing]
  have hs : dailyVolatility (1 / 5) ^ 2 / 2 = 1 / 12600 := by
    unfold dailyVolatility
    rw [div_pow, Real.sq_sqrt (by norm_num)]
    norm_num
  have hmax : max 0 (dividing.conv (1 / 20) - dividing.conv 0) ≠ 0 := by rw [hc0, hc1]; norm_num
  unfold callFor at hout hcalls
  rw [hr, hv, hd] at hout hcalls
  refine ⟨hr, hd, ?_, ⟨_, hcalls, ?_⟩, hmax⟩
  · show out.1 ≠ _
    rw [show out.1 = _ from hout]
    intro he
    have h := (chooseCall_run_iff 0 dividing_strictMono hc0 (by norm_num) le_rfl (by norm_num) (by norm_num)
      (by norm_num) (by norm_num)).1 (mapError_map_injective he)
    rw [hc1, hs] at h
    norm_num at h
  · rw [chooseCall, if_pos (.inl rfl)]
    exact getDrift_self _ 0

end StockPredictor.Service
