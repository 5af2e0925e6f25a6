/-
The yearly to daily conversion. With a real exponent `1/365` the daily rate compounds to the yearly
rate and keeps the order of rates; with the integer quotient, which is zero, this is left for the
rate zero only, and the drift never turns positive.
-/
import StockPredictor.Quant.Simulator

namespace StockPredictor.Quant

/-- What a conversion owes a yearly rate and a dividend yield: for each of the two a year of daily
rates makes up the yearly rate and only no rate becomes no rate, their order is kept in both
directions, and the drift tells whether the rate is the higher one. -/
structure Compounds (conv : ℝ → ℝ) (rate dividendYield : ℝ) : Prop where
  year : ∀ r ∈ [rate, dividendYield], (1 + conv r) ^ 365 = 1 + r
  zero : ∀ r ∈ [rate, dividendYield], (conv r = 0 ↔ r = 0)
  above : conv dividendYield < conv rate ↔ dividendYield < rate
  below : conv rate < conv dividendYield ↔ rate < dividendYield
  drift : 0 < getDrift conv rate dividendYield ↔ dividendYield < rate
  noDrift : rate ≤ dividendYield → getDrift conv rate dividendYield = 0

theorem getDrift_pos_iff (conv : ℝ → ℝ) (rate dividendYield : ℝ) :
    0 < getDrift conv rate dividendYield ↔ conv dividendYield < conv rate := by
  rw [getDrift_eq_max, lt_max_iff, sub_pos]
  simp

/-! ## The real exponent -/

/-- The conversion with an exponent `e`. -/
noncomputable def rateWithExponent (e rate : ℝ) : ℝ := (1 + rate) ^ e - 1

/-- The code's conversion is the one with the integer quotient. -/
theorem getDailyRateFromYearlyRate_eq (rate : ℝ) :
    getDailyRateFromYearlyRate rate = rateWithExponent ((1 / 365 : ℤ) : ℝ) rate := rfl

theorem rateWithExponent_strictMonoOn {e : ℝ} (he : 0 < e) : StrictMonoOn (rateWithExponent e) (Set.Ioi (-1)) := by
  intro rate hr rate' _ hlt
  rw [Set.mem_Ioi] at hr
  exact sub_lt_sub_right (Real.rpow_lt_rpow (by linarith) (by linarith) he) 1

/-- With the real quotient every pair of rates above -1 is served. -/
theorem compounds_real {rate dividendYield : ℝ} (hr : -1 < rate) (hd : -1 < dividendYield) :
    Compounds (rateWithExponent (1 / 365)) rate dividendYield := by
  have hmono := rateWithExponent_strictMonoOn (e := 1 / 365) (by norm_num)
  have hzero : rateWithExponent (1 / 365) 0 = 0 := by simp [rateWithExponent]
  have h0 : (-1 : ℝ) < 0 := by norm_num
  have habove : ∀ r ∈ [rate, dividendYield], -1 < r := by simp [hr, hd]
  refine ⟨fun r hmem => ?_, fun r hmem => ?_, hmono.lt_iff_lt hd hr, hmono.lt_iff_lt hr hd, ?_, fun hle => ?_⟩
  · have := habove r hmem
    unfold rateWithExponent
    rw [add_sub_cancel, ← Real.rpow_natCast, ← Real.rpow_mul (by linarith)]
    norm_num
  · have hinj := hmono.injOn.eq_iff (Set.mem_Ioi.2 (habove r hmem)) (Set.mem_Ioi.2 h0)
    rwa [hzero] at hinj
  · rw [getDrift_pos_iff, hmono.lt_iff_lt hd hr]
  · refine le_antisymm (not_lt.1 fun h => ?_) (getDrift_nonneg _ _ _)
    rw [getDrift_pos_iff, hmono.lt_iff_lt hd hr] at h
    linarith

/-! ## The code -/

/-- Each rate becomes the daily rate zero, whose year is a year without interest. -/
theorem year_code_iff (rate : ℝ) : (1 + getDailyRateFromYearlyRate rate) ^ 365 = 1 + rate ↔ rate = 0 := by simp

/-- For all rates: the code's conversion serves two rates exactly when both are zero. It reproduces a
yearly rate, and keeps it apart from no rate, at zero only; it keeps the order of two rates exactly
when they are equal; and the drift tells the higher one exactly when the rate is not above the
dividend yield. -/
theorem compounds_code_iff (rate dividendYield : ℝ) :
    (Compounds getDailyRateFromYearlyRate rate dividendYield ↔ rate = 0 ∧ dividendYield = 0) ∧
    ((1 + getDailyRateFromYearlyRate rate) ^ 365 = 1 + rate ↔ rate = 0) ∧
    ((getDailyRateFromYearlyRate rate = 0 ↔ rate = 0) ↔ rate = 0) ∧
    ((getDailyRateFromYearlyRate dividendYield < getDailyRateFromYearlyRate rate ↔ dividendYield < rate) ↔
      rate ≤ dividendYield) ∧
    (((getDailyRateFromYearlyRate dividendYield < getDailyRateFromYearlyRate rate ↔ dividendYield < rate) ∧
        (getDailyRateFromYearlyRate rate < getDailyRateFromYearlyRate dividendYield ↔ rate < dividendYield)) ↔
      rate = dividendYield) ∧
    ((0 < getDrift getDailyRateFromYearlyRate rate dividendYield ↔ dividendYield < rate) ↔ rate ≤ dividendYield) ∧
    (rate ≤ dividendYield → getDrift getDailyRateFromYearlyRate rate dividendYield = 0) := by
  have horder : ∀ r d : ℝ, (getDailyRateFromYearlyRate d < getDailyRateFromYearlyRate r ↔ d < r) ↔ r ≤ d := by simp
  refine ⟨⟨fun h => ?_, ?_⟩, year_code_iff rate, by simp, horder _ _, ?_, by simp, fun _ => getDrift_code _ _⟩
  · exact ⟨(year_code_iff _).1 (h.year rate (by simp)), (year_code_iff _).1 (h.year dividendYield (by simp))⟩
  · rintro ⟨rfl, rfl⟩
    exact ⟨by simp, by simp, by simp, by simp, by simp, fun _ => getDrift_code _ _⟩
  · rw [horder, horder]
    exact le_antisymm_iff.symm

/-- Five percent a year become nothing a day, and no drift against a dividend yield of two. -/
theorem compounds_code_fails : (1 + getDailyRateFromYearlyRate 0.05) ^ 365 ≠ 1 + 0.05 ∧
    getDailyRateFromYearlyRate 0.05 = 0 ∧ ¬ getDailyRateFromYearlyRate 0.02 < getDailyRateFromYearlyRate 0.05 ∧
    getDrift getDailyRateFromYearlyRate 0.05 0.02 = 0 := by
  refine ⟨?_, by simp, by simp, by simp⟩
  rw [getDailyRateFromYearlyRate_eq_zero]
  norm_num

end StockPredictor.Quant
