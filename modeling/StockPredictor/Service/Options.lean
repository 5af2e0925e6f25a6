/-
`DataService.GetImpliedVolatility` on the options `GetOptionData` delivers, and the fallback to the
historical volatility that `GetStockProjections` makes when there is no implied one. The array is
made before the test for null, and the average is taken without a test for positive ones.
-/
import StockPredictor.Service.Projection

namespace StockPredictor.Service

open Base Quant

/-- `Option`. -/
structure OptionData where
  contractName : Text := []
  strike : ℝ := 0
  impliedVolatility : ℝ
  bid : ℝ := 0
  ask : ℝ := 0

/-- `ToArray()` of a sequence that may be null. -/
def toArray {α : Type} : Option (List α) → Except Exn (List α)
  | none => .error .argumentNull
  | some l => .ok l

noncomputable section

/-- `Average()`, which needs an element. -/
def average : List ℝ → Except Exn ℝ
  | [] => .error .invalidOperation
  | x :: l => .ok ((x :: l).sum / (x :: l).length)

open Classical in
/-- The implied volatilities of the options `Where(o => o.ImpliedVolatility > 0)`. -/
def positiveVolatilities (options : List OptionData) : List ℝ :=
  (options.filter fun o => decide (o.impliedVolatility > 0)).map (·.impliedVolatility)

/-- `DataService.GetImpliedVolatility` on the result of `GetOptionData`. -/
def getImpliedVolatility (options : Option (List OptionData)) : Except Exn (Option ℝ) :=
  match toArray options with
  | .error e => .error e
  | .ok enumerable =>
    if options.isNone ∨ enumerable.isEmpty then .ok none
    else (average (positiveVolatilities enumerable)).map some

/-- What an implied volatility is: the mean of the positive ones, where there is any. -/
def meanPositive (options : Option (List OptionData)) : Option ℝ :=
  match positiveVolatilities (options.getD []) with
  | [] => none
  | v :: l => some (getMean (v :: l))

end

/-! ## The mean of the positive ones -/

theorem mem_positiveVolatilities {options : List OptionData} {v : ℝ} :
    v ∈ positiveVolatilities options ↔ 0 < v ∧ ∃ o ∈ options, o.impliedVolatility = v := by
  simp only [positiveVolatilities, List.mem_map, List.mem_filter, decide_eq_true_eq]
  constructor
  · rintro ⟨o, ⟨ho, hpos⟩, rfl⟩
    exact ⟨hpos, o, ho, rfl⟩
  · rintro ⟨hpos, o, ho, rfl⟩
    exact ⟨o, ⟨ho, hpos⟩, rfl⟩

theorem positiveVolatilities_eq_nil_iff {options : List OptionData} :
    positiveVolatilities options = [] ↔ ∀ o ∈ options, ¬ 0 < o.impliedVolatility := by
  rw [List.eq_nil_iff_forall_not_mem]
  constructor
  · exact fun h o ho hpos => h _ (mem_positiveVolatilities.2 ⟨hpos, o, ho, rfl⟩)
  · rintro h v hv
    obtain ⟨hpos, o, ho, rfl⟩ := mem_positiveVolatilities.1 hv
    exact h o ho hpos

theorem meanPositive_eq (options : Option (List OptionData)) : meanPositive options =
    if positiveVolatilities (options.getD []) = [] then none
    else some (getMean (positiveVolatilities (options.getD []))) := by
  unfold meanPositive
  cases positiveVolatilities (options.getD []) with
  | nil => rfl
  | cons v l => rw [if_neg (List.cons_ne_nil v l)]

theorem meanPositive_eq_none_iff (options : Option (List OptionData)) :
    meanPositive options = none ↔ ∀ l, options = some l → ∀ o ∈ l, ¬ 0 < o.impliedVolatility := by
  rw [meanPositive_eq, ite_eq_left_iff]
  simp only [reduceCtorEq, imp_false, not_not, positiveVolatilities_eq_nil_iff]
  cases options with
  | none => simp
  | some l => simp

theorem meanPositive_pos {options : Option (List OptionData)} {v : ℝ} (h : meanPositive options = some v) : 0 < v := by
  rw [meanPositive_eq] at h
  split at h
  · cases h
  · rename_i hne
    cases h
    have hpos : ∀ x ∈ positiveVolatilities (options.getD []), 0 < x := fun x hx => (mem_positiveVolatilities.1 hx).1
    rw [getMean_eq]
    exact div_pos (List.sum_pos _ hpos hne) (Nat.cast_pos.2 (List.length_pos_of_ne_nil hne))

/-! ## The code -/

theorem average_eq (l : List ℝ) : average l = if l = [] then .error .invalidOperation else .ok (getMean l) := by
  cases l with
  | nil => rfl
  | cons x l => rw [if_neg (List.cons_ne_nil x l), getMean_eq]; rfl

theorem getImpliedVolatility_none : getImpliedVolatility none = .error .argumentNull := rfl

theorem getImpliedVolatility_nil : getImpliedVolatility (some []) = .ok none := by
  simp [getImpliedVolatility, toArray]

theorem getImpliedVolatility_cons (o : OptionData) (l : List OptionData) :
    getImpliedVolatility (some (o :: l)) = (average (positiveVolatilities (o :: l))).map some := by
  simp [getImpliedVolatility, toArray]

/-- The average of the positive ones is their mean exactly when there is any. -/
theorem average_positiveVolatilities_iff (l : List OptionData) :
    (average (positiveVolatilities l)).map some = .ok (meanPositive (some l)) ↔ ∃ o ∈ l, 0 < o.impliedVolatility := by
  have hany : positiveVolatilities l ≠ [] ↔ ∃ o ∈ l, 0 < o.impliedVolatility := by
    rw [ne_eq, positiveVolatilities_eq_nil_iff]
    push Not
    rfl
  rw [← hany, average_eq, meanPositive_eq, Option.getD_some]
  split
  · rename_i hnil
    exact iff_of_false (fun h => by cases h) fun h => h hnil
  · rename_i hne
    exact iff_of_true rfl hne

/-- The implied volatility is what it should be when there is an empty list or a positive one. -/
theorem getImpliedVolatility_eq_iff (options : Option (List OptionData)) :
    getImpliedVolatility options = .ok (meanPositive options) ↔
      ∃ l, options = some l ∧ (l = [] ∨ ∃ o ∈ l, 0 < o.impliedVolatility) := by
  cases options with
  | none => simp [getImpliedVolatility_none]
  | some l =>
    cases l with
    | nil => simp [getImpliedVolatility_nil, meanPositive, positiveVolatilities]
    | cons o l =>
      rw [getImpliedVolatility_cons, average_positiveVolatilities_iff]
      simp

/-! ## The fallback -/

/-- Without an implied volatility, what the volatility is comes from the history. -/
theorem getVolatility_history {ds : DataService} {symbol : Text} (h : ds.getImpliedVolatility symbol = .ok none)
    (action : Bool) (s : Trace) : (exec (getVolatility ds symbol action) s).1 = historicalVolatility ds symbol := by
  obtain ⟨t, ht, -⟩ := exec_getVolatility ds symbol action s
  rw [ht, volatilityOf, h]

/-- What is owed to the result of `GetOptionData`: no exception but the mean of the positive
implied volatilities, or null where there is none, and with null the historical volatility. -/
structure FallsBack (options : Option (List OptionData)) : Prop where
  mean : getImpliedVolatility options = .ok (meanPositive options)
  history : meanPositive options = none → ∀ (ds : DataService) (symbol : Text) (action : Bool) (s : Trace),
    ds.getImpliedVolatility symbol = getImpliedVolatility options →
    (exec (getVolatility ds symbol action) s).1 = historicalVolatility ds symbol

/-- For every result of `GetOptionData`: the implied volatility falls back cleanly exactly when the
result is an empty list, or a list with a positive implied volatility. The mean it should be is null
exactly without a positive one, and otherwise positive. -/
theorem fallsBack_iff (options : Option (List OptionData)) :
    (FallsBack options ↔ ∃ l, options = some l ∧ (l = [] ∨ ∃ o ∈ l, 0 < o.impliedVolatility)) ∧
    (meanPositive options = none ↔ ∀ l, options = some l → ∀ o ∈ l, ¬ 0 < o.impliedVolatility) ∧
    ∀ v, meanPositive options = some v → 0 < v := by
  refine ⟨⟨fun h => (getImpliedVolatility_eq_iff options).1 h.mean, fun h => ?_⟩, meanPositive_eq_none_iff options,
    fun v hv => meanPositive_pos hv⟩
  have hmean := (getImpliedVolatility_eq_iff options).2 h
  refine ⟨hmean, fun hnone ds symbol action s hds => getVolatility_history ?_ action s⟩
  rw [hds, hmean, hnone]

/-- A failed request and a list without a positive implied volatility both throw. -/
theorem fallsBack_fails : getImpliedVolatility none = .error .argumentNull ∧
    getImpliedVolatility (some [{ impliedVolatility := 0 }]) = .error .invalidOperation := by
  refine ⟨rfl, ?_⟩
  rw [getImpliedVolatility_cons, average_eq, if_pos (positiveVolatilities_eq_nil_iff.2 (by simp))]
  rfl

end StockPredictor.Service
