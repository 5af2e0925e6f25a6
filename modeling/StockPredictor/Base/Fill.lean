/-
A loop that fills in the records of a list from front to back, each from the one before it. When
filling in a record does not change what it gives to the next, the result is known for every
position at once.
-/
import Mathlib.Data.List.Basic
import StockPredictor.Base.Loop

namespace Base

variable {α : Type*} (first : α → α) (next : α → α → α)

/-- Every record filled in from the one before it, and the first one on its own. -/
def filled (l : List α) : List α := l.mapIdx fun i a => if i = 0 then first a else next (l.getD (i - 1) a) a

/-- The records up to index `n` filled in. -/
def filledTo (l : List α) (n : ℕ) : List α :=
  l.mapIdx fun i a => if i = 0 then first a else if i ≤ n then next (l.getD (i - 1) a) a else a

variable {first next}

theorem getElem?_filled (l : List α) (i : ℕ) : (filled first next l)[i]? =
    l[i]?.map fun a => if i = 0 then first a else next (l.getD (i - 1) a) a := by
  unfold filled
  rw [List.getElem?_mapIdx]

/-- What filling in a record does not change is as before. -/
theorem map_filled {β : Type*} {f : α → β} (hfirst : ∀ a, f (first a) = f a) (hnext : ∀ a b, f (next a b) = f b)
    (l : List α) : (filled first next l).map f = l.map f := by
  apply List.ext_getElem?
  intro i
  rw [List.getElem?_map, getElem?_filled, List.getElem?_map, Option.map_map]
  refine congrFun (congrArg _ (funext fun a => ?_)) _
  show f (if i = 0 then first a else _) = f a
  split
  · exact hfirst a
  · exact hnext _ a

theorem getElem?_filledTo (l : List α) (n i : ℕ) : (filledTo first next l n)[i]? =
    l[i]?.map fun a => if i = 0 then first a else if i ≤ n then next (l.getD (i - 1) a) a else a := by
  unfold filledTo
  rw [List.getElem?_mapIdx]

theorem filledTo_zero (l : List α) : l.modify 0 first = filledTo first next l 0 := by
  apply List.ext_getElem?
  intro i
  rw [getElem?_filledTo, List.getElem?_modify]
  rcases Nat.eq_zero_or_pos i with rfl | hi
  · cases l[0]? <;> simp
  · cases l[i]? <;> simp [hi.ne, hi.ne']

/-- One round fills in one more record, as filling in the one before has not changed what it gives. -/
theorem modify_filledTo (hfirst : ∀ a c, next (first a) c = next a c) (hnext : ∀ a b c, next (next a b) c = next b c)
    {l : List α} {n : ℕ} (h : n + 1 < l.length) :
    ((filledTo first next l n).modify (n + 1) fun a => next ((filledTo first next l n).getD n a) a) =
      filledTo first next l (n + 1) := by
  have hprev : ∀ a, next ((filledTo first next l n).getD n a) a = next (l.getD n a) a := by
    intro a
    rw [List.getD_eq_getElem?_getD, getElem?_filledTo, List.getD_eq_getElem?_getD,
      List.getElem?_eq_getElem (by omega)]
    simp only [Option.map_some, Option.getD_some, le_refl, if_true]
    split
    · exact hfirst _ _
    · exact hnext _ _ _
  apply List.ext_getElem?
  intro i
  rw [getElem?_filledTo, List.getElem?_modify, getElem?_filledTo]
  rcases lt_trichotomy i (n + 1) with hlt | rfl | hgt
  · have hle : i ≤ n := by omega
    have hne : n + 1 ≠ i := by omega
    cases l[i]? <;> simp [hle, hne, hlt.le]
  · have hnot : ¬ n + 1 ≤ n := by omega
    rw [List.getElem?_eq_getElem h]
    simp only [Option.map_some, Option.map_eq_map, Nat.succ_ne_zero, hnot, if_false, if_true, le_refl, hprev,
      Nat.add_sub_cancel]
  · have hle : ¬ i ≤ n := by omega
    have hle' : ¬ i ≤ n + 1 := by omega
    have hne : n + 1 ≠ i := by omega
    cases l[i]? <;> simp [hle, hle', hne]

variable (first next) in
/-- The loop that fills in record by record. -/
theorem forLoop_fill (hfirst : ∀ a c, next (first a) c = next a c) (hnext : ∀ a b c, next (next a b) c = next b c)
    (l : List α) :
    forLoop (fun i s => s.modify (i + 1) fun a => next (s.getD i a) a) (l.modify 0 first) (l.length - 1) =
      filled first next l := by
  have hloop : forLoop (fun i s => s.modify (i + 1) fun a => next (s.getD i a) a) (l.modify 0 first) (l.length - 1) =
      filledTo first next l (l.length - 1) := by
    refine forLoop_inv (fun n s => s = filledTo first next l n) (filledTo_zero l) fun i hi s hs => ?_
    rw [hs]
    exact modify_filledTo hfirst hnext (by omega)
  rw [hloop]
  apply List.ext_getElem?
  intro i
  rw [getElem?_filledTo, getElem?_filled]
  rcases lt_or_ge i l.length with hi | hi
  · simp only [show i ≤ l.length - 1 by omega, if_true]
  · rw [List.getElem?_eq_none hi]
    rfl

end Base
