/-
Texts as lists of characters, cut with `List.splitOn` and searched with `List.IsInfix`.
-/
import Mathlib.Data.List.Infix

namespace Base

/-- A text: its characters in order. -/
abbrev Text := List Char

instance : Coe String Text := ⟨String.toList⟩

/-- Joining texts adds the separator only. -/
theorem notMem_intercalate {a c : Char} (hne : c ≠ a) {texts : List Text} (h : ∀ t ∈ texts, c ∉ t) :
    c ∉ [a].intercalate texts := by
  induction texts with
  | nil => simp
  | cons t texts ih =>
    rw [List.forall_mem_cons] at h
    cases texts with
    | nil => simpa using h.1
    | cons t' texts =>
      rw [List.intercalate_cons_cons]
      simp [h.1, hne, ih h.2]

end Base
