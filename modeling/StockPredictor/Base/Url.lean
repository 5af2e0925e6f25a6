/-
Urls: percent decoding, and the parameters of a query. An escape is a percent sign with two
hexadecimal digits; decoding leaves everything else as it is, a sign without digits included. A
parameter ends at the first `&`, a query at the first `#`.
-/
import Mathlib.Data.List.TakeWhile
import StockPredictor.Base.Text

namespace Base

/-! ## Bytes -/

/-- A text in UTF-8. -/
def utf8 (t : Text) : List UInt8 := t.flatMap String.utf8EncodeChar

@[simp] theorem utf8_nil : utf8 [] = [] := rfl

theorem utf8_cons (c : Char) (t : Text) : utf8 (c :: t) = String.utf8EncodeChar c ++ utf8 t := rfl

theorem utf8_append (s t : Text) : utf8 (s ++ t) = utf8 s ++ utf8 t := List.flatMap_append

theorem utf8_injective {s t : Text} (h : utf8 s = utf8 t) : s = t := by
  have hbytes : s.utf8Encode = t.utf8Encode := congrArg List.toByteArray h
  refine String.ofList_injective ?_
  simp only [String.ofList, hbytes]

theorem length_utf8EncodeChar_pos (c : Char) : 0 < (String.utf8EncodeChar c).length := by
  rw [String.length_utf8EncodeChar]
  exact c.utf8Size_pos

/-! ## Percent decoding -/

/-- The value of a hexadecimal digit. -/
def hexValue (c : Char) : Option ℕ :=
  if c.isDigit then some (c.toNat - 48)
  else if 'a' ≤ c ∧ c ≤ 'f' then some (c.toNat - 87)
  else if 'A' ≤ c ∧ c ≤ 'F' then some (c.toNat - 55)
  else none

/-- The byte of an escape. -/
def escaped? (c a b : Char) : Option UInt8 :=
  if c = '%' then
    match hexValue a, hexValue b with
    | some x, some y => some (UInt8.ofNat (16 * x + y))
    | _, _ => none
  else none

def percentDecode : Text → List UInt8
  | [] => []
  | [c] => utf8 [c]
  | [c, a] => utf8 [c, a]
  | c :: a :: b :: t =>
    match escaped? c a b with
    | some byte => byte :: percentDecode t
    | none => String.utf8EncodeChar c ++ percentDecode (a :: b :: t)

/-- A text with an escape in it. -/
def hasEscape : Text → Bool
  | c :: a :: b :: t => (escaped? c a b).isSome || hasEscape (a :: b :: t)
  | _ => false

theorem escaped?_of_left {c a b : Char} (h : hexValue a = none) : escaped? c a b = none := by
  unfold escaped?
  rw [h]
  exact ite_self _

theorem escaped?_of_right {c a b : Char} (h : hexValue b = none) : escaped? c a b = none := by
  unfold escaped?
  rw [h]
  cases hexValue a <;> exact ite_self _

theorem percentDecode_escaped {c a b : Char} {byte : UInt8} (h : escaped? c a b = some byte) (t : Text) :
    percentDecode (c :: a :: b :: t) = byte :: percentDecode t := by
  rw [percentDecode, h]

theorem percentDecode_unescaped {c a b : Char} (h : escaped? c a b = none) (t : Text) :
    percentDecode (c :: a :: b :: t) = String.utf8EncodeChar c ++ percentDecode (a :: b :: t) := by
  rw [percentDecode, h]

/-- A character that is no percent sign stays as it is. -/
theorem percentDecode_cons_of_ne {c : Char} (h : c ≠ '%') (t : Text) :
    percentDecode (c :: t) = String.utf8EncodeChar c ++ percentDecode t := by
  match t with
  | [] => rfl
  | [_] => rfl
  | a :: b :: t => exact percentDecode_unescaped (if_neg h) t

/-- Before a text that no digit begins a character is no part of an escape. -/
theorem percentDecode_cons_of_left (c a : Char) (t : Text) (h : hexValue a = none) :
    percentDecode (c :: a :: t) = String.utf8EncodeChar c ++ percentDecode (a :: t) := by
  cases t with
  | nil => rfl
  | cons b t => exact percentDecode_unescaped (escaped?_of_left h) t

theorem percentDecode_cons_of_right (c a b : Char) (t : Text) (h : hexValue b = none) :
    percentDecode (c :: a :: b :: t) = String.utf8EncodeChar c ++ percentDecode (a :: b :: t) :=
  percentDecode_unescaped (escaped?_of_right h) t

/-- No escape goes across the start of a text that no digit begins. -/
theorem percentDecode_append (s : Text) {x : Char} (hx : hexValue x = none) (t : Text) :
    percentDecode (s ++ x :: t) = percentDecode s ++ percentDecode (x :: t) := by
  fun_induction percentDecode s with
  | case1 => rfl
  | case2 c =>
    rw [List.singleton_append, percentDecode_cons_of_left c x t hx, utf8_cons, utf8_nil, List.append_nil]
  | case3 c a =>
    rw [List.cons_append, List.singleton_append, percentDecode_cons_of_right c a x t hx,
      percentDecode_cons_of_left a x t hx, utf8_cons, utf8_cons, utf8_nil, List.append_nil, List.append_assoc]
  | case4 c a b s byte h ih =>
    rw [List.cons_append, List.cons_append, List.cons_append, percentDecode_escaped h, ih]
    rfl
  | case5 c a b s h ih =>
    rw [List.cons_append, List.cons_append, List.cons_append, percentDecode_unescaped h, List.append_assoc, ← ih]
    rfl

/-- A text without an escape stays as it is. -/
theorem percentDecode_eq_utf8 {t : Text} (h : hasEscape t = false) : percentDecode t = utf8 t := by
  fun_induction percentDecode t with
  | case1 => rfl
  | case2 => rfl
  | case3 => rfl
  | case4 c a b t byte he =>
    rw [hasEscape, he] at h
    cases h
  | case5 c a b t he ih =>
    rw [hasEscape, he] at h
    rw [ih h]
    rfl

/-- An escape is one byte for three. -/
theorem length_percentDecode_le (t : Text) : (percentDecode t).length ≤ (utf8 t).length := by
  fun_induction percentDecode t with
  | case1 => rfl
  | case2 => rfl
  | case3 => rfl
  | case4 c a b t byte he ih =>
    have hc := length_utf8EncodeChar_pos c
    simp only [utf8_cons, List.length_cons, List.length_append]
    omega
  | case5 c a b t he ih =>
    rw [utf8_cons, List.length_append, List.length_append]
    omega

theorem length_percentDecode_lt {t : Text} (h : hasEscape t = true) : (percentDecode t).length < (utf8 t).length := by
  fun_induction percentDecode t with
  | case1 => cases h
  | case2 => cases h
  | case3 => cases h
  | case4 c a b t byte he =>
    have hle := length_percentDecode_le t
    have hc := length_utf8EncodeChar_pos c
    have ha := length_utf8EncodeChar_pos a
    simp only [utf8_cons, List.length_cons, List.length_append]
    omega
  | case5 c a b t he ih =>
    rw [hasEscape, he] at h
    rw [utf8_cons, List.length_append, List.length_append]
    have hlt := ih h
    omega

/-- Without a percent sign there is no escape. -/
theorem hasEscape_of_notMem {t : Text} (h : '%' ∉ t) : hasEscape t = false := by
  fun_induction hasEscape t with
  | case1 c a b t ih =>
    rw [List.mem_cons, not_or] at h
    rw [escaped?, if_neg (Ne.symm h.1), ih h.2]
    rfl
  | case2 => rfl

/-- Characters of ASCII are one byte each. -/
theorem length_utf8_of_ascii {t : Text} (h : ∀ c ∈ t, c.val ≤ 127) : (utf8 t).length = t.length := by
  induction t with
  | nil => rfl
  | cons c t ih =>
    rw [List.forall_mem_cons] at h
    rw [utf8_cons, List.length_append, ih h.2, String.length_utf8EncodeChar, Char.utf8Size_eq_one_iff.2 h.1,
      List.length_cons, Nat.add_comm]

/-- A text that is cut off at a character that is part of no escape loses bytes. -/
theorem length_percentDecode_lt_append (s : Text) {x : Char} (hx : hexValue x = none) (hne : x ≠ '%') (t : Text) :
    (percentDecode s).length < (percentDecode (s ++ x :: t)).length := by
  have hpos := length_utf8EncodeChar_pos x
  rw [percentDecode_append s hx, percentDecode_cons_of_ne hne, List.length_append, List.length_append]
  omega

/-- Decoding takes nothing from a text exactly if there is no escape in it. -/
theorem length_percentDecode_eq_iff (t : Text) :
    (percentDecode t).length = (utf8 t).length ↔ hasEscape t = false := by
  constructor
  · intro h
    by_contra hne
    exact absurd h (length_percentDecode_lt (by simpa using hne)).ne
  · intro h
    rw [percentDecode_eq_utf8 h]

/-! ## Query parameters -/

/-- A character that ends no parameter. -/
abbrev NoSeparator (c : Char) : Prop := c ≠ '&' ∧ c ≠ '#'

/-- The query of a url. -/
def query (url : Text) : Text := ((url.dropWhile (· ≠ '?')).drop 1).takeWhile (· ≠ '#')

/-- The value that a part of a query gives to a parameter. -/
def valueOf? (name part : Text) : Option Text :=
  if name ++ ['='] <+: part then some (part.drop (name.length + 1)) else none

/-- The first value of a parameter. -/
def parameter (name url : Text) : Option Text := ((query url).splitOn '&').findSome? (valueOf? name)

theorem valueOf?_self (name value : Text) : valueOf? name (name ++ '=' :: value) = some value := by
  unfold valueOf?
  rw [if_pos ⟨value, by simp⟩, ← List.drop_drop]
  simp

theorem query_eq {base : Text} (hbase : '?' ∉ base) (t : Text) : query (base ++ '?' :: t) = t.takeWhile (· ≠ '#') := by
  unfold query
  rw [List.dropWhile_append_of_pos fun c hc => decide_eq_true (ne_of_mem_of_not_mem hc hbase),
    List.dropWhile_cons_of_neg (by simp), List.drop_one, List.tail_cons]

/-- The value of the first parameter of a query ends at the first `&` or `#`. -/
theorem parameter_first {base name : Text} (hbase : '?' ∉ base) (hname : ∀ c ∈ name, NoSeparator c) (t : Text) :
    parameter name (base ++ '?' :: (name ++ '=' :: t)) = some (t.takeWhile fun c => NoSeparator c) := by
  have hvalue : (t.takeWhile (· ≠ '#')).takeWhile (· ≠ '&') = t.takeWhile fun c => NoSeparator c := by
    rw [List.takeWhile_takeWhile]
    simp
  have hamp : '&' ∉ name ++ '=' :: (t.takeWhile (· ≠ '#')).takeWhile (· ≠ '&') := by
    rw [List.mem_append, List.mem_cons]
    rintro (h | h | h)
    · exact (hname _ h).1 rfl
    · cases h
    · simpa using List.mem_takeWhile_imp h
  have hquery : query (base ++ '?' :: (name ++ '=' :: t)) =
      name ++ '=' :: (t.takeWhile (· ≠ '#')).takeWhile (· ≠ '&') ++ (t.takeWhile (· ≠ '#')).dropWhile (· ≠ '&') := by
    rw [query_eq hbase, List.takeWhile_append_of_pos fun c hc => decide_eq_true (hname c hc).2,
      List.takeWhile_cons_of_pos (by simp), List.append_assoc, List.cons_append, List.takeWhile_append_dropWhile]
  unfold parameter
  rw [hquery, ← hvalue]
  -- after the value comes the end or the next part
  cases hrest : (t.takeWhile (· ≠ '#')).dropWhile (· ≠ '&') with
  | nil =>
    rw [List.append_nil, List.splitOn_eq_singleton hamp, List.findSome?_singleton, valueOf?_self]
  | cons c rest =>
    have hc : c = '&' := by
      have hhead := List.head?_dropWhile_not (· ≠ '&') (t.takeWhile (· ≠ '#'))
      rw [hrest] at hhead
      simpa using hhead
    rw [hc, List.splitOn_append_cons_self, List.splitOn_eq_singleton hamp, List.singleton_append,
      List.findSome?_cons, valueOf?_self]

/-- A value that a separator cuts off loses bytes. -/
theorem length_percentDecode_takeWhile_lt {t : Text} (h : ¬ ∀ c ∈ t, NoSeparator c) (rest : Text) :
    (percentDecode ((t ++ rest).takeWhile fun c => NoSeparator c)).length < (percentDecode t).length := by
  obtain ⟨c, hc, hsep⟩ : ∃ c ∈ t, ¬ NoSeparator c := by
    by_contra hall
    exact h fun c hc => by_contra fun hsep => hall ⟨c, hc, hsep⟩
  obtain ⟨x, hfind⟩ := Option.isSome_iff_exists.1
    ((List.find?_isSome (p := fun c => decide (¬ NoSeparator c))).2 ⟨c, hc, decide_eq_true hsep⟩)
  obtain ⟨hx, value, cut, rfl, hvalue⟩ := List.find?_eq_some_iff_append.1 hfind
  have hxsep : ¬ NoSeparator x := of_decide_eq_true hx
  have hxhex : hexValue x = none ∧ x ≠ '%' := by
    rcases not_and_or.1 hxsep with h | h
    · rw [not_not.1 h]
      decide
    · rw [not_not.1 h]
      decide
  rw [List.append_assoc, List.takeWhile_append_of_pos (by simpa using hvalue), List.cons_append,
    List.takeWhile_cons_of_neg (by simpa using hxsep), List.append_nil]
  exact length_percentDecode_lt_append value hxhex.1 hxhex.2 cut

/-- A part of a query that gives the parameter no value. -/
theorem parameter_skip {base name part : Text} (hbase : '?' ∉ base) (hpart : ∀ c ∈ part, NoSeparator c)
    (hnone : valueOf? name part = none) (t : Text) :
    parameter name (base ++ '?' :: (part ++ '&' :: t)) = parameter name (base ++ '?' :: t) := by
  unfold parameter
  rw [query_eq hbase, query_eq hbase, List.takeWhile_append_of_pos fun c hc => decide_eq_true (hpart c hc).2,
    List.takeWhile_cons_of_pos (by simp), List.splitOn_append_cons_self,
    List.splitOn_eq_singleton fun h => (hpart _ h).1 rfl, List.singleton_append, List.findSome?_cons, hnone]

end Base
