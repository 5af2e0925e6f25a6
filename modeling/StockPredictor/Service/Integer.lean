/-
The texts that are integers. `parseInteger` accepts exactly the texts of one shape, with the value
that the shape spells, so what `int.TryParse` reads of a printed integer is that integer again.
-/
import Mathlib.Data.List.TakeWhile
import StockPredictor.Service.Number

namespace StockPredictor.Service

open Base

/-! ## Shapes -/

/-- The parts of a text that is an integer. -/
structure IntegerText where
  before : Text
  sign : Text
  digits : Text
  after : Text
  nulls : Text
  before_white : ∀ c ∈ before, isWhite c = true
  sign_mem : sign = [] ∨ sign = ['-'] ∨ sign = ['+']
  digits_ne : digits ≠ []
  digits_digit : ∀ c ∈ digits, c.isDigit = true
  after_white : ∀ c ∈ after, isWhite c = true
  nulls_null : ∀ c ∈ nulls, c = '\x00'

namespace IntegerText

/-- The text the parts make up. -/
def text (i : IntegerText) : Text := i.before ++ (i.sign ++ (i.digits ++ (i.after ++ i.nulls)))

/-- The integer it spells. -/
def value (i : IntegerText) : ℤ := if i.sign = ['-'] then -digitsValue i.digits else digitsValue i.digits

end IntegerText

/-! ## Scanning -/

/-- A scan stops at the first character that it does not take. -/
theorem dropWhile_append_stop {p : Char → Bool} {l r : Text} (hl : ∀ c ∈ l, p c = true)
    (hr : ∀ c, r.head? = some c → p c = false) : (l ++ r).dropWhile p = r := by
  rw [List.dropWhile_append_of_pos hl]
  cases r with
  | nil => rfl
  | cons c r => rw [List.dropWhile_cons_of_neg (by simp [hr c rfl])]

theorem takeWhile_append_stop {p : Char → Bool} {l r : Text} (hl : ∀ c ∈ l, p c = true)
    (hr : ∀ c, r.head? = some c → p c = false) : (l ++ r).takeWhile p = l := by
  rw [List.takeWhile_append_of_pos hl]
  cases r with
  | nil => rw [List.takeWhile_nil, List.append_nil]
  | cons c r => rw [List.takeWhile_cons_of_neg (by simp [hr c rfl]), List.append_nil]

/-- What follows the digits starts with no digit, what follows the blanks with no blank. -/
theorem isDigit_of_white {c : Char} (h : isWhite c = true) : c.isDigit = false := by
  rw [← Bool.not_eq_true, isDigit_iff]
  rw [isWhite, Bool.or_eq_true, decide_eq_true_eq, Bool.and_eq_true, decide_eq_true_eq, decide_eq_true_eq] at h
  rintro ⟨hlow, -⟩
  rcases h with rfl | ⟨-, h⟩
  · revert hlow; decide
  · omega

theorem isWhite_of_digit {c : Char} (h : c.isDigit = true) : isWhite c = false := by
  rw [← Bool.not_eq_true]
  intro hw
  rw [isDigit_of_white hw] at h
  cases h

/-- A digit is neither of the signs. -/
theorem takeSign_of_digit {c : Char} (h : c.isDigit = true) (t : Text) : takeSign (c :: t) = (1, c :: t) := by
  unfold takeSign
  split
  · rename_i hc; cases hc; exact absurd h (by decide)
  · rename_i hc; cases hc; exact absurd h (by decide)
  · rfl

/-! ## What is accepted -/

/-- Every text of the shape is accepted, with the value it spells. -/
theorem parseInteger_text (i : IntegerText) : parseInteger i.text = some i.value := by
  obtain ⟨before, sign, digits, after, nulls, hbefore, hsign, hne, hdigits, hafter, hnulls⟩ := i
  obtain ⟨d, ds, rfl⟩ := List.exists_cons_of_ne_nil hne
  have hd : d.isDigit = true := hdigits d List.mem_cons_self
  -- no blank in front of the digits but the leading ones, nothing but blanks and nulls after them
  have hstop : ∀ c, (after ++ nulls).head? = some c → c.isDigit = false := by
    intro c hc
    rcases List.mem_append.1 (List.mem_of_mem_head? hc) with h | h
    · exact isDigit_of_white (hafter c h)
    · rw [hnulls c h]; decide
  have hend : ∀ c, nulls.head? = some c → isWhite c = false := by
    intro c hc
    rw [hnulls c (List.mem_of_mem_head? hc)]
    decide
  have htake := takeWhile_append_stop hdigits hstop
  have hdrop := dropWhile_append_stop hdigits hstop
  have hrest := dropWhile_append_stop hafter hend
  have hall : nulls.all (· = '\x00') = true := by simpa using hnulls
  have hsigned : ∀ (s : ℤ) (t : Text), (∀ c, t.head? = some c → isWhite c = false) →
      takeSign t = (s, d :: ds ++ (after ++ nulls)) →
      parseInteger (before ++ t) = some (s * digitsValue (d :: ds)) := by
    intro s t ht hs
    unfold parseInteger
    rw [dropWhile_append_stop hbefore ht, hs]
    dsimp only
    rw [htake, hdrop, hrest, if_neg hne, if_pos hall]
  show parseInteger (before ++ (sign ++ (d :: ds ++ (after ++ nulls)))) =
    some (if sign = ['-'] then -digitsValue (d :: ds) else digitsValue (d :: ds))
  rcases hsign with rfl | rfl | rfl
  · rw [List.nil_append, hsigned 1 (d :: ds ++ (after ++ nulls))
      (fun c hc => by cases hc; exact isWhite_of_digit hd) (takeSign_of_digit hd _)]
    simp
  · rw [hsigned (-1) _ (fun c hc => by cases hc; decide) rfl]
    simp
  · rw [hsigned 1 _ (fun c hc => by cases hc; decide) rfl]
    simp

/-- The sign that is taken off, and the value that it gives the rest. -/
theorem exists_sign (t : Text) : ∃ sign, (sign = [] ∨ sign = ['-'] ∨ sign = ['+']) ∧ t = sign ++ (takeSign t).2 ∧
    (takeSign t).1 = if sign = ['-'] then -1 else 1 := by
  unfold takeSign
  split
  · exact ⟨['-'], by simp, rfl, by simp⟩
  · exact ⟨['+'], by simp, rfl, by simp⟩
  · exact ⟨[], by simp, rfl, by simp⟩

theorem mem_takeWhile {p : Char → Bool} {t : Text} : ∀ c ∈ t.takeWhile p, p c = true := fun _ => List.mem_takeWhile_imp

/-- `parseInteger` accepts exactly the texts of the shape: leading blanks, at most one sign, digits,
blanks, and null characters, and reads the value that such a text spells. -/
theorem parseInteger_eq_some_iff {t : Text} {n : ℤ} :
    parseInteger t = some n ↔ ∃ i : IntegerText, i.text = t ∧ i.value = n := by
  constructor
  · intro h
    obtain ⟨sign, hsign, ht, hs⟩ := exists_sign (t.dropWhile isWhite)
    unfold parseInteger at h
    dsimp only at h
    generalize takeSign (t.dropWhile isWhite) = r at h ht hs
    split at h
    · cases h
    · rename_i hne
      split at h
      · rename_i hnulls
        refine ⟨⟨t.takeWhile isWhite, sign, r.2.takeWhile Char.isDigit,
          (r.2.dropWhile Char.isDigit).takeWhile isWhite, (r.2.dropWhile Char.isDigit).dropWhile isWhite,
          mem_takeWhile, hsign, hne, mem_takeWhile, mem_takeWhile, by simpa using hnulls⟩, ?_, ?_⟩
        · show t.takeWhile isWhite ++ (sign ++ (r.2.takeWhile Char.isDigit ++
            ((r.2.dropWhile Char.isDigit).takeWhile isWhite ++ (r.2.dropWhile Char.isDigit).dropWhile isWhite))) = t
          rw [List.takeWhile_append_dropWhile, List.takeWhile_append_dropWhile, ← ht, List.takeWhile_append_dropWhile]
        · rw [← Option.some.inj h, hs]
          show (if sign = ['-'] then _ else _) = _
          split
          · rw [neg_one_mul]
          · rw [one_mul]
      · cases h
  · rintro ⟨i, rfl, rfl⟩
    exact parseInteger_text i

/-! ## Printing -/

/-- `ToString()` of an integer. -/
def showInt (n : ℤ) : Text := if n < 0 then '-' :: Nat.toDigits 10 n.natAbs else Nat.toDigits 10 n.natAbs

theorem digitsValue_toDigits (n : ℕ) : digitsValue (Nat.toDigits 10 n) = n := by
  -- the code computes in integers what the library does in natural numbers
  have hfold : ∀ (l : Text) (k : ℕ), (∀ c ∈ l, c.isDigit = true) →
      l.foldl (fun n c => 10 * n + ((c.toNat : ℤ) - 48)) (k : ℤ) = (Nat.ofDigitChars 10 l k : ℕ) := by
    intro l
    induction l with
    | nil => intro k _; rfl
    | cons c l ih =>
      intro k hl
      have h48 : 48 ≤ c.toNat := ((isDigit_iff c).1 (hl c List.mem_cons_self)).1
      have hcast : 10 * (k : ℤ) + ((c.toNat : ℤ) - 48) = ((10 * k + (c.toNat - 48) : ℕ) : ℤ) := by omega
      rw [List.foldl_cons, hcast, ih _ fun d hd => hl d (List.mem_cons_of_mem c hd), Nat.ofDigitChars_cons]
      rfl
  rw [digitsValue]
  have h := hfold (Nat.toDigits 10 n) 0 fun c hc => Nat.isDigit_of_mem_toDigits (by decide) (by decide) hc
  rw [Nat.ofDigitChars_ten_toDigits] at h
  exact h

/-- A printed integer, with any blanks around it. -/
def printed (n : ℤ) (before after : Text) (hb : ∀ c ∈ before, isWhite c = true) (ha : ∀ c ∈ after, isWhite c = true) :
    IntegerText where
  before := before
  sign := if n < 0 then ['-'] else []
  digits := Nat.toDigits 10 n.natAbs
  after := after
  nulls := []
  before_white := hb
  sign_mem := by split <;> simp
  digits_ne := Nat.toDigits_ne_nil
  digits_digit c hc := Nat.isDigit_of_mem_toDigits (by decide) (by decide) hc
  after_white := ha
  nulls_null c hc := by cases hc

/-- Reading back a printed integer, with any blanks around it, gives the integer again; `int.TryParse`
takes it exactly when it fits 32 bits, and `Convert.ToInt32` throws an overflow exactly when not. -/
theorem parse_showInt (n : ℤ) {before after : Text} (hb : ∀ c ∈ before, isWhite c = true)
    (ha : ∀ c ∈ after, isWhite c = true) :
    parseInteger (before ++ showInt n ++ after) = some n ∧
    (tryParseInt32 (before ++ showInt n ++ after) = some n ↔ isInt32 n = true) ∧
    (toInt32 (some (before ++ showInt n ++ after)) = .ok n ↔ isInt32 n = true) ∧
    (toInt32 (some (before ++ showInt n ++ after)) = .error .overflow ↔ isInt32 n = false) := by
  have hparse : parseInteger (before ++ showInt n ++ after) = some n := by
    refine parseInteger_eq_some_iff.2 ⟨printed n before after hb ha, ?_, ?_⟩
    · unfold IntegerText.text showInt printed
      split <;> simp
    · show (if (if n < 0 then ['-'] else []) = ['-'] then -digitsValue (Nat.toDigits 10 n.natAbs) else
        digitsValue (Nat.toDigits 10 n.natAbs)) = n
      rw [digitsValue_toDigits]
      by_cases hneg : n < 0
      · rw [if_pos hneg, if_pos rfl]
        omega
      · rw [if_neg hneg, if_neg (by simp)]
        omega
  refine ⟨hparse, ?_, ?_, ?_⟩
  · rw [tryParseInt32, hparse, Option.filter_eq_some_iff]
    simp
  · rw [toInt32_eq_ok_iff hparse]
    simp
  · unfold toInt32
    dsimp only
    rw [hparse]
    dsimp only
    cases isInt32 n with
    | true => simp
    | false => simp

theorem parse_showInt_blanks : tryParseInt32 ([' '] ++ showInt (-12) ++ ['\t']) = some (-12) := by
  have hspace : ∀ c ∈ [' '], isWhite c = true := List.forall_mem_singleton.2 rfl
  have htab : ∀ c ∈ ['\t'], isWhite c = true := List.forall_mem_singleton.2 rfl
  exact (parse_showInt (-12) hspace htab).2.1.2 rfl

end StockPredictor.Service
