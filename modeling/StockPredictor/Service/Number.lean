/-
Decimal and double numbers from texts, as `Decimal.TryParse` and `double.TryParse` read them with
the invariant culture: blanks, a sign, digits with group separators and one point, an exponent or a
trailing sign where the style has it, blanks, and null characters at the end. A text without a digit
is no number.
-/
import StockPredictor.Base.Double
import StockPredictor.Service.Arguments

namespace StockPredictor.Service

open Base

/-! ## The scanner -/

/-- The flags in which `NumberStyles.Number` and `NumberStyles.Float | AllowThousands` differ. -/
structure NumberStyles where
  allowTrailingSign : Bool
  allowExponent : Bool

/-- `NumberStyles.Number`. -/
def NumberStyles.number : NumberStyles := ⟨true, false⟩

/-- `NumberStyles.Float | NumberStyles.AllowThousands`. -/
def NumberStyles.float : NumberStyles := ⟨false, true⟩

/-- The sign at the front, if there is one, taken off. -/
def leadingSign : Text → Option ℤ × Text
  | '-' :: t => (some (-1), t)
  | '+' :: t => (some 1, t)
  | t => (none, t)

/-- What was read of a number before its exponent: whether there was a digit and a point, the digits
as one number, and how many of them stand after the point. -/
structure Mantissa where
  digits : Bool := false
  point : Bool := false
  value : ℕ := 0
  scale : ℕ := 0

/-- The mantissa with one more digit. -/
def Mantissa.push (m : Mantissa) (c : Char) : Mantissa :=
  { m with digits := true, value := 10 * m.value + (c.toNat - 48), scale := if m.point then m.scale + 1 else m.scale }

/-- Digits, one point, and group separators between a digit and the point. -/
def scanMantissa (m : Mantissa) : Text → Mantissa × Text
  | [] => (m, [])
  | c :: t =>
    if c.isDigit then scanMantissa (m.push c) t
    else if c = '.' ∧ m.point = false then scanMantissa { m with point := true } t
    else if c = ',' ∧ m.digits = true ∧ m.point = false then scanMantissa m t
    else (m, c :: t)

/-- `e` or `E`, a sign and digits, else nothing is read; above 1000 the exponent counts as 9999. -/
def scanExponent (t : Text) : ℤ × Text :=
  match t with
  | c :: rest =>
    if c = 'e' ∨ c = 'E' then
      let (sign, rest) := takeSign rest
      let digits := rest.takeWhile Char.isDigit
      if digits = [] then (0, t)
      else
        let exp := digitsValue digits
        (sign * (if exp > 1000 then 9999 else exp), rest.dropWhile Char.isDigit)
    else (0, t)
  | [] => (0, [])

/-- Blanks, and one sign where there was none before and the style has it. -/
def scanTrailing (allowSign : Bool) (sign : Option ℤ) : Text → Option ℤ × Text
  | [] => (sign, [])
  | c :: t =>
    if isWhite c then scanTrailing allowSign sign t
    else if allowSign = true ∧ sign = none ∧ c = '+' then scanTrailing allowSign (some 1) t
    else if allowSign = true ∧ sign = none ∧ c = '-' then scanTrailing allowSign (some (-1)) t
    else (sign, c :: t)

/-- The exact value of the number a text denotes. -/
def parseNumber (style : NumberStyles) (t : Text) : Option ℚ :=
  let (sign, t) := leadingSign (t.dropWhile isWhite)
  let (m, t) := scanMantissa {} t
  if m.digits then
    let (exp, t) := if style.allowExponent then scanExponent t else (0, t)
    let (sign, t) := scanTrailing style.allowTrailingSign sign t
    if t.all (· = '\x00') then some (sign.getD 1 * m.value * (10 : ℚ) ^ (exp - m.scale)) else none
  else none

theorem scanMantissa_digits {m : Mantissa} {t : Text} (h : (scanMantissa m t).1.digits = true) :
    m.digits = true ∨ ∃ c ∈ t, c.isDigit = true := by
  induction t generalizing m with
  | nil => exact .inl h
  | cons c t ih =>
    rw [scanMantissa] at h
    split at h
    · rename_i hc
      exact .inr ⟨c, List.mem_cons_self, hc⟩
    · have hrest : (∃ d ∈ t, d.isDigit = true) → ∃ d ∈ c :: t, d.isDigit = true :=
        fun ⟨d, hd, hdig⟩ => ⟨d, List.mem_cons_of_mem c hd, hdig⟩
      split at h
      · exact (ih h).imp id hrest
      · split at h
        · exact (ih h).imp id hrest
        · exact .inl h

/-- Taking a sign off leaves a part of the text. -/
theorem leadingSign_subset (t : Text) : (leadingSign t).2 ⊆ t := by
  unfold leadingSign
  split
  · exact List.subset_cons_self _ _
  · exact List.subset_cons_self _ _
  · exact List.Subset.refl _

/-- A number has a digit. -/
theorem exists_digit_of_parseNumber {style : NumberStyles} {t : Text} {v : ℚ} (h : parseNumber style t = some v) :
    ∃ c ∈ t, c.isDigit = true := by
  unfold parseNumber at h
  dsimp only at h
  split at h
  · rename_i hm
    rcases scanMantissa_digits hm with h0 | ⟨c, hc, hd⟩
    · cases h0
    · exact ⟨c, List.dropWhile_subset _ (leadingSign_subset _ hc), hd⟩
  · cases h

/-! ## Digits alone -/

theorem isDigit_iff (c : Char) : c.isDigit = true ↔ 48 ≤ c.toNat ∧ c.toNat ≤ 57 := by
  simp only [Char.isDigit, ge_iff_le, Bool.and_eq_true, decide_eq_true_eq]
  exact and_congr UInt32.le_iff_toNat_le UInt32.le_iff_toNat_le

theorem scanMantissa_of_digits {m : Mantissa} (hm : m.point = false) {t : Text} (hd : ∀ c ∈ t, c.isDigit = true) :
    (scanMantissa m t).2 = [] ∧ (t ≠ [] → (scanMantissa m t).1.digits = true) ∧
    (scanMantissa m t).1.scale = m.scale ∧
    ((scanMantissa m t).1.value : ℤ) = t.foldl (fun n c => 10 * n + ((c.toNat : ℤ) - 48)) m.value := by
  induction t generalizing m with
  | nil => exact ⟨rfl, fun h => absurd rfl h, rfl, rfl⟩
  | cons c t ih =>
    have hc := hd c List.mem_cons_self
    obtain ⟨hrest, -, hscale, hvalue⟩ := ih (m := m.push c) hm fun d hdt => hd d (List.mem_cons_of_mem c hdt)
    have h48 : 48 ≤ c.toNat := by
      exact ((isDigit_iff c).1 hc).1
    rw [scanMantissa, if_pos hc]
    refine ⟨hrest, fun _ => ?_, by rw [hscale, Mantissa.push, hm]; rfl, ?_⟩
    · cases t with
      | nil => rfl
      | cons d t =>
        exact (ih (m := m.push c) hm fun d hdt => hd d (List.mem_cons_of_mem c hdt)).2.1 (List.cons_ne_nil d t)
    · rw [hvalue, List.foldl_cons]
      congr 1
      simp only [Mantissa.push]
      omega

/-- A text of digits is read as the number they write. -/
theorem parseNumber_digits (style : NumberStyles) {t : Text} (hne : t ≠ []) (hd : ∀ c ∈ t, c.isDigit = true) :
    parseNumber style t = some (digitsValue t) := by
  obtain ⟨hrest, hdigits, hscale, hvalue⟩ := scanMantissa_of_digits (m := {}) rfl hd
  obtain ⟨c, t', rfl⟩ := List.exists_cons_of_ne_nil hne
  have hc := (isDigit_iff c).1 (hd c List.mem_cons_self)
  -- a digit is neither a blank nor a sign
  have hwhite : isWhite c = false := by
    unfold isWhite
    simp only [Bool.or_eq_false_iff, decide_eq_false_iff_not, Bool.and_eq_false_imp, decide_eq_true_eq, not_le]
    exact ⟨by rintro rfl; exact absurd hc.1 (by decide), fun _ => by omega⟩
  have hsign : leadingSign (c :: t') = (none, c :: t') := by
    unfold leadingSign
    split
    · rename_i heq; cases heq; exact absurd hc.1 (by decide)
    · rename_i heq; cases heq; exact absurd hc.1 (by decide)
    · rfl
  unfold parseNumber
  rw [List.dropWhile_cons_of_neg (by simp [hwhite]), hsign]
  dsimp only
  rw [if_pos (hdigits hne), hrest, hscale]
  have hval : ((scanMantissa {} (c :: t')).1.value : ℚ) = digitsValue (c :: t') := by
    rw [digitsValue, ← Int.cast_natCast, hvalue]
    rfl
  split
  · simp [scanExponent, scanTrailing, hval]
  · simp [scanTrailing, hval]

/-! ## Decimals -/

/-- The value with the most digits after the point, up to `scale`, whose digits fit into 96 bits,
rounded half to even. -/
def roundDecimal (v : ℚ) : ℕ → Option ℚ
  | 0 => if |roundHalfEven v| < 2 ^ 96 then some (roundHalfEven v) else none
  | scale + 1 =>
    if |roundHalfEven (v * 10 ^ (scale + 1))| < 2 ^ 96 then
      some (roundHalfEven (v * 10 ^ (scale + 1)) / 10 ^ (scale + 1))
    else roundDecimal v scale

/-- `Decimal.TryParse`. -/
def tryParseDecimal (t : Text) : Option ℚ := (parseNumber .number t).bind fun v => roundDecimal v 28

/-- A text without a digit is no decimal. -/
theorem tryParseDecimal_of_no_digit {t : Text} (h : ∀ c ∈ t, c.isDigit = false) : tryParseDecimal t = none := by
  unfold tryParseDecimal
  cases hp : parseNumber .number t with
  | none => rfl
  | some v =>
    obtain ⟨c, hc, hd⟩ := exists_digit_of_parseNumber hp
    rw [h c hc] at hd
    cases hd

/-! ## Doubles -/

/-- The double of an exact value; too large a number has none. -/
def toDouble (v : ℚ) : Option Double :=
  match Double.ofRat v with
  | .finite w => some (.finite w)
  | _ => none

/-- The white space `Trim` takes off: besides that of a number the other Unicode blanks. -/
def isBlank (c : Char) : Bool :=
  isWhite c || c.toNat ∈ [0x85, 0xA0, 0x1680, 0x2028, 0x2029, 0x202F, 0x205F, 0x3000] ||
    (0x2000 ≤ c.toNat && c.toNat ≤ 0x200A)

def trim (t : Text) : Text := ((t.dropWhile isBlank).reverse.dropWhile isBlank).reverse

/-- `double.TryParse`: a number in range, or one of the three symbols. -/
def tryParseDouble (t : Text) : Option Double :=
  match (parseNumber .float t).bind toDouble with
  | some d => some d
  | none =>
    if trim t = "Infinity".toList then some .posInfinity
    else if trim t = "-Infinity".toList then some .negInfinity
    else if trim t = "NaN".toList then some .nan
    else none

/-- A text without a digit is no finite double. -/
theorem tryParseDouble_of_no_digit {t : Text} (h : ∀ c ∈ t, c.isDigit = false) (v : ℚ) :
    tryParseDouble t ≠ some (.finite v) := by
  have hnone : parseNumber .float t = none := by
    by_contra hne
    obtain ⟨w, hw⟩ := Option.ne_none_iff_exists'.1 hne
    obtain ⟨c, hc, hd⟩ := exists_digit_of_parseNumber hw
    rw [h c hc] at hd
    cases hd
  unfold tryParseDouble
  rw [hnone]
  dsimp only [Option.bind_none]
  split_ifs <;> simp

example : (tryParseDecimal " 1,234.50- ".toList, tryParseDecimal "N/A".toList, tryParseDouble "-1.5E+1".toList,
    tryParseDouble "NaN ".toList, tryParseDouble "1E400".toList) =
    (some (-2469 / 2), none, some (.finite (-15)), some .nan, none) := by decide +kernel

end StockPredictor.Service
