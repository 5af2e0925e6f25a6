/-
Numbers from texts, as `int.TryParse` and `Convert.ToInt32` read them, and the command line of the
program. The number of days is any 32-bit integer, zero and negative ones included.
-/
import StockPredictor.Service.Exn

namespace StockPredictor.Service

open Base

/-! ## Integers -/

/-- White space of a number: a blank or one of the characters 9 to 13. -/
def isWhite (c : Char) : Bool := c = ' ' || (9 ≤ c.toNat && c.toNat ≤ 13)

/-- A leading sign, taken off. -/
def takeSign : Text → ℤ × Text
  | '-' :: t => (-1, t)
  | '+' :: t => (1, t)
  | t => (1, t)

def digitsValue (digits : Text) : ℤ := digits.foldl (fun n c => 10 * n + (c.toNat - 48)) 0

/-- The integer a text denotes: blanks, a sign, digits, blanks, and null characters at the end. -/
def parseInteger (t : Text) : Option ℤ :=
  let (sign, t) := takeSign (t.dropWhile isWhite)
  let digits := t.takeWhile Char.isDigit
  let rest := (t.dropWhile Char.isDigit).dropWhile isWhite
  if digits = [] then none
  else if rest.all (· = '\x00') then some (sign * digitsValue digits) else none

def isInt32 (n : ℤ) : Bool := -2147483648 ≤ n && n ≤ 2147483647

/-- `int.TryParse`. -/
def tryParseInt32 (t : Text) : Option ℤ := (parseInteger t).filter isInt32

/-- `Convert.ToInt32` on a string; the null string is zero. -/
def toInt32 : Option Text → Except Exn ℤ
  | none => .ok 0
  | some t =>
    match parseInteger t with
    | none => .error .format
    | some n => if isInt32 n then .ok n else .error .overflow

example : (toInt32 (some " -12 ".toList), toInt32 (some "2147483648".toList), toInt32 (some "1 2".toList)) =
    (.ok (-12), .error .overflow, .error .format) := by decide

theorem toInt32_eq_ok_iff {t : Text} {n : ℤ} (h : parseInteger t = some n) {m : ℤ} :
    toInt32 (some t) = .ok m ↔ m = n ∧ isInt32 n = true := by
  unfold toInt32
  dsimp only
  rw [h]
  dsimp only
  split
  · rename_i hn
    simp [hn, eq_comm]
  · rename_i hn
    simp [hn]

/-! ## The command line -/

/-- `Environment.NewLine`. -/
def newLine : Text := "\r\n"

/-- `Arguments`. -/
structure Arguments where
  symbol : Option Text := none
  days : ℤ := 1
deriving DecidableEq

/-- `Program.IsValidArguments`: whether the command line is accepted, the arguments as filled in,
and the message. -/
def isValidArguments (args : List Text) (arguments : Arguments) : Bool × Arguments × Text :=
  match args with
  | [] => (false, arguments, "You need to provide the following parameters - symbol, days (default 1)")
  | symbol :: rest =>
    let arguments := { arguments with symbol := some symbol }
    match rest with
    | [strDays] =>
      match tryParseInt32 strDays with
      | none => (false, arguments, "Invalid argument. No of projection days must be non zero int" ++ newLine)
      | some days => (true, { arguments with days }, [])
    | _ => (true, arguments, [])

/-- The command line yields a projection of this symbol over this many days. -/
def Accepts (args : List Text) (symbol : Text) (days : ℤ) : Prop :=
  (isValidArguments args {}).1 = true ∧ (isValidArguments args {}).2.1 = ⟨some symbol, days⟩

instance (args : List Text) (symbol : Text) (days : ℤ) : Decidable (Accepts args symbol days) :=
  inferInstanceAs (Decidable (_ ∧ _))

/-- An accepted number of days is a 32-bit integer: the default, or the number given. -/
theorem Accepts.days {symbol : Text} {days : ℤ} : ∀ {args : List Text}, Accepts args symbol days → isInt32 days = true
  | [], h => by cases h.1
  | [_], h => by cases h.2; decide
  | [_, strDays], h => by
    obtain ⟨h1, h2⟩ := h
    cases hn : tryParseInt32 strDays with
    | none => simp [isValidArguments, hn] at h1
    | some n =>
      simp only [isValidArguments, hn, Arguments.mk.injEq] at h2
      obtain ⟨-, rfl⟩ := h2
      exact (Option.filter_eq_some_iff.1 hn).2
  | _ :: _ :: _ :: _, h => by cases h.2; decide

end StockPredictor.Service
