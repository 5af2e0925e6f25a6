/-
The numeral two. Its instance has a name, so the formulas of all modules that write it over the
reals refer to one and the same constant.
-/
import Mathlib.Data.Nat.Cast.Defs

namespace Base

instance atLeastTwo_two : Nat.AtLeastTwo 2 := ⟨Nat.le_refl 2⟩

end Base
