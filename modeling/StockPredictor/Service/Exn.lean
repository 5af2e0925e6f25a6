/-
The .NET exceptions the services and the program can raise.
-/
import StockPredictor.Base.Text

namespace StockPredictor

open Base

/-- An exception. `native` is a string thrown by the C++ library. -/
inductive Exn
  | argumentNull
  | argumentOutOfRange
  | duplicateKey
  | format
  | indexOutOfRange
  | invalidOperation
  | keyNotFound
  | nullReference
  | overflow
  | web
  | native (message : Text)
deriving DecidableEq, Repr

end StockPredictor
