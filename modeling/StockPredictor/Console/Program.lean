/-
`Program.Main`: the command line, the projection with its reports on the console, and what is
printed at the end. A line is written in the colour of that moment. Whatever happens, the last line
tells the outcome, and the colour is reset unless the arguments are rejected.
-/
import StockPredictor.Service.Guards
import StockPredictor.Service.Integer
import StockPredictor.Service.Reports

namespace StockPredictor.Console

open Base Quant Service

/-! ## The console -/

inductive ConsoleColor
  | red
  | gray
  | green
  | darkCyan
  | white
deriving DecidableEq, Repr

/-- The colour for what is written next, and the lines written so far with theirs. -/
structure SystemConsole where
  foregroundColor : ConsoleColor
  lines : List (Text × ConsoleColor) := []

def SystemConsole.paint (c : SystemConsole) (color : ConsoleColor) : SystemConsole :=
  { c with foregroundColor := color }

/-- `System.Console.WriteLine`. -/
def SystemConsole.writeLine (c : SystemConsole) (line : Text) : SystemConsole :=
  { c with lines := c.lines ++ [(line, c.foregroundColor)] }

/-- The colour of a status. -/
def statusColor : StatusType → ConsoleColor
  | .info => .gray
  | .success => .green
  | .warn => .darkCyan
  | .fail => .red

/-- The action that is given to `GetStockProjections`. -/
def SystemConsole.report (c : SystemConsole) (r : Text × StatusType) : SystemConsole :=
  (c.paint (statusColor r.2)).writeLine r.1

/-! ## The program -/

noncomputable section

def projected (p : Platform) (days : ℤ) (last : ℝ) : Text :=
  "Projected(" ++ showInt days ++ ") days = " ++ p.showDouble (mathRound 2 last)

end

/-! ## What is printed -/

section Main

variable (p : Platform) (ds : DataService) (message : Exn → Text) (draws : ℕ) (c : SystemConsole)

end Main

section Main

variable (p : Platform) (ds : DataService) (message : Exn → Text) (draws : ℕ) (c : SystemConsole)

end Main

section Answered

variable {ds : DataService} {symbol : Text} {rate : ℝ} {stock : Stock} {volatility : ℝ} {setting : Text}

end Answered

end StockPredictor.Console
