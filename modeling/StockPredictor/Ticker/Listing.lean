/-
`ExtensionMethods.ProcessData`: a listing text as a dictionary from symbols to names. The header
line and empty lines are skipped, the first two fields of every other line are the symbol and the
name, and a later line overwrites an earlier one with the same symbol.
-/
import StockPredictor.Base.Dictionary
import StockPredictor.Service.Exn

namespace StockPredictor.Ticker

open Base

/-- A ticker directory: names by symbol. -/
abbrev Directory := Dictionary Text Text

/-- The loop body of `ProcessData` on one line. -/
def processLine (symbolList : Directory) (line : Text) : Except Exn Directory :=
  if line = [] then .ok symbolList
  else
    match line.splitOn '|' with
    | [] => .ok symbolList
    | [_] => .error .indexOutOfRange
    | symbol :: name :: _ => .ok (symbolList.set symbol name)

/-- `data.ProcessData()`; `none` is the null string. -/
def processData : Option Text → Except Exn Directory
  | none => .error .nullReference
  | some data =>
    let lines := data.splitOn '\n'
    let lines := (lines.drop 1).take (lines.length - 1)
    lines.foldlM processLine .empty

example : processData (some "Symbol|Name\nA|Agilent|N\nA|Agilent Inc|N\n".toList) =
    .ok (Dictionary.empty.set "A".toList "Agilent Inc".toList) := by decide

end StockPredictor.Ticker
