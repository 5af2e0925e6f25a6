/-
The reports of a projection. They follow one protocol, so the listener can tell from them alone how
the projection ended and, if an exception ended it, which of the services raised it. The listener
itself changes nothing.
-/
import StockPredictor.Base.Rules
import StockPredictor.Service.Projection

namespace StockPredictor.Service

open Base Quant

/-! ## The protocol -/

/-- How far a projection has come, as its reports tell. -/
inductive Progress
  | started
  | curve
  | quoted
  | fallback
  | measured
  | running
  | simulated
  | done
  | refused
deriving DecidableEq, Repr

/-! The texts of the reports that do not depend on the symbol. -/

def downloadedCurve : Text := finished eachPart "downloading yield curve"
def downloadedQuote : Text := finished (eachPart + eachPart) "downloading stock quote"
def usingHistorical : Text :=
  "Unable to calculate Implied Volatility. Using Historical Volatility..." ++ newLine
def calculatedVolatility : Text := finished (eachPart + eachPart + eachPart) "calculating volatility"
def runningSimulation : Text := "Running simulation..."
def completed : Text := "100% Completed"

/-- The report that may come after some progress: its text where it is fixed, and the progress after it. -/
def Progress.expects : Progress → StatusType → Option (Option Text × Progress)
  | .started, .success => some (some downloadedCurve, .curve)
  | .curve, .success => some (some downloadedQuote, .quoted)
  | .curve, .fail => some (none, .refused)
  | .quoted, .warn => some (some usingHistorical, .fallback)
  | .quoted, .success => some (some calculatedVolatility, .measured)
  | .quoted, .fail => some (none, .refused)
  | .fallback, .success => some (some calculatedVolatility, .measured)
  | .fallback, .fail => some (none, .refused)
  | .measured, .info => some (some runningSimulation, .running)
  | .running, .success => some (some completed, .simulated)
  | .simulated, .info => some (none, .done)
  | _, _ => none

/-- The progress after one more report, if the report may come at this point. -/
def Progress.next (g : Progress) (report : Text × StatusType) : Option Progress :=
  (g.expects report.2).bind fun e => if e.1.all (· = report.1) then some e.2 else none

/-- The progress that a sequence of reports tells, if it follows the protocol. -/
def progress (reports : List (Text × StatusType)) : Option Progress := reports.foldlM Progress.next .started

theorem progress_concat (reports : List (Text × StatusType)) (r : Text × StatusType) :
    progress (reports ++ [r]) = (progress reports).bind fun g => g.next r := by
  unfold progress
  rw [List.foldlM_append]
  cases reports.foldlM Progress.next .started with
  | none => rfl
  | some g =>
    show [r].foldlM Progress.next g = g.next r
    simp

/-- The reports so far tell this progress; these calls of the simulator were made, and these draws. -/
structure At (g : Progress) (calls : List SimulateCall) (draws : ℕ) (t : Trace) : Prop where
  reports : progress t.reports = some g
  calls : t.calls = calls
  draws : t.draws = draws

theorem At.reported {g g' : Progress} {calls : List SimulateCall} {draws : ℕ} {t : Trace} (h : At g calls draws t)
    {status : Text} {statusType : StatusType} (hn : g.next (status, statusType) = some g') :
    At g' calls draws (t.reported true status statusType) := by
  unfold Trace.reported
  rw [if_pos rfl]
  refine ⟨?_, h.calls, h.draws⟩
  show progress (t.reports ++ [(status, statusType)]) = some g'
  rw [progress_concat, h.reports, Option.bind_some, hn]

section Steps

variable (p : Platform) (ds : DataService) (symbol : Text) (draws : ℕ)

variable {p ds symbol draws} {calls : List SimulateCall}

end Steps

/-! ## What the listener can tell -/

/-- The trace without its reports. -/
def Trace.muted (t : Trace) : Trace := { t with reports := [] }

section Silent

variable (p : Platform) (ds : DataService) (symbol : Text)

theorem along_report (status : Text) (statusType : StatusType) :
    Along Trace.muted (reportStatus true status statusType) (reportStatus false status statusType) :=
  along_modify fun _ => rfl

theorem along_simulate (c : SimulateCall) : Along Trace.muted (simulate p c) (simulate p c) := by
  intro s
  rw [exec_simulate, exec_simulate]
  rfl

theorem along_runSimulation (days : ℤ) (rate volatility : ℝ) (stock : Stock) :
    Along Trace.muted (runSimulation p ds symbol days true rate volatility stock)
      (runSimulation p ds symbol days false rate volatility stock) := by
  unfold runSimulation
  refine (along_lift _).bind fun iterations => (along_lift _).bind fun price => ?_
  refine (along_report _ _).bind fun _ => (along_simulate p _).bind fun prices => ?_
  exact (along_report _ _).bind fun _ => (along_report _ _).bind fun _ => along_pure _

theorem along_getVolatility : Along Trace.muted (getVolatility ds symbol true) (getVolatility ds symbol false) := by
  unfold getVolatility
  refine (along_lift _).bind fun implied => ?_
  cases implied with
  | some volatility => exact along_pure _
  | none => exact (along_report _ _).bind fun _ => along_lift _

theorem along_getStockProjections (days : ℤ) :
    Along Trace.muted (getStockProjections p ds symbol days true) (getStockProjections p ds symbol days false) := by
  unfold getStockProjections projectQuoted
  refine (along_lift _).bind fun rate => (along_report _ _).bind fun _ => (along_lift _).bind fun quote => ?_
  split
  · exact (along_lift _).bind fun sb => (along_report _ _).bind fun _ => along_pure _
  · refine (along_report _ _).bind fun _ => (along_getVolatility ds symbol).bind fun volatility => ?_
    split
    · exact (along_report _ _).bind fun _ => along_pure _
    · exact (along_report _ _).bind fun _ => along_runSimulation p ds symbol days _ _ _

/-- Whether somebody listens changes neither the result of a projection nor the calls and draws it
makes: without a listener only the reports are missing. -/
theorem projection_silent (days : ℤ) (draws : ℕ) :
    projection p ds symbol days false draws =
      ((projection p ds symbol days true draws).1, (projection p ds symbol days true draws).2.muted) :=
  along_getStockProjections p ds symbol days ⟨[], [], draws⟩

end Silent

end StockPredictor.Service
