/-
Runs of a deterministic system over a list of events, and the invariant rule for them. An
invariant may speak of the events so far.
-/
import Mathlib.Data.List.Induction

namespace Base

variable {σ ε : Type*} (step : σ → ε → σ)

/-- The state after the events. -/
def run (s : σ) (es : List ε) : σ := es.foldl step s

@[simp] theorem run_concat (s : σ) (es : List ε) (e : ε) : run step s (es ++ [e]) = step (run step s es) e := by
  simp [run]

/-- What holds at the start and is kept by a step after any run holds after every run. -/
theorem run_inv {s : σ} {I : List ε → σ → Prop} (start : I [] s)
    (keep : ∀ es e, I es (run step s es) → I (es ++ [e]) (step (run step s es) e)) (es : List ε) :
    I es (run step s es) := by
  induction es using List.reverseRecOn with
  | nil => exact start
  | append_singleton es e ih =>
    rw [run_concat]
    exact keep es e ih

end Base
