/-
Programs over a mutable state that may end in an exception. The state reached when the exception
is raised stays, as for a method that has already written to its fields. Running a program, and
how sequencing, raising, reading and writing run.
-/
import Mathlib.Init

namespace Base

variable {ε σ α β : Type}

/-- A program over a state `σ` with exceptions `ε`. -/
abbrev Prog (ε σ : Type) := ExceptT ε (StateM σ)

/-- The outcome of a program and the state it leaves. -/
def exec (x : Prog ε σ α) (s : σ) : Except ε α × σ := x.run.run s

@[simp] theorem exec_pure (a : α) (s : σ) : exec (pure a : Prog ε σ α) s = (.ok a, s) := rfl

@[simp] theorem exec_throw (e : ε) (s : σ) : exec (throw e : Prog ε σ α) s = (.error e, s) := rfl

@[simp] theorem exec_get (s : σ) : exec (get : Prog ε σ σ) s = (.ok s, s) := rfl

@[simp] theorem exec_modify (f : σ → σ) (s : σ) : exec (modify f : Prog ε σ PUnit) s = (.ok ⟨⟩, f s) := rfl

/-- A call that touches no state: its value or its exception. -/
@[simp] theorem exec_lift (r : Except ε α) (s : σ) : exec (liftM r : Prog ε σ α) s = (r, s) := rfl

/-- Sequencing: an exception of the first program ends the whole. -/
theorem exec_bind (x : Prog ε σ α) (f : α → Prog ε σ β) (s : σ) :
    exec (x >>= f) s =
      match exec x s with
      | (.ok a, s') => exec (f a) s'
      | (.error e, s') => (.error e, s') := by
  unfold exec
  rw [ExceptT.run_bind]
  show StateT.run (x.run >>= _) s = _
  rw [StateT.run_bind]
  show (match x.run.run s with | (r, s') => _) = _
  rcases x.run.run s with ⟨_ | a, s'⟩ <;> rfl

theorem exec_bind_ok {x : Prog ε σ α} {s s' : σ} {a : α} (h : exec x s = (.ok a, s')) (f : α → Prog ε σ β) :
    exec (x >>= f) s = exec (f a) s' := by
  rw [exec_bind, h]

theorem exec_bind_error {x : Prog ε σ α} {s s' : σ} {e : ε} (h : exec x s = (.error e, s')) (f : α → Prog ε σ β) :
    exec (x >>= f) s = (.error e, s') := by
  rw [exec_bind, h]

/-! ## Two programs side by side -/

section Alike

variable {α' β' σ' : Type} {V : α → α' → Prop} {R : σ → σ' → Prop}

/-- Outcomes with related values or one and the same exception, in related states. -/
inductive Alike (V : α → α' → Prop) (R : σ → σ' → Prop) : Except ε α × σ → Except ε α' × σ' → Prop
  | ok {a : α} {a' : α'} {s : σ} {s' : σ'} (hv : V a a') (hs : R s s') : Alike V R (.ok a, s) (.ok a', s')
  | error (e : ε) {s : σ} {s' : σ'} (hs : R s s') : Alike V R (.error e, s) (.error e, s')

/-- Sequencing: what relates the outcomes of the rest, and holds of one and the same exception, relates
the outcomes of the whole. -/
theorem Alike.bind {x : Prog ε σ α} {x' : Prog ε σ' α'} {s : σ} {s' : σ'} (h : Alike V R (exec x s) (exec x' s'))
    {P : Except ε β × σ → Except ε β' × σ' → Prop} (f : α → Prog ε σ β) (f' : α' → Prog ε σ' β')
    (hok : ∀ a a' t t', V a a' → R t t' → P (exec (f a) t) (exec (f' a') t'))
    (herror : ∀ e t t', R t t' → P (.error e, t) (.error e, t')) :
    P (exec (x >>= f) s) (exec (x' >>= f') s') := by
  rw [exec_bind, exec_bind]
  revert h
  rcases exec x s with ⟨r, t⟩
  rcases exec x' s' with ⟨r', t'⟩
  intro h
  cases h with
  | ok hv hs => exact hok _ _ _ _ hv hs
  | error e hs => exact herror e _ _ hs

/-- Two calls that touch no state. -/
theorem Alike.lift {r : Except ε α} {r' : Except ε α'} {s : σ} {s' : σ'} (hs : R s s')
    (h : ∀ e, r = .error e ↔ r' = .error e) (hv : ∀ a a', r = .ok a → r' = .ok a' → V a a') :
    Alike V R (exec (liftM r : Prog ε σ α) s) (exec (liftM r' : Prog ε σ' α') s') := by
  rw [exec_lift, exec_lift]
  cases r with
  | error e => rw [(h e).1 rfl]; exact .error e hs
  | ok a =>
    cases r' with
    | error e => cases (h e).2 rfl
    | ok a' => exact .ok (hv a a' rfl rfl) hs

end Alike

end Base
