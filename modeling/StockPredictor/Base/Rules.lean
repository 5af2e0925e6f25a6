/-
Rules for programs over a mutable state that may end in an exception. A triple has a postcondition
for the value and one for the exception; a program maps to another along a function of the states
when the two end alike and in states that the function relates.
-/
import StockPredictor.Base.Program

namespace Base

variable {ε σ τ α β : Type}

/-! ## Triples -/

/-- From every state with `P` the program returns a value and a state with `Q`, or raises an
exception in a state with `E`. -/
def Triple (P : σ → Prop) (x : Prog ε σ α) (Q : α → σ → Prop) (E : ε → σ → Prop) : Prop :=
  ∀ s, P s → match exec x s with
    | (.ok a, s') => Q a s'
    | (.error e, s') => E e s'

section Triple

variable {P P' : σ → Prop} {Q Q' : α → σ → Prop} {R : β → σ → Prop} {E : ε → σ → Prop}

/-- Sequencing. -/
theorem Triple.bind {x : Prog ε σ α} {f : α → Prog ε σ β} (hx : Triple P x Q E)
    (hf : ∀ a, Triple (Q a) (f a) R E) : Triple P (x >>= f) R E := by
  intro s hs
  have hs' := hx s hs
  rw [exec_bind]
  generalize exec x s = r at hs' ⊢
  rcases r with ⟨_ | a, s'⟩
  · exact hs'
  · exact hf a s' hs'

theorem Triple.or {x : Prog ε σ α} (h : Triple P x Q E) (h' : Triple P' x Q E) :
    Triple (fun s => P s ∨ P' s) x Q E := fun s hs => hs.elim (h s) (h' s)

end Triple

/-! ## Programs along a function of the states -/

/-- The two programs end alike, and in states that `f` relates. -/
def Along (f : σ → τ) (x : Prog ε σ α) (y : Prog ε τ α) : Prop :=
  ∀ s, exec y (f s) = ((exec x s).1, f (exec x s).2)

section Along

variable {f : σ → τ}

theorem along_pure (a : α) : Along f (pure a : Prog ε σ α) (pure a) := fun _ => rfl

theorem along_lift (r : Except ε α) : Along f (liftM r : Prog ε σ α) (liftM r) := fun _ => rfl

theorem along_modify {g : σ → σ} {h : τ → τ} (hg : ∀ s, h (f s) = f (g s)) :
    Along f (modify g : Prog ε σ PUnit) (modify h) := fun s => congrArg (Prod.mk _) (hg s)

theorem Along.bind {x : Prog ε σ α} {y : Prog ε τ α} (hx : Along f x y) {k : α → Prog ε σ β} {l : α → Prog ε τ β}
    (hk : ∀ a, Along f (k a) (l a)) : Along f (x >>= k) (y >>= l) := by
  intro s
  rw [exec_bind, exec_bind, hx s]
  rcases exec x s with ⟨_ | a, s'⟩
  · rfl
  · exact hk a s'

end Along

end Base
