/-
Trees whose nodes have any number of children, and their descendants in document order: the nodes
below a node, each before those below it.
-/
import Mathlib.Init

namespace Base

/-- A node with a label and its children. -/
inductive Rose (α : Type)
  | node (label : α) (children : List (Rose α))

namespace Rose

variable {α : Type}

def label : Rose α → α
  | node a _ => a

def children : Rose α → List (Rose α)
  | node _ cs => cs

mutual

/-- The nodes below a node, in document order. -/
def descendants : Rose α → List (Rose α)
  | node _ cs => forest cs

/-- The nodes of some trees, in document order. -/
def forest : List (Rose α) → List (Rose α)
  | [] => []
  | t :: ts => t :: (t.descendants ++ forest ts)

end

/-- A node is below another. -/
inductive Below : Rose α → Rose α → Prop
  | child {t c : Rose α} (h : c ∈ t.children) : Below t c
  | deeper {t c x : Rose α} (h : c ∈ t.children) (hx : Below c x) : Below t x

/-- What holds of a node whenever it holds of its children holds of every node. -/
theorem ind {p : Rose α → Prop} (h : ∀ a cs, (∀ c ∈ cs, p c) → p (node a cs)) : ∀ t, p t
  | node a cs => h a cs fun c hc => by
    have := List.sizeOf_lt_of_mem hc
    exact ind h c
termination_by t => sizeOf t
decreasing_by
  simp only [node.sizeOf_spec]
  omega

theorem forest_append (ts ts' : List (Rose α)) : forest (ts ++ ts') = forest ts ++ forest ts' := by
  induction ts with
  | nil => rfl
  | cons t ts ih => rw [List.cons_append, forest, forest, ih, List.cons_append, List.append_assoc]

theorem mem_forest {ts : List (Rose α)} {x : Rose α} :
    x ∈ forest ts ↔ ∃ t ∈ ts, x = t ∨ x ∈ t.descendants := by
  induction ts with
  | nil => simp [forest]
  | cons t ts ih =>
    simp only [forest, List.mem_cons, List.mem_append, ih, exists_eq_or_imp, or_assoc]

/-- The descendants are the nodes below. -/
theorem mem_descendants {t x : Rose α} : x ∈ t.descendants ↔ Below t x := by
  constructor
  · revert x
    apply ind (p := fun t => ∀ {x}, x ∈ t.descendants → Below t x)
    intro a cs ih x hx
    rw [descendants, mem_forest] at hx
    obtain ⟨c, hc, rfl | hx⟩ := hx
    · exact .child hc
    · exact .deeper hc (ih c hc hx)
  · intro h
    induction h with
    | @child t c h =>
      obtain ⟨a, cs⟩ := t
      exact mem_forest.2 ⟨c, h, .inl rfl⟩
    | @deeper t c x h _ ih =>
      obtain ⟨a, cs⟩ := t
      exact mem_forest.2 ⟨c, h, .inr ih⟩

end Rose

end Base
