/-
Computations that may fail, done one after the other: a sequence succeeds exactly when every step
of it does.
-/
import Mathlib.Data.List.Forall2

namespace Base

variable {ε α β : Type}

/-- Both steps of a successful sequence succeed. -/
theorem bind_eq_ok {first : Except ε α} {next : α → Except ε β} {result : β} :
    first >>= next = .ok result ↔ ∃ a, first = .ok a ∧ next a = .ok result := by
  rcases first with e | a
  · exact iff_of_false (fun h => by cases h) fun ⟨_, h, _⟩ => by cases h
  · exact ⟨fun h => ⟨a, rfl, h⟩, fun ⟨_, h, hn⟩ => by cases h; exact hn⟩

/-- A sequence fails in its first step, or in its second after a first that succeeds. -/
theorem bind_eq_error {first : Except ε α} {next : α → Except ε β} {e : ε} :
    first >>= next = .error e ↔ first = .error e ∨ ∃ a, first = .ok a ∧ next a = .error e := by
  rcases first with e' | a
  · constructor
    · intro h
      cases h
      exact .inl rfl
    · rintro (h | ⟨a, h, -⟩)
      · cases h
        rfl
      · cases h
  · refine ⟨fun h => .inr ⟨a, rfl, h⟩, ?_⟩
    rintro (h | ⟨_, h, hn⟩)
    · cases h
    · cases h
      exact hn

/-- A successful pass over a list: one result for each element, in order. -/
theorem mapM_eq_ok {f : α → Except ε β} {l : List α} {r : List β} :
    l.mapM f = .ok r ↔ List.Forall₂ (fun a b => f a = .ok b) l r := by
  induction l generalizing r with
  | nil =>
    rw [List.mapM_nil, List.forall₂_nil_left_iff]
    exact ⟨fun h => (Except.ok.inj h).symm, fun h => congrArg _ h.symm⟩
  | cons a l ih =>
    rw [List.mapM_cons, bind_eq_ok]
    constructor
    · rintro ⟨b, hb, h⟩
      obtain ⟨bs, hbs, h⟩ := bind_eq_ok.1 h
      cases h
      exact .cons hb (ih.1 hbs)
    · intro h
      obtain ⟨b, bs, hb, hbs, rfl⟩ := List.forall₂_cons_left_iff.1 h
      exact ⟨b, hb, bind_eq_ok.2 ⟨bs, ih.2 hbs, rfl⟩⟩

/-- A pass whose steps succeed on some elements with one result each. -/
theorem mapM_eq_ok_iff {f : α → Except ε β} {ok : α → Prop} {g : α → β} (h : ∀ a b, f a = .ok b ↔ ok a ∧ b = g a)
    {l : List α} {r : List β} : l.mapM f = .ok r ↔ (∀ a ∈ l, ok a) ∧ r = l.map g := by
  rw [mapM_eq_ok]
  induction l generalizing r with
  | nil => simp
  | cons a l ih =>
    rw [List.forall₂_cons_left_iff, List.forall_mem_cons, List.map_cons]
    constructor
    · rintro ⟨b, bs, hb, hbs, rfl⟩
      obtain ⟨ha, rfl⟩ := (h a b).1 hb
      obtain ⟨hl, rfl⟩ := ih.1 hbs
      exact ⟨⟨ha, hl⟩, rfl⟩
    · rintro ⟨⟨ha, hl⟩, rfl⟩
      exact ⟨g a, l.map g, (h a (g a)).2 ⟨ha, rfl⟩, ih.2 ⟨hl, rfl⟩, rfl⟩

/-- When every step succeeds from every state, so does the loop. -/
theorem exists_foldlM_eq_ok {step : β → α → Except ε β} {l : List α} (h : ∀ a ∈ l, ∀ b, ∃ b', step b a = .ok b')
    (b : β) : ∃ b', l.foldlM step b = .ok b' := by
  induction l generalizing b with
  | nil => exact ⟨b, rfl⟩
  | cons a l ih =>
    obtain ⟨b₁, hb₁⟩ := h a List.mem_cons_self b
    obtain ⟨b', hb'⟩ := ih (fun a' ha => h a' (List.mem_cons_of_mem a ha)) b₁
    refine ⟨b', ?_⟩
    rw [List.foldlM_cons, bind_eq_ok]
    exact ⟨b₁, hb₁, hb'⟩

/-- An exception of a loop is one of its body. -/
theorem foldlM_eq_error {step : β → α → Except ε β} {l : List α} {b : β} {e : ε} (h : l.foldlM step b = .error e) :
    ∃ a ∈ l, ∃ b', step b' a = .error e := by
  induction l generalizing b with
  | nil => cases h
  | cons a l ih =>
    rw [List.foldlM_cons] at h
    rcases bind_eq_error.1 h with hstep | ⟨b', -, hrest⟩
    · exact ⟨a, List.mem_cons_self, b, hstep⟩
    · obtain ⟨a', ha', hstep⟩ := ih hrest
      exact ⟨a', List.mem_cons_of_mem a ha', hstep⟩

/-- A loop whose step succeeds under a condition on its element alone, and then with a known state. -/
theorem foldlM_eq_ok {step : β → α → Except ε β} {ok : α → Prop} {next : β → α → β}
    (h : ∀ b a b', step b a = .ok b' ↔ ok a ∧ b' = next b a) {l : List α} {b b' : β} :
    l.foldlM step b = .ok b' ↔ (∀ a ∈ l, ok a) ∧ b' = l.foldl next b := by
  induction l generalizing b with
  | nil =>
    rw [List.foldlM_nil]
    exact ⟨fun hb => ⟨by simp, (Except.ok.inj hb).symm⟩, fun hb => congrArg _ hb.2.symm⟩
  | cons a l ih =>
    simp only [List.foldlM_cons, bind_eq_ok, h, ih, List.forall_mem_cons, List.foldl_cons]
    constructor
    · rintro ⟨_, ⟨ha, rfl⟩, hl, hb⟩
      exact ⟨⟨ha, hl⟩, hb⟩
    · rintro ⟨⟨ha, hl⟩, hb⟩
      exact ⟨_, ⟨ha, rfl⟩, hl, hb⟩

/-- A loop that acts with what some of the elements give acts with all of that at once. -/
theorem foldl_filterMap {γ : Type} {act : β → List γ → β} (hnil : ∀ b, act b [] = b)
    (happend : ∀ b l l', act b (l ++ l') = act (act b l) l') (give : α → Option γ) (l : List α) (b : β) :
    l.foldl (fun b a => act b (give a).toList) b = act b (l.filterMap give) := by
  induction l generalizing b with
  | nil => exact (hnil b).symm
  | cons a l ih =>
    rw [List.foldl_cons, ih, ← happend, List.filterMap_cons]
    cases give a <;> rfl

variable {R : α → β → Prop} {l : List α} {r : List β}

/-! ## Elements that correspond -/

theorem exists_right_of_mem (h : List.Forall₂ R l r) {a : α} (ha : a ∈ l) : ∃ b ∈ r, R a b := by
  induction h with
  | nil => cases ha
  | @cons a' b' l r hab _ ih =>
    rcases List.mem_cons.1 ha with rfl | ha
    · exact ⟨b', List.mem_cons_self, hab⟩
    · obtain ⟨b, hb, hR⟩ := ih ha
      exact ⟨b, List.mem_cons_of_mem b' hb, hR⟩

end Base
