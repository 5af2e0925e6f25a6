/-
Lists of string literals, `"..",".."`, and a reader of them that may know an escape character. The
texts that come back from a list are its own exactly if none of them has a quote or an escape
character in it: every other character that the reader takes counts in what it has read.
-/
import StockPredictor.Base.Text

namespace Base

/-! ## The reader -/

/-- A text between quotes. -/
def quoted (t : Text) : Text := '"' :: (t ++ ['"'])

/-- The literals of some texts, with commas between. -/
def renderLiterals (texts : List Text) : Text := [','].intercalate (texts.map quoted)

theorem renderLiterals_singleton (t : Text) : renderLiterals [t] = quoted t := List.intercalate_singleton

theorem renderLiterals_cons_cons (t s : Text) (texts : List Text) :
    renderLiterals (t :: s :: texts) = quoted t ++ ',' :: renderLiterals (s :: texts) := by
  unfold renderLiterals
  rw [List.map_cons, List.map_cons, List.intercalate_cons_cons, List.append_assoc]
  rfl

/-- Where the reader is: before a literal, in one, behind an escape character, or after one. -/
inductive Phase
  | opening
  | inside
  | escaped
  | closed
deriving DecidableEq

/-- What the reader has read: the characters of the literal it is in, and the literals before. -/
structure Reader where
  phase : Phase
  current : Text
  literals : List Text

def Reader.start : Reader := ⟨.opening, [], []⟩

/-- One character. -/
def Reader.step (escape : Option Char) (r : Reader) (c : Char) : Option Reader :=
  match r.phase with
  | .opening => if c = '"' then some ⟨.inside, [], r.literals⟩ else none
  | .inside =>
    if c = '"' then some ⟨.closed, [], r.literals ++ [r.current]⟩
    else if escape = some c then some ⟨.escaped, r.current, r.literals⟩
    else some ⟨.inside, r.current ++ [c], r.literals⟩
  | .escaped => some ⟨.inside, r.current ++ [c], r.literals⟩
  | .closed => if c = ',' then some ⟨.opening, [], r.literals⟩ else none

/-- The texts of a list of literals. -/
def readLiterals (escape : Option Char) (t : Text) : Option (List Text) :=
  (t.foldlM (Reader.step escape) .start).bind fun r => if r.phase = .closed ∨ t = [] then some r.literals else none

/-- A text without a quote and without the escape character. -/
def Plain (escape : Option Char) (t : Text) : Prop := '"' ∉ t ∧ ∀ c ∈ escape, c ∉ t

variable {escape : Option Char}

/-! ## Plain texts come back -/

theorem foldlM_inside {t : Text} (h : Plain escape t) (current : Text) (literals : List Text) :
    t.foldlM (Reader.step escape) ⟨.inside, current, literals⟩ = some ⟨.inside, current ++ t, literals⟩ := by
  induction t generalizing current with
  | nil => rw [List.append_nil]; rfl
  | cons c t ih =>
    have hc : c ≠ '"' := fun hq => h.1 (hq ▸ List.mem_cons_self)
    have he : escape ≠ some c := fun he => h.2 c he List.mem_cons_self
    have ht : Plain escape t :=
      ⟨fun hm => h.1 (List.mem_cons_of_mem c hm), fun d hd hm => h.2 d hd (List.mem_cons_of_mem c hm)⟩
    rw [List.foldlM_cons, Reader.step]
    dsimp only
    rw [if_neg hc, if_neg he]
    exact (ih ht _).trans (by rw [List.append_assoc]; rfl)

theorem foldlM_quoted {t : Text} (h : Plain escape t) (literals : List Text) :
    (quoted t).foldlM (Reader.step escape) ⟨.opening, [], literals⟩ = some ⟨.closed, [], literals ++ [t]⟩ := by
  have hopen : Reader.step escape ⟨.opening, [], literals⟩ '"' = some ⟨.inside, [], literals⟩ := by
    simp [Reader.step]
  have hclose : Reader.step escape ⟨.inside, t, literals⟩ '"' = some ⟨.closed, [], literals ++ [t]⟩ := by
    simp [Reader.step]
  rw [quoted, List.foldlM_cons, hopen, Option.bind_eq_bind, Option.bind_some, List.foldlM_append, foldlM_inside h,
    Option.bind_eq_bind, Option.bind_some, List.nil_append, List.foldlM_cons, hclose]
  rfl

theorem foldlM_renderLiterals {t : Text} {texts : List Text} (h : ∀ s ∈ t :: texts, Plain escape s)
    (literals : List Text) : (renderLiterals (t :: texts)).foldlM (Reader.step escape) ⟨.opening, [], literals⟩ =
      some ⟨.closed, [], literals ++ t :: texts⟩ := by
  induction texts generalizing t literals with
  | nil =>
    rw [renderLiterals_singleton]
    exact foldlM_quoted (h t List.mem_cons_self) literals
  | cons s texts ih =>
    have hcomma : Reader.step escape ⟨.closed, [], literals ++ [t]⟩ ',' = some ⟨.opening, [], literals ++ [t]⟩ := by
      simp [Reader.step]
    rw [List.forall_mem_cons] at h
    rw [renderLiterals_cons_cons, List.foldlM_append, foldlM_quoted h.1, Option.bind_eq_bind, Option.bind_some,
      List.foldlM_cons, hcomma, Option.bind_eq_bind, Option.bind_some, ih h.2, List.append_assoc]
    rfl

/-! ## Nothing else comes back -/

/-- The length of literals with a comma after each. -/
def span : List Text → ℕ
  | [] => 0
  | t :: literals => t.length + 3 + span literals

theorem span_snoc (literals : List Text) (t : Text) : span (literals ++ [t]) = span literals + t.length + 3 := by
  induction literals with
  | nil => simp [span]
  | cons s literals ih =>
    rw [List.cons_append, span, span, ih]
    omega

/-- The length of the shortest list of literals that the reader can have read up to here, and one. -/
def Reader.size (r : Reader) : ℕ :=
  match r.phase with
  | .opening => span r.literals + 1
  | .inside => span r.literals + r.current.length + 2
  | .escaped => span r.literals + r.current.length + 2
  | .closed => span r.literals

/-- The reader has read no more than the length of its input, and as much only from plain texts. -/
structure Reader.Within (escape : Option Char) (n : ℕ) (r : Reader) : Prop where
  le : r.size ≤ n + 1
  plain : r.size = n + 1 → r.phase ≠ .escaped ∧ Plain escape r.current ∧ ∀ t ∈ r.literals, Plain escape t

theorem Plain.nil : Plain escape [] := ⟨List.not_mem_nil, fun _ _ => List.not_mem_nil⟩

theorem Plain.snoc {t : Text} (h : Plain escape t) {c : Char} (hc : c ≠ '"') (he : escape ≠ some c) :
    Plain escape (t ++ [c]) := by
  refine ⟨fun hm => ?_, fun d hd hm => ?_⟩
  · rcases List.mem_append.1 hm with hm | hm
    · exact h.1 hm
    · exact hc (List.mem_singleton.1 hm).symm
  · rcases List.mem_append.1 hm with hm | hm
    · exact h.2 d hd hm
    · exact he (List.mem_singleton.1 hm ▸ hd)

theorem Reader.within_start : Reader.start.Within escape 0 :=
  ⟨le_rfl, fun _ => ⟨by decide, Plain.nil, fun _ h => by cases h⟩⟩

/-- A character adds one at most, and nothing if it is an escape character. -/
theorem Reader.Within.step {n : ℕ} {r r' : Reader} (hr : r.Within escape n) {c : Char}
    (h : r.step escape c = some r') : r'.Within escape (n + 1) := by
  obtain ⟨phase, current, literals⟩ := r
  obtain ⟨hle, hplain⟩ := hr
  cases phase with
  | opening =>
    simp only [Reader.step, Option.ite_none_right_eq_some, Option.some.injEq] at h
    obtain ⟨-, rfl⟩ := h
    simp only [Reader.size] at hle hplain
    refine ⟨Nat.succ_le_succ hle, fun hsize => ?_⟩
    obtain ⟨-, -, hliterals⟩ := hplain (Nat.succ.inj hsize)
    exact ⟨by simp, Plain.nil, hliterals⟩
  | inside =>
    simp only [Reader.step] at h
    simp only [Reader.size] at hle hplain
    split_ifs at h with hquote hescape
    · cases h
      refine ⟨?_, fun hsize => ?_⟩
      · simp only [Reader.size, span_snoc]
        omega
      · simp only [Reader.size, span_snoc] at hsize
        obtain ⟨-, hcurrent, hliterals⟩ := hplain (by omega)
        refine ⟨by simp, Plain.nil, fun t ht => ?_⟩
        rcases List.mem_append.1 ht with ht | ht
        · exact hliterals t ht
        · exact List.mem_singleton.1 ht ▸ hcurrent
    · cases h
      refine ⟨?_, fun hsize => ?_⟩
      · simp only [Reader.size]
        omega
      · simp only [Reader.size] at hsize
        omega
    · cases h
      refine ⟨?_, fun hsize => ?_⟩
      · simp only [Reader.size, List.length_append, List.length_singleton]
        omega
      · simp only [Reader.size, List.length_append, List.length_singleton] at hsize
        obtain ⟨-, hcurrent, hliterals⟩ := hplain (by omega)
        exact ⟨by simp, hcurrent.snoc hquote hescape, hliterals⟩
  | escaped =>
    simp only [Reader.step, Option.some.injEq] at h
    subst h
    simp only [Reader.size] at hle hplain
    refine ⟨?_, fun hsize => ?_⟩
    · simp only [Reader.size, List.length_append, List.length_singleton]
      omega
    · simp only [Reader.size, List.length_append, List.length_singleton] at hsize
      exact absurd rfl (hplain (by omega)).1
  | closed =>
    simp only [Reader.step, Option.ite_none_right_eq_some, Option.some.injEq] at h
    obtain ⟨-, rfl⟩ := h
    simp only [Reader.size] at hle hplain
    refine ⟨Nat.succ_le_succ hle, fun hsize => ?_⟩
    obtain ⟨-, -, hliterals⟩ := hplain (Nat.succ.inj hsize)
    exact ⟨by simp, Plain.nil, hliterals⟩

theorem Reader.Within.run {n : ℕ} {r r' : Reader} (hr : r.Within escape n) {t : Text}
    (h : t.foldlM (Reader.step escape) r = some r') : r'.Within escape (n + t.length) := by
  induction t generalizing n r with
  | nil =>
    cases h
    exact hr
  | cons c t ih =>
    rw [List.foldlM_cons] at h
    obtain ⟨r₁, hstep, hrun⟩ := Option.bind_eq_some_iff.1 h
    have hrest := ih (hr.step hstep) hrun
    rw [List.length_cons, ← Nat.add_assoc, Nat.add_right_comm]
    exact hrest

theorem length_renderLiterals (t : Text) (texts : List Text) :
    (renderLiterals (t :: texts)).length + 1 = span (t :: texts) := by
  induction texts generalizing t with
  | nil => simp [renderLiterals_singleton, quoted, span]
  | cons s texts ih =>
    have hs := ih s
    rw [renderLiterals_cons_cons, span, ← hs]
    simp only [quoted, List.length_append, List.length_cons, List.length_nil]
    omega

/-- The texts of a list of literals come back exactly if they are plain. -/
theorem readLiterals_renderLiterals_iff (texts : List Text) :
    readLiterals escape (renderLiterals texts) = some texts ↔ ∀ t ∈ texts, Plain escape t := by
  cases texts with
  | nil => exact iff_of_true rfl fun _ h => by cases h
  | cons t texts =>
    have hlength := length_renderLiterals t texts
    constructor
    · intro h
      obtain ⟨r, hrun, hr⟩ := Option.bind_eq_some_iff.1 h
      have hwithin := Reader.within_start.run hrun
      have hne : renderLiterals (t :: texts) ≠ [] := by
        intro hnil
        rw [hnil, span, List.length_nil] at hlength
        omega
      rw [Option.ite_none_right_eq_some, or_iff_left hne, Option.some.injEq] at hr
      obtain ⟨hphase, hliterals⟩ := hr
      have hsize : r.size = 0 + (renderLiterals (t :: texts)).length + 1 := by
        rw [Reader.size, hphase, hliterals, Nat.zero_add, hlength]
      exact hliterals ▸ (hwithin.plain hsize).2.2
    · intro h
      unfold readLiterals Reader.start
      rw [foldlM_renderLiterals h, Option.bind_some, if_pos (.inl rfl), List.nil_append]

end Base
