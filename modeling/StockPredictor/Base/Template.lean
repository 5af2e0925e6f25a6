/-
Texts with string literals at fixed places, `name".."name".."`, their percent-encoded form, and a
reader of them that may know an escape character. What it reads at the places is what was written
there exactly if no literal has a quote or an escape character in it.
-/
import StockPredictor.Base.Literal
import StockPredictor.Base.Url

namespace Base

/-! ## One literal -/

/-- The rest of a literal, perhaps after an escape character, and what follows the literal. -/
def readInside (escape : Option Char) : Bool → Text → Option (Text × Text)
  | _, [] => none
  | true, c :: t => (readInside escape false t).map fun r => (c :: r.1, r.2)
  | false, c :: t =>
    if c = '"' then some ([], t)
    else if escape = some c then readInside escape true t
    else (readInside escape false t).map fun r => (c :: r.1, r.2)

/-- The literal that a text starts with, and what follows it. -/
def readQuoted (escape : Option Char) (t : Text) : Option (Text × Text) :=
  if t.head? = some '"' then readInside escape false t.tail else none

variable {escape : Option Char}

theorem readInside_quote (t : Text) : readInside escape false ('"' :: t) = some ([], t) := by
  rw [readInside, if_pos rfl]

theorem readInside_escape {c : Char} (hc : c ≠ '"') (he : escape = some c) (d : Char) (t : Text) :
    readInside escape false (c :: d :: t) = (readInside escape false t).map fun r => (d :: r.1, r.2) := by
  rw [readInside, if_neg hc, if_pos he, readInside]

theorem readInside_plain {c : Char} (hc : c ≠ '"') (he : escape ≠ some c) (t : Text) :
    readInside escape false (c :: t) = (readInside escape false t).map fun r => (c :: r.1, r.2) := by
  rw [readInside, if_neg hc, if_neg he]

theorem Plain.cons {c : Char} {t : Text} (hc : c ≠ '"') (he : escape ≠ some c) (ht : Plain escape t) :
    Plain escape (c :: t) := by
  refine ⟨fun h => ?_, fun d hd h => ?_⟩
  · rcases List.mem_cons.1 h with h | h
    · exact hc h.symm
    · exact ht.1 h
  · rcases List.mem_cons.1 h with h | h
    · exact he (h ▸ hd)
    · exact ht.2 d hd h

theorem readInside_of_plain {s : Text} (h : Plain escape s) (t : Text) :
    readInside escape false (s ++ '"' :: t) = some (s, t) := by
  induction s with
  | nil => exact readInside_quote t
  | cons c s ih =>
    have hc : c ≠ '"' := fun hq => h.1 (hq ▸ List.mem_cons_self)
    have he : escape ≠ some c := fun he => h.2 c he List.mem_cons_self
    have hs : Plain escape s := ⟨fun hm => h.1 (List.mem_cons_of_mem c hm),
      fun d hd hm => h.2 d hd (List.mem_cons_of_mem c hm)⟩
    rw [List.cons_append, readInside_plain hc he, ih hs]
    rfl

theorem eq_nil_of_cons_eq {p v s : Text} {c : Char} (hp : ∀ d ∈ p, escape = some d) (he : escape ≠ some c)
    (h : c :: v = p ++ s) : p = [] := by
  cases p with
  | nil => rfl
  | cons d p =>
    rw [List.cons_append, List.cons.injEq] at h
    exact absurd (hp d List.mem_cons_self) (h.1 ▸ he)

/-- Nothing else comes back. An escape character that is read away has to come back from an escaped
one, so more and more of them are missing: here those in `p`. -/
theorem plain_of_readInside {s p t r : Text} (hp : ∀ d ∈ p, escape = some d)
    (h : readInside escape false (s ++ '"' :: t) = some (p ++ s, r)) : p = [] ∧ Plain escape s := by
  induction s using List.twoStepInduction generalizing p with
  | nil =>
    rw [List.nil_append, readInside_quote, Option.some.injEq, Prod.mk.injEq] at h
    exact ⟨(List.append_eq_nil_iff.1 h.1.symm).1, Plain.nil⟩
  | singleton c =>
    rw [List.singleton_append] at h
    by_cases hq : c = '"'
    · rw [hq, readInside_quote, Option.some.injEq, Prod.mk.injEq] at h
      exact absurd (List.append_eq_nil_iff.1 h.1.symm).2 (List.cons_ne_nil _ _)
    by_cases he : escape = some c
    · rw [readInside_escape hq he, Option.map_eq_some_iff] at h
      obtain ⟨v, -, hv⟩ := h
      -- the closing quote is escaped, and is no character of the text
      have hquote := (Prod.mk.inj hv).1
      have hne : escape ≠ some '"' := fun hd => hq (Option.some.inj (he.symm.trans hd))
      have hnil := eq_nil_of_cons_eq hp hne hquote
      rw [hnil, List.nil_append, List.cons.injEq] at hquote
      exact absurd hquote.1.symm hq
    · rw [readInside_plain hq he, readInside_quote, Option.map_some, Option.some.injEq, Prod.mk.injEq] at h
      exact ⟨eq_nil_of_cons_eq hp he h.1, Plain.nil.cons hq he⟩
  | cons_cons c d s ih ih' =>
    rw [List.cons_append] at h
    by_cases hq : c = '"'
    · rw [hq, readInside_quote, Option.some.injEq, Prod.mk.injEq] at h
      exact absurd (List.append_eq_nil_iff.1 h.1.symm).2 (List.cons_ne_nil _ _)
    by_cases he : escape = some c
    · rw [List.cons_append, readInside_escape hq he, Option.map_eq_some_iff] at h
      obtain ⟨⟨v, w⟩, hread, hv⟩ := h
      obtain ⟨hcons, rfl⟩ := Prod.mk.inj hv
      dsimp only at hcons
      -- one more is missing: the character before `d`, unless it was missing already
      obtain ⟨p', hp', hne, hv'⟩ : ∃ p', (∀ x ∈ p', escape = some x) ∧ p' ≠ [] ∧ v = p' ++ s := by
        cases p with
        | nil =>
          rw [List.nil_append, List.cons.injEq] at hcons
          obtain ⟨rfl, rfl⟩ := hcons
          exact ⟨[d], by simpa using he, List.cons_ne_nil _ _, rfl⟩
        | cons x p =>
          rw [List.cons_append, List.cons.injEq] at hcons
          obtain ⟨rfl, rfl⟩ := hcons
          rw [List.forall_mem_cons] at hp
          refine ⟨p ++ [c, d], ?_, by simp, by simp⟩
          rw [List.forall_mem_append, List.forall_mem_cons, List.forall_mem_singleton]
          exact ⟨hp.2, he, hp.1⟩
      rw [hv'] at hread
      exact absurd (ih hp' hread).1 hne
    · rw [readInside_plain hq he, Option.map_eq_some_iff] at h
      obtain ⟨⟨v, w⟩, hread, hv⟩ := h
      obtain ⟨hcons, rfl⟩ := Prod.mk.inj hv
      have hnil := eq_nil_of_cons_eq hp he hcons
      rw [hnil, List.nil_append, List.cons.injEq] at hcons
      dsimp only at hread hcons
      rw [hcons.2] at hread
      obtain ⟨-, hplain⟩ := ih' d (List.forall_mem_nil _) hread
      exact ⟨hnil, hplain.cons hq he⟩

theorem readQuoted_quoted (s t : Text) :
    readQuoted escape (quoted s ++ t) = readInside escape false (s ++ '"' :: t) := by
  simp [readQuoted, quoted]

theorem readQuoted_of_plain {s : Text} (h : Plain escape s) (t : Text) :
    readQuoted escape (quoted s ++ t) = some (s, t) := (readQuoted_quoted s t).trans (readInside_of_plain h t)

/-- A literal comes back exactly if it is plain. -/
theorem readQuoted_iff (s t : Text) : (∃ r, readQuoted escape (quoted s ++ t) = some (s, r)) ↔ Plain escape s := by
  constructor
  · rintro ⟨r, h⟩
    rw [readQuoted_quoted] at h
    exact (plain_of_readInside (p := []) (List.forall_mem_nil _) h).2
  · exact fun h => ⟨t, readQuoted_of_plain h t⟩

/-! ## Literals at fixed places -/

/-- Names with a literal after each. -/
def renderFields : List (Text × Text) → Text
  | [] => []
  | f :: fields => f.1 ++ (quoted f.2 ++ renderFields fields)

/-- What follows a name. -/
def stripName (name t : Text) : Option Text := if name <+: t then some (t.drop name.length) else none

/-- The literals after the names of a text that has nothing else. -/
def readFields (escape : Option Char) : List Text → Text → Option (List Text)
  | [], t => if t = [] then some [] else none
  | name :: names, t =>
    (stripName name t).bind fun t => (readQuoted escape t).bind fun r =>
      (readFields escape names r.2).map fun values => r.1 :: values

theorem stripName_append (name t : Text) : stripName name (name ++ t) = some t := by
  rw [stripName, if_pos (List.prefix_append name t), List.drop_left]

/-- The literals come back exactly if they are plain. -/
theorem readFields_renderFields_iff (fields : List (Text × Text)) :
    readFields escape (fields.map Prod.fst) (renderFields fields) = some (fields.map Prod.snd) ↔
      ∀ f ∈ fields, Plain escape f.2 := by
  induction fields with
  | nil => exact iff_of_true rfl fun _ h => by cases h
  | cons f fields ih =>
    rw [List.map_cons, renderFields, readFields, stripName_append, Option.bind_some, List.forall_mem_cons, ← ih]
    constructor
    · intro h
      obtain ⟨⟨v, r⟩, hquoted, h⟩ := Option.bind_eq_some_iff.1 h
      obtain ⟨values, hvalues, hcons⟩ := Option.map_eq_some_iff.1 h
      rw [List.map_cons, List.cons.injEq] at hcons
      dsimp only at hvalues hcons
      obtain ⟨rfl, rfl⟩ := hcons
      have hplain := (readQuoted_iff f.2 (renderFields fields)).1 ⟨r, hquoted⟩
      rw [readQuoted_of_plain hplain, Option.some.injEq, Prod.mk.injEq] at hquoted
      exact ⟨hplain, hquoted.2 ▸ hvalues⟩
    · rintro ⟨hplain, hfields⟩
      rw [readQuoted_of_plain hplain, Option.bind_some, hfields]
      rfl

/-! ## Percent-encoded -/

/-- Encoded names with a text between encoded quotes after each. -/
def encodeFields : List (Text × Text) → Text
  | [] => []
  | f :: fields => f.1 ++ '%' :: '2' :: '2' :: (f.2 ++ '%' :: '2' :: '2' :: encodeFields fields)

/-- The bytes of names and literals. -/
def fieldBytes (bytes : Text → List UInt8) (fields : List (Text × Text)) : List UInt8 :=
  fields.flatMap fun f => bytes f.1 ++ 34 :: (bytes f.2 ++ [34])

/-- No escape goes from a text into what is around it. -/
theorem percentDecode_encodeFields (fields : List (Text × Text)) :
    percentDecode (encodeFields fields) = fieldBytes percentDecode fields := by
  have hquote : escaped? '%' '2' '2' = some 34 := by decide
  have hpercent : hexValue '%' = none := by decide
  induction fields with
  | nil => rfl
  | cons f fields ih =>
    rw [encodeFields, percentDecode_append _ hpercent, percentDecode_escaped hquote, percentDecode_append _ hpercent,
      percentDecode_escaped hquote, ih]
    simp [fieldBytes]

theorem utf8_renderFields (fields : List (Text × Text)) : utf8 (renderFields fields) = fieldBytes utf8 fields := by
  have hquoted : ∀ t, utf8 (quoted t) = 34 :: (utf8 t ++ [34]) := by
    intro t
    rw [quoted, utf8_cons, utf8_append]
    rfl
  induction fields with
  | nil => rfl
  | cons f fields ih =>
    rw [renderFields, utf8_append, utf8_append, hquoted, ih]
    simp [fieldBytes]

/-- What holds of the characters of the names and the quotes holds of the text exactly if it does of
the characters between the quotes. -/
theorem forall_mem_encodeFields {P : Char → Prop} (hquote : P '%' ∧ P '2') {fields : List (Text × Text)}
    (hnames : ∀ f ∈ fields, ∀ c ∈ f.1, P c) :
    (∀ c ∈ encodeFields fields, P c) ↔ ∀ f ∈ fields, ∀ c ∈ f.2, P c := by
  induction fields with
  | nil => exact iff_of_true (fun _ h => by cases h) fun _ h => by cases h
  | cons f fields ih =>
    rw [List.forall_mem_cons] at hnames
    rw [encodeFields, List.forall_mem_append, and_iff_right hnames.1, List.forall_mem_cons, List.forall_mem_cons,
      List.forall_mem_cons, List.forall_mem_append, List.forall_mem_cons, List.forall_mem_cons, List.forall_mem_cons,
      ih hnames.2, List.forall_mem_cons]
    simp only [hquote.1, hquote.2, true_and]

end Base
