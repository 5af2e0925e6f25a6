/-
A dictionary that remembers insertion order: a list of entries with pairwise distinct keys, the
distinctness carried by the type. Assigning to a present key keeps its place, assigning to an
absent one appends; adding a present key is an error.
-/
import Mathlib.Data.List.Nodup

namespace Base

/-- Entries in insertion order, no key twice. -/
@[ext] structure Dictionary (κ υ : Type*) where
  entries : List (κ × υ)
  nodup : (entries.map Prod.fst).Nodup
deriving DecidableEq

namespace Dictionary

variable {κ υ : Type*}

/-- The dictionary with no entries. -/
def empty : Dictionary κ υ := ⟨[], List.nodup_nil⟩

/-- The same keys with other values. -/
def map {υ' : Type*} (f : υ → υ') (d : Dictionary κ υ) : Dictionary κ υ' where
  entries := d.entries.map fun p => (p.1, f p.2)
  nodup := by
    rw [List.map_map]
    exact d.nodup

/-- The keys in insertion order. -/
def keys (d : Dictionary κ υ) : List κ := d.entries.map Prod.fst

@[simp] theorem keys_empty : (empty : Dictionary κ υ).keys = [] := rfl

theorem mem_keys {d : Dictionary κ υ} {k : κ} : k ∈ d.keys ↔ ∃ v, (k, v) ∈ d.entries := by
  simp [keys]

variable [DecidableEq κ]

/-- The value of a key, if there is one. -/
def lookup (d : Dictionary κ υ) (k : κ) : Option υ := d.entries.lookup k

def containsKey (d : Dictionary κ υ) (k : κ) : Bool := decide (k ∈ d.keys)

@[simp] theorem containsKey_iff (d : Dictionary κ υ) (k : κ) : d.containsKey k = true ↔ k ∈ d.keys := by
  simp [containsKey]

/-! ## Lookup and membership -/

theorem lookup_list_iff : ∀ {l : List (κ × υ)}, (l.map Prod.fst).Nodup → ∀ {k : κ} {v : υ},
    l.lookup k = some v ↔ (k, v) ∈ l
  | [], _, k, v => by simp
  | (k', v') :: l, h, k, v => by
    rw [List.map_cons, List.nodup_cons] at h
    by_cases hk : k = k'
    · subst hk
      -- the head decides: no later entry has its key
      have hno : (k, v) ∉ l := fun hm => h.1 (List.mem_map.2 ⟨_, hm, rfl⟩)
      simp [hno, eq_comm]
    · have hb : (k == k') = false := by simpa using hk
      rw [List.lookup_cons, hb, List.mem_cons, lookup_list_iff h.2]
      simp [hk]

/-- A key has at most one value: looking it up is being an entry. -/
theorem lookup_eq_some_iff {d : Dictionary κ υ} {k : κ} {v : υ} : d.lookup k = some v ↔ (k, v) ∈ d.entries :=
  lookup_list_iff d.nodup

theorem lookup_isSome_iff {d : Dictionary κ υ} {k : κ} : (d.lookup k).isSome ↔ k ∈ d.keys := by
  rw [Option.isSome_iff_exists, mem_keys]
  simp only [lookup_eq_some_iff]

theorem lookup_eq_none_iff {d : Dictionary κ υ} {k : κ} : d.lookup k = none ↔ k ∉ d.keys := by
  rw [← lookup_isSome_iff, Option.not_isSome_iff_eq_none]

theorem lookup_map {υ' : Type*} (f : υ → υ') (d : Dictionary κ υ) (k : κ) :
    (d.map f).lookup k = (d.lookup k).map f := by
  unfold lookup map
  dsimp only
  induction d.entries with
  | nil => rfl
  | cons p l ih =>
    rw [List.map_cons, List.lookup_cons, List.lookup_cons]
    cases k == p.1 with
    | true => rfl
    | false => exact ih

/-! ## Assignment -/

/-- Replace the value of a present key in place. -/
def replaceEntry (k : κ) (v : υ) (p : κ × υ) : κ × υ := if p.1 = k then (k, v) else p

theorem replaceEntry_fst (k : κ) (v : υ) (p : κ × υ) : (replaceEntry k v p).1 = p.1 := by
  unfold replaceEntry; split
  · rename_i h; exact h.symm
  · rfl

theorem map_replaceEntry_fst (k : κ) (v : υ) (l : List (κ × υ)) :
    (l.map (replaceEntry k v)).map Prod.fst = l.map Prod.fst := by
  rw [List.map_map]; exact List.map_congr_left fun p _ => replaceEntry_fst k v p

omit [DecidableEq κ] in
theorem nodup_snoc {d : Dictionary κ υ} {k : κ} (v : υ) (h : k ∉ d.keys) :
    ((d.entries ++ [(k, v)]).map Prod.fst).Nodup := by
  rw [List.map_append, List.nodup_append]
  refine ⟨d.nodup, by simp, ?_⟩
  intro a ha b hb
  simp only [List.map_cons, List.map_nil, List.mem_singleton] at hb
  subst hb; rintro rfl; exact h ha

/-- `d[k] = v`. -/
def set (d : Dictionary κ υ) (k : κ) (v : υ) : Dictionary κ υ :=
  if h : k ∈ d.keys then
    ⟨d.entries.map (replaceEntry k v), by rw [map_replaceEntry_fst]; exact d.nodup⟩
  else ⟨d.entries ++ [(k, v)], nodup_snoc v h⟩

/-- `d.Add(k, v)`: `none` when the key is present. -/
def add (d : Dictionary κ υ) (k : κ) (v : υ) : Option (Dictionary κ υ) :=
  if h : k ∈ d.keys then none else some ⟨d.entries ++ [(k, v)], nodup_snoc v h⟩

/-- After `d[k] = v` the key `k` has the value `v` and every other key its old one. -/
theorem lookup_set (d : Dictionary κ υ) (k : κ) (v : υ) (k' : κ) :
    (d.set k v).lookup k' = if k' = k then some v else d.lookup k' := by
  by_cases hk : k' = k
  · subst hk
    rw [if_pos rfl, lookup_eq_some_iff]
    unfold set
    split
    · rename_i h
      obtain ⟨w, hw⟩ := mem_keys.1 h
      exact List.mem_map.2 ⟨_, hw, by simp [replaceEntry]⟩
    · simp
  · rw [if_neg hk]
    apply Option.ext
    intro w
    rw [lookup_eq_some_iff, lookup_eq_some_iff]
    unfold set
    split
    · rw [List.mem_map]
      constructor
      · rintro ⟨⟨k₁, w₁⟩, hm, he⟩
        unfold replaceEntry at he
        split at he
        · exact absurd (congrArg Prod.fst he).symm hk
        · rw [← he]; exact hm
      · intro hm
        exact ⟨_, hm, if_neg hk⟩
    · simp [hk]

/-- An assignment changes nothing exactly when the key has the value already. -/
theorem set_eq_self_iff {d : Dictionary κ υ} {k : κ} {v : υ} : d.set k v = d ↔ d.lookup k = some v := by
  constructor
  · intro h
    rw [← h, lookup_set, if_pos rfl]
  · intro h
    have hm := lookup_eq_some_iff.1 h
    unfold set
    rw [dif_pos (mem_keys.2 ⟨v, hm⟩)]
    -- the entry that is replaced is the one that is there
    have hself : ∀ p ∈ d.entries, replaceEntry k v p = id p := by
      rintro ⟨k', v'⟩ hp
      unfold replaceEntry
      split
      · rename_i hk
        cases hk
        have hv := lookup_eq_some_iff.2 hp
        rw [h] at hv
        rw [Option.some.inj hv]
        rfl
      · rfl
    ext1
    exact (List.map_congr_left hself).trans (List.map_id _)

/-! ## Assignments in a row -/

/-- Assign the entries of a list, one after the other. -/
def setAll (d : Dictionary κ υ) (l : List (κ × υ)) : Dictionary κ υ := l.foldl (fun d p => d.set p.1 p.2) d

/-- The value that the last entry of a list with the key has. -/
def lastValue (l : List (κ × υ)) (k : κ) : Option υ := (l.reverse.find? fun p => decide (p.1 = k)).map Prod.snd

theorem lastValue_cons (p : κ × υ) (l : List (κ × υ)) (k : κ) :
    lastValue (p :: l) k = (lastValue l k).or (if p.1 = k then some p.2 else none) := by
  unfold lastValue
  rw [List.reverse_cons, List.find?_append, Option.map_or, List.find?_singleton]
  by_cases hk : p.1 = k <;> simp [hk]

/-- A function of the entries that keeps their keys acts on the last value. -/
theorem lastValue_map {υ' : Type*} (f : υ → υ') (l : List (κ × υ)) (k : κ) :
    lastValue (l.map fun p => (p.1, f p.2)) k = (lastValue l k).map f := by
  unfold lastValue
  rw [← List.map_reverse, List.find?_map, Option.map_map, Option.map_map]
  rfl

/-- The last assignment to a key counts. -/
theorem lookup_setAll (d : Dictionary κ υ) (l : List (κ × υ)) (k : κ) :
    (d.setAll l).lookup k = (lastValue l k).or (d.lookup k) := by
  induction l generalizing d with
  | nil => rfl
  | cons p l ih =>
    rw [setAll, List.foldl_cons, ← setAll, ih, lastValue_cons, Option.or_assoc, lookup_set]
    congr 1
    by_cases hk : p.1 = k
    · rw [if_pos hk, if_pos hk.symm]
      rfl
    · rw [if_neg hk, if_neg (Ne.symm hk)]
      rfl

theorem lookup_setAll_empty (l : List (κ × υ)) (k : κ) :
    ((empty : Dictionary κ υ).setAll l).lookup k = lastValue l k := by
  rw [lookup_setAll]
  exact Option.or_none

theorem lastValue_isSome_iff (l : List (κ × υ)) (k : κ) : (lastValue l k).isSome ↔ k ∈ l.map Prod.fst := by
  unfold lastValue
  rw [Option.isSome_map, List.find?_isSome]
  simp only [List.mem_reverse, decide_eq_true_eq, List.mem_map]

theorem mem_keys_setAll_empty (l : List (κ × υ)) (k : κ) :
    k ∈ ((empty : Dictionary κ υ).setAll l).keys ↔ k ∈ l.map Prod.fst := by
  rw [← lookup_isSome_iff, lookup_setAll_empty, lastValue_isSome_iff]

theorem setAll_append (d : Dictionary κ υ) (l l' : List (κ × υ)) : d.setAll (l ++ l') = (d.setAll l).setAll l' :=
  List.foldl_append

/-! ## Merging -/

/-- Append an entry unless its key is present. -/
def insertNew (d : Dictionary κ υ) (p : κ × υ) : Dictionary κ υ :=
  if h : p.1 ∈ d.keys then d else ⟨d.entries ++ [p], nodup_snoc p.2 h⟩

/-- The entries of `d`, then those of `e` whose key `d` does not have. -/
def merge (d e : Dictionary κ υ) : Dictionary κ υ := e.entries.foldl insertNew d

/-- Behind the test that the key is absent, adding never fails. -/
theorem add_eq_insertNew {d : Dictionary κ υ} {p : κ × υ} (h : p.1 ∉ d.keys) :
    d.add p.1 p.2 = some (d.insertNew p) := by
  unfold add insertNew; rw [dif_neg h, dif_neg h]

theorem insertNew_of_mem {d : Dictionary κ υ} {p : κ × υ} (h : p.1 ∈ d.keys) : d.insertNew p = d := dif_pos h

theorem entries_insertNew {d : Dictionary κ υ} {p : κ × υ} (h : p.1 ∉ d.keys) :
    (d.insertNew p).entries = d.entries ++ [p] := by
  unfold insertNew; rw [dif_neg h]

theorem entries_foldl_insertNew : ∀ (l : List (κ × υ)) (d : Dictionary κ υ), (l.map Prod.fst).Nodup →
    (l.foldl insertNew d).entries = d.entries ++ l.filter fun p => decide (p.1 ∉ d.keys)
  | [], d, _ => by simp
  | p :: l, d, h => by
    rw [List.map_cons, List.nodup_cons] at h
    rw [List.foldl_cons, entries_foldl_insertNew l _ h.2]
    by_cases hp : p.1 ∈ d.keys
    · rw [insertNew_of_mem hp, List.filter_cons_of_neg (by simpa using hp)]
    · rw [entries_insertNew hp, List.filter_cons_of_pos (by simpa using hp), List.append_assoc]
      congr 1
      rw [List.singleton_append]
      congr 1
      -- the new key does not occur in the rest, so the test is the same before and after
      refine List.filter_congr fun q hq => ?_
      have hne : q.1 ≠ p.1 := fun he => h.1 (he ▸ List.mem_map_of_mem hq)
      have hk : q.1 ∈ (d.insertNew p).keys ↔ q.1 ∈ d.keys := by
        rw [keys, entries_insertNew hp, List.map_append, List.mem_append]
        simp [keys, hne]
      exact decide_eq_decide.2 (not_congr hk)

theorem entries_merge (d e : Dictionary κ υ) :
    (d.merge e).entries = d.entries ++ e.entries.filter fun p => decide (p.1 ∉ d.keys) :=
  entries_foldl_insertNew e.entries d e.nodup

/-- A merged dictionary has the left value of a key if there is one and the right one otherwise. -/
theorem lookup_merge (d e : Dictionary κ υ) (k : κ) : (d.merge e).lookup k = (d.lookup k).or (e.lookup k) := by
  apply Option.ext
  intro v
  rw [lookup_eq_some_iff, entries_merge, List.mem_append, List.mem_filter, Option.or_eq_some_iff, lookup_eq_none_iff,
    lookup_eq_some_iff, lookup_eq_some_iff]
  simp only [decide_eq_true_eq]
  tauto

theorem mem_keys_merge (d e : Dictionary κ υ) (k : κ) : k ∈ (d.merge e).keys ↔ k ∈ d.keys ∨ k ∈ e.keys := by
  rw [← lookup_isSome_iff, lookup_merge, Option.isSome_or, Bool.or_eq_true, lookup_isSome_iff, lookup_isSome_iff]

end Dictionary

end Base
