import Mathlib

/-!
# Tables kept as lists of entries

A table maps keys to values and is kept as the list of its entries, in the
order the program keeps them in: a table that remembers arrival puts a new
entry last (`put`), one that sorts puts it before the first larger key
(`putSorted`). What the order decides is how the table is printed. What it
holds under a key is `find`, and the laws of `find` are the same for both: a
key that was put is found with what was put, and every other key is found as
before. A table that sorts keeps its keys in increasing order (`Sorted`), so
that it has one entry per key.

Where the rows of a list carry their key themselves, a key is looked up as the
first row that has it (`List.find?`); the last section has the same laws for
these.
-/

namespace Table

open List

variable {κ α : Type*} [DecidableEq κ]

/-- What a table holds under a key. -/
def find : List (κ × α) → κ → Option α
  | [], _ => none
  | (k', a) :: l, k => if k' = k then some a else find l k

/-- Set a key: in its place where it has one, and last otherwise. -/
def put : List (κ × α) → κ → α → List (κ × α)
  | [], k, a => [(k, a)]
  | (k', b) :: l, k, a => if k' = k then (k, a) :: l else (k', b) :: put l k a

/-- Set a key in a sorted table. -/
def putSorted [LT κ] [DecidableLT κ] : List (κ × α) → κ → α → List (κ × α)
  | [], k, a => [(k, a)]
  | (k', b) :: l, k, a =>
    if k' = k then (k, a) :: l
    else if k < k' then (k, a) :: (k', b) :: l
    else (k', b) :: putSorted l k a

/-- Drop a key. -/
def erase (l : List (κ × α)) (k : κ) : List (κ × α) := l.filter fun e => ! decide (e.1 = k)

@[simp] theorem find_nil (k : κ) : find ([] : List (κ × α)) k = none := rfl

@[simp] theorem find_put_self (l : List (κ × α)) (k : κ) (a : α) : find (put l k a) k = some a := by
  induction l with
  | nil => simp [put, find]
  | cons e l ih =>
    obtain ⟨k', b⟩ := e
    by_cases h : k' = k
    · simp [put, find, h]
    · simp [put, find, h, ih]

variable {k : κ} {k' : κ}

theorem find_put_of_ne (h : k' ≠ k) (l : List (κ × α)) (a : α) :
    find (put l k a) k' = find l k' := by
  induction l with
  | nil => simp [put, find, Ne.symm h]
  | cons e l ih =>
    obtain ⟨k'', b⟩ := e
    by_cases hk : k'' = k
    · have hne : k'' ≠ k' := fun heq => h (heq.symm.trans hk)
      simp [put, find, hk, Ne.symm h]
    · simp [put, find, hk, ih]

variable {l : List (κ × α)}

theorem put_of_not_mem (h : k ∉ l.map Prod.fst) (a : α) : put l k a = l ++ [(k, a)] := by
  induction l with
  | nil => rfl
  | cons e l ih =>
    rw [map_cons, mem_cons, not_or] at h
    rw [put, if_neg (Ne.symm h.1), ih h.2]
    rfl

variable {a : α} {e : κ × α} {p : κ × α → Bool}

theorem mem_put (h : e ∈ put l k a) : e = (k, a) ∨ e ∈ l := by
  induction l with
  | nil => exact .inl (mem_singleton.mp h)
  | cons e' l ih =>
    obtain ⟨k', b⟩ := e'
    rw [put] at h
    split at h
    · rcases mem_cons.mp h with h | h
      · exact .inl h
      · exact .inr (mem_cons_of_mem _ h)
    · rcases mem_cons.mp h with h | h
      · exact .inr (h ▸ mem_cons_self)
      · exact (ih h).imp_right (mem_cons_of_mem _)

/-- Setting a key changes what is found under it and nothing else. -/
theorem find_put (l : List (κ × α)) (k k' : κ) (a : α) :
    find (put l k a) k' = if k' = k then some a else find l k' := by
  split
  next h => rw [h, find_put_self]
  next h => rw [find_put_of_ne h]

/-- What is there stays there. -/
theorem isSome_find_put (h : (find l k').isSome = true) (k : κ) (a : α) :
    (find (put l k a) k').isSome = true := by
  rw [find_put]
  split
  · rfl
  · exact h

/-- Setting a key of a sorted table changes what is found under it and nothing
else. -/
theorem find_putSorted [LT κ] [DecidableLT κ] (l : List (κ × α)) (k k' : κ) (a : α) :
    find (putSorted l k a) k' = if k' = k then some a else find l k' := by
  induction l with
  | nil =>
    simp only [putSorted, find]
    by_cases h : k' = k
    · rw [if_pos h, if_pos h.symm]
    · rw [if_neg h, if_neg (Ne.symm h)]
  | cons e l ih =>
    obtain ⟨k'', b⟩ := e
    simp only [putSorted, find]
    split
    · grind [find]
    · split
      · grind [find]
      · grind [find]

/-- The keys that are kept are found as before, and no others. -/
theorem find_filter (p : κ → Bool) (l : List (κ × α)) (k : κ) :
    find (l.filter fun e => p e.1) k = if p k then find l k else none := by
  induction l with
  | nil => simp
  | cons e l ih =>
    obtain ⟨k', b⟩ := e
    rw [filter_cons]
    grind [find]

/-- A dropped key is found no more, and every other one as before. -/
theorem find_erase (l : List (κ × α)) (k k' : κ) :
    find (erase l k) k' = if k' = k then none else find l k' := by
  refine (find_filter (fun key => ! decide (key = k)) l k').trans ?_
  by_cases h : k' = k <;> simp [h]

/-- What is found is an entry. -/
theorem mem_of_find (h : find l k = some a) : (k, a) ∈ l := by
  induction l with
  | nil => cases h
  | cons e l ih =>
    obtain ⟨k', b⟩ := e
    rw [find] at h
    split at h
    next hk =>
      cases h
      exact hk ▸ mem_cons_self
    · exact mem_cons_of_mem _ (ih h)

/-- A key that has an entry is found. -/
theorem isSome_find_of_mem (h : (k, a) ∈ l) : (find l k).isSome = true := by
  induction l with
  | nil => cases h
  | cons e l ih =>
    obtain ⟨k', b⟩ := e
    rw [find]
    split
    · rfl
    next hne =>
      rcases mem_cons.mp h with heq | hmem
      · exact absurd (congrArg Prod.fst heq).symm hne
      · exact ih hmem

theorem mem_keys : k ∈ l.map Prod.fst ↔ (find l k).isSome = true := by
  constructor
  · intro h
    obtain ⟨e, he, rfl⟩ := mem_map.mp h
    exact isSome_find_of_mem he
  · intro h
    obtain ⟨a, ha⟩ := Option.isSome_iff_exists.mp h
    exact mem_map_of_mem (mem_of_find ha)

theorem find_of_not_mem_keys (h : k ∉ l.map Prod.fst) : find l k = none :=
  Option.not_isSome_iff_eq_none.mp fun hfnd => h (mem_keys.mpr hfnd)

/-- What is left of a table is found in the whole of it. -/
theorem isSome_find_of_filter (h : (find (l.filter p) k).isSome = true) :
    (find l k).isSome = true := by
  obtain ⟨a, ha⟩ := Option.isSome_iff_exists.mp h
  exact isSome_find_of_mem (mem_of_mem_filter (mem_of_find ha))

/-- A part of the table that has neither the old nor the new entry of a key stays. -/
theorem filter_put (hnew : p (k, a) = false) (hold : ∀ b, find l k = some b → p (k, b) = false) :
    (put l k a).filter p = l.filter p := by
  induction l with
  | nil => simp [put, hnew]
  | cons e l ih =>
    obtain ⟨k', b⟩ := e
    by_cases h : k' = k
    · subst h
      rw [put, if_pos rfl, filter_cons, filter_cons, hnew, hold b (by simp [find])]
      rfl
    · rw [put, if_neg h, filter_cons, filter_cons,
        ih fun c hc => hold c (by rw [find, if_neg h, hc])]

theorem nodup_keys_put (h : (l.map Prod.fst).Nodup) (k : κ) (a : α) :
    ((put l k a).map Prod.fst).Nodup := by
  induction l with
  | nil => simp [put]
  | cons e l ih =>
    obtain ⟨k', b⟩ := e
    obtain ⟨hk', hl⟩ := nodup_cons.mp h
    rw [put]
    split
    next heq => exact nodup_cons.mpr ⟨heq ▸ hk', hl⟩
    next hne =>
      refine nodup_cons.mpr ⟨fun hin => ?_, ih hl⟩
      obtain ⟨e, he, rfl⟩ := mem_map.mp hin
      rcases mem_put he with rfl | he
      · exact hne rfl
      · exact hk' (mem_map.mpr ⟨e, he, rfl⟩)

omit [DecidableEq κ] in
theorem nodup_keys_filter (h : (l.map Prod.fst).Nodup) (p : κ × α → Bool) :
    ((l.filter p).map Prod.fst).Nodup :=
  h.sublist (filter_sublist.map Prod.fst)

/-- Where every key has one entry, the entries are what is found. -/
theorem find_of_mem (h : (l.map Prod.fst).Nodup) (hmem : (k, a) ∈ l) : find l k = some a := by
  induction l with
  | nil => cases hmem
  | cons e l ih =>
    obtain ⟨k', b⟩ := e
    obtain ⟨hk', hl⟩ := nodup_cons.mp h
    rw [find]
    rcases mem_cons.mp hmem with heq | hmem
    · cases heq
      rw [if_pos rfl]
    · have hin : k ∈ l.map Prod.fst := mem_map_of_mem (f := Prod.fst) hmem
      have hne : k' ≠ k := fun heq => hk' (heq ▸ hin)
      rw [if_neg hne]
      exact ih hl hmem

theorem mem_putSorted [LT κ] [DecidableLT κ] (h : e ∈ putSorted l k a) : e = (k, a) ∨ e ∈ l := by
  induction l with
  | nil => exact .inl (mem_singleton.mp h)
  | cons e' l ih =>
    obtain ⟨k', b⟩ := e'
    rw [putSorted] at h
    grind

/-- The keys increase. -/
def Sorted [LT κ] (l : List (κ × α)) : Prop := l.Pairwise fun a b => a.1 < b.1

instance [LT κ] [DecidableLT κ] (l : List (κ × α)) : Decidable (Sorted l) :=
  inferInstanceAs (Decidable (List.Pairwise _ _))

theorem Sorted.erase [LT κ] (h : Sorted l) (k : κ) : Sorted (erase l k) :=
  List.Pairwise.filter _ h

omit [DecidableEq κ] in
theorem Sorted.map [LT κ] {β : Type*} (h : Sorted l) (f : κ → α → β) :
    Sorted (l.map fun e => (e.1, f e.1 e.2)) :=
  pairwise_map.mpr h

theorem Sorted.putSorted [LinearOrder κ] [DecidableLT κ] (h : Sorted l)
    (k : κ) (a : α) : Sorted (putSorted l k a) := by
  induction l with
  | nil => exact pairwise_singleton _ _
  | cons e l ih =>
    obtain ⟨k', b⟩ := e
    obtain ⟨hhead, htail⟩ := pairwise_cons.mp h
    rw [Table.putSorted]
    split
    next heq => exact pairwise_cons.mpr ⟨fun e he => heq ▸ hhead e he, htail⟩
    next hne =>
      split
      next hlt =>
        refine pairwise_cons.mpr ⟨fun e he => ?_, h⟩
        rcases mem_cons.mp he with rfl | he
        · exact hlt
        · exact lt_trans hlt (hhead e he)
      next hle =>
        have hlt : k' < k := lt_of_le_of_ne (not_lt.mp hle) hne
        refine pairwise_cons.mpr ⟨fun e he => ?_, ih htail⟩
        rcases mem_putSorted he with rfl | he
        · exact hlt
        · exact hhead e he

/-- In a sorted table the entries are what is found. -/
theorem Sorted.mem_iff_find [Preorder κ] (h : Sorted l) : (k, a) ∈ l ↔ find l k = some a := by
  refine ⟨find_of_mem ?_, mem_of_find⟩
  exact nodup_iff_pairwise_ne.mpr (pairwise_map.mpr (h.imp ne_of_lt))

/-- What is found under a key in a table whose values are mapped. -/
theorem find_map {β : Type*} (f : κ → α → β) (l : List (κ × α)) (k : κ) :
    find (l.map fun e => (e.1, f e.1 e.2)) k = (find l k).map (f k) := by
  induction l with
  | nil => rfl
  | cons e l ih =>
    obtain ⟨k', b⟩ := e
    rw [map_cons, find, find]
    split
    next h =>
      rw [h]
      rfl
    · exact ih

/-! ## Rows that carry their key -/

section Rows

variable (key : α → κ) {f : α → α} {l : List α}

/-- Changing the first row of a key changes what is found under it and nothing
else. -/
theorem find?_replaceF {k : κ} (hkey : ∀ a, key a = k → key (f a) = k) (l : List α) (k' : κ) :
    (l.replaceF fun a => if key a = k then some (f a) else none).find? (fun a => key a = k')
      = if k' = k then (l.find? fun a => key a = k).map f else l.find? fun a => key a = k' := by
  induction l with
  | nil => simp [replaceF]
  | cons a l ih =>
    rw [replaceF]
    by_cases ha : key a = k
    · by_cases hk : k' = k
      · simp [ha, hk, hkey a ha]
      · simp [ha, hk, hkey a ha, Ne.symm hk]
    · by_cases hk : k' = k
      · subst hk
        simpa [ha] using ih
      · rw [if_neg hk] at ih ⊢
        simp only [if_neg ha, find?_cons, ih]

/-- Dropping the first row of a key leaves what is found under the others. -/
theorem find?_eraseP_of_ne {k : κ} (h : k' ≠ k) (l : List α) :
    (l.eraseP fun a => key a = k).find? (fun a => key a = k') = l.find? fun a => key a = k' := by
  induction l with
  | nil => rfl
  | cons a l ih =>
    by_cases ha : key a = k
    · rw [eraseP_cons_of_pos (by simpa using ha), find?_cons_of_neg]
      simpa [ha] using Ne.symm h
    · rw [eraseP_cons_of_neg (by simpa using ha), find?_cons, find?_cons, ih]

/-- Where every key has one row, a dropped key is found no more. -/
theorem find?_eraseP_self (h : (l.map key).Nodup) (k : κ) :
    (l.eraseP fun a => key a = k).find? (fun a => key a = k) = none := by
  induction l with
  | nil => rfl
  | cons a l ih =>
    obtain ⟨ha, hl⟩ := nodup_cons.mp h
    by_cases hk : key a = k
    · rw [eraseP_cons_of_pos (by simpa using hk), find?_eq_none]
      intro b hb hbk
      exact ha (mem_map.mpr ⟨b, hb, (of_decide_eq_true hbk).trans hk.symm⟩)
    · rw [eraseP_cons_of_neg (by simpa using hk), find?_cons_of_neg (by simpa using hk)]
      exact ih hl

/-- Where every key has one row, a row is what is found under its key. -/
theorem find?_of_mem (h : (l.map key).Nodup) {a : α} (ha : a ∈ l) :
    l.find? (fun b => key b = key a) = some a := by
  induction l with
  | nil => cases ha
  | cons b l ih =>
    obtain ⟨hb, hl⟩ := nodup_cons.mp h
    rcases mem_cons.mp ha with rfl | hmem
    · rw [find?_cons, decide_eq_true rfl]
    · have hne : key b ≠ key a := fun heq => hb (heq ▸ mem_map_of_mem hmem)
      rw [find?_cons, decide_eq_false hne]
      exact ih hl hmem

/-- Dropping the rows of a key leaves what is found under the others, and
nothing under the key. -/
theorem find?_filter_ne (l : List α) (k k' : κ) :
    (l.filter fun a => key a ≠ k).find? (fun a => key a = k')
      = if k' = k then none else l.find? fun a => key a = k' := by
  rw [find?_filter]
  split
  next h => exact find?_eq_none.mpr (by simp [h])
  next h =>
    refine congrArg (fun p => find? p l) (funext fun a => ?_)
    by_cases ha : key a = k'
    · simp [ha, h]
    · simp [ha]

/-- Mapping rows without changing their keys maps what is found. -/
theorem find?_map_of_key (hkey : ∀ a, key (f a) = key a) (l : List α) (k : κ) :
    (l.map f).find? (fun a => key a = k) = (l.find? fun a => key a = k).map f := by
  rw [find?_map]
  simp only [Function.comp_def, hkey]

end Rows

end Table
