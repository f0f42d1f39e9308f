import Mathlib.Data.List.AList

/-!
Association lists whose keys are distinct, in whatever order their entries come.
Mathlib's `AList` has the lookup, the insertion and the erasure; here is what a program
does besides, going over all the entries, and how many of them have a property.
-/

namespace Echo.Lib

/-- A map of one type of values. -/
abbrev Assoc (κ α : Type) := AList fun _ : κ => α

variable {κ α β : Type}

namespace Assoc

/-- Keep of each entry what `f` makes of it. -/
def filterMap (f : κ → α → Option β) (m : Assoc κ α) : Assoc κ β where
  entries := m.entries.filterMap fun e => (f e.1 e.2).map (⟨e.1, ·⟩)
  nodupKeys := by
    have kept : ((m.entries.filterMap fun e => (f e.1 e.2).map fun v =>
        (⟨e.1, v⟩ : Sigma fun _ : κ => β)).map Sigma.fst).Sublist (m.entries.map Sigma.fst) := by
      induction m.entries with
      | nil => exact .slnil
      | cons e entries ih =>
          cases value : f e.1 e.2 with
          | none =>
              rw [List.filterMap_cons_none (by rw [value]; rfl)]
              exact ih.cons _
          | some v =>
              rw [List.filterMap_cons_some (by rw [value]; rfl)]
              exact ih.cons_cons _
    exact List.Nodup.sublist kept m.nodupKeys

/-- Keep the entries that `p` holds of. -/
def retain (p : κ → α → Bool) (m : Assoc κ α) : Assoc κ α :=
  filterMap (fun k v => if p k v then some v else none) m

/-- Change every value. -/
def mapValues (f : κ → α → β) (m : Assoc κ α) : Assoc κ β :=
  filterMap (fun k v => some (f k v)) m

variable [DecidableEq κ]

theorem lookup_insert_eq (m : Assoc κ α) (k k' : κ) (v : α) :
    (m.insert k v).lookup k' = if k' = k then some v else m.lookup k' := by
  by_cases same : k' = k
  · subst same
    rw [if_pos rfl, AList.lookup_insert]
  · rw [if_neg same, AList.lookup_insert_ne same]

theorem lookup_erase_eq (m : Assoc κ α) (k k' : κ) :
    (m.erase k).lookup k' = if k' = k then none else m.lookup k' := by
  by_cases same : k' = k
  · subst same
    rw [if_pos rfl, AList.lookup_erase]
  · rw [if_neg same, AList.lookup_erase_ne same]

theorem mem_entries_iff {m : Assoc κ α} {k : κ} {v : α} :
    (⟨k, v⟩ : Sigma fun _ => α) ∈ m.entries ↔ m.lookup k = some v :=
  AList.mem_lookup_iff.symm

theorem lookup_filterMap (f : κ → α → Option β) (m : Assoc κ α) (k : κ) :
    (filterMap f m).lookup k = (m.lookup k).bind (f k) := by
  refine Option.ext fun v => ?_
  rw [← mem_entries_iff, Option.bind_eq_some_iff]
  unfold filterMap
  dsimp only
  rw [List.mem_filterMap]
  constructor
  · rintro ⟨⟨k', w⟩, mem, kept⟩
    obtain ⟨v', value, same⟩ := Option.map_eq_some_iff.mp kept
    cases same
    exact ⟨w, mem_entries_iff.mp mem, value⟩
  · rintro ⟨w, held, value⟩
    refine ⟨⟨k, w⟩, mem_entries_iff.mpr held, ?_⟩
    dsimp only
    rw [value]
    rfl

theorem lookup_retain (p : κ → α → Bool) (m : Assoc κ α) (k : κ) :
    (retain p m).lookup k = (m.lookup k).filter (p k) := by
  unfold retain
  rw [lookup_filterMap]
  cases m.lookup k with
  | none => rfl
  | some v =>
      rw [Option.bind_some, Option.filter_some]

theorem lookup_mapValues (f : κ → α → β) (m : Assoc κ α) (k : κ) :
    (mapValues f m).lookup k = (m.lookup k).map (f k) := by
  unfold mapValues
  rw [lookup_filterMap]
  cases m.lookup k <;> rfl

/-! ### How many -/

/-- How many entries `p` holds of. -/
def count (p : κ → α → Bool) (m : Assoc κ α) : Nat := m.entries.countP fun e => p e.1 e.2

variable {p : κ → α → Bool} {m : Assoc κ α} {k : κ} {v : α}

omit [DecidableEq κ] in
@[simp] theorem count_empty : count p (∅ : Assoc κ α) = 0 := rfl

theorem erase_of_lookup_eq_none (absent : m.lookup k = none) : m.erase k = m :=
  AList.ext (List.kerase_of_notMem_keys (AList.lookup_eq_none.mp absent))

theorem count_insert (p : κ → α → Bool) (m : Assoc κ α) (k : κ) (v : α) :
    count p (m.insert k v) = count p (m.erase k) + if p k v then 1 else 0 :=
  List.countP_cons

theorem count_insert_of_new (new : m.lookup k = none) :
    count p (m.insert k v) = count p m + if p k v then 1 else 0 := by
  rw [count_insert, erase_of_lookup_eq_none new]

/-- The entries of a table are one of them and the rest. -/
theorem perm_erase (held : m.lookup k = some v) :
    m.entries.Perm (⟨k, v⟩ :: (m.erase k).entries) := by
  have key : k ∈ m.entries.keys := AList.lookup_isSome.mp (held ▸ rfl)
  obtain ⟨w, front, back, -, whole, erased⟩ := List.exists_of_kerase key
  have found : m.lookup k = some w := by
    rw [← mem_entries_iff, whole]
    exact List.mem_append_right front List.mem_cons_self
  cases held.symm.trans found
  rw [whole, show (m.erase k).entries = front ++ back from erased]
  exact List.perm_middle

theorem count_erase (held : m.lookup k = some v) :
    count p (m.erase k) + (if p k v then 1 else 0) = count p m := by
  unfold count
  rw [(perm_erase held).countP_eq, List.countP_cons]

/-- A value that is put in another's place counts for it. -/
theorem count_insert_of_same {w : α} (held : m.lookup k = some w) (same : p k v = p k w) :
    count p (m.insert k v) = count p m := by
  rw [count_insert, same, count_erase held]

end Assoc

end Echo.Lib
