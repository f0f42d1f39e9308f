import Echo.Lib.Keyed
import Std.Data.ExtTreeMap

/-!
Properties of every binding of a map. `Bindings P m` says that each key and the
value held under it satisfy `P`; the ways a program changes a map preserve it
when they preserve `P` at the keys they touch.
-/

namespace Echo.Lib

open Std (ExtTreeMap TransCmp LawfulEqCmp)

variable {κ α β : Type} {cmp : κ → κ → Ordering} [TransCmp cmp] [LawfulEqCmp cmp]

/-- Every key of the map and the value it holds satisfy `P`. -/
def Bindings (P : κ → α → Prop) (m : ExtTreeMap κ α cmp) : Prop :=
  ∀ k v, m[k]? = some v → P k v

namespace Bindings

variable {P : κ → α → Prop} {m : ExtTreeMap κ α cmp}

omit [LawfulEqCmp cmp] in
theorem empty : Bindings P (∅ : ExtTreeMap κ α cmp) := by
  intro k v h
  rw [ExtTreeMap.getElem?_empty] at h
  contradiction

theorem insert {k : κ} {v : α} (h : Bindings P m) (new : P k v) : Bindings P (m.insert k v) := by
  intro k' v' held
  rw [ExtTreeMap.getElem?_insert] at held
  split at held
  · rename_i same
    obtain rfl := LawfulEqCmp.eq_of_compare same
    cases held
    exact new
  · exact h k' v' held

omit [LawfulEqCmp cmp] in
theorem erase {k : κ} (h : Bindings P m) : Bindings P (m.erase k) := by
  intro k' v held
  rw [ExtTreeMap.getElem?_erase] at held
  split at held
  · contradiction
  · exact h k' v held

theorem modify {k : κ} {f : α → α} (h : Bindings P m) (keeps : ∀ v, P k v → P k (f v)) :
    Bindings P (m.modify k f) := by
  intro k' v held
  rw [ExtTreeMap.getElem?_modify] at held
  split at held
  · rename_i same
    obtain rfl := LawfulEqCmp.eq_of_compare same
    obtain ⟨w, hw, rfl⟩ := Option.map_eq_some_iff.mp held
    exact keeps w (h k w hw)
  · exact h k' v held

theorem filter {p : κ → α → Bool} (h : Bindings P m) : Bindings P (m.filter p) := by
  intro k v held
  rw [ExtTreeMap.getElem?_filter'] at held
  exact h k v (Option.filter_eq_some_iff.mp held).1

theorem map {Q : κ → β → Prop} {f : κ → α → β} (h : Bindings P m)
    (keeps : ∀ k v, P k v → Q k (f k v)) : Bindings Q (m.map f) := by
  intro k v held
  rw [ExtTreeMap.getElem?_map] at held
  obtain ⟨w, hw, rfl⟩ := Option.map_eq_some_iff.mp held
  exact keeps k w (h k w hw)

end Bindings

/-- A change at a key is decided by the value held there. -/
theorem modify_congr {m : ExtTreeMap κ α cmp} {k : κ} {f g : α → α}
    (agree : ∀ v, m[k]? = some v → f v = g v) : m.modify k f = m.modify k g := by
  refine ExtTreeMap.ext_getElem? fun k' => ?_
  rw [ExtTreeMap.getElem?_modify, ExtTreeMap.getElem?_modify]
  split
  · exact Option.map_congr agree
  · rfl

theorem modify_id {m : ExtTreeMap κ α cmp} {k : κ} : m.modify k id = m := by
  refine ExtTreeMap.ext_getElem? fun k' => ?_
  rw [ExtTreeMap.getElem?_modify]
  split
  · rename_i same
    obtain rfl := LawfulEqCmp.eq_of_compare same
    exact Option.map_id_apply
  · rfl

theorem modify_eq_insert {m : ExtTreeMap κ α cmp} {k : κ} {v : α} {f : α → α}
    (held : m[k]? = some v) : m.modify k f = m.insert k (f v) := by
  refine ExtTreeMap.ext_getElem? fun k' => ?_
  rw [ExtTreeMap.getElem?_modify, ExtTreeMap.getElem?_insert, held]
  rfl

theorem insert_insert_self {m : ExtTreeMap κ α cmp} {k : κ} {v w : α} :
    (m.insert k v).insert k w = m.insert k w := by
  refine ExtTreeMap.ext_getElem? fun k' => ?_
  rw [ExtTreeMap.getElem?_insert, ExtTreeMap.getElem?_insert, ExtTreeMap.getElem?_insert]
  split <;> rfl

theorem modify_insert_self {m : ExtTreeMap κ α cmp} {k : κ} {v : α} {f : α → α} :
    (m.insert k v).modify k f = m.insert k (f v) := by
  rw [modify_eq_insert ExtTreeMap.getElem?_insert_self, insert_insert_self]

/-- Moving a binding leaves the map alone only where it stays as it was. -/
theorem insert_erase_eq_self_iff {m : ExtTreeMap κ α cmp} {k k' : κ} {v w : α} (held : m[k]? = some v) :
    (m.erase k).insert k' w = m ↔ k = k' ∧ v = w := by
  constructor
  · intro same
    have there : m[k']? = some w := by
      rw [← same]
      exact ExtTreeMap.getElem?_insert_self
    by_cases apart : k = k'
    · subst apart
      rw [held] at there
      exact ⟨rfl, Option.some.inj there⟩
    · have gone : m[k]? = none := by
        rw [← same, ExtTreeMap.getElem?_insert, if_neg fun eq => ?_]
        · exact ExtTreeMap.getElem?_erase_self
        · exact apart (Std.LawfulEqCmp.eq_of_compare eq).symm
      rw [held] at gone
      contradiction
  · rintro ⟨rfl, rfl⟩
    refine ExtTreeMap.ext_getElem? fun k' => ?_
    rw [ExtTreeMap.getElem?_insert, ExtTreeMap.getElem?_erase]
    split
    · rename_i here
      rw [← Std.LawfulEqCmp.eq_of_compare here, held]
    · rfl

theorem map_empty {f : κ → α → β} : (∅ : ExtTreeMap κ α cmp).map f = ∅ := by
  refine ExtTreeMap.ext_getElem? fun k => ?_
  rw [ExtTreeMap.getElem?_map, ExtTreeMap.getElem?_empty, ExtTreeMap.getElem?_empty]
  rfl

theorem map_insert {m : ExtTreeMap κ α cmp} {f : κ → α → β} {k : κ} {v : α} :
    (m.insert k v).map f = (m.map f).insert k (f k v) := by
  refine ExtTreeMap.ext_getElem? fun k' => ?_
  rw [ExtTreeMap.getElem?_map, ExtTreeMap.getElem?_insert, ExtTreeMap.getElem?_insert,
    ExtTreeMap.getElem?_map]
  split
  · rename_i same
    obtain rfl := LawfulEqCmp.eq_of_compare same
    rfl
  · rfl

theorem map_erase {m : ExtTreeMap κ α cmp} {f : κ → α → β} {k : κ} :
    (m.erase k).map f = (m.map f).erase k := by
  refine ExtTreeMap.ext_getElem? fun k' => ?_
  simp only [ExtTreeMap.getElem?_map, ExtTreeMap.getElem?_erase]
  split <;> rfl

theorem map_modify {m : ExtTreeMap κ α cmp} {f : α → β} {g : α → α} {h : β → β} {k : κ}
    (through : ∀ v, f (g v) = h (f v)) :
    ((m.modify k g).map fun _ => f) = (m.map fun _ => f).modify k h := by
  refine ExtTreeMap.ext_getElem? fun k' => ?_
  simp only [ExtTreeMap.getElem?_map, ExtTreeMap.getElem?_modify]
  split
  · simp only [Option.map_map]
    exact congrArg (Option.map · _) (funext through)
  · rfl

theorem map_map {γ : Type} {m : ExtTreeMap κ α cmp} {f : κ → α → β} {g : κ → β → γ} :
    (m.map f).map g = m.map fun k v => g k (f k v) := by
  refine ExtTreeMap.ext_getElem? fun k => ?_
  rw [ExtTreeMap.getElem?_map, ExtTreeMap.getElem?_map, ExtTreeMap.getElem?_map, Option.map_map]
  rfl

/-- A view of the values does not see whether they were viewed before an edit, when
the edit itself does not. -/
theorem map_modify_map {m : ExtTreeMap κ α cmp} {k : κ} {f g : α → α} (idem : ∀ v, g (g v) = g v)
    (blind : ∀ v, g (f (g v)) = g (f v)) :
    (((m.map fun _ => g).modify k f).map fun _ => g) = (m.modify k f).map fun _ => g := by
  refine ExtTreeMap.ext_getElem? fun k' => ?_
  simp only [ExtTreeMap.getElem?_map, ExtTreeMap.getElem?_modify]
  split
  · rename_i same
    obtain rfl := LawfulEqCmp.eq_of_compare same
    cases m[k]? with
    | none => rfl
    | some v => exact congrArg some (blind v)
  · cases m[k']? with
    | none => rfl
    | some v => exact congrArg some (idem v)

/-- A view of the values does not see an edit that every view ignores. -/
theorem map_modify_of_same {m : ExtTreeMap κ α cmp} {k : κ} {f : α → α} {g : α → β}
    (same : ∀ v, g (f v) = g v) : ((m.modify k f).map fun _ => g) = m.map fun _ => g := by
  refine ExtTreeMap.ext_getElem? fun k' => ?_
  simp only [ExtTreeMap.getElem?_map, ExtTreeMap.getElem?_modify]
  split
  · rename_i eq
    obtain rfl := LawfulEqCmp.eq_of_compare eq
    cases m[k]? with
    | none => rfl
    | some v => exact congrArg some (same v)
  · rfl

/-- Two maps over the values agree exactly when they agree on every value held. -/
theorem map_eq_map_iff {m : ExtTreeMap κ α cmp} {f g : κ → α → β} :
    m.map f = m.map g ↔ Bindings (fun k v => f k v = g k v) m := by
  constructor
  · intro same k v held
    have at_k := congrArg (·[k]?) same
    simpa [ExtTreeMap.getElem?_map, held] using at_k
  · intro agree
    refine ExtTreeMap.ext_getElem? fun k => ?_
    rw [ExtTreeMap.getElem?_map, ExtTreeMap.getElem?_map]
    exact Option.map_congr fun v held => agree k v held

/-! ### Rebuilding a map -/

/-- Insert some bindings one by one. -/
def insertAll (m : ExtTreeMap κ α cmp) (l : List (κ × α)) : ExtTreeMap κ α cmp :=
  l.foldl (fun acc b => acc.insert b.1 b.2) m

theorem getElem?_insertAll_of_absent :
    ∀ {l : List (κ × α)} {m : ExtTreeMap κ α cmp} {k : κ}, (∀ b ∈ l, b.1 ≠ k) →
      (insertAll m l)[k]? = m[k]?
  | [], _, _, _ => rfl
  | b :: l, m, k, absent => by
      have tail : (insertAll (m.insert b.1 b.2) l)[k]? = (m.insert b.1 b.2)[k]? :=
        getElem?_insertAll_of_absent fun b' hb' => absent b' (List.mem_cons_of_mem b hb')
      refine tail.trans ?_
      rw [ExtTreeMap.getElem?_insert, if_neg]
      exact fun same => absent b List.mem_cons_self (LawfulEqCmp.eq_of_compare same)

theorem getElem?_insertAll_of_mem :
    ∀ {l : List (κ × α)} {m : ExtTreeMap κ α cmp} {k : κ} {v : α}, (l.map Prod.fst).Nodup →
      (k, v) ∈ l → (insertAll m l)[k]? = some v
  | b :: l, m, k, v, nodup, mem => by
      rw [List.map_cons, List.nodup_cons] at nodup
      rcases List.mem_cons.mp mem with rfl | mem
      · have absent : ∀ b ∈ l, b.1 ≠ k := fun b hb same =>
          nodup.1 (List.mem_map.mpr ⟨b, hb, same⟩)
        refine (getElem?_insertAll_of_absent (m := m.insert k v) absent).trans ?_
        exact ExtTreeMap.getElem?_insert_self
      · exact getElem?_insertAll_of_mem (m := m.insert b.1 b.2) nodup.2 mem

theorem nodup_keys_of_perm {m : ExtTreeMap κ α cmp} {l : List (κ × α)} (same : l.Perm m.toList) :
    (l.map Prod.fst).Nodup := by
  rw [(same.map Prod.fst).nodup_iff]
  refine List.pairwise_map.mpr (ExtTreeMap.distinct_keys_toList.imp ?_)
  intro a b distinct eq
  rw [eq] at distinct
  exact distinct Std.ReflCmp.compare_self

omit [LawfulEqCmp cmp] in
theorem insertAll_concat {m : ExtTreeMap κ α cmp} {l : List (κ × α)} {b : κ × α} :
    insertAll m (l ++ [b]) = (insertAll m l).insert b.1 b.2 := List.foldl_append

/-- Inserting a map's bindings into the empty one, in any order, gives it back. -/
theorem insertAll_of_perm {m : ExtTreeMap κ α cmp} {l : List (κ × α)} (same : l.Perm m.toList) :
    insertAll ∅ l = m := by
  refine ExtTreeMap.ext_getElem? fun k => ?_
  rcases held : m[k]? with _ | v
  · rw [getElem?_insertAll_of_absent, ExtTreeMap.getElem?_empty]
    rintro ⟨k', v⟩ mem rfl
    rw [same.mem_iff, ExtTreeMap.mem_toList_iff_getElem?_eq_some] at mem
    rw [held] at mem
    contradiction
  · refine getElem?_insertAll_of_mem (nodup_keys_of_perm same) ?_
    rw [same.mem_iff, ExtTreeMap.mem_toList_iff_getElem?_eq_some]
    exact held

/-! ### Erasing -/

omit [LawfulEqCmp cmp] in
/-- A key erased, or never held, is not held after erasing others. -/
theorem getElem?_eraseAll_of_none {ι : Type} {keyOf : ι → κ} {k : κ} :
    ∀ {l : List ι} {m : ExtTreeMap κ α cmp}, m[k]? = none →
      (l.foldl (fun m x => m.erase (keyOf x)) m)[k]? = none
  | [], _, gone => gone
  | x :: l, m, gone => by
      refine getElem?_eraseAll_of_none (l := l) ?_
      rw [ExtTreeMap.getElem?_erase]
      split
      · rfl
      · exact gone

omit [LawfulEqCmp cmp] in
theorem getElem?_eraseAll_of_mem {ι : Type} {keyOf : ι → κ} {x : ι} :
    ∀ {l : List ι} {m : ExtTreeMap κ α cmp}, x ∈ l →
      (l.foldl (fun m x => m.erase (keyOf x)) m)[keyOf x]? = none
  | y :: l, m, mem => by
      rcases List.mem_cons.mp mem with rfl | mem
      · exact getElem?_eraseAll_of_none (l := l) ExtTreeMap.getElem?_erase_self
      · exact getElem?_eraseAll_of_mem (l := l) mem

/-- Erasing every key in use leaves the empty map. -/
theorem eraseAll_eq_empty {ι : Type} {keyOf : ι → κ} {l : List ι} {m : ExtTreeMap κ α cmp}
    (covers : ∀ k v, m[k]? = some v → ∃ x ∈ l, keyOf x = k) :
    l.foldl (fun m x => m.erase (keyOf x)) m = ∅ := by
  refine ExtTreeMap.ext_getElem? fun k => ?_
  rw [ExtTreeMap.getElem?_empty]
  rcases held : m[k]? with _ | v
  · exact getElem?_eraseAll_of_none held
  · obtain ⟨x, mem, rfl⟩ := covers k v held
    exact getElem?_eraseAll_of_mem mem

/-- A table whose lookups are those of a list with distinct keys holds the list. -/
theorem perm_of_find? {β : Type} [DecidableEq κ] {m : ExtTreeMap κ α cmp} {f : α → β}
    {keyOf : β → κ} {l : List β}
    (distinct : DistinctBy keyOf l)
    (lookup : ∀ k, m[k]?.map f = l.find? fun b => keyOf b == k) :
    (m.toList.map fun p => f p.2).Perm l := by
  have keyed {k : κ} {a : α} (held : m[k]? = some a) :
      keyOf (f a) = k ∧ f a ∈ l := by
    have found := lookup k
    rw [held, Option.map_some] at found
    have same := List.find?_some found.symm
    exact ⟨beq_iff_eq.mp same, List.mem_of_find?_eq_some found.symm⟩
  have once : (m.toList.map fun p => f p.2).Nodup := by
    refine List.Nodup.of_map keyOf ?_
    have keys : (m.toList.map fun p => f p.2).map keyOf = m.toList.map Prod.fst := by
      rw [List.map_map]
      refine List.map_congr_left fun p mem => ?_
      exact (keyed (ExtTreeMap.mem_toList_iff_getElem?_eq_some.mp mem)).1
    rw [keys, ExtTreeMap.map_fst_toList_eq_keys]
    exact ExtTreeMap.nodup_keys
  refine (List.perm_ext_iff_of_nodup once distinct.nodup).mpr fun b => ?_
  rw [List.mem_map]
  constructor
  · rintro ⟨⟨k, a⟩, mem, rfl⟩
    exact (keyed (ExtTreeMap.mem_toList_iff_getElem?_eq_some.mp mem)).2
  · intro mem
    have found := distinct.find?_key mem
    rw [← lookup, Option.map_eq_some_iff] at found
    obtain ⟨a, held, same⟩ := found
    exact ⟨(keyOf b, a), ExtTreeMap.mem_toList_iff_getElem?_eq_some.mpr held, same⟩

end Echo.Lib
