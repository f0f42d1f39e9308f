import Mathlib.Data.List.Basic

/-!
Editing a list by the positions that its elements have in it: some of them changed, some
of them taken out. Edits made one after the other come to this where no position shifts
before its turn.
-/

namespace Echo.Lib

variable {α : Type _} {positions : List Nat} {f : α → α} {l : List α}

/-- The list with the elements at these positions changed. -/
def editAt (positions : List Nat) (f : α → α) (l : List α) : List α :=
  l.mapIdx fun i x => if i ∈ positions then f x else x

/-- The list without the elements at these positions. -/
def without (positions : List Nat) (l : List α) : List α :=
  (l.zipIdx.filter fun x => x.2 ∉ positions).map Prod.fst

theorem getElem?_editAt (j : Nat) :
    (editAt positions f l)[j]? = l[j]?.map fun x => if j ∈ positions then f x else x := by
  unfold editAt
  rw [List.getElem?_mapIdx]

@[simp]
theorem length_editAt : (editAt positions f l).length = l.length := List.length_mapIdx

@[simp]
theorem editAt_nil : editAt [] f l = l := by
  refine List.ext_getElem? fun j => ?_
  rw [getElem?_editAt]
  simp

theorem editAt_append {rest : List α} (within : ∀ i ∈ positions, i < l.length) :
    editAt positions f (l ++ rest) = editAt positions f l ++ rest := by
  refine List.ext_getElem? fun j => ?_
  rw [getElem?_editAt]
  by_cases front : j < l.length
  · rw [List.getElem?_append_left front, List.getElem?_append_left (by rwa [length_editAt]),
      getElem?_editAt]
  · rw [List.getElem?_append_right (by omega), List.getElem?_append_right (by rw [length_editAt]; omega),
      length_editAt]
    have beyond : j ∉ positions := fun mem => front (within j mem)
    simp [beyond]

/-- Changing one position more. -/
theorem editAt_cons {i : Nat} (fresh : i ∉ positions) :
    editAt (i :: positions) f l = editAt positions f (l.modify i f) := by
  refine List.ext_getElem? fun j => ?_
  rw [getElem?_editAt, getElem?_editAt, List.getElem?_modify, Option.map_eq_map, Option.map_map]
  refine congrArg (Option.map · l[j]?) (funext fun x => ?_)
  by_cases same : i = j
  · subst same
    simp [fresh]
  · simp [same, Ne.symm same]

theorem editAt_singleton {i : Nat} : editAt [i] f l = l.modify i f := by
  rw [editAt_cons (List.not_mem_nil), editAt_nil]

@[simp]
theorem without_nil : without [] l = l := by
  unfold without
  simp

theorem length_without_le : (without positions l).length ≤ l.length := by
  unfold without
  rw [List.length_map]
  exact Nat.le_trans (List.length_filter_le _ _) (Nat.le_of_eq List.length_zipIdx)

theorem without_singleton {i : Nat} : without [i] l = l.eraseIdx i := by
  suffices shifted : ∀ n, ((l.zipIdx n).filter fun x => x.2 ∉ [n + i]).map Prod.fst = l.eraseIdx i by
    simpa [without] using shifted 0
  induction l generalizing i with
  | nil => intro n; rfl
  | cons x xs ih =>
      intro n
      rw [List.zipIdx_cons]
      cases i with
      | zero =>
          have later : ((xs.zipIdx (n + 1)).filter fun x => x.2 ∉ [n + 0]) = xs.zipIdx (n + 1) := by
            refine List.filter_eq_self.mpr fun y mem => ?_
            have := (List.mem_zipIdx mem).1
            simp only [List.mem_singleton, decide_eq_true_eq]
            omega
          rw [List.filter_cons_of_neg (by simp), later, List.zipIdx_map_fst, List.eraseIdx_cons_zero]
      | succ i =>
          have shift : n + (i + 1) = n + 1 + i := by omega
          rw [List.filter_cons_of_pos (by simp), List.map_cons, shift, ih, List.eraseIdx_cons_succ]

/-- Taking out the last of `n` elements, then the last but one, and so on. -/
theorem foldl_eraseIdx (n : Nat) : (List.range n).reverse.foldl List.eraseIdx l = l.drop n := by
  induction n generalizing l with
  | zero => rfl
  | succ n ih =>
      rw [List.range_succ, List.reverse_append, List.reverse_singleton, List.singleton_append,
        List.foldl_cons, ih]
      refine List.ext_getElem? fun j => ?_
      rw [List.getElem?_drop, List.getElem?_drop, List.getElem?_eraseIdx_of_ge (by omega)]
      exact congrArg (l[·]?) (by omega)

theorem without_range : without (List.range l.length) l = [] := by
  unfold without
  rw [List.map_eq_nil_iff, List.filter_eq_nil_iff]
  intro x mem
  have within : x.2 < l.length := by simpa using (List.mem_zipIdx mem).2.1
  simpa using within

/-- The positions of some of a list's elements. -/
theorem positions_of_sublist {picked : List (α × Nat)} (sub : picked.Sublist l.zipIdx) :
    (picked.map Prod.snd).Nodup ∧ ∀ i ∈ picked.map Prod.snd, i < l.length := by
  have all : l.zipIdx.map Prod.snd = List.range l.length := by
    rw [List.zipIdx_map_snd, List.range_eq_range']
  have within := sub.map Prod.snd
  rw [all] at within
  exact ⟨within.nodup List.nodup_range, fun i mem => List.mem_range.mp (within.mem mem)⟩

end Echo.Lib
