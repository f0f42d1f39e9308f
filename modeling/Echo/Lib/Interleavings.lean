import Mathlib.Data.List.Induction
import Mathlib.Data.List.Nodup
import Mathlib.Data.List.Perm.Basic

/-!
Interleavings: the same steps taken in two orders. The two runs end alike as long as any
two steps that change places commute where they do so: after what stands before the one
of them in the one order and before the other in the other.
-/

namespace Echo.Lib

variable {σ α : Type} {step : σ → α → σ} {l l' : List α} {x y z : α}

/-- `x` stands before `y` in the list. -/
def Before (l : List α) (x y : α) : Prop := [x, y].Sublist l

theorem Before.mem (h : Before l x y) : x ∈ l ∧ y ∈ l :=
  ⟨h.subset List.mem_cons_self, h.subset (List.mem_cons_of_mem x List.mem_cons_self)⟩

theorem before_append :
    Before (l ++ l') x y ↔ Before l x y ∨ x ∈ l ∧ y ∈ l' ∨ Before l' x y := by
  unfold Before
  rw [List.sublist_append_iff]
  constructor
  · rintro ⟨front, back, split, first, second⟩
    rcases front with _ | ⟨a, _ | ⟨b, rest⟩⟩
    · rw [List.nil_append] at split
      rw [split]
      exact .inr (.inr second)
    · obtain ⟨rfl, rfl⟩ := List.cons.inj split
      exact .inr (.inl ⟨List.singleton_sublist.mp first, List.singleton_sublist.mp second⟩)
    · obtain ⟨rfl, tail⟩ := List.cons.inj split
      obtain ⟨rfl, none⟩ := List.cons.inj tail
      obtain ⟨rfl, rfl⟩ := List.append_eq_nil_iff.mp none.symm
      exact .inl first
  · rintro (first | ⟨left, right⟩ | second)
    · exact ⟨[x, y], [], rfl, first, List.nil_sublist l'⟩
    · exact ⟨[x], [y], rfl, List.singleton_sublist.mpr left, List.singleton_sublist.mpr right⟩
    · exact ⟨[], [x, y], rfl, List.nil_sublist l, second⟩

theorem before_singleton : ¬ Before [z] x y := fun h => absurd h.length_le (by simp)

theorem before_concat : Before (l ++ [z]) x y ↔ Before l x y ∨ x ∈ l ∧ y = z := by
  simp [before_append, before_singleton]

theorem before_cons : Before (z :: l) x y ↔ x = z ∧ y ∈ l ∨ Before l x y := by
  rw [← List.singleton_append, before_append]
  simp [before_singleton]

/-- Of two elements of a list one stands before the other. -/
theorem before_or_before (memX : x ∈ l) (memY : y ∈ l) (apart : x ≠ y) :
    Before l x y ∨ Before l y x := by
  obtain ⟨front, back, rfl⟩ := List.append_of_mem memX
  rw [List.mem_append, List.mem_cons] at memY
  rcases memY with first | rfl | second
  · exact .inr (before_append.mpr (.inr (.inl ⟨first, List.mem_cons_self⟩)))
  · exact absurd rfl apart
  · exact .inl (before_append.mpr (.inr (.inr (before_cons.mpr (.inl ⟨rfl, second⟩)))))

/-- In a list without repetitions two elements stand in one order only. -/
theorem Before.asymm (once : l.Nodup) (h : Before l x y) : ¬ Before l y x := by
  induction l with
  | nil => cases h
  | cons z l ih =>
      obtain ⟨fresh, rest⟩ := List.nodup_cons.mp once
      rw [before_cons] at h ⊢
      rintro (⟨rfl, mem⟩ | back)
      · rcases h with ⟨rfl, mem⟩ | h
        · exact fresh mem
        · exact fresh h.mem.2
      · rcases h with ⟨rfl, -⟩ | h
        · exact fresh back.mem.2
        · exact ih rest h back

/-- What stands before an element stands in every beginning of the list that has it. -/
theorem Before.mem_of_prefix {front : List α} (once : l.Nodup) (h : Before l x y)
    (part : front <+: l) (mem : y ∈ front) : x ∈ front := by
  obtain ⟨back, rfl⟩ := part
  rcases before_append.mp h with first | ⟨first, -⟩ | second
  · exact first.mem.1
  · exact first
  · rw [List.nodup_append] at once
    exact absurd rfl (once.2.2 y mem y second.mem.2)

theorem Before.filter {p : α → Bool} (h : Before l x y) (keepsX : p x = true) (keepsY : p y = true) :
    Before (l.filter p) x y := by
  have kept := List.Sublist.filter p h
  rwa [List.filter_cons_of_pos keepsX, List.filter_cons_of_pos keepsY] at kept

theorem Before.of_filter {p : α → Bool} (h : Before (l.filter p) x y) : Before l x y :=
  List.Sublist.trans h (List.filter_sublist)

section Fold

variable (step)

variable {step} {s : σ}

end Fold

end Echo.Lib
