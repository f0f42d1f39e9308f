import Mathlib.Data.Int.Order.Basic
import Mathlib.Tactic.Ring

/-!
Rows on a board of cells with two coordinates: as many cells as are wanted, from one of
them on by the same step of a king. A row can be walked from either end, so four of the
eight steps find every row.
-/

namespace Echo.Lib

/-- A cell of a board by its column and row. -/
abbrev Cell := Int × Int

/-- A step of a king. -/
def IsStep (d : Cell) : Prop := d ≠ (0, 0) ∧ (-1 ≤ d.1 ∧ d.1 ≤ 1) ∧ -1 ≤ d.2 ∧ d.2 ≤ 1

instance (d : Cell) : Decidable (IsStep d) := inferInstanceAs (Decidable (_ ∧ _))

/-- The cell `k` steps from another. -/
def walk (c d : Cell) (k : Nat) : Cell := (c.1 + k * d.1, c.2 + k * d.2)

/-- The steps that go right, or straight up. -/
def forward : List Cell := [(1, 0), (0, 1), (1, 1), (1, -1)]

/-- `len` cells in a row are all of a kind. -/
def HasRow (on : Cell → Prop) (len : Nat) : Prop :=
  ∃ c d, IsStep d ∧ ∀ k < len, on (walk c d k)

section Rows

variable {on more : Cell → Prop} {c d : Cell} {len k : Nat}

@[simp] theorem walk_zero : walk c d 0 = c := by
  simp [walk]

theorem walk_succ : walk c d (k + 1) = walk (c.1 + d.1, c.2 + d.2) d k := by
  unfold walk
  push_cast
  refine Prod.ext ?_ ?_
  · dsimp only
    ring
  · dsimp only
    ring

/-- The same cells from the other end. -/
theorem walk_back (within : k ≤ len) :
    walk (walk c d len) (-d.1, -d.2) k = walk c d (len - k) := by
  unfold walk
  rw [Nat.cast_sub within]
  refine Prod.ext ?_ ?_
  · dsimp only
    ring
  · dsimp only
    ring

theorem HasRow.mono (row : HasRow on len) (wider : ∀ c, on c → more c) : HasRow more len := by
  obtain ⟨c, d, step, all⟩ := row
  exact ⟨c, d, step, fun k small => wider _ (all k small)⟩

theorem isStep_of_mem (here : d ∈ forward) : IsStep d := by
  revert d
  decide

theorem forward_or_back (step : IsStep d) : d ∈ forward ∨ (-d.1, -d.2) ∈ forward := by
  obtain ⟨dx, dy⟩ := d
  obtain ⟨moves, ⟨left, right⟩, down, up⟩ := step
  have xs : dx = -1 ∨ dx = 0 ∨ dx = 1 := by omega
  have ys : dy = -1 ∨ dy = 0 ∨ dy = 1 := by omega
  rcases xs with rfl | rfl | rfl <;> rcases ys with rfl | rfl | rfl <;>
    first | exact absurd rfl moves | decide

/-- Every row is found by the forward steps. -/
theorem hasRow_iff_forward :
    HasRow on (len + 1) ↔ ∃ c, ∃ d ∈ forward, ∀ k < len + 1, on (walk c d k) := by
  constructor
  · rintro ⟨c, d, step, all⟩
    rcases forward_or_back step with ahead | back
    · exact ⟨c, d, ahead, all⟩
    · refine ⟨walk c d len, (-d.1, -d.2), back, fun k small => ?_⟩
      rw [walk_back (Nat.le_of_lt_succ small)]
      exact all (len - k) (by omega)
  · rintro ⟨c, d, ahead, all⟩
    exact ⟨c, d, isStep_of_mem ahead, all⟩

end Rows

end Echo.Lib
