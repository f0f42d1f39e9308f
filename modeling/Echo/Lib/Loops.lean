import Mathlib.Data.Nat.Notation

/-!
Loops whose body either goes on with a new state or stops with a result. A loop is run for
at most so many laps; a measure that every lap lowers bounds how many it takes, and once
it has stopped more laps do not change the result.
-/

namespace Echo.Lib

variable {σ ρ : Type _}

/-- What a lap of a loop comes to. -/
inductive Lap (σ ρ : Type _) where
  | again (s : σ)
  | done (r : ρ)

/-- At most so many laps of a loop. -/
def laps (lap : σ → Lap σ ρ) : ℕ → σ → Option ρ
  | 0, _ => none
  | n + 1, s =>
    match lap s with
    | .again s' => laps lap n s'
    | .done r => some r

variable {lap : σ → Lap σ ρ} {s s' : σ} {r : ρ} {n m : ℕ}

theorem laps_again (goes : lap s = .again s') : laps lap (n + 1) s = laps lap n s' := by
  simp [laps, goes]

theorem laps_done (stops : lap s = .done r) : laps lap (n + 1) s = some r := by
  simp [laps, stops]

/-- Once a loop has stopped, more laps do not change the result. -/
theorem laps_mono (stopped : laps lap n s = some r) (more : n ≤ m) : laps lap m s = some r := by
  induction n generalizing s m with
  | zero => cases stopped
  | succ n ih =>
    cases m with
    | zero => cases more
    | succ m =>
      cases came : lap s with
      | again s' =>
        rw [laps_again came] at stopped ⊢
        exact ih stopped (Nat.le_of_succ_le_succ more)
      | done r' =>
        rw [laps_done came] at stopped ⊢
        exact stopped

/-- A loop whose laps all lower a measure stops before it runs out. -/
theorem laps_stop (measure : σ → ℕ) (lower : ∀ {s s'}, lap s = .again s' → measure s' < measure s)
    (enough : measure s < n) : ∃ r, laps lap n s = some r := by
  induction n generalizing s with
  | zero => cases enough
  | succ n ih =>
    cases came : lap s with
    | again s' =>
      rw [laps_again came]
      exact ih (Nat.lt_of_lt_of_le (lower came) (Nat.le_of_lt_succ enough))
    | done r => exact ⟨r, laps_done came⟩

end Echo.Lib
