import Mathlib.Data.Nat.Notation

/-!
What is built from a value and held under a stamp: when the value came to be, and a counter
of its writes that comes round at `m`. What is held was built from the value as it stood
after some number of writes, and as long as the counter has not come round a stamp that
agrees tells that it stands so still.
-/

namespace Echo.Lib

variable {α γ : Type}

/-- A value, when it came to be, and how often it has been written since. -/
structure Source (α : Type) where
  ts : ℕ
  count : ℕ
  value : α

/-- What was built from a value, under its stamp. -/
structure Held (γ : Type) where
  rev : ℕ
  ts : ℕ
  built : γ

/-- The same value some writes later. -/
structure Source.Ages (s s' : Source α) : Prop where
  ts : s'.ts = s.ts
  written : s.count < s'.count ∨ s'.count = s.count ∧ s'.value = s.value

theorem Source.Ages.refl (s : Source α) : s.Ages s := ⟨rfl, .inr ⟨rfl, rfl⟩⟩

theorem Source.Ages.trans {s s' s'' : Source α} (first : s.Ages s') (second : s'.Ages s'') : s.Ages s'' := by
  refine ⟨second.ts.trans first.ts, ?_⟩
  rcases first.written with more | ⟨same, value⟩
  · left
    rcases second.written with more' | ⟨same', -⟩
    · exact Nat.lt_trans more more'
    · exact same' ▸ more
  · rcases second.written with more' | ⟨same', value'⟩
    · exact .inl (same ▸ more')
    · exact .inr ⟨same'.trans same, value'.trans value⟩

/-- A write counts. -/
theorem Source.ages_write (s : Source α) (value : α) : s.Ages ⟨s.ts, s.count + 1, value⟩ :=
  ⟨rfl, .inl s.count.lt_succ_self⟩

namespace Held

variable {build : α → γ} {m : ℕ} {e : Held γ} {found : Option (Held γ)} {s s' : Source α}

/-- The stamp is the one of the value. -/
def Fits (m : ℕ) (e : Held γ) (s : Source α) : Prop := (e.rev, e.ts) = (s.count % m, s.ts)

instance : Decidable (Fits m e s) := inferInstanceAs (Decidable (_ = _))

/-- Built from the value as it stands. -/
def fresh (build : α → γ) (m : ℕ) (s : Source α) : Held γ := ⟨s.count % m, s.ts, build s.value⟩

/-- What was found, if it fits, or else built anew. -/
def fetch (build : α → γ) (m : ℕ) (found : Option (Held γ)) (s : Source α) : Held γ :=
  match found with
  | some e => if Fits m e s then e else fresh build m s
  | none => fresh build m s

/-- What is held was built from the value after one of its writes, if from this value at all. -/
def Backed (build : α → γ) (m : ℕ) (e : Held γ) (s : Source α) : Prop :=
  e.ts = s.ts → ∃ n ≤ s.count, e.rev = n % m ∧ (n = s.count → e.built = build s.value)

theorem backed_fresh (s : Source α) : Backed build m (fresh build m s) s :=
  fun _ => ⟨s.count, Nat.le_refl _, rfl, fun _ => rfl⟩

/-- Nothing is to be said of another value. -/
theorem backed_apart (apart : e.ts ≠ s.ts) : Backed build m e s := fun same => absurd same apart

theorem Backed.ages (backed : Backed build m e s) (ages : s.Ages s') : Backed build m e s' := by
  intro same
  obtain ⟨n, le, rev, of⟩ := backed (same.trans ages.ts)
  rcases ages.written with more | ⟨count, value⟩
  · exact ⟨n, Nat.le_trans le (Nat.le_of_lt more), rev, fun now => absurd (now ▸ le) (Nat.not_le.mpr more)⟩
  · exact ⟨n, count ▸ le, rev, fun now => value ▸ of (now.trans count)⟩

/-- Until the counter comes round, what fits was built from the value as it is. -/
theorem Backed.of_fits (backed : Backed build m e s) (unworn : s.count < m) (fits : Fits m e s) :
    e.built = build s.value := by
  obtain ⟨rev, ts⟩ := Prod.mk.inj fits
  obtain ⟨n, le, same, of⟩ := backed ts
  refine of ?_
  rwa [Nat.mod_eq_of_lt (Nat.lt_of_le_of_lt le unworn), rev, Nat.mod_eq_of_lt unworn, eq_comm] at same

theorem backed_fetch (backed : ∀ e ∈ found, Backed build m e s) : Backed build m (fetch build m found s) s := by
  unfold fetch
  split
  · rename_i e
    split
    · exact backed e rfl
    · exact backed_fresh s
  · exact backed_fresh s

theorem built_fetch (backed : ∀ e ∈ found, Backed build m e s) (unworn : s.count < m) :
    (fetch build m found s).built = build s.value := by
  unfold fetch
  split
  · rename_i e
    split
    · rename_i fits
      exact (backed e rfl).of_fits unworn fits
    · rfl
  · rfl

end Held

end Echo.Lib
