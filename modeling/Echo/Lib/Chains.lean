import Echo.Lib.Loops
import Mathlib.Data.List.Basic

/-!
Left-associative chains, as a recursive-descent parser reads them: what has been read so far is
the left operand, and as long as the input goes on with another link it is read and put behind
it. A round that reads something leaves less input, so the rounds do not run out.
-/

namespace Echo.Lib.Chains

variable {τ ε α β : Type _}

theorem bind_ok {x : Except ε α} {f : α → Except ε β} {b : β} :
    x >>= f = .ok b ↔ ∃ a, x = .ok a ∧ f a = .ok b := by
  cases x <;> simp [bind, Except.bind]

theorem map_ok {x : Except ε α} {f : α → β} {b : β} :
    x.map f = .ok b ↔ ∃ a, x = .ok a ∧ f a = b := by
  cases x <;> simp [Except.map]

/-- How a chain goes on at the rest of the input: not at all, or with a link that changes what has
been read so far. -/
abbrev Next (τ ε α : Type _) := List τ → Option (Except ε ((α → α) × List τ))

def link (next : Next τ ε α) : α × List τ → Lap (α × List τ) (Except ε (α × List τ))
  | (left, rest) =>
    match next rest with
    | none => .done (.ok (left, rest))
    | some (.error e) => .done (.error e)
    | some (.ok (more, rest)) => .again (more left, rest)

/-- The whole chain from a left operand on. -/
def chain (stuck : ε) (next : Next τ ε α) (left : α) (rest : List τ) : Except ε (α × List τ) :=
  (laps (link next) (rest.length + 1) (left, rest)).getD (.error stuck)

/-- The links of a chain keep what its phrases are, and read something. -/
structure Grows (Phrase : List τ → α → Prop) (next : Next τ ε α) : Prop where
  grows : ∀ {rest more rest'}, next rest = some (.ok (more, rest')) →
    ∃ us, us ≠ [] ∧ rest = us ++ rest' ∧ ∀ {ts a}, Phrase ts a → Phrase (ts ++ us) (more a)

section Links

variable {stuck : ε} {next : Next τ ε α} {left left' : α} {more : α → α} {rest rest' ts : List τ} {e : ε}

theorem chain_stop (stops : next rest = none) : chain stuck next left rest = .ok (left, rest) := by
  simp [chain, laps, link, stops]

theorem chain_fail (fails : next rest = some (.error e)) : chain stuck next left rest = .error e := by
  simp [chain, laps, link, fails]

variable {Phrase : List τ → α → Prop} (grows : Grows Phrase next)
include grows

theorem Grows.shorter (goes : next rest = some (.ok (more, rest'))) : rest'.length < rest.length := by
  obtain ⟨us, some, rfl, -⟩ := grows.grows goes
  have := List.length_pos_iff.mpr some
  simp only [List.length_append]
  omega

theorem chain_next (goes : next rest = some (.ok (more, rest'))) :
    chain stuck next left rest = chain stuck next (more left) rest' := by
  have again : link next (left, rest) = .again (more left, rest') := by simp [link, goes]
  have lower : ∀ {s s'}, link next s = .again s' → s'.2.length < s.2.length := by
    rintro ⟨left, rest⟩ s' goes
    simp only [link] at goes
    split at goes <;> cases goes
    exact grows.shorter ‹_›
  obtain ⟨r, stops⟩ := @laps_stop _ _ _ (more left, rest') _ (·.2.length) lower (Nat.lt_succ_self _)
  have late := laps_mono stops (grows.shorter goes)
  rw [chain, laps_again again, late, chain, stops]

/-- What a chain has read is a phrase as its left operand was, and it stops where nothing follows. -/
theorem chain_ok (phrase : Phrase ts left) (reads : chain stuck next left rest = .ok (left', rest')) :
    ∃ us, rest = us ++ rest' ∧ Phrase (ts ++ us) left' ∧ next rest' = none := by
  induction size : rest.length using Nat.strongRecOn generalizing rest left ts with
  | ind n ih =>
    match came : next rest with
    | none =>
      rw [chain_stop came] at reads
      cases reads
      exact ⟨[], rfl, by rwa [List.append_nil], came⟩
    | some (.error e) =>
      rw [chain_fail came] at reads
      cases reads
    | some (.ok (more, rest₁)) =>
      rw [chain_next grows came] at reads
      obtain ⟨us, -, whole, keeps⟩ := grows.grows came
      obtain ⟨vs, rest_eq, phrase', stops⟩ := ih _ (size ▸ grows.shorter came) (keeps phrase) reads rfl
      exact ⟨us ++ vs, by rw [whole, rest_eq, List.append_assoc], by rwa [← List.append_assoc], stops⟩

/-- A chain fails as one of its links does. -/
theorem chain_error (fails : chain stuck next left rest = .error e) :
    ∃ us rest', rest = us ++ rest' ∧ next rest' = some (.error e) := by
  induction size : rest.length using Nat.strongRecOn generalizing rest left with
  | ind n ih =>
    match came : next rest with
    | none =>
      rw [chain_stop came] at fails
      cases fails
    | some (.error e') =>
      rw [chain_fail came] at fails
      cases fails
      exact ⟨[], rest, rfl, came⟩
    | some (.ok (more, rest₁)) =>
      rw [chain_next grows came] at fails
      obtain ⟨us, -, whole, -⟩ := grows.grows came
      obtain ⟨vs, rest', rest_eq, failed⟩ := ih _ (size ▸ grows.shorter came) fails rfl
      exact ⟨us ++ vs, rest', by rw [whole, rest_eq, List.append_assoc], failed⟩

end Links
end Echo.Lib.Chains
