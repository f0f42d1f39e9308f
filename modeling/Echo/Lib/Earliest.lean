import Mathlib.Order.Lattice

/-!
A register that keeps the least of the claims made to it. What it holds is told by
the set of claims alone: it is one of them, and none is less. So neither their
order nor their repetition matters where no two claims have the same rank.
-/

namespace Echo.Lib

variable {α R : Type _} [LinearOrder R] {rank : α → R} {held held' : Option α} {claims claims' : List α}

/-- What is held once a claim has come in: it stays unless the claim is no later. -/
def keepEarliest (rank : α → R) (held : Option α) (claim : α) : Option α :=
  if held.any fun h => decide (rank h < rank claim) then held else some claim

theorem keepEarliest_of_lt {h claim : α} (earlier : rank h < rank claim) :
    keepEarliest rank (some h) claim = some h :=
  if_pos (decide_eq_true earlier)

theorem keepEarliest_of_le {h claim : α} (le : rank claim ≤ rank h) :
    keepEarliest rank (some h) claim = some claim := by
  refine if_neg ?_
  rw [Option.any_some, decide_eq_true_iff]
  exact not_lt.mpr le

/-- Whatever was held, something no later than the claim is held after it. -/
theorem exists_keepEarliest (rank : α → R) (held : Option α) (claim : α) :
    ∃ h, keepEarliest rank held claim = some h ∧ rank h ≤ rank claim ∧
      (h = claim ∨ held = some h) ∧ ∀ h' ∈ held, rank h ≤ rank h' := by
  cases held with
  | none => exact ⟨claim, rfl, le_rfl, .inl rfl, by simp⟩
  | some cur =>
      rcases lt_or_ge (rank cur) (rank claim) with earlier | le
      · refine ⟨cur, keepEarliest_of_lt earlier, le_of_lt earlier, .inr rfl, ?_⟩
        rintro _ ⟨⟩
        exact le_rfl
      · refine ⟨claim, keepEarliest_of_le le, le_rfl, .inl rfl, ?_⟩
        rintro _ ⟨⟩
        exact le

/-- Two claims may come in either order unless they have one rank and are not the same. -/
theorem keepEarliest_comm (rank : α → R) (held : Option α) {c d : α}
    (distinct : rank c = rank d → c = d) :
    keepEarliest rank (keepEarliest rank held c) d =
      keepEarliest rank (keepEarliest rank held d) c := by
  have first {c d : α} (lt : rank c < rank d) :
      keepEarliest rank (keepEarliest rank held c) d =
        keepEarliest rank (keepEarliest rank held d) c := by
    obtain ⟨h, same, le, -, -⟩ := exists_keepEarliest rank held c
    rw [same, keepEarliest_of_lt (lt_of_le_of_lt le lt)]
    cases held with
    | none => exact same.symm.trans (keepEarliest_of_le (le_of_lt lt)).symm
    | some cur =>
        rcases lt_or_ge (rank cur) (rank d) with earlier | late
        · rw [keepEarliest_of_lt earlier, same]
        · rw [keepEarliest_of_le late, keepEarliest_of_le (le_of_lt lt)]
          exact same.symm.trans (keepEarliest_of_le (le_trans (le_of_lt lt) late))
  rcases lt_trichotomy (rank c) (rank d) with lt | same | gt
  · exact first lt
  · rw [distinct same]
  · exact (first gt).symm

/-- What is held is one of the claims, and none is earlier. -/
structure Earliest (rank : α → R) (held : Option α) (claims : List α) : Prop where
  claimed : ∀ h, held = some h → h ∈ claims
  least : ∀ c ∈ claims, ∃ h, held = some h ∧ rank h ≤ rank c

theorem earliest_toList (held : Option α) : Earliest rank held held.toList where
  claimed h same := by simp [same]
  least c mem := ⟨c, by simpa using mem, le_rfl⟩

theorem Earliest.keep (h : Earliest rank held claims) (claim : α) :
    Earliest rank (keepEarliest rank held claim) (claims ++ [claim]) := by
  unfold keepEarliest
  cases held with
  | none =>
      constructor
      · intro c same
        cases same
        exact List.mem_append_right claims List.mem_cons_self
      · intro c mem
        rcases List.mem_append.mp mem with old | new
        · obtain ⟨_, impossible, -⟩ := h.least c old
          contradiction
        · obtain rfl := List.mem_singleton.mp new
          exact ⟨c, rfl, le_rfl⟩
  | some cur =>
      by_cases stays : rank cur < rank claim
      · rw [if_pos (by simpa using stays)]
        constructor
        · intro c same
          exact List.mem_append_left [claim] (h.claimed c same)
        · intro c mem
          rcases List.mem_append.mp mem with old | new
          · exact h.least c old
          · obtain rfl := List.mem_singleton.mp new
            exact ⟨cur, rfl, le_of_lt stays⟩
      · rw [if_neg (by simpa using stays)]
        constructor
        · intro c same
          cases same
          exact List.mem_append_right claims List.mem_cons_self
        · intro c mem
          refine ⟨claim, rfl, ?_⟩
          rcases List.mem_append.mp mem with old | new
          · obtain ⟨_, same, le⟩ := h.least c old
            cases same
            exact le_trans (not_lt.mp stays) le
          · obtain rfl := List.mem_singleton.mp new
            exact le_rfl

/-- Where ranks tell claims apart, what is held is the least of them. -/
theorem Earliest.eq_some_iff (h : Earliest rank held claims)
    (distinct : ∀ c ∈ claims, ∀ d ∈ claims, rank c = rank d → c = d) {c : α} :
    held = some c ↔ c ∈ claims ∧ ∀ d ∈ claims, rank c ≤ rank d := by
  constructor
  · intro same
    refine ⟨h.claimed c same, fun d mem => ?_⟩
    obtain ⟨c', same', le⟩ := h.least d mem
    rw [same] at same'
    cases same'
    exact le
  · rintro ⟨mem, least⟩
    obtain ⟨c', same, le⟩ := h.least c mem
    have there := h.claimed c' same
    rw [same, distinct c' there c mem (le_antisymm le (least c' there))]

/-- The same claims leave the same one held. -/
theorem Earliest.unique (h : Earliest rank held claims) (h' : Earliest rank held' claims')
    (same : ∀ c, c ∈ claims' ↔ c ∈ claims)
    (distinct : ∀ c ∈ claims, ∀ d ∈ claims, rank c = rank d → c = d) : held' = held := by
  have distinct' : ∀ c ∈ claims', ∀ d ∈ claims', rank c = rank d → c = d := by
    intro c mem d mem'
    exact distinct c ((same c).mp mem) d ((same d).mp mem')
  ext c
  rw [h.eq_some_iff distinct, h'.eq_some_iff distinct', same]
  simp only [same]

end Echo.Lib
