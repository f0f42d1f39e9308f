import Mathlib.Data.List.Forall2

/-!
Wildcard patterns over any alphabet: `star` stands for any text, `hook` for any one
character, and every other character for itself.

`Splits` is what a pattern means. `Tame` is the narrower meaning that a matcher gives it
which compares the characters first: a star of the pattern in front of a star of the
text stands for just that one. The two agree on texts without stars.
-/

namespace Echo.Lib.Wildcards

variable {α : Type} (star hook : α)

/-- Whether a piece of text is one that a character of a pattern stands for. -/
def Fits (q : α) (piece : List α) : Prop :=
  q = star ∨ q = hook ∧ piece.length = 1 ∨ q ≠ hook ∧ piece = [q]

/-- The text can be split into pieces that the characters of the pattern stand for. -/
def Splits (p t : List α) : Prop :=
  ∃ pieces, pieces.flatten = t ∧ List.Forall₂ (Fits star hook) p pieces

/-- The text can be so split where a star that faces a star stands for just that. -/
inductive Tame : List α → List α → Prop
  | nil : Tame [] []
  | one {q c : α} {p t : List α} : q = hook ∨ q = c → Tame p t → Tame (q :: p) (c :: t)
  | any {p t : List α} (n : Nat) : t.head? ≠ some star → Tame p (t.drop n) → Tame (star :: p) t

variable {star hook} {p q t u back : List α}

/-! ### What a pattern means -/

theorem splits_nil : Splits star hook [] t ↔ t = [] := by
  constructor
  · rintro ⟨pieces, rfl, fit⟩
    cases fit
    rfl
  · rintro rfl
    exact ⟨[], rfl, .nil⟩

theorem Splits.cons {c : α} {piece : List α} (fits : Fits star hook c piece)
    (h : Splits star hook p t) : Splits star hook (c :: p) (piece ++ t) := by
  obtain ⟨pieces, rfl, fit⟩ := h
  exact ⟨piece :: pieces, rfl, .cons fits fit⟩

theorem splits_cons {c : α} :
    Splits star hook (c :: p) t ↔
      ∃ piece rest, t = piece ++ rest ∧ Fits star hook c piece ∧ Splits star hook p rest := by
  constructor
  · rintro ⟨pieces, rfl, fit⟩
    cases fit with
    | cons fits fit => exact ⟨_, _, rfl, fits, _, rfl, fit⟩
  · rintro ⟨piece, rest, rfl, fits, h⟩
    exact h.cons fits

/-- The characters that stand for themselves are in the text, in their order. -/
theorem Splits.literals [DecidableEq α] (h : Splits star hook p t) :
    (p.filter fun c => c ≠ star ∧ c ≠ hook).Sublist t := by
  induction p generalizing t with
  | nil => exact List.nil_sublist t
  | cons c p ih =>
      obtain ⟨piece, rest, rfl, fits, h⟩ := splits_cons.mp h
      have later := ih h
      by_cases literal : c ≠ star ∧ c ≠ hook
      · have kept : decide (c ≠ star ∧ c ≠ hook) = true := decide_eq_true literal
        rw [List.filter_cons, if_pos kept]
        rcases fits with isStar | ⟨isHook, -⟩ | ⟨-, rfl⟩
        · exact absurd isStar literal.1
        · exact absurd isHook literal.2
        · exact later.cons_cons c
      · have dropped : ¬ decide (c ≠ star ∧ c ≠ hook) = true := fun kept => literal (of_decide_eq_true kept)
        rw [List.filter_cons, if_neg dropped]
        exact later.trans (List.sublist_append_right piece rest)

/-- What is tame is split as the pattern says. -/
theorem Tame.splits (h : Tame star hook p t) : Splits star hook p t := by
  induction h with
  | nil => exact splits_nil.mpr rfl
  | @one q c p t same _ ih =>
      have fits : Fits star hook q [c] := by
        by_cases isHook : q = hook
        · exact .inr (.inl ⟨isHook, rfl⟩)
        · exact .inr (.inr ⟨isHook, by rw [same.resolve_left isHook]⟩)
      exact ih.cons fits
  | @any p t n _ _ ih =>
      rw [← List.take_append_drop n t]
      exact ih.cons (.inl rfl)

/-- In front of a text without stars every star is free. -/
theorem tame_of_splits (plain : star ∉ t) (h : Splits star hook p t) : Tame star hook p t := by
  induction p generalizing t with
  | nil =>
      rw [splits_nil.mp h]
      exact .nil
  | cons c p ih =>
      obtain ⟨piece, rest, rfl, fits, h⟩ := splits_cons.mp h
      have tame := ih (fun mem => plain (List.mem_append_right _ mem)) h
      rcases fits with rfl | ⟨isHook, single⟩ | ⟨-, rfl⟩
      · refine .any piece.length (fun first => plain (List.mem_of_mem_head? first)) ?_
        rw [List.drop_left]
        exact tame
      · obtain ⟨d, rfl⟩ := List.length_eq_one_iff.mp single
        exact .one (.inl isHook) tame
      · exact .one (.inr rfl) tame

/-! ### Matching a pattern at a text -/

theorem tame_nil [DecidableEq α] : Tame star hook p [] ↔ p.all (· == star) = true := by
  constructor
  · intro h
    generalize empty : ([] : List α) = t at h
    induction h with
    | nil => rfl
    | one => cases empty
    | any n _ _ ih =>
        subst empty
        rw [List.all_cons, beq_self_eq_true, ih (by simp)]
        rfl
  · intro stars
    induction p with
    | nil => exact .nil
    | cons c p ih =>
        simp only [List.all_cons, Bool.and_eq_true, beq_iff_eq] at stars
        rw [stars.1]
        exact .any 0 (by simp) (ih stars.2)

/-- A character of the pattern that is not free stands for the next of the text. -/
theorem tame_cons {c d : α} (bound : c = hook ∨ c = d ∨ c ≠ star) (apart : star ≠ hook) :
    Tame star hook (c :: p) (d :: t) ↔ (c = hook ∨ c = d) ∧ Tame star hook p t := by
  constructor
  · intro h
    cases h with
    | one same h => exact ⟨same, h⟩
    | any n free _ =>
        rcases bound with isHook | same | other
        · exact absurd isHook apart
        · rw [same] at free
          simp at free
        · exact absurd rfl other
  · rintro ⟨same, h⟩
    exact .one same h

/-- A free star stands for some text, and so does one that is further on. -/
theorem tame_star {d : α} (free : star ≠ d) :
    Tame star hook (star :: p) (d :: t) ↔ ∃ n, Tame star hook p ((d :: t).drop n) := by
  constructor
  · intro h
    cases h with
    | one same h => exact ⟨1, h⟩
    | any n _ h => exact ⟨n, h⟩
  · rintro ⟨n, h⟩
    exact .any n (by simpa using free.symm) h

theorem Tame.star_drop (h : Tame star hook (star :: p) t) : ∃ n, Tame star hook p (t.drop n) := by
  cases h with
  | one _ h => exact ⟨1, h⟩
  | any n _ h => exact ⟨n, h⟩

/-- The characters of the pattern stand one by one for those of the text. -/
def Pairs (hook : α) : List α → List α → Prop := List.Forall₂ fun q c => q = hook ∨ q = c

theorem Pairs.snoc {q c : α} (pairs : Pairs hook u back) (same : q = hook ∨ q = c) :
    Pairs hook (u ++ [q]) (back ++ [c]) :=
  List.rel_append pairs (.cons same .nil)

/-- If what a pattern begins with stands for the text before `t`, then wherever else in
that text the pattern is tried, the rest of it comes to be tried in `t`. -/
theorem Tame.later (apart : star ≠ hook) (pairs : Pairs hook u back) {k : Nat}
    (h : Tame star hook (u ++ p) ((back ++ t).drop k)) : ∃ n, Tame star hook p (t.drop n) := by
  induction pairs generalizing k with
  | nil => exact ⟨k, h⟩
  | @cons q c u back same pairs ih =>
      cases k with
      | zero =>
          have bound : q = hook ∨ q = c ∨ q ≠ star := same.imp_right .inl
          exact ih (k := 0) ((tame_cons bound apart).mp h).2
      | succ k =>
          rw [List.cons_append, List.cons_append, List.drop_succ_cons] at h
          generalize at_ : (back ++ t).drop k = s at h
          cases h with
          | one _ h =>
              refine ih (k := k + 1) ?_
              rw [← List.drop_drop, at_]
              simpa using h
          | any n _ h =>
              refine ih (k := k + n) ?_
              rw [← List.drop_drop, at_]
              exact h

end Echo.Lib.Wildcards
