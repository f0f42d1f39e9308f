import Echo.Engine.Text
import Echo.Lib.Wildcards

/-!
What the two wildcard matchers answer, against what a mask means: `*` stands for any
text and `?` for one character.

The loop compares the characters before it looks for a `*`, so a `*` of the mask that
meets a `*` of the text is taken for an ordinary character. Where the text has none,
the matchers are exact.
-/

namespace Echo

open Lib.Wildcards

/-- `glob_match` of the module API: the engine's, written out again. -/
def Api.globMatch (u : Unicode) (pattern text : String) : Bool :=
  globLoop (pattern.toList.flatMap u.lowercase) (text.toList.flatMap u.lowercase) [] none

namespace Globs

/-- The characters that a mask and a text are compared by. -/
def folded (u : Unicode) (s : String) : List Char :=
  s.toList.flatMap u.lowercase

/-- The text can be split as the mask says. -/
def Means (u : Unicode) (pattern text : String) : Prop :=
  Splits '*' '?' (folded u pattern) (folded u text)

/-- The text can be so split where a `*` in front of a `*` stands for just that one. -/
def Literally (u : Unicode) (pattern text : String) : Prop :=
  Tame '*' '?' (folded u pattern) (folded u text)

variable {p t back : List Char} {star : Option (List Char)}

/-- What has been matched since the last star is what the pattern after it began with. -/
def Marked (p back : List Char) (star : Option (List Char)) : Prop :=
  ∀ afterStar, star = some afterStar →
    ∃ begun, afterStar = begun ++ p ∧ Pairs '?' begun back.reverse

/-- The last star still stands for at least one more character. -/
def Retried (t back : List Char) (star : Option (List Char)) : Prop :=
  ∃ afterStar, star = some afterStar ∧
    ∃ k, Tame '*' '?' afterStar ((back.reverse ++ t).drop (k + 1))

theorem marked_none : Marked p back none := by
  intro afterStar passed
  cases passed

theorem marked_star : Marked p [] (some p) := by
  intro afterStar passed
  cases passed
  exact ⟨[], rfl, .nil⟩

theorem Marked.next {q c : Char} (marked : Marked (q :: p) back star) (same : q = '?' ∨ q = c) :
    Marked p (c :: back) star := by
  intro afterStar passed
  obtain ⟨begun, rfl, pairs⟩ := marked afterStar passed
  refine ⟨begun ++ [q], by simp, ?_⟩
  rw [List.reverse_cons]
  exact pairs.snoc same

/-- Going back to the star gains nothing that the rest of the text does not offer. -/
theorem Retried.later (marked : Marked p back star) (h : Retried t back star) :
    ∃ n, Tame '*' '?' p (t.drop n) := by
  obtain ⟨afterStar, passed, k, tame⟩ := h
  obtain ⟨begun, rfl, pairs⟩ := marked afterStar passed
  exact Tame.later (by decide) pairs tame

theorem retried_cons {c : Char} : Retried t (c :: back) star ↔ Retried (c :: t) back star := by
  unfold Retried
  rw [List.reverse_cons, List.append_assoc, List.singleton_append]

/-- A retry goes on with the pattern after the star, one character further in. -/
theorem retried_some {afterStar : List Char} :
    Retried t back (some afterStar) ↔
      Tame '*' '?' afterStar (back.reverse ++ t).tail ∨
        Retried (back.reverse ++ t).tail [] (some afterStar) := by
  simp only [Retried, ← List.drop_one, List.reverse_nil, List.nil_append, List.drop_drop]
  constructor
  · rintro ⟨_, passed, k, tame⟩
    cases passed
    cases k with
    | zero => exact .inl tame
    | succ k =>
        rw [Nat.add_comm] at tame
        exact .inr ⟨afterStar, rfl, k, tame⟩
  · rintro (tame | ⟨_, passed, k, tame⟩)
    · exact ⟨afterStar, rfl, 0, tame⟩
    · cases passed
      rw [Nat.add_comm] at tame
      exact ⟨afterStar, rfl, k + 1, tame⟩

theorem not_retried_none : ¬ Retried t back none := by
  rintro ⟨_, passed, _⟩
  cases passed

/-- A star in front of another character starts over: nothing before it matters. -/
theorem starred {c : Char} (free : '*' ≠ c) (marked : Marked ('*' :: p) back star) :
    Tame '*' '?' p (c :: t) ∨ Retried (c :: t) [] (some p) ↔
      Tame '*' '?' ('*' :: p) (c :: t) ∨ Retried (c :: t) back star := by
  rw [tame_star free]
  constructor
  · rintro (tame | ⟨_, passed, k, tame⟩)
    · exact .inl ⟨0, tame⟩
    · cases passed
      exact .inl ⟨k + 1, tame⟩
  · intro h
    have somewhere : ∃ n, Tame '*' '?' p ((c :: t).drop n) := by
      rcases h with somewhere | retried
      · exact somewhere
      · obtain ⟨n, tame⟩ := retried.later marked
        obtain ⟨m, tame⟩ := tame.star_drop
        rw [List.drop_drop] at tame
        exact ⟨n + m, tame⟩
    obtain ⟨n, tame⟩ := somewhere
    cases n with
    | zero => exact .inl tame
    | succ k => exact .inr ⟨p, rfl, k, tame⟩

/-- Where the pattern does not fit, only the star can help. -/
theorem retry_iff :
    (∀ afterStar, Marked afterStar [] star →
      (globLoop afterStar (back.reverse ++ t).tail [] star = true ↔
        Tame '*' '?' afterStar (back.reverse ++ t).tail ∨
          Retried (back.reverse ++ t).tail [] star)) →
      ((match star with
        | none => false
        | some afterStar => globLoop afterStar (back.reverse ++ t).tail [] star) = true ↔
        Retried t back star) := by
  intro ih
  cases star with
  | none => simp [not_retried_none]
  | some afterStar =>
      rw [retried_some]
      exact ih afterStar marked_star

/-- What is left matches when it can be taken as it stands or after a retry. -/
theorem globLoop_iff (marked : Marked p back star) :
    globLoop p t back star = true ↔ Tame '*' '?' p t ∨ Retried t back star := by
  induction p, t, back, star using globLoop.induct with
  | case1 p back star =>
      rw [globLoop.eq_def]
      dsimp only
      rw [← tame_nil]
      constructor
      · exact .inl
      · rintro (tame | retried)
        · exact tame
        · obtain ⟨n, tame⟩ := retried.later marked
          rw [List.drop_nil] at tame
          exact tame
  | case2 back star c t ih =>
      have stuck : ¬ Tame '*' '?' [] (c :: t) := nofun
      rw [globLoop.eq_def]
      dsimp only
      simp only [List.unattach_reverse, List.unattach_attach] at ih
      simp only [stuck, false_or]
      exact retry_iff ih
  | case3 back star c t q p same _ ih =>
      rw [globLoop.eq_def]
      dsimp only
      rw [if_pos same, ih (marked.next same), retried_cons,
        tame_cons (same.imp_right .inl) (by decide)]
      simp [same]
  | case4 back star c t p free _ ih =>
      rw [globLoop.eq_def]
      dsimp only
      rw [if_neg free, if_pos rfl, ih marked_star]
      exact starred (fun same => free (.inr same)) marked
  | case5 back star c t q p differs notStar ih =>
      have stuck : ¬ Tame '*' '?' (q :: p) (c :: t) := by
        intro tame
        cases tame with
        | one same _ => exact differs same
        | any => exact notStar rfl
      rw [globLoop.eq_def]
      dsimp only
      simp only [List.unattach_reverse, List.unattach_attach] at ih
      rw [if_neg differs, if_neg notStar]
      simp only [stuck, false_or]
      exact retry_iff ih

theorem globMatch_iff (u : Unicode) (pattern text : String) :
    globMatch u pattern text = true ↔ Literally u pattern text := by
  unfold globMatch
  rw [globLoop_iff marked_none]
  simp [not_retried_none, Literally, folded]

theorem api_globMatch (u : Unicode) (pattern text : String) :
    Api.globMatch u pattern text = globMatch u pattern text :=
  rfl

/-- Where the text has no `*` the matchers say what the mask means. -/
theorem globMatch_plain {u : Unicode} {text : String} (plain : '*' ∉ folded u text)
    (pattern : String) : globMatch u pattern text = true ↔ Means u pattern text := by
  rw [globMatch_iff]
  constructor
  · intro tame
    exact tame.splits
  · intro means
    exact tame_of_splits plain means

/-- Both matchers say what the mask means just when a text that fits the mask at all
fits it with every `*` that meets a `*` standing for that one. -/
theorem globs_exact_iff (u : Unicode) (pattern text : String) :
    ((globMatch u pattern text = true ↔ Means u pattern text) ∧
      (Api.globMatch u pattern text = true ↔ Means u pattern text)) ↔
      (Means u pattern text → Literally u pattern text) := by
  rw [api_globMatch, and_self, globMatch_iff]
  constructor
  · intro exact means
    exact exact.mpr means
  · intro literally
    exact ⟨Tame.splits, literally⟩

/-- The mask `*` does not match a text that begins with a `*` and goes on. -/
theorem star_misses_star :
    ¬ ((globMatch ⟨Char.isAlpha, fun c => [c.toLower]⟩ "*" "*a" = true ↔
          Means ⟨Char.isAlpha, fun c => [c.toLower]⟩ "*" "*a") ∧
        (Api.globMatch ⟨Char.isAlpha, fun c => [c.toLower]⟩ "*" "*a" = true ↔
          Means ⟨Char.isAlpha, fun c => [c.toLower]⟩ "*" "*a")) := by
  rintro ⟨exact, -⟩
  have means : Means ⟨Char.isAlpha, fun c => [c.toLower]⟩ "*" "*a" :=
    ⟨[['*', 'a']], by decide, .cons (.inl rfl) .nil⟩
  have missed : globMatch ⟨Char.isAlpha, fun c => [c.toLower]⟩ "*" "*a" = false := by
    simp [globMatch, globLoop]
  rw [missed] at exact
  exact Bool.false_ne_true (exact.mpr means)

end Globs

end Echo
