import Echo.Lib.Splitting

/-!
Templates: texts with names between an opening and a closing mark. A template is read once
from left to right. At an opening mark the name goes up to the first closing mark; if it is
known its value is put there, and if not the marks stay, and reading goes on behind them.
What is put in is not read again.
-/

namespace Echo.Lib.Templates

variable {α : Type _} [DecidableEq α] (op cl : α) (value : List α → Option (List α))

/-- What is put for a name between its marks. -/
def shown (name : List α) : List α := (value name).getD (op :: name ++ [cl])

/-- A template as it is filled in. -/
inductive Filled : List α → List α → Prop
  | plain {text : List α} (free : ∀ before name rest, text ≠ before ++ op :: (name ++ cl :: rest)) :
      Filled text text
  | group {before name rest out : List α} (first : op ∉ before) (closed : cl ∉ name) (filled : Filled rest out) :
      Filled (before ++ op :: (name ++ cl :: rest)) (before ++ (shown op cl value name ++ out))

/-- There is text between the last name of a template, or its beginning, and a mark behind it
that is not closed. -/
inductive Dangling : List α → Prop
  | here {before after : List α} (first : op ∉ before) (text : before ≠ []) (opened : cl ∉ after) :
      Dangling (before ++ op :: after)
  | later {before name rest : List α} (first : op ∉ before) (closed : cl ∉ name) (dangling : Dangling rest) :
      Dangling (before ++ op :: (name ++ cl :: rest))

/-- How a template begins: with a name, or there is none in it. -/
inductive Begins : List α → Prop
  | plain {text : List α} (noOpen : op ∉ text) : Begins text
  | opened {before after : List α} (first : op ∉ before) (noClose : cl ∉ after) : Begins (before ++ op :: after)
  | group {before name rest : List α} (first : op ∉ before) (closed : cl ∉ name) :
      Begins (before ++ op :: (name ++ cl :: rest))

omit [DecidableEq α] in
theorem begins (text : List α) : Begins op cl text := by
  by_cases opens : op ∈ text
  · obtain ⟨before, after, rfl, first⟩ := List.eq_append_cons_of_mem opens
    by_cases closes : cl ∈ after
    · obtain ⟨name, rest, rfl, closed⟩ := List.eq_append_cons_of_mem closes
      exact .group first closed
    · exact .opened first closes
  · exact .plain opens

variable {op cl value} {text out out' before name rest after : List α}

omit [DecidableEq α] in
theorem filled_noOpen (noOpen : op ∉ text) : Filled op cl value text text :=
  .plain fun before name rest same => noOpen (by simp [same])

theorem filled_noClose (noClose : cl ∉ after) (first : op ∉ before) :
    Filled op cl value (before ++ op :: after) (before ++ op :: after) := by
  refine .plain fun before' name rest same => ?_
  have split := splitOnce_single first after
  by_cases first' : op ∈ before'
  · obtain ⟨front, back, rfl, free⟩ := List.eq_append_cons_of_mem first'
    rw [same, List.append_assoc, List.cons_append, splitOnce_single free] at split
    obtain ⟨-, rfl⟩ := Prod.mk.inj (Option.some.inj split)
    exact noClose (by simp)
  · rw [same, splitOnce_single first'] at split
    obtain ⟨-, rfl⟩ := Prod.mk.inj (Option.some.inj split)
    exact noClose (by simp)

/-- A template is filled in in one way at least, -/
theorem exists_filled (text : List α) : ∃ out, Filled op cl value text out := by
  induction size : text.length using Nat.strongRecOn generalizing text with
  | ind n ih =>
    cases begins op cl text with
    | plain noOpen => exact ⟨_, filled_noOpen noOpen⟩
    | opened first noClose => exact ⟨_, filled_noClose noClose first⟩
    | @group before name rest first closed =>
      obtain ⟨out, filled⟩ := ih rest.length (by simp at size; omega) rest rfl
      exact ⟨_, .group first closed filled⟩

theorem group_inj {before' name' rest' : List α} (first : op ∉ before) (closed : cl ∉ name) (first' : op ∉ before')
    (closed' : cl ∉ name') (same : before ++ op :: (name ++ cl :: rest) = before' ++ op :: (name' ++ cl :: rest')) :
    before = before' ∧ name = name' ∧ rest = rest' := by
  have split := splitOnce_single first (name ++ cl :: rest)
  rw [same, splitOnce_single first'] at split
  obtain ⟨rfl, tails⟩ := Prod.mk.inj (Option.some.inj split)
  have split := splitOnce_single closed rest
  rw [← tails, splitOnce_single closed'] at split
  obtain ⟨rfl, rfl⟩ := Prod.mk.inj (Option.some.inj split)
  exact ⟨rfl, rfl, rfl⟩

/-- and at most. -/
theorem Filled.unique (filled : Filled op cl value text out) (filled' : Filled op cl value text out') : out = out' := by
  induction filled generalizing out' with
  | plain free =>
    cases filled' with
    | plain => rfl
    | group => exact absurd rfl (free _ _ _)
  | group first closed filled ih =>
    generalize whole : _ ++ op :: (_ ++ cl :: _) = text at filled'
    cases filled' with
    | plain free => exact absurd whole.symm (free _ _ _)
    | group first' closed' filled' =>
      obtain ⟨rfl, rfl, rfl⟩ := group_inj first closed first' closed' whole
      rw [ih filled']

/-- What is left dangling comes behind the names that are closed. -/
theorem dangling_group (first : op ∉ before) (closed : cl ∉ name) :
    Dangling op cl (before ++ op :: (name ++ cl :: rest)) ↔ Dangling op cl rest := by
  constructor
  · intro dangling
    generalize whole : before ++ op :: (name ++ cl :: rest) = text at dangling
    cases dangling with
    | here first' _ opened =>
      have split := splitOnce_single first (name ++ cl :: rest)
      rw [whole, splitOnce_single first'] at split
      obtain ⟨-, rfl⟩ := Prod.mk.inj (Option.some.inj split)
      exact absurd (by simp) opened
    | later first' closed' dangling =>
      obtain ⟨rfl, rfl, rfl⟩ := group_inj first closed first' closed' whole
      exact dangling
  · exact .later first closed

/-- With no name known a template stays as it is. -/
theorem filled_unknown (unknown : ∀ name, value name = none) (text : List α) : Filled op cl value text text := by
  obtain ⟨out, filled⟩ := @exists_filled α _ op cl value text
  suffices same : out = text by rwa [same] at filled
  induction filled with
  | plain => rfl
  | group _ _ _ ih => simp [shown, unknown, ih]

end Echo.Lib.Templates
