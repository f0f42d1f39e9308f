import Mathlib.Data.List.Basic

/-!
A change written as letters under signs, and the parameters that follow it. A sign holds
until the next, and each letter that takes a parameter takes the first that is left.
-/

namespace Echo.Lib

variable {π : Type _} {takes : Char → Bool → Bool} {adding : Bool} {letters rest : List Char}

/-- The letters of a change, each with whether it is set. -/
def signed (adding : Bool) : List Char → List (Char × Bool)
  | [] => []
  | c :: letters =>
      if c = '+' then signed true letters
      else if c = '-' then signed false letters
      else (c, adding) :: signed adding letters

/-- Each letter that takes a parameter with the next of them. -/
def pairUp (takes : Char → Bool → Bool) : List (Char × Bool) → List π →
    List ((Char × Bool) × Option π)
  | [], _ => []
  | ask :: asks, params =>
      if takes ask.1 ask.2 then (ask, params.head?) :: pairUp takes asks params.tail
      else (ask, none) :: pairUp takes asks params

/-- The letters of a change that take a parameter. -/
def wanting (takes : Char → Bool → Bool) (letters : List Char) : List Char :=
  ((signed true letters).filter fun ask => takes ask.1 ask.2).map (·.1)

@[simp] theorem signed_plus : signed adding ('+' :: letters) = signed true letters := rfl

@[simp] theorem signed_minus : signed adding ('-' :: letters) = signed false letters := rfl

theorem signed_cons {c : Char} (plus : c ≠ '+') (minus : c ≠ '-') :
    signed adding (c :: letters) = (c, adding) :: signed adding letters := by
  rw [signed, if_neg plus, if_neg minus]

/-- Letters among which there is no sign all stand under the one that holds. -/
theorem signed_append (plus : '+' ∉ letters) (minus : '-' ∉ letters) :
    signed adding (letters ++ rest) = letters.map (·, adding) ++ signed adding rest := by
  induction letters with
  | nil => rfl
  | cons c letters ih =>
      rw [List.cons_append, signed_cons (Ne.symm (List.ne_of_not_mem_cons plus))
        (Ne.symm (List.ne_of_not_mem_cons minus)),
        ih (List.not_mem_of_not_mem_cons plus) (List.not_mem_of_not_mem_cons minus)]
      rfl

theorem signed_letters (plus : '+' ∉ letters) (minus : '-' ∉ letters) :
    signed adding letters = letters.map (·, adding) := by
  have alone : signed adding (letters ++ []) = _ := signed_append plus minus
  rwa [List.append_nil, signed, List.append_nil] at alone

/-- A change that sets some letters and then takes others away. -/
theorem signed_both {on off : List Char} (onPlus : '+' ∉ on) (onMinus : '-' ∉ on)
    (offPlus : '+' ∉ off) (offMinus : '-' ∉ off) :
    signed true ((if on.isEmpty then [] else '+' :: on) ++ if off.isEmpty then [] else '-' :: off) =
      on.map (·, true) ++ off.map (·, false) := by
  have back : signed true (if off.isEmpty then [] else '-' :: off) = off.map (·, false) := by
    split_ifs with none
    · rw [List.isEmpty_iff.mp none]
      rfl
    · rw [signed_minus, signed_letters offPlus offMinus]
  split_ifs at back ⊢ with onNone offNone offNone
  · rw [List.isEmpty_iff.mp onNone]
    exact back
  · rw [List.isEmpty_iff.mp onNone]
    exact back
  · rw [List.cons_append, signed_plus, signed_append onPlus onMinus, back]
  · rw [List.cons_append, signed_plus, signed_append onPlus onMinus, back]

/-! ### One parameter for each letter that takes one -/

section Meant

variable {meant : Char → Option π} {on off : List Char}

theorem length_filter_le_filterMap {p : Char → Bool} (covered : ∀ m ∈ on, p m = true → (meant m).isSome) :
    (on.filter p).length ≤ (on.filterMap meant).length := by
  induction on with
  | nil => exact Nat.le_refl 0
  | cons m on ih =>
      have rest := ih fun x mem => covered x (List.mem_cons_of_mem m mem)
      have here := covered m List.mem_cons_self
      cases value : meant m with
      | none =>
          rw [value] at here
          have out : ¬ p m = true := fun wants => Bool.false_ne_true (here wants)
          rw [List.filter_cons_of_neg out, List.filterMap_cons_none value]
          exact rest
      | some v =>
          rw [List.filterMap_cons_some value, List.length_cons]
          by_cases wants : p m = true
          · rw [List.filter_cons_of_pos wants, List.length_cons]
            omega
          · rw [List.filter_cons_of_neg wants]
            omega

theorem map_filter_eq_iff {p : Char → Bool} :
    (on.filter p).map meant = (on.filterMap meant).map some ↔ ∀ m ∈ on, p m = (meant m).isSome := by
  constructor
  · intro same
    have covered : ∀ m ∈ on, p m = true → (meant m).isSome := by
      intro m mem wants
      have listed : meant m ∈ (on.filter p).map meant :=
        List.mem_map_of_mem (List.mem_filter.mpr ⟨mem, wants⟩)
      rw [same] at listed
      obtain ⟨v, _, value⟩ := List.mem_map.mp listed
      rw [← value]
      rfl
    induction on with
    | nil => simp
    | cons x on ih =>
        have covered' := fun m mem => covered m (List.mem_cons_of_mem x mem)
        have here := covered x List.mem_cons_self
        have settled : p x = (meant x).isSome ∧
            (on.filter p).map meant = (on.filterMap meant).map some := by
          cases value : meant x with
          | none =>
              rw [value] at here
              have out : ¬ p x = true := fun wants => Bool.false_ne_true (here wants)
              rw [List.filter_cons_of_neg out, List.filterMap_cons_none value] at same
              exact ⟨by simpa using out, same⟩
          | some v =>
              rw [List.filterMap_cons_some value] at same
              by_cases wants : p x = true
              · rw [List.filter_cons_of_pos wants, List.map_cons, List.map_cons] at same
                exact ⟨by simpa using wants, (List.cons.inj same).2⟩
              · -- one parameter more than there are letters left to take them
                rw [List.filter_cons_of_neg wants] at same
                have lengths := congrArg List.length same
                have bound := length_filter_le_filterMap covered'
                simp only [List.length_map, List.length_cons] at lengths
                omega
        intro m mem
        rcases List.mem_cons.mp mem with rfl | later
        · exact settled.1
        · exact ih settled.2 covered' m later
  · intro fits
    induction on with
    | nil => rfl
    | cons x on ih =>
        have rest := ih fun m mem => fits m (List.mem_cons_of_mem x mem)
        have here := fits x List.mem_cons_self
        cases value : meant x with
        | none =>
            rw [value] at here
            rw [List.filter_cons_of_neg (by simp [here]), List.filterMap_cons_none value]
            exact rest
        | some v =>
            rw [value] at here
            rw [List.filter_cons_of_pos (by simp [here]), List.filterMap_cons_some value,
              List.map_cons, List.map_cons, rest, value]

/-- What is meant for the letters that are set is carried, one for each letter that takes
a parameter, exactly where these are the letters something is meant for, and none of
those taken away takes any. -/
theorem map_wanting_iff (bare : ∀ m ∈ off, meant m = none) :
    ((on.filter (takes · true) ++ off.filter (takes · false)).map meant =
      (on.filterMap meant).map some) ↔
      (∀ m ∈ on, takes m true = (meant m).isSome) ∧ ∀ m ∈ off, takes m false = false := by
  constructor
  · intro same
    have none : off.filter (takes · false) = [] := by
      refine List.filter_eq_nil_iff.mpr fun m mem wants => ?_
      have listed : meant m ∈ (on.filterMap meant).map some := by
        rw [← same, List.map_append]
        exact List.mem_append_right _ (List.mem_map_of_mem (List.mem_filter.mpr ⟨mem, wants⟩))
      obtain ⟨v, _, value⟩ := List.mem_map.mp listed
      rw [bare m mem] at value
      cases value
    rw [none, List.append_nil] at same
    refine ⟨map_filter_eq_iff.mp same, fun m mem => ?_⟩
    simpa using List.filter_eq_nil_iff.mp none m mem
  · rintro ⟨fits, free⟩
    have none : off.filter (takes · false) = [] :=
      List.filter_eq_nil_iff.mpr fun m mem => by simp [free m mem]
    rw [none, List.append_nil]
    exact map_filter_eq_iff.mpr fits

end Meant

end Echo.Lib
