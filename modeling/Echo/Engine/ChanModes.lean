import Mathlib.Data.List.Basic
import Mathlib.Data.List.Nodup
import Mathlib.Logic.Function.Basic
import Echo.Lib.Splitting

/-!
The modes of a channel as the ircd holds them, and what a mode change does to them: the
letters are taken in order, each sign holds until the next, and a letter whose kind wants
a parameter takes the first that is left. `ModeSet` is what the ircd advertises.
-/

namespace Echo

open Echo.Lib

/-- How a channel mode consumes its parameter. -/
inductive ChanModeKind where
  | list
  | paramAlways
  | paramSet
  | simple
  /-- A status mode; its parameter is a member. -/
  | prefixed (symbol : Char) (rank : Nat)
  deriving DecidableEq, Repr

def ChanModeKind.takesParam : ChanModeKind → Bool → Bool
  | .simple, _ => false
  | .paramSet, adding => adding
  | _, _ => true

/-- The arities used until the ircd has advertised its own. -/
def chanmodeTakesParam (m : Char) (adding : Bool) : Bool :=
  if m ∈ ['b', 'e', 'I', 'q', 'a', 'o', 'h', 'v', 'k'] then true
  else if m ∈ ['l', 'L', 'f', 'j', 'J', 'F', 'H'] then adding
  else false

/-- The channel modes of an ircd. A mode is an ASCII letter. -/
structure ModeSet where
  kind : Char → Option ChanModeKind
  letter : ∀ m, (kind m).isSome → m.isAlpha

namespace ModeSet

variable (k : ModeSet)

def takesParam (m : Char) (adding : Bool) : Bool := (k.kind m).any (·.takesParam adding)

/-- The modes whose arities services know by themselves. -/
def standard : ModeSet where
  kind m :=
    if m.isAlpha then
      some (if m ∈ ['b', 'e', 'I'] then .list
        else if m ∈ ['q', 'a', 'o', 'h', 'v'] then .prefixed '@' 0
        else if m = 'k' then .paramAlways
        else if m ∈ ['l', 'L', 'f', 'j', 'J', 'F', 'H'] then .paramSet
        else .simple)
    else none
  letter m := by
    intro known
    by_contra other
    simp [other] at known

theorem standard_takesParam (m : Char) (adding : Bool) :
    standard.takesParam m adding = chanmodeTakesParam m adding := by
  simp only [takesParam, standard, chanmodeTakesParam, List.mem_cons, List.not_mem_nil, or_false]
  split_ifs <;> simp_all [ChanModeKind.takesParam]
  -- what is left are the letters of the table, which are letters indeed
  · rename_i other table
    rcases table with rfl | rfl | rfl | rfl | rfl | rfl | rfl | rfl | rfl <;> exact absurd other (by decide)
  · rename_i other _ table
    rcases table with rfl | rfl | rfl | rfl | rfl | rfl | rfl <;> exact absurd other (by decide)

end ModeSet

/-- A parameter of a mode change: one word. -/
structure Param where
  text : String
  solid : text.toList.isEmpty = false ∧ text.toList.contains ' ' = false
  deriving DecidableEq

def Param.ofWord (w : List Char) : Option Param :=
  if solid : (String.ofList w).toList.isEmpty = false ∧
      (String.ofList w).toList.contains ' ' = false then
    some ⟨String.ofList w, solid⟩
  else none

theorem Param.ne_nil (p : Param) : p.text.toList ≠ [] := by
  intro empty
  have solid := p.solid.1
  rw [empty] at solid
  cases solid

theorem Param.ne_blank (p : Param) : ∀ c ∈ p.text.toList, (c == ' ') = false := by
  intro c mem
  rw [beq_eq_false_iff_ne]
  rintro rfl
  have solid := p.solid.2
  rw [List.contains_iff_mem.mpr mem] at solid
  cases solid

theorem Param.ofWord_text (p : Param) : Param.ofWord p.text.toList = some p := by
  unfold Param.ofWord
  rw [dif_pos (by rw [String.ofList_toList]; exact p.solid)]
  simp only [String.ofList_toList]

namespace ModeSet

variable (k : ModeSet) {m : Char} {adding : Bool} {param : Option Param}
  {held : List (Option Param)}

/-- What a channel can hold of a mode: a simple mode is held without a parameter, a mode
with a parameter has one, and a list or status mode any number. -/
def Fits (m : Char) (held : List (Option Param)) : Prop :=
  match k.kind m with
  | none => held = []
  | some .simple => held = [] ∨ held = [none]
  | some .paramAlways | some .paramSet => held = [] ∨ ∃ p, held = [some p]
  | some .list | some (.prefixed _ _) => held.Nodup ∧ none ∉ held

/-- What is held of a mode once it is set or unset. A mode that wants a parameter and has
none stays as it is. -/
def put (m : Char) (adding : Bool) (param : Option Param) (held : List (Option Param)) :
    List (Option Param) :=
  match k.kind m, param with
  | none, _ => held
  | some .simple, _ => if adding then [none] else []
  | some .paramSet, some p => if adding then [some p] else []
  | some .paramSet, none => if adding then held else []
  | some .paramAlways, some p => if adding then [some p] else []
  | some .list, some p | some (.prefixed _ _), some p =>
      if adding then held.insert (some p) else held.erase (some p)
  | some .paramAlways, none | some .list, none | some (.prefixed _ _), none => held

theorem fits_put (fits : k.Fits m held) : k.Fits m (k.put m adding param held) := by
  unfold Fits put at *
  cases kind : k.kind m with
  | none => simpa [kind] using fits
  | some kind' =>
      simp only [kind] at fits
      cases kind' with
      | simple => cases adding <;> simp
      | paramSet => cases param <;> cases adding <;> simp_all
      | paramAlways => cases param <;> cases adding <;> simp_all
      | list =>
          cases param with
          | none => exact fits
          | some p =>
              cases adding with
              | false => exact ⟨fits.1.erase _, fun mem => fits.2 (List.mem_of_mem_erase mem)⟩
              | true => exact ⟨fits.1.insert, by simpa using fits.2⟩
      | prefixed symbol rank =>
          cases param with
          | none => exact fits
          | some p =>
              cases adding with
              | false => exact ⟨fits.1.erase _, fun mem => fits.2 (List.mem_of_mem_erase mem)⟩
              | true => exact ⟨fits.1.insert, by simpa using fits.2⟩

/-- Setting a mode never takes it away. -/
theorem put_true_ne_nil (set : held ≠ []) : k.put m true param held ≠ [] := by
  unfold put
  split <;> simp_all [List.insert]
  · split <;> simp_all
  · split <;> simp_all

theorem put_false_nil : k.put m false param [] = [] := by
  unfold put
  split <;> simp

/-- Set with the parameter it wants, or with none where it wants none, a mode is held so. -/
theorem mem_put_true (known : (k.kind m).isSome) (wanted : k.takesParam m true = param.isSome) :
    param ∈ k.put m true param held := by
  unfold put
  unfold takesParam at wanted
  cases kind : k.kind m with
  | none => simp [kind] at known
  | some kind' => cases kind' <;> cases param <;> simp_all [ChanModeKind.takesParam]

/-- Unset without a parameter, a mode that wants none for it is gone. -/
theorem put_false_none (known : (k.kind m).isSome) (free : k.takesParam m false = false) :
    k.put m false none held = [] := by
  unfold put
  unfold takesParam at free
  cases kind : k.kind m with
  | none => simp [kind] at known
  | some kind' => cases kind' <;> simp_all [ChanModeKind.takesParam]

/-- A mode that wants a parameter and has none stays as it is. -/
theorem put_none (wants : k.takesParam m adding) : k.put m adding none held = held := by
  unfold put
  unfold takesParam at wants
  cases kind : k.kind m with
  | none => rfl
  | some kind' => cases kind' <;> simp_all [ChanModeKind.takesParam]

theorem put_unknown (unknown : ¬ (k.kind m).isSome) : k.put m adding param held = held := by
  unfold put
  rw [Option.not_isSome_iff_eq_none.mp unknown]

/-- Nothing is held of a mode the ircd does not have. -/
theorem held_unknown (fits : k.Fits m held) (unknown : ¬ (k.kind m).isSome) : held = [] := by
  unfold Fits at fits
  rwa [Option.not_isSome_iff_eq_none.mp unknown] at fits

theorem known_of_held (fits : k.Fits m held) (set : held ≠ []) : (k.kind m).isSome := by
  by_contra unknown
  exact set (k.held_unknown fits unknown)

theorem known_of_takesParam (takes : k.takesParam m adding = true) : (k.kind m).isSome := by
  unfold takesParam at takes
  cases kind : k.kind m with
  | none => simp [kind] at takes
  | some _ => rfl

theorem ne_plus (known : (k.kind m).isSome) : m ≠ '+' :=
  fun same => absurd (k.letter m known) (same ▸ by decide)

theorem ne_minus (known : (k.kind m).isSome) : m ≠ '-' :=
  fun same => absurd (k.letter m known) (same ▸ by decide)

/-- A mode that is unset with a parameter is set with one. -/
theorem takesParam_true (asks : k.takesParam m false = true) : k.takesParam m true = true := by
  unfold takesParam at *
  cases kind : k.kind m with
  | none => simp [kind] at asks
  | some kind' => cases kind' <;> simp_all [ChanModeKind.takesParam]

theorem none_notMem_of_asks (fits : k.Fits m held) (asks : k.takesParam m false = true) :
    none ∉ held := by
  unfold Fits at fits
  unfold takesParam at asks
  cases kind : k.kind m with
  | none => simp [kind] at asks
  | some kind' =>
      rw [kind] at fits asks
      cases kind' with
      | simple => simp [ChanModeKind.takesParam] at asks
      | paramSet => simp [ChanModeKind.takesParam] at asks
      | paramAlways => rcases fits with rfl | ⟨p, rfl⟩ <;> simp
      | list => exact fits.2
      | prefixed symbol rank => exact fits.2

theorem put_false_head {p : Param} (fits : k.Fits m (some p :: held))
    (asks : k.takesParam m false = true) : k.put m false (some p) (some p :: held) = held := by
  unfold Fits at fits
  unfold takesParam at asks
  unfold put
  cases kind : k.kind m with
  | none => simp [kind] at asks
  | some kind' =>
      rw [kind] at fits asks
      cases kind' with
      | simple => simp [ChanModeKind.takesParam] at asks
      | paramSet => simp [ChanModeKind.takesParam] at asks
      | paramAlways => simp_all
      | list => simp
      | prefixed symbol rank => simp

/-- A mode held with a parameter is one that takes it when it is set. -/
theorem takesParam_of_held {p : Param} (fits : k.Fits m held) (mem : some p ∈ held) :
    k.takesParam m true := by
  unfold Fits at fits
  unfold takesParam
  cases kind : k.kind m with
  | none => simp_all
  | some kind' =>
      cases kind' with
      | simple =>
          rw [kind] at fits
          rcases fits with rfl | rfl <;> simp at mem
      | _ => simp [ChanModeKind.takesParam]

end ModeSet

/-- The modes of a channel. -/
structure Modes (k : ModeSet) where
  held : Char → List (Option Param)
  fits : ∀ m, k.Fits m (held m)

namespace Modes

variable {k : ModeSet} (s : Modes k) {m m' : Char} {adding : Bool} {param : Option Param}

/-- A channel without modes. -/
def bare : Modes k where
  held _ := []
  fits m := by
    unfold ModeSet.Fits
    split <;> simp

/-- One letter of a mode change. -/
def change (m : Char) (adding : Bool) (param : Option Param) : Modes k where
  held := Function.update s.held m (k.put m adding param (s.held m))
  fits m' := by
    by_cases same : m' = m
    · subst same
      rw [Function.update_self]
      exact k.fits_put (s.fits m')
    · rw [Function.update_of_ne same]
      exact s.fits m'

@[simp] theorem change_held_self :
    (s.change m adding param).held m = k.put m adding param (s.held m) :=
  Function.update_self ..

@[simp] theorem change_held_other (other : m' ≠ m) :
    (s.change m adding param).held m' = s.held m' :=
  Function.update_of_ne other ..

/-- The letters of a change, with the parameters that are left for them. -/
def run (s : Modes k) (adding : Bool) (params : List Param) : List Char → Modes k
  | [] => s
  | m :: rest =>
      if m = '+' then s.run true params rest
      else if m = '-' then s.run false params rest
      else if k.takesParam m adding then
        (s.change m adding params.head?).run adding params.tail rest
      else (s.change m adding none).run adding params rest

/-- A mode change as it is written out: the letters, then the parameters. -/
def apply (text : String) : Modes k :=
  match words (· == ' ') text.toList with
  | [] => s
  | letters :: params => s.run true (params.filterMap Param.ofWord) letters

end Modes

end Echo
