import Mathlib.Data.List.Nodup
import Echo.Db.Access

/-!
Flag sets as their letters: a delta such as `+ab-c`, and the string a set is stored as.
What a string of letters stands for holds just the flags whose letters are in it, so a
set that is stored and read again is the set it was.
-/

namespace Echo

open Echo.Lib

namespace FlagSet

variable {F : Type} [Lettered F] {w : Nat}

def without (set : FlagSet F w) (f : F) : FlagSet F w :=
  ⟨set.bits &&& ~~~((1 <<< Lettered.bit f : Nat) : BitVec w)⟩

/-- What a delta makes of a set: letters under `+` are added, those under `-` taken away.
The first character that is no flag is the error. -/
def applyDelta (set : FlagSet F w) (adding : Bool) : List Char → Except Char (FlagSet F w)
  | [] => .ok set
  | c :: delta =>
      if c = '+' then set.applyDelta true delta
      else if c = '-' then set.applyDelta false delta
      else
        match (fromLetter c : Option F) with
        | some f => (if adding then set.add f else set.without f).applyDelta adding delta
        | none => .error c

/-- The letters of a set, in the order of the flags. -/
def toLetters (set : FlagSet F w) : String :=
  String.ofList (((Lettered.all : List F).filter set.has).map Lettered.letter)

theorem mask_eq (n : Nat) : ((1 <<< n : Nat) : BitVec w) = BitVec.twoPow w n := by
  apply BitVec.eq_of_toNat_eq
  rw [BitVec.toNat_twoPow, Nat.one_shiftLeft]
  exact BitVec.toNat_ofNat _ _

/-- A flag is held where its bit is set. -/
theorem has_eq_getLsbD (set : FlagSet F w) {f : F} (fits : Lettered.bit f < w) :
    set.has f = set.bits.getLsbD (Lettered.bit f) := by
  unfold has
  rw [mask_eq, BitVec.and_twoPow]
  cases held : set.bits.getLsbD (Lettered.bit f) with
  | false => simp
  | true =>
      rw [if_pos rfl, bne_iff_ne]
      intro zero
      have bit := congrArg (BitVec.getLsbD · (Lettered.bit f)) zero
      simp [fits] at bit

theorem fromLetter_eq_some {f : F} {c : Char} (found : (fromLetter c : Option F) = some f) :
    Lettered.letter f = c := by
  simpa using List.find?_some found

/-- Every flag is listed, and told from the others by its letter and by its bit. -/
class Telling (F : Type) [Lettered F] : Prop where
  listed (f : F) : f ∈ (Lettered.all : List F)
  letter_inj {f g : F} : Lettered.letter f = Lettered.letter g → f = g
  bit_inj {f g : F} : Lettered.bit f = Lettered.bit g → f = g

variable [Telling F] {set : FlagSet F w} {f g : F} (fits : ∀ f : F, Lettered.bit f < w)

include fits in
theorem has_add [DecidableEq F] : (set.add f).has g = (g == f || set.has g) := by
  rw [has_eq_getLsbD _ (fits g), has_eq_getLsbD _ (fits g), add, BitVec.getLsbD_or]
  rw [mask_eq, BitVec.getLsbD_twoPow, Bool.or_comm]
  congr 1
  have same : (Lettered.bit f = Lettered.bit g) ↔ g = f :=
    ⟨fun bits => (Telling.bit_inj bits).symm, fun eq => by rw [eq]⟩
  rw [Bool.eq_iff_iff]
  simp [fits f, same]

theorem fromLetter_letter (f : F) : (fromLetter (Lettered.letter f) : Option F) = some f := by
  unfold fromLetter
  cases found : (Lettered.all : List F).find? fun g => Lettered.letter g == Lettered.letter f with
  | none => exact absurd (Telling.listed f) fun mem => by simpa using List.find?_eq_none.mp found f mem
  | some g =>
      have same : Lettered.letter g = Lettered.letter f := by simpa using List.find?_some found
      rw [Telling.letter_inj same]

include fits in
/-- A string of letters stands for the flags whose letters are in it. -/
theorem has_parse [DecidableEq F] (s : String) :
    (parse s : FlagSet F w).has f = s.toList.contains (Lettered.letter f) := by
  have general : ∀ (l : List Char) (set : FlagSet F w),
      ((l.filterMap fromLetter).foldl add set).has f =
        (set.has f || l.contains (Lettered.letter f)) := by
    intro l
    induction l with
    | nil => simp
    | cons c l ih =>
        intro set
        cases found : (fromLetter c : Option F) with
        | none =>
            have other : (Lettered.letter f == c) = false := by
              rw [beq_eq_false_iff_ne]
              rintro rfl
              rw [fromLetter_letter] at found
              cases found
            rw [List.filterMap_cons_none found, ih, List.contains_cons, other, Bool.false_or]
        | some g =>
            have letter : (Lettered.letter f == c) = (f == g) := by
              rw [← fromLetter_eq_some found, Bool.eq_iff_iff, beq_iff_eq, beq_iff_eq]
              exact ⟨Telling.letter_inj, fun same => by rw [same]⟩
            rw [List.filterMap_cons_some found, List.foldl_cons, ih, has_add fits, List.contains_cons,
              letter, Bool.or_assoc, Bool.or_left_comm]
  have none : ({} : FlagSet F w).has f = false := by
    rw [has_eq_getLsbD _ (fits f)]
    exact BitVec.getLsbD_zero
  unfold parse
  rw [general, none, Bool.false_or]

/-- The letters of a set are of the flags it holds. -/
theorem contains_toLetters : set.toLetters.toList.contains (Lettered.letter f) = set.has f := by
  unfold toLetters
  rw [String.toList_ofList, Bool.eq_iff_iff, List.contains_iff_mem, List.mem_map]
  constructor
  · rintro ⟨g, held, same⟩
    rw [← Telling.letter_inj same]
    exact (List.mem_filter.mp held).2
  · intro held
    exact ⟨f, List.mem_filter.mpr ⟨Telling.listed f, held⟩, rfl⟩

include fits in
/-- A set that is stored and read again holds what it held. -/
theorem has_parse_toLetters [DecidableEq F] : (parse set.toLetters : FlagSet F w).has f = set.has f := by
  rw [has_parse fits, contains_toLetters]

end FlagSet

/-! ### Channel flags -/

instance : FlagSet.Telling Flag where
  listed f := by cases f <;> decide
  letter_inj {f g} := by cases f <;> cases g <;> decide
  bit_inj {f g} := by cases f <;> cases g <;> decide

namespace Flags

variable {set : Flags} {f : Flag}

theorem bit_lt (f : Flag) : Lettered.bit f < 16 := by
  cases f <;> decide

theorem letter_ne (f : Flag) : Lettered.letter f ≠ 'p' ∧ Lettered.letter f ≠ 'c' ∧ Lettered.letter f ≠ 'u' := by
  cases f <;> decide

/-- Letters are not the name of a tier: each has one that is of no flag. -/
theorem fromLevel_toLetters : Flags.fromLevel set.toLetters = FlagSet.parse set.toLetters := by
  have free : ∀ c, c = 'p' ∨ c = 'c' ∨ c = 'u' → c ∉ set.toLetters.toList := by
    intro c named mem
    unfold FlagSet.toLetters at mem
    rw [String.toList_ofList, List.mem_map] at mem
    obtain ⟨f, _, rfl⟩ := mem
    obtain ⟨p, c, u⟩ := letter_ne f
    rcases named with same | same | same
    · exact p same
    · exact c same
    · exact u same
  have notIn := fun (name : String) c (isNamed : c = 'p' ∨ c = 'c' ∨ c = 'u') (mem : c ∈ name.toList)
      (same : set.toLetters = name) => free c isNamed (same ▸ mem)
  unfold Flags.fromLevel
  split
  · exact absurd ‹_› (notIn "sop" 'p' (by decide) (by decide))
  · exact absurd ‹_› (notIn "op" 'p' (by decide) (by decide))
  · exact absurd ‹_› (notIn "halfop" 'p' (by decide) (by decide))
  · exact absurd ‹_› (notIn "voice" 'c' (by decide) (by decide))
  · exact absurd ‹_› (notIn "founder" 'u' (by decide) (by decide))
  · rfl

theorem has_fromLevel_toLetters : (Flags.fromLevel set.toLetters).has f = set.has f := by
  rw [fromLevel_toLetters, FlagSet.has_parse_toLetters bit_lt]

/-- A set that holds a flag is not empty. -/
theorem not_has_of_isEmpty (none : set.isEmpty = true) : set.has f = false := by
  obtain ⟨bits⟩ := set
  have zero : bits = 0 := by simpa [FlagSet.isEmpty] using none
  subst zero
  cases f <;> decide

end Flags

/-! ### Group flags -/

instance : FlagSet.Telling GroupFlag where
  listed f := by cases f <;> decide
  letter_inj {f g} := by cases f <;> cases g <;> decide
  bit_inj {f g} := by cases f <;> cases g <;> decide

theorem GroupFlags.bit_lt (f : GroupFlag) : Lettered.bit f < 8 := by
  cases f <;> decide

end Echo
