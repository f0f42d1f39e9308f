import Mathlib.Order.MinMax
import Mathlib.Data.Nat.Basic

/-!
Blocks of words with a common front. `samePrefix n a b` compares the first `n` bits
of two words by masking the others out; the block of length `n` around `a` is the
words that agree with it so far. Two blocks share a word exactly when they agree
on the shorter of their prefixes, and then one lies within the other.
-/

namespace Echo.Lib

variable {w m n : Nat} {a b c : BitVec w}

/-- The first `n` bits of a word. -/
def prefixMask (w n : Nat) : BitVec w := if n = 0 then 0 else BitVec.allOnes w <<< (w - n)

/-- Whether two words have their first `n` bits in common. -/
def samePrefix (n : Nat) (a b : BitVec w) : Bool := (a &&& prefixMask w n) == (b &&& prefixMask w n)

theorem getLsbD_prefixMask {i : Nat} (bounded : n ≤ w) :
    (prefixMask w n).getLsbD i = (decide (i < w) && decide (w - n ≤ i)) := by
  unfold prefixMask
  split
  · rename_i empty
    subst empty
    by_cases inside : i < w
    · have short : ¬ w ≤ i := by omega
      simp [inside, short]
    · simp [inside]
  · rw [BitVec.getLsbD_shiftLeft]
    by_cases inside : i < w
    · by_cases front : w - n ≤ i
      · have index : i - (w - n) < w := by omega
        simp [inside, front, index]
      · simp [inside, front]
    · simp [inside]

/-- The bits are numbered from the last: the first `n` are those from `w - n` on. -/
theorem samePrefix_iff (bounded : n ≤ w) :
    samePrefix n a b = true ↔ ∀ i, i < w → w - n ≤ i → a.getLsbD i = b.getLsbD i := by
  unfold samePrefix
  rw [beq_iff_eq]
  constructor
  · intro same i inside front
    have bit : (a &&& prefixMask w n).getLsbD i = (b &&& prefixMask w n).getLsbD i := by rw [same]
    rw [BitVec.getLsbD_and, BitVec.getLsbD_and, getLsbD_prefixMask bounded] at bit
    simpa only [inside, front, decide_true, Bool.and_true] using bit
  · intro bits
    apply BitVec.eq_of_getLsbD_eq
    intro i inside
    by_cases front : w - n ≤ i
    · simp [getLsbD_prefixMask bounded, bits i inside front]
    · simp [getLsbD_prefixMask bounded, front]

@[simp] theorem samePrefix_self (n : Nat) (a : BitVec w) : samePrefix n a a = true := by
  simp [samePrefix]

theorem samePrefix_comm : samePrefix n a b = samePrefix n b a := by
  unfold samePrefix
  exact Bool.beq_comm

theorem samePrefix_trans (first : samePrefix n a b = true) (second : samePrefix n b c = true) :
    samePrefix n a c = true := by
  unfold samePrefix at *
  rw [beq_iff_eq] at *
  exact first.trans second

/-- A shorter prefix asks for less. -/
theorem samePrefix_mono (bounded : n ≤ w) (shorter : m ≤ n) (same : samePrefix n a b = true) :
    samePrefix m a b = true := by
  rw [samePrefix_iff (shorter.trans bounded)]
  intro i inside front
  refine (samePrefix_iff bounded).mp same i inside ?_
  omega

/-- Words that agree all the way are the same. -/
theorem samePrefix_full : samePrefix w a b = true ↔ a = b := by
  constructor
  · intro same
    apply BitVec.eq_of_getLsbD_eq
    intro i inside
    exact (samePrefix_iff le_rfl).mp same i inside (by omega)
  · rintro rfl
    exact samePrefix_self w a

/-- A word in both blocks shows that they agree on the shorter prefix. -/
theorem samePrefix_of_mem {x : BitVec w} (bound : m ≤ w) (bound' : n ≤ w)
    (first : samePrefix m x a = true) (second : samePrefix n x b = true) :
    samePrefix (min m n) a b = true := by
  have front := samePrefix_mono bound (min_le_left m n) first
  have back := samePrefix_mono bound' (min_le_right m n) second
  rw [samePrefix_comm] at front
  exact samePrefix_trans front back

end Echo.Lib
