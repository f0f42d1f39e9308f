import Mathlib.Algebra.Ring.Nat
import Mathlib.Data.List.Basic

/-!
A text addressed by the bytes of its UTF-8 encoding: its length, the offsets at which it
can be cut, and the last place where a character stands.
-/

namespace Echo.Lib

variable {l front back head tail : List Char} {n i : Nat}

/-- The length of a text in bytes. -/
def byteLen (l : List Char) : Nat := (l.map Char.utf8Size).sum

@[simp] theorem byteLen_nil : byteLen [] = 0 := rfl

@[simp] theorem byteLen_cons (c : Char) (l : List Char) : byteLen (c :: l) = c.utf8Size + byteLen l :=
  List.sum_cons

@[simp] theorem byteLen_append (l l' : List Char) : byteLen (l ++ l') = byteLen l + byteLen l' := by
  rw [byteLen, List.map_append, List.sum_append]
  rfl

theorem byteLen_pos (nonempty : l ≠ []) : 0 < byteLen l := by
  cases l with
  | nil => exact absurd rfl nonempty
  | cons c l =>
      have size := c.utf8Size_pos
      rw [byteLen_cons]
      omega

/-- The text before a byte offset and the text from it on; nothing where the offset falls
into a character or past the end. -/
def splitAtByte : List Char → Nat → Option (List Char × List Char)
  | l, 0 => some ([], l)
  | [], _ + 1 => none
  | c :: l, n + 1 =>
      if c.utf8Size ≤ n + 1 then
        (splitAtByte l (n + 1 - c.utf8Size)).map fun (head, tail) => (c :: head, tail)
      else none

theorem splitAtByte_eq_some_iff :
    splitAtByte l n = some (head, tail) ↔ l = head ++ tail ∧ byteLen head = n := by
  induction l generalizing n head with
  | nil =>
      cases n with
      | zero =>
          rw [splitAtByte, Option.some_inj, Prod.mk.injEq]
          constructor
          · rintro ⟨rfl, rfl⟩
            exact ⟨rfl, rfl⟩
          · rintro ⟨same, _⟩
            obtain ⟨rfl, rfl⟩ := List.append_eq_nil_iff.mp same.symm
            exact ⟨rfl, rfl⟩
      | succ n =>
          constructor
          · intro found
            cases found
          · rintro ⟨same, size⟩
            obtain ⟨rfl, rfl⟩ := List.append_eq_nil_iff.mp same.symm
            cases size
  | cons c l ih =>
      cases n with
      | zero =>
          rw [splitAtByte, Option.some_inj, Prod.mk.injEq]
          constructor
          · rintro ⟨rfl, rfl⟩
            exact ⟨rfl, rfl⟩
          · rintro ⟨same, size⟩
            have none : head = [] := by
              by_contra some
              exact absurd size (Nat.ne_of_gt (byteLen_pos some))
            subst none
            exact ⟨rfl, same⟩
      | succ n =>
          have size := c.utf8Size_pos
          rw [splitAtByte]
          by_cases fits : c.utf8Size ≤ n + 1
          · rw [if_pos fits, Option.map_eq_some_iff]
            constructor
            · rintro ⟨⟨head', tail'⟩, found, same⟩
              cases same
              obtain ⟨rfl, size'⟩ := ih.mp found
              refine ⟨rfl, ?_⟩
              rw [byteLen_cons]
              omega
            · rintro ⟨same, size'⟩
              cases head with
              | nil => cases size'
              | cons c' head =>
                  obtain ⟨rfl, rest⟩ := List.cons.inj same
                  rw [byteLen_cons] at size'
                  exact ⟨(head, tail), ih.mpr ⟨rest, by omega⟩, rfl⟩
          · rw [if_neg fits]
            constructor
            · intro found
              cases found
            · rintro ⟨same, size'⟩
              cases head with
              | nil => cases size'
              | cons c' head =>
                  obtain ⟨rfl, _⟩ := List.cons.inj same
                  rw [byteLen_cons] at size'
                  omega

def isCharBoundary (l : List Char) (n : Nat) : Bool := (splitAtByte l n).isSome

/-- The last offset up to `n` at which the text can be cut. -/
def backUp (l : List Char) : Nat → Nat
  | 0 => 0
  | n + 1 => if isCharBoundary l (n + 1) then n + 1 else backUp l n

/-- The character that the byte at an offset belongs to. -/
theorem exists_char_at (inside : n < byteLen l) :
    ∃ head c tail, l = head ++ c :: tail ∧ byteLen head ≤ n ∧ n < byteLen head + c.utf8Size := by
  induction l generalizing n with
  | nil => exact absurd inside (Nat.not_lt_zero n)
  | cons c l ih =>
      rw [byteLen_cons] at inside
      by_cases here : n < c.utf8Size
      · exact ⟨[], c, l, rfl, Nat.zero_le n, by simpa using here⟩
      · obtain ⟨head, c', tail, rfl, low, high⟩ := ih (n := n - c.utf8Size) (by omega)
        refine ⟨c :: head, c', tail, rfl, ?_, ?_⟩
        · rw [byteLen_cons]
          omega
        · rw [byteLen_cons]
          omega

/-- No cut falls into a character. -/
theorem not_isCharBoundary {c : Char} (low : byteLen head < n) (high : n < byteLen head + c.utf8Size) :
    isCharBoundary (head ++ c :: tail) n = false := by
  cases split : splitAtByte (head ++ c :: tail) n with
  | none => simp [isCharBoundary, split]
  | some parts =>
      obtain ⟨head', tail'⟩ := parts
      obtain ⟨same, size⟩ := splitAtByte_eq_some_iff.mp split
      rcases List.append_eq_append_iff.mp same with ⟨more, rfl, rest⟩ | ⟨more, rfl, rest⟩
      · cases more with
        | nil =>
            rw [List.append_nil] at size
            omega
        | cons d more =>
            rw [List.cons_append] at rest
            obtain ⟨rfl, _⟩ := List.cons.inj rest
            rw [byteLen_append, byteLen_cons] at size
            omega
      · rw [byteLen_append] at low
        omega

/-- Backing up from within a character stops where it begins. -/
theorem backUp_eq {c : Char} (low : byteLen head ≤ n) (high : n < byteLen head + c.utf8Size) :
    backUp (head ++ c :: tail) n = byteLen head := by
  have whole : isCharBoundary (head ++ c :: tail) (byteLen head) = true := by
    rw [isCharBoundary, splitAtByte_eq_some_iff.mpr ⟨rfl, rfl⟩]
    rfl
  induction n with
  | zero => rw [backUp, Nat.eq_zero_of_le_zero low]
  | succ n ih =>
      rw [backUp]
      by_cases here : byteLen head = n + 1
      · rw [← here, if_pos whole]
      · rw [not_isCharBoundary (by omega) high, if_neg Bool.false_ne_true, ih (by omega) (by omega)]

/-- The offset of the last place where `c` stands. -/
def rfindByte (c : Char) : List Char → Option Nat
  | [] => none
  | a :: l =>
      match rfindByte c l with
      | some i => some (i + a.utf8Size)
      | none => if a = c then some 0 else none

theorem rfindByte_none {c : Char} (nowhere : rfindByte c l = none) : c ∉ l := by
  induction l with
  | nil => simp
  | cons a l ih =>
      rw [rfindByte] at nowhere
      cases later : rfindByte c l with
      | some i =>
          rw [later] at nowhere
          cases nowhere
      | none =>
          rw [later] at nowhere
          by_cases here : a = c
          · simp [here] at nowhere
          · simp [Ne.symm here, ih later]

theorem rfindByte_some {c : Char} (found : rfindByte c l = some i) :
    ∃ front back, l = front ++ c :: back ∧ byteLen front = i ∧ c ∉ back := by
  induction l generalizing i with
  | nil => cases found
  | cons a l ih =>
      rw [rfindByte] at found
      cases later : rfindByte c l with
      | some j =>
          rw [later] at found
          cases found
          obtain ⟨front, back, rfl, size, free⟩ := ih later
          refine ⟨a :: front, back, rfl, ?_, free⟩
          rw [byteLen_cons, size, Nat.add_comm]
      | none =>
          rw [later] at found
          by_cases here : a = c
          · simp only [here, if_true, Option.some_inj] at found
            exact ⟨[], l, by rw [here]; rfl, found, rfindByte_none later⟩
          · simp [here] at found

end Echo.Lib
