import Mathlib.Data.Nat.Notation

/-!
Bytes in Base64, with the standard letters and with padding. A text is read only as it is
written: in full groups, with no bits set in what is padded away.
-/

namespace Echo.Lib.Base64

def letter (n : Nat) : Char :=
  if n < 26 then Char.ofNat (65 + n)
  else if n < 52 then Char.ofNat (97 + (n - 26))
  else if n < 62 then Char.ofNat (48 + (n - 52))
  else if n = 62 then '+'
  else '/'

def value (c : Char) : Option Nat :=
  if 'A' ≤ c ∧ c ≤ 'Z' then some (c.toNat - 65)
  else if 'a' ≤ c ∧ c ≤ 'z' then some (c.toNat - 97 + 26)
  else if '0' ≤ c ∧ c ≤ '9' then some (c.toNat - 48 + 52)
  else if c = '+' then some 62
  else if c = '/' then some 63
  else none

def encode : List UInt8 → List Char
  | [] => []
  | [a] => [letter (a.toNat / 4), letter (a.toNat % 4 * 16), '=', '=']
  | [a, b] =>
      [letter (a.toNat / 4), letter (a.toNat % 4 * 16 + b.toNat / 16), letter (b.toNat % 16 * 4), '=']
  | a :: b :: c :: rest =>
      letter (a.toNat / 4) :: letter (a.toNat % 4 * 16 + b.toNat / 16) ::
        letter (b.toNat % 16 * 4 + c.toNat / 64) :: letter (c.toNat % 64) :: encode rest

def decode : List Char → Option (List UInt8)
  | [] => some []
  | a :: b :: c :: d :: rest =>
      (value a).bind fun x => (value b).bind fun y =>
        let first := UInt8.ofNat (x * 4 + y / 16)
        if d = '=' ∧ rest = [] then
          if c = '=' then if y % 16 = 0 then some [first] else none
          else (value c).bind fun z =>
            if z % 4 = 0 then some [first, UInt8.ofNat (y % 16 * 16 + z / 4)] else none
        else
          (value c).bind fun z => (value d).bind fun w => (decode rest).map fun bytes =>
            first :: UInt8.ofNat (y % 16 * 16 + z / 4) :: UInt8.ofNat (z % 4 * 64 + w) :: bytes
  | _ => none

theorem value_letter {n : Nat} (small : n < 64) : value (letter n) = some n := by
  revert n
  decide

theorem letter_ne {n : Nat} (small : n < 64) : letter n ≠ '=' ∧ letter n ≠ ',' := by
  revert n
  decide

theorem ofNat_eq {n : Nat} {a : UInt8} (same : n = a.toNat) : UInt8.ofNat n = a := by
  rw [same, UInt8.ofNat_toNat]

/-- What is written is read. -/
theorem decode_encode (bytes : List UInt8) : decode (encode bytes) = some bytes := by
  induction bytes using encode.induct with
  | case1 => rfl
  | case2 a =>
      have byte := a.toNat_lt
      rw [encode, decode, value_letter (by omega), value_letter (by omega), Option.bind_some,
        Option.bind_some]
      dsimp only
      rw [if_pos ⟨rfl, rfl⟩, if_pos rfl, if_pos (by omega), ofNat_eq (a := a) (by omega)]
  | case3 a b =>
      have byte := a.toNat_lt
      have byte' := b.toNat_lt
      rw [encode, decode, value_letter (by omega), value_letter (by omega), Option.bind_some,
        Option.bind_some]
      dsimp only
      rw [if_pos ⟨rfl, rfl⟩, if_neg (letter_ne (by omega)).1, value_letter (by omega),
        Option.bind_some, if_pos (by omega), ofNat_eq (a := a) (by omega),
        ofNat_eq (a := b) (by omega)]
  | case4 a b c rest ih =>
      have byte := a.toNat_lt
      have byte' := b.toNat_lt
      have byte'' := c.toNat_lt
      have full : ¬ (letter (c.toNat % 64) = '=' ∧ encode rest = []) :=
        fun padded => (letter_ne (by omega)).1 padded.1
      rw [encode, decode, value_letter (by omega), value_letter (by omega), Option.bind_some,
        Option.bind_some]
      dsimp only
      rw [if_neg full, value_letter (by omega), Option.bind_some, value_letter (by omega),
        Option.bind_some, ih, Option.map_some, ofNat_eq (a := a) (by omega),
        ofNat_eq (a := b) (by omega), ofNat_eq (a := c) (by omega)]

/-- No comma is written. -/
theorem comma_notMem_encode (bytes : List UInt8) : ',' ∉ encode bytes := by
  have comma {n : Nat} (small : n < 64) : ',' ≠ letter n := (letter_ne small).2.symm
  induction bytes using encode.induct with
  | case1 => exact List.not_mem_nil
  | case2 a =>
      have byte := a.toNat_lt
      have first : ',' ≠ letter (a.toNat / 4) := comma (by omega)
      have second : ',' ≠ letter (a.toNat % 4 * 16) := comma (by omega)
      simp [encode, first, second]
  | case3 a b =>
      have byte := a.toNat_lt
      have byte' := b.toNat_lt
      have first : ',' ≠ letter (a.toNat / 4) := comma (by omega)
      have second : ',' ≠ letter (a.toNat % 4 * 16 + b.toNat / 16) := comma (by omega)
      have third : ',' ≠ letter (b.toNat % 16 * 4) := comma (by omega)
      simp [encode, first, second, third]
  | case4 a b c rest ih =>
      have byte := a.toNat_lt
      have byte' := b.toNat_lt
      have byte'' := c.toNat_lt
      have first : ',' ≠ letter (a.toNat / 4) := comma (by omega)
      have second : ',' ≠ letter (a.toNat % 4 * 16 + b.toNat / 16) := comma (by omega)
      have third : ',' ≠ letter (b.toNat % 16 * 4 + c.toNat / 64) := comma (by omega)
      have fourth : ',' ≠ letter (c.toNat % 64) := comma (by omega)
      simp [encode, first, second, third, fourth, ih]

end Echo.Lib.Base64
