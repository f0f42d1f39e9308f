import Mathlib.Data.Nat.Notation
import Mathlib.Tactic.SplitIfs

/-!
Bytes in Base64 for addresses: the letters of the URL, and no padding. A text is read only
as it is written, so no two texts are read as the same bytes.
-/

namespace Echo.Lib.Base64Url

def letter (n : Nat) : Char :=
  if n < 26 then Char.ofNat (65 + n)
  else if n < 52 then Char.ofNat (97 + (n - 26))
  else if n < 62 then Char.ofNat (48 + (n - 52))
  else if n = 62 then '-'
  else '_'

def value (c : Char) : Option Nat :=
  if 'A' ≤ c ∧ c ≤ 'Z' then some (c.toNat - 65)
  else if 'a' ≤ c ∧ c ≤ 'z' then some (c.toNat - 97 + 26)
  else if '0' ≤ c ∧ c ≤ '9' then some (c.toNat - 48 + 52)
  else if c = '-' then some 62
  else if c = '_' then some 63
  else none

def encode : List UInt8 → List Char
  | [] => []
  | [a] => [letter (a.toNat / 4), letter (a.toNat % 4 * 16)]
  | [a, b] => [letter (a.toNat / 4), letter (a.toNat % 4 * 16 + b.toNat / 16), letter (b.toNat % 16 * 4)]
  | a :: b :: c :: rest =>
      letter (a.toNat / 4) :: letter (a.toNat % 4 * 16 + b.toNat / 16) ::
        letter (b.toNat % 16 * 4 + c.toNat / 64) :: letter (c.toNat % 64) :: encode rest

def decode : List Char → Option (List UInt8)
  | [] => some []
  | [_] => none
  | [a, b] => do
      let x ← value a
      let y ← value b
      if y % 16 = 0 then some [UInt8.ofNat (x * 4 + y / 16)] else none
  | [a, b, c] => do
      let x ← value a
      let y ← value b
      let z ← value c
      if z % 4 = 0 then some [UInt8.ofNat (x * 4 + y / 16), UInt8.ofNat (y % 16 * 16 + z / 4)] else none
  | a :: b :: c :: d :: rest => do
      let x ← value a
      let y ← value b
      let z ← value c
      let w ← value d
      let bytes ← decode rest
      some (UInt8.ofNat (x * 4 + y / 16) :: UInt8.ofNat (y % 16 * 16 + z / 4) ::
        UInt8.ofNat (z % 4 * 64 + w) :: bytes)

theorem value_letter {n : Nat} (small : n < 64) : value (letter n) = some n := by
  revert n
  decide

theorem letter_ne_dot {n : Nat} (small : n < 64) : letter n ≠ '.' := by
  revert n
  decide

theorem letter_of_ascii : ∀ k < 128, ∀ n ∈ value (Char.ofNat k), n < 64 ∧ letter n = Char.ofNat k := by
  decide

/-- Each letter stands for one value. -/
theorem letter_of_value {c : Char} {n : Nat} (read : value c = some n) : n < 64 ∧ letter n = c := by
  have low {d : Char} (le : c ≤ d) : c.toNat ≤ d.toNat := le
  have ascii : c.toNat < 128 := by
    unfold value at read
    split_ifs at read with upper lower digit dash line
    · exact Nat.lt_of_le_of_lt (low upper.2) (by decide)
    · exact Nat.lt_of_le_of_lt (low lower.2) (by decide)
    · exact Nat.lt_of_le_of_lt (low digit.2) (by decide)
    · simp [dash]
    · simp [line]
  have same := letter_of_ascii c.toNat ascii n
  rw [Char.ofNat_toNat] at same
  exact same read

theorem ofNat_eq {n : Nat} {a : UInt8} (same : n = a.toNat) : UInt8.ofNat n = a := by
  rw [same, UInt8.ofNat_toNat]

theorem toNat_byte {n : Nat} (small : n < 256) : (UInt8.ofNat n).toNat = n :=
  UInt8.toNat_ofNat_of_lt' small

/-- What is written is read. -/
theorem decode_encode (bytes : List UInt8) : decode (encode bytes) = some bytes := by
  induction bytes using encode.induct with
  | case1 => rfl
  | case2 a =>
    have byte := a.toNat_lt
    have first := value_letter (n := a.toNat / 4) (by omega)
    have second := value_letter (n := a.toNat % 4 * 16) (by omega)
    simp only [encode, decode, first, second, Option.bind_eq_bind, Option.bind_some]
    rw [if_pos (by omega), ofNat_eq (a := a) (by omega)]
  | case3 a b =>
    have byte := a.toNat_lt
    have byte' := b.toNat_lt
    have first := value_letter (n := a.toNat / 4) (by omega)
    have second := value_letter (n := a.toNat % 4 * 16 + b.toNat / 16) (by omega)
    have third := value_letter (n := b.toNat % 16 * 4) (by omega)
    simp only [encode, decode, first, second, third, Option.bind_eq_bind, Option.bind_some]
    rw [if_pos (by omega), ofNat_eq (a := a) (by omega), ofNat_eq (a := b) (by omega)]
  | case4 a b c rest ih =>
    have byte := a.toNat_lt
    have byte' := b.toNat_lt
    have byte'' := c.toNat_lt
    have first := value_letter (n := a.toNat / 4) (by omega)
    have second := value_letter (n := a.toNat % 4 * 16 + b.toNat / 16) (by omega)
    have third := value_letter (n := b.toNat % 16 * 4 + c.toNat / 64) (by omega)
    have fourth := value_letter (n := c.toNat % 64) (by omega)
    simp only [encode, decode, first, second, third, fourth, ih, Option.bind_eq_bind, Option.bind_some]
    rw [ofNat_eq (a := a) (by omega), ofNat_eq (a := b) (by omega), ofNat_eq (a := c) (by omega)]

/-- And nothing else is read as it. -/
theorem encode_of_decode {text : List Char} {bytes : List UInt8} (read : decode text = some bytes) :
    encode bytes = text := by
  induction text using decode.induct generalizing bytes with
  | case1 => cases read; rfl
  | case2 => cases read
  | case3 a b =>
    simp only [decode, Option.bind_eq_bind, Option.bind_eq_some_iff, Option.ite_none_right_eq_some,
      Option.some.injEq] at read
    obtain ⟨x, hx, y, hy, full, rfl⟩ := read
    obtain ⟨xSmall, rfl⟩ := letter_of_value hx
    obtain ⟨ySmall, rfl⟩ := letter_of_value hy
    have first := toNat_byte (n := x * 4 + y / 16) (by omega)
    simp only [encode, first]
    rw [show (x * 4 + y / 16) / 4 = x by omega, show (x * 4 + y / 16) % 4 * 16 = y by omega]
  | case4 a b c =>
    simp only [decode, Option.bind_eq_bind, Option.bind_eq_some_iff, Option.ite_none_right_eq_some,
      Option.some.injEq] at read
    obtain ⟨x, hx, y, hy, z, hz, full, rfl⟩ := read
    obtain ⟨xSmall, rfl⟩ := letter_of_value hx
    obtain ⟨ySmall, rfl⟩ := letter_of_value hy
    obtain ⟨zSmall, rfl⟩ := letter_of_value hz
    have first := toNat_byte (n := x * 4 + y / 16) (by omega)
    have second := toNat_byte (n := y % 16 * 16 + z / 4) (by omega)
    simp only [encode, first, second]
    rw [show (x * 4 + y / 16) / 4 = x by omega,
      show (x * 4 + y / 16) % 4 * 16 + (y % 16 * 16 + z / 4) / 16 = y by omega,
      show (y % 16 * 16 + z / 4) % 16 * 4 = z by omega]
  | case5 a b c d rest ih =>
    simp only [decode, Option.bind_eq_bind, Option.bind_eq_some_iff, Option.some.injEq] at read
    obtain ⟨x, hx, y, hy, z, hz, w, hw, later, read, rfl⟩ := read
    obtain ⟨xSmall, rfl⟩ := letter_of_value hx
    obtain ⟨ySmall, rfl⟩ := letter_of_value hy
    obtain ⟨zSmall, rfl⟩ := letter_of_value hz
    obtain ⟨wSmall, rfl⟩ := letter_of_value hw
    have first := toNat_byte (n := x * 4 + y / 16) (by omega)
    have second := toNat_byte (n := y % 16 * 16 + z / 4) (by omega)
    have third := toNat_byte (n := z % 4 * 64 + w) (by omega)
    simp only [encode, first, second, third, ih read]
    rw [show (x * 4 + y / 16) / 4 = x by omega,
      show (x * 4 + y / 16) % 4 * 16 + (y % 16 * 16 + z / 4) / 16 = y by omega,
      show (y % 16 * 16 + z / 4) % 16 * 4 + (z % 4 * 64 + w) / 64 = z by omega,
      show (z % 4 * 64 + w) % 64 = w by omega]

/-- No dot is written. -/
theorem dot_notMem_encode (bytes : List UInt8) : '.' ∉ encode bytes := by
  have dot {n : Nat} (small : n < 64) : '.' ≠ letter n := (letter_ne_dot small).symm
  induction bytes using encode.induct with
  | case1 => simp [encode]
  | case2 a =>
    have byte := a.toNat_lt
    have first : '.' ≠ letter (a.toNat / 4) := dot (by omega)
    have second : '.' ≠ letter (a.toNat % 4 * 16) := dot (by omega)
    simp [encode, first, second]
  | case3 a b =>
    have byte := a.toNat_lt
    have byte' := b.toNat_lt
    have first : '.' ≠ letter (a.toNat / 4) := dot (by omega)
    have second : '.' ≠ letter (a.toNat % 4 * 16 + b.toNat / 16) := dot (by omega)
    have third : '.' ≠ letter (b.toNat % 16 * 4) := dot (by omega)
    simp [encode, first, second, third]
  | case4 a b c rest ih =>
    have byte := a.toNat_lt
    have byte' := b.toNat_lt
    have byte'' := c.toNat_lt
    have first : '.' ≠ letter (a.toNat / 4) := dot (by omega)
    have second : '.' ≠ letter (a.toNat % 4 * 16 + b.toNat / 16) := dot (by omega)
    have third : '.' ≠ letter (b.toNat % 16 * 4 + c.toNat / 64) := dot (by omega)
    have fourth : '.' ≠ letter (c.toNat % 64) := dot (by omega)
    simp [encode, first, second, third, fourth, ih]

end Echo.Lib.Base64Url
