import Echo.Lib.Utf8

/-!
Bytes read as UTF-8 with what is broken replaced (`String::from_utf8_lossy`): a character
where one starts, and U+FFFD for the longest beginning of one, or for a byte that begins
none. Text comes back as it was.
-/

namespace Echo.Lib

/-- The length of the characters that begin with a byte, and the range of their second. -/
def leads (a : UInt8) : Option (Nat × UInt8 × UInt8) :=
  if 0xC2 ≤ a ∧ a ≤ 0xDF then some (2, 0x80, 0xBF)
  else if a = 0xE0 then some (3, 0xA0, 0xBF)
  else if a = 0xED then some (3, 0x80, 0x9F)
  else if 0xE1 ≤ a ∧ a ≤ 0xEF then some (3, 0x80, 0xBF)
  else if a = 0xF0 then some (4, 0x90, 0xBF)
  else if 0xF1 ≤ a ∧ a ≤ 0xF3 then some (4, 0x80, 0xBF)
  else if a = 0xF4 then some (4, 0x80, 0x8F)
  else none

/-- How far the beginning of a character goes that is then broken off. -/
def brokenOff : List UInt8 → Nat
  | a :: b :: rest =>
    match leads a with
    | none => 1
    | some (width, low, high) =>
      if low ≤ b ∧ b ≤ high then
        match rest with
        | c :: _ => if width = 4 ∧ 0x80 ≤ c ∧ c ≤ 0xBF then 3 else 2
        | [] => 2
      else 1
  | _ => 1

/-- The bytes read in so many rounds. -/
def lossyIn : Nat → List UInt8 → List Char
  | 0, _ => []
  | _, [] => []
  | n + 1, bytes =>
    match bytes.toByteArray.utf8DecodeChar? 0 with
    | some c => c :: lossyIn n (bytes.drop c.utf8Size)
    | none => '\uFFFD' :: lossyIn n (bytes.drop (brokenOff bytes))

/-- `String::from_utf8_lossy` -/
def fromUtf8Lossy (bytes : List UInt8) : List Char := lossyIn bytes.length bytes

theorem lossyIn_encode {n : Nat} (chars : List Char) (enough : (encode chars).length ≤ n) :
    lossyIn n (encode chars) = chars := by
  induction chars generalizing n with
  | nil => cases n <;> rfl
  | cons c chars ih =>
    have size := String.length_utf8EncodeChar c
    have pos := c.utf8Size_pos
    rw [encode_cons, List.length_append] at enough
    cases n with
    | zero => omega
    | succ n =>
      have front : (encode (c :: chars)).toByteArray.utf8DecodeChar? 0 = some c := by
        rw [encode_cons, List.toByteArray_append]
        exact ByteArray.utf8DecodeChar?_utf8EncodeChar_append
      have back : (encode (c :: chars)).drop c.utf8Size = encode chars := by
        rw [encode_cons, ← size, List.drop_left]
      have later : lossyIn n (encode chars) = chars := ih (by omega)
      have held : encode (c :: chars) ≠ [] := fun none => by cases encode_eq_nil none
      rw [lossyIn, front]
      · simp only [back, later]
      · exact held

/-- Text comes back as it was. -/
@[simp] theorem fromUtf8Lossy_encode (chars : List Char) : fromUtf8Lossy (encode chars) = chars :=
  lossyIn_encode chars (Nat.le_refl _)

end Echo.Lib
