import Mathlib.Data.List.Basic

/-!
Text as the bytes of its UTF-8 encoding, for files that can be cut anywhere.

A cut of a text is valid UTF-8 exactly when it falls between two characters, and
writing more text behind a cut never mends it.
-/

namespace Echo.Lib

/-- The bytes of a text. -/
def encode (chars : List Char) : List UInt8 := chars.flatMap String.utf8EncodeChar

/-- The text that bytes spell, if they are valid UTF-8. -/
def decode (bytes : List UInt8) : Option (List Char) :=
  bytes.toByteArray.utf8Decode?.map Array.toList

/-- The bytes are valid UTF-8. -/
def IsUtf8 (bytes : List UInt8) : Prop := ∃ chars, bytes = encode chars

@[simp] theorem encode_nil : encode [] = [] := rfl

theorem encode_append (first rest : List Char) :
    encode (first ++ rest) = encode first ++ encode rest := List.flatMap_append

theorem encode_cons (c : Char) (chars : List Char) :
    encode (c :: chars) = String.utf8EncodeChar c ++ encode chars := List.flatMap_cons

theorem encode_cons_ascii {c : Char} (ascii : c.toNat < 128) (chars : List Char) :
    encode (c :: chars) = c.toUInt8 :: encode chars := by
  have size : c.utf8Size = 1 := by
    rw [Char.utf8Size_eq_one_iff, UInt32.le_iff_toNat_le]
    change c.toNat ≤ 127
    omega
  rw [encode_cons, String.utf8EncodeChar_eq_singleton size]
  rfl

theorem toByteArray_inj {bytes bytes' : List UInt8}
    (same : bytes.toByteArray = bytes'.toByteArray) : bytes = bytes' := by
  have data := congrArg (fun b => b.data.toList) same
  simpa using data

theorem isUtf8_iff {bytes : List UInt8} : IsUtf8 bytes ↔ bytes.toByteArray.IsValidUTF8 := by
  constructor
  · rintro ⟨chars, rfl⟩
    exact ⟨chars, rfl⟩
  · rintro ⟨chars, same⟩
    exact ⟨chars, toByteArray_inj same⟩

@[simp] theorem decode_encode (chars : List Char) : decode (encode chars) = some chars := by
  have core : (encode chars).toByteArray.utf8Decode? = some chars.toArray :=
    List.utf8Decode?_utf8Encode
  simp [decode, core]

theorem decode_eq_none {bytes : List UInt8} (broken : ¬ IsUtf8 bytes) : decode bytes = none := by
  cases spelt : bytes.toByteArray.utf8Decode? with
  | none => simp [decode, spelt]
  | some chars =>
      have valid : bytes.toByteArray.IsValidUTF8 :=
        ByteArray.isSome_utf8Decode?_iff.mp (by simp [spelt])
      exact absurd (isUtf8_iff.mpr valid) broken

theorem encode_inj {chars chars' : List Char} (same : encode chars = encode chars') :
    chars = chars' := by
  have spelt := decode_encode chars
  rw [same, decode_encode] at spelt
  exact (Option.some.inj spelt).symm

/-- What is left of a text by a cut between characters is a beginning of it. -/
theorem prefix_of_encode {chars whole : List Char} {rest : List UInt8}
    (cut : encode chars ++ rest = encode whole) : chars <+: whole := by
  refine List.isPrefix_of_utf8Encode_append_eq_utf8Encode rest.toByteArray ?_
  have bytes := congrArg List.toByteArray cut
  rwa [List.toByteArray_append] at bytes

theorem isUtf8_utf8EncodeChar_append_iff (c : Char) (bytes : List UInt8) :
    IsUtf8 (String.utf8EncodeChar c ++ bytes) ↔ IsUtf8 bytes := by
  have core := @ByteArray.isValidUTF8_utf8Encode_singleton_append_iff bytes.toByteArray c
  rw [isUtf8_iff, isUtf8_iff, List.toByteArray_append, ← core]
  simp [List.utf8Encode]

theorem isUtf8_encode_append_iff (chars : List Char) (bytes : List UInt8) :
    IsUtf8 (encode chars ++ bytes) ↔ IsUtf8 bytes := by
  induction chars with
  | nil => rw [encode_nil, List.nil_append]
  | cons c chars ih =>
      rw [encode_cons, List.append_assoc, isUtf8_utf8EncodeChar_append_iff]
      exact ih

theorem encode_eq_nil {chars : List Char} (nothing : encode chars = []) : chars = [] :=
  encode_inj (nothing.trans encode_nil.symm)

/-- In the encoding of a character, the first byte is the only one that can start
one. -/
theorem isUTF8FirstByte_iff {c : Char} {before after : List UInt8} {byte : UInt8}
    (spelt : String.utf8EncodeChar c = before ++ byte :: after) :
    byte.IsUTF8FirstByte ↔ before = [] := by
  have bound : before.length < [c].utf8Encode.size := by
    simp [List.utf8Encode, spelt]
  have core := @List.isUTF8FirstByte_getElem_utf8Encode_singleton c before.length bound
  have here : [c].utf8Encode[before.length] = byte := by
    simp [ByteArray.getElem_eq_getElem_data, List.utf8Encode, spelt, -List.toByteArray_append]
  rw [here] at core
  rw [core, List.length_eq_zero_iff]

/-- The bytes start a character, if there are any. -/
def Startable (bytes : List UInt8) : Prop := ∀ byte ∈ bytes.head?, byte.IsUTF8FirstByte

theorem startable_nil : Startable [] := by
  intro byte mem
  contradiction

theorem startable_encode_append (c : Char) (bytes : List UInt8) :
    Startable (String.utf8EncodeChar c ++ bytes) := by
  intro byte mem
  cases spelt : String.utf8EncodeChar c with
  | nil => exact absurd spelt String.utf8EncodeChar_ne_nil
  | cons byte' rest =>
      rw [spelt] at mem
      obtain rfl : byte' = byte := Option.some.inj mem
      exact (@isUTF8FirstByte_iff c [] rest byte' spelt).mpr rfl

theorem startable_encode (chars : List Char) : Startable (encode chars) := by
  cases chars with
  | nil => exact startable_nil
  | cons c chars =>
      rw [encode_cons]
      exact startable_encode_append c (encode chars)

/-- A byte below 128 is a character of its own. -/
theorem mem_utf8EncodeChar {c d : Char} (ascii : d.toNat < 128) (mem : d.toUInt8 ∈ String.utf8EncodeChar c) :
    c = d := by
  obtain ⟨before, after, spelt⟩ := List.append_of_mem mem
  have first : d.toUInt8.IsUTF8FirstByte :=
    startable_encode [d] d.toUInt8 (by simp [encode_cons_ascii ascii])
  obtain rfl : before = [] := (isUTF8FirstByte_iff spelt).mp first
  have front : [d] <+: [c] := @prefix_of_encode [d] [c] after (by simp [encode_cons_ascii ascii, encode_cons, spelt])
  simpa [eq_comm] using front

theorem mem_encode_iff {chars : List Char} {d : Char} (ascii : d.toNat < 128) :
    d.toUInt8 ∈ encode chars ↔ d ∈ chars := by
  constructor
  · intro mem
    obtain ⟨c, inText, mem⟩ := List.mem_flatMap.mp mem
    exact mem_utf8EncodeChar ascii mem ▸ inText
  · intro mem
    obtain ⟨before, after, rfl⟩ := List.append_of_mem mem
    simp [encode_append, encode_cons_ascii ascii]

/-- A cut inside a character is not mended by anything that starts one. -/
theorem not_isUtf8_of_split {c : Char} {front back : List UInt8}
    (split : String.utf8EncodeChar c = front ++ back) (kept : front ≠ []) (missing : back ≠ [])
    {next : List UInt8} (starts : Startable next) : ¬ IsUtf8 (front ++ next) := by
  rintro ⟨whole, spelt⟩
  -- A shorter character cannot begin the encoding of `c`.
  have shorter : ∀ d extra, String.utf8EncodeChar d ++ extra ≠ front := by
    intro d extra same
    have start : encode [d] ++ (extra ++ back) = encode [c] := by
      rw [encode_cons, encode_cons, split, ← same]
      simp
    have equal : [d] = [c] := (prefix_of_encode start).eq_of_length rfl
    obtain rfl := List.singleton_inj.mp equal
    rw [← same] at split
    have sizes := congrArg List.length split
    have pos := List.length_pos_iff.mpr missing
    simp only [List.length_append] at sizes
    omega
  cases whole with
  | nil => exact kept (List.append_eq_nil_iff.mp spelt).1
  | cons d whole =>
      rw [encode_cons] at spelt
      rcases List.append_eq_append_iff.mp spelt with ⟨extra, inside, more⟩ | ⟨extra, inside, more⟩
      · cases extra with
        | nil => exact shorter d [] (by rw [List.append_nil, inside, List.append_nil])
        | cons byte extra =>
            have within := isUTF8FirstByte_iff inside
            have first : byte.IsUTF8FirstByte := starts byte (by rw [more]; rfl)
            exact kept (within.mp first)
      · exact shorter d extra inside.symm

/-- What is written behind a cut of a text leaves it as broken as it was. -/
theorem isUtf8_of_append {whole : List Char} {torn lost next : List UInt8}
    (cut : encode whole = torn ++ lost) (starts : Startable next) (valid : IsUtf8 (torn ++ next)) :
    IsUtf8 torn := by
  induction whole generalizing torn with
  | nil =>
      obtain rfl : torn = [] := (List.append_eq_nil_iff.mp cut.symm).1
      exact ⟨[], rfl⟩
  | cons c whole ih =>
      rw [encode_cons] at cut
      rcases List.append_eq_append_iff.mp cut with ⟨torn', rfl, rest⟩ | ⟨back, inside, rest⟩
      · rw [List.append_assoc, isUtf8_utf8EncodeChar_append_iff] at valid
        exact (isUtf8_utf8EncodeChar_append_iff c torn').mpr (ih rest valid)
      · by_cases nothing : torn = []
        · exact ⟨[], nothing⟩
        · by_cases whole' : back = []
          · rw [whole', List.append_nil] at inside
            exact ⟨[c], by rw [encode_cons, inside, encode_nil, List.append_nil]⟩
          · exact absurd valid (not_isUtf8_of_split inside nothing whole' starts)

end Echo.Lib
