import Echo.Lib.Offsets
import Echo.Lib.Splitting

/-!
Long messages: a body that does not fit a line is sent in chunks. The chunks are the body
but for spaces where it was cut, each fits a line, and only a word that fills half of one
is taken apart.
-/

namespace Echo

open Echo.Lib

/-- The bytes of a body that are kept on one line. -/
def maxMsgText : Nat := 400

/-- The delimiter of a CTCP message. -/
def ctcp : Char := Char.ofNat 1

/-- Where a body is cut. -/
def cutOf (rest : List Char) : Option Nat := do
  let cut := backUp rest maxMsgText
  let (window, _) ← splitAtByte rest cut
  -- At the last space in the back half of the window, if there is one.
  let cut := match rfindByte ' ' window with
    | some sp => if maxMsgText / 2 ≤ sp then sp else cut
    | none => cut
  pure (if cut = 0 then backUp rest (min (byteLen rest) maxMsgText) else cut)

/-- The chunks of what is left of a body, in so many rounds; nothing where they do not do,
or where a cut falls into a character. -/
def splitRest : Nat → List Char → Option (List (List Char))
  | 0, _ => none
  | fuel + 1, rest =>
      if maxMsgText < byteLen rest then do
        let cut ← cutOf rest
        let (head, tail) ← splitAtByte rest cut
        let out ← splitRest fuel (tail.dropWhile (· == ' '))
        pure (head :: out)
      else some (if rest.isEmpty then [] else [rest])

/-- The chunks a body is sent in. -/
def splitBody (fuel : Nat) (text : List Char) : Option (List (List Char)) :=
  if byteLen text ≤ maxMsgText || text.contains ctcp then some [text] else splitRest fuel text

/-! ### One cut -/

/-- A word: the longest stretches without spaces are those of a text. -/
def spaced (text : List Char) : List (List Char) := words (· == ' ') text

/-- A body is cut before a space, or within a word of half a line or more. -/
structure CutBetween (head tail : List Char) : Prop where
  nonempty : head ≠ []
  fits : byteLen head ≤ maxMsgText
  where' : (∃ rest, tail = ' ' :: rest) ∨
    ∃ front word c rest, head = front ++ word ∧ tail = c :: rest ∧ c ≠ ' ' ∧ word ≠ [] ∧ ' ' ∉ word ∧
      (front = [] ∨ ∃ before, front = before ++ [' ']) ∧
      maxMsgText / 2 ≤ byteLen word + c.utf8Size

theorem cut_spec {rest : List Char} (long : maxMsgText < byteLen rest) :
    ∃ cut head tail, cutOf rest = some cut ∧ splitAtByte rest cut = some (head, tail) ∧
      rest = head ++ tail ∧ CutBetween head tail := by
  have limit : maxMsgText = 400 := rfl
  obtain ⟨window, c, after, rfl, low, high⟩ := exists_char_at long
  have size := c.utf8Size_le_four
  have backed : backUp (window ++ c :: after) maxMsgText = byteLen window := backUp_eq low high
  have split : splitAtByte (window ++ c :: after) (byteLen window) = some (window, c :: after) :=
    splitAtByte_eq_some_iff.mpr ⟨rfl, rfl⟩
  have wide : maxMsgText - 4 < byteLen window := by omega
  have begun : window ≠ [] := by
    rintro rfl
    exact Nat.not_lt_zero _ wide
  have cut : cutOf (window ++ c :: after) = some (match rfindByte ' ' window with
      | some sp => if maxMsgText / 2 ≤ sp then sp else byteLen window
      | none => byteLen window) := by
    have positive : ¬ (match rfindByte ' ' window with
      | some sp => if maxMsgText / 2 ≤ sp then sp else byteLen window
      | none => byteLen window) = 0 := by
      cases rfindByte ' ' window with
      | none => dsimp only; omega
      | some sp => dsimp only; split_ifs <;> omega
    unfold cutOf
    dsimp only
    rw [backed, split]
    exact congrArg some (if_neg positive)
  -- Without a space in the back half the cut falls behind the window.
  have within : ∀ front word, window = front ++ word → ' ' ∉ word →
      (front = [] ∨ ∃ before, front = before ++ [' ']) → byteLen front ≤ maxMsgText / 2 →
        CutBetween window (c :: after) := by
    rintro front word rfl free bounded short
    refine ⟨begun, low, ?_⟩
    by_cases space : c = ' '
    · exact .inl ⟨after, by rw [space]⟩
    · rw [byteLen_append] at low high wide
      have filled : word ≠ [] := by
        rintro rfl
        rw [byteLen_nil] at wide
        omega
      exact .inr ⟨front, word, c, after, rfl, rfl, space, filled, free, bounded, by omega⟩
  cases found : rfindByte ' ' window with
  | none =>
      refine ⟨byteLen window, window, c :: after, ?_, split, rfl, ?_⟩
      · rw [cut, found]
      · exact within [] window rfl (rfindByte_none found) (.inl rfl) (Nat.zero_le _)
  | some sp =>
      obtain ⟨front, back, rfl, here, free⟩ := rfindByte_some found
      by_cases far : maxMsgText / 2 ≤ sp
      · refine ⟨sp, front, ' ' :: (back ++ c :: after), ?_, ?_, by simp, ?_, ?_, .inl ⟨_, rfl⟩⟩
        · rw [cut, found]
          exact congrArg some (if_pos far)
        · exact splitAtByte_eq_some_iff.mpr ⟨by simp, here⟩
        · rintro rfl
          rw [byteLen_nil] at here
          omega
        · rw [byteLen_append] at low
          omega
      · refine ⟨byteLen (front ++ ' ' :: back), front ++ ' ' :: back, c :: after, ?_, split, rfl, ?_⟩
        · rw [cut, found]
          exact congrArg some (if_neg far)
        · refine within (front ++ [' ']) back (by simp) free (.inr ⟨front, rfl⟩) ?_
          have one : (' ' : Char).utf8Size = 1 := by decide
          rw [byteLen_append, byteLen_cons, byteLen_nil, one]
          omega

/-! ### The chunks -/

section Chunks

variable {text head tail : List Char} {chunks : List (List Char)}

/-- The chunks are the text but for spaces behind each. -/
def SpacedOut (text : List Char) (chunks : List (List Char)) : Prop :=
  ∃ gaps : List Nat, gaps.length = chunks.length ∧
    text = (List.zipWith (fun chunk n => chunk ++ List.replicate n ' ') chunks gaps).flatten

/-- The words of the chunks, in order, are those of the text, but that one of half a line
or more may be in pieces. -/
def WholeWords (text : List Char) (chunks : List (List Char)) : Prop :=
  ∃ groups : List (List (List Char)),
    groups.flatten = chunks.flatMap spaced ∧ groups.map List.flatten = spaced text ∧
    ∀ group ∈ groups, group.length = 1 ∨ maxMsgText / 2 ≤ byteLen group.flatten

theorem flatten_singles {α : Type _} (l : List α) : (l.map fun w => [w]).flatten = l := by
  induction l with
  | nil => rfl
  | cons a l ih => rw [List.map_cons, List.flatten_cons, ih, List.singleton_append]

theorem map_flatten_singles {α : Type _} (l : List (List α)) :
    (l.map fun w => [w]).map List.flatten = l := by
  simp [Function.comp_def]

/-- A body that is not cut. -/
theorem whole_chunk (text : List Char) : SpacedOut text [text] ∧ WholeWords text [text] := by
  refine ⟨⟨[0], rfl, by simp⟩, (spaced text).map ([·]), ?_, ?_, ?_⟩
  · rw [flatten_singles, List.flatMap_singleton]
  · exact map_flatten_singles _
  · intro group mem
    obtain ⟨w, _, rfl⟩ := List.mem_map.mp mem
    exact .inl rfl

theorem dropWhile_spaces (tail : List Char) :
    ∃ n, tail = List.replicate n ' ' ++ tail.dropWhile (· == ' ') := by
  refine ⟨(tail.takeWhile (· == ' ')).length, ?_⟩
  have spaces : tail.takeWhile (· == ' ') = List.replicate (tail.takeWhile (· == ' ')).length ' ' :=
    List.eq_replicate_length.mpr fun c mem => by
      simpa using List.all_eq_true.mp List.all_takeWhile c mem
  rw [← spaces, List.takeWhile_append_dropWhile]

theorem SpacedOut.cons (after : SpacedOut (tail.dropWhile (· == ' ')) chunks) :
    SpacedOut (head ++ tail) (head :: chunks) := by
  obtain ⟨n, same⟩ := dropWhile_spaces tail
  obtain ⟨gaps, lengths, rest⟩ := after
  refine ⟨n :: gaps, by simp [lengths], ?_⟩
  rw [List.zipWith_cons_cons, List.flatten_cons, ← rest, List.append_assoc, ← same]

theorem WholeWords.cons (cut : CutBetween head tail)
    (after : WholeWords (tail.dropWhile (· == ' ')) chunks) :
    WholeWords (head ++ tail) (head :: chunks) := by
  obtain ⟨groups, pieces, whole, large⟩ := after
  have single : ∀ ws : List (List Char), ∀ group ∈ ws.map fun w => [w], group.length = 1 := by
    intro ws group mem
    obtain ⟨w, _, rfl⟩ := List.mem_map.mp mem
    rfl
  have trimmed : spaced (tail.dropWhile (· == ' ')) = spaced tail := words_dropWhile tail
  rcases cut.where' with ⟨rest, rfl⟩ | ⟨front, word, c, rest, rfl, rfl, solid, filled, free, bounded, wide⟩
  · -- The words before the space and those after it.
    have apart : spaced (head ++ ' ' :: rest) = spaced head ++ spaced (' ' :: rest) := by
      unfold spaced
      rw [words_append_blank rfl, words_concat_blank rfl]
      rfl
    refine ⟨(spaced head).map (fun w => [w]) ++ groups, ?_, ?_, ?_⟩
    · rw [List.flatten_append, flatten_singles, pieces, List.flatMap_cons]
    · rw [List.map_append, map_flatten_singles, whole, trimmed, apart]
    · intro group mem
      rcases List.mem_append.mp mem with here | later
      · exact .inl (single _ group here)
      · exact large group later
  · -- The word that is cut takes in the first of those after it.
    have solid' : (c == ' ') = false := beq_eq_false_iff_ne.mpr solid
    have wordSolid : ∀ a ∈ word, (a == ' ') = false :=
      fun a mem => beq_eq_false_iff_ne.mpr (ne_of_mem_of_not_mem mem free)
    obtain ⟨v, vs, first⟩ := @words_cons_solid _ (· == ' ') c solid' rest
    have apart : ∀ l, spaced (front ++ l) = spaced front ++ spaced l := by
      intro l
      rcases bounded with rfl | ⟨before, rfl⟩
      · rfl
      · unfold spaced
        rw [List.append_assoc, List.singleton_append, words_append_blank rfl, words_concat_blank rfl]
    have alone : spaced word = [word] := words_solid filled wordSolid
    have longer : spaced (word ++ c :: rest) = (word ++ c :: v) :: vs :=
      words_append_word wordSolid solid' first
    rw [trimmed, show spaced (c :: rest) = (c :: v) :: vs from first] at whole
    cases groups with
    | nil => cases whole
    | cons group groups =>
        rw [List.map_cons] at whole
        obtain ⟨here, later⟩ := List.cons.inj whole
        refine ⟨(spaced front).map (fun w => [w]) ++ (word :: group) :: groups, ?_, ?_, ?_⟩
        · rw [List.flatten_cons] at pieces
          rw [List.flatten_append, flatten_singles, List.flatten_cons, List.cons_append, pieces,
            List.flatMap_cons, apart, alone, List.append_assoc, List.singleton_append]
        · rw [List.map_append, map_flatten_singles, List.map_cons, List.flatten_cons, here, later,
            List.append_assoc, apart, longer]
        · intro g mem
          rcases List.mem_append.mp mem with before | after
          · exact .inl (single _ g before)
          · rcases List.mem_cons.mp after with rfl | rest'
            · right
              rw [List.flatten_cons, here, byteLen_append, byteLen_cons]
              omega
            · exact large g (List.mem_cons_of_mem group rest')

end Chunks

/-! ### The whole body -/

/-- What is left of a body is split in as many rounds as it has characters, and one. -/
theorem splitRest_spec (rest : List Char) :
    ∃ chunks, (∀ fuel, rest.length < fuel → splitRest fuel rest = some chunks) ∧
      (∀ chunk ∈ chunks, chunk ≠ [] ∧ byteLen chunk ≤ maxMsgText) ∧
      SpacedOut rest chunks ∧ WholeWords rest chunks := by
  generalize size : rest.length = n
  induction n using Nat.strong_induction_on generalizing rest with
  | _ n ih =>
      subst size
      by_cases long : maxMsgText < byteLen rest
      · obtain ⟨cut, head, tail, found, split, rfl, between⟩ := cut_spec long
        have progress : (tail.dropWhile (· == ' ')).length < (head ++ tail).length := by
          have positive := List.length_pos_of_ne_nil between.nonempty
          have shorter := (List.dropWhile_suffix (· == ' ') (l := tail)).length_le
          rw [List.length_append]
          omega
        obtain ⟨chunks, runs, sound, spacedOut, wholeWords⟩ := ih _ progress _ rfl
        refine ⟨head :: chunks, ?_, ?_, spacedOut.cons, wholeWords.cons between⟩
        · intro fuel enough
          cases fuel with
          | zero => exact absurd enough (Nat.not_lt_zero _)
          | succ fuel =>
              have later := runs fuel (by omega)
              rw [splitRest, if_pos long, found]
              dsimp only [Option.bind_eq_bind, Option.bind_some]
              rw [split]
              dsimp only [Option.bind_some]
              rw [later]
              rfl
        · intro chunk mem
          rcases List.mem_cons.mp mem with rfl | later
          · exact ⟨between.nonempty, between.fits⟩
          · exact sound chunk later
      · refine ⟨if rest.isEmpty then [] else [rest], ?_, ?_, ?_⟩
        · intro fuel enough
          cases fuel with
          | zero => exact absurd enough (Nat.not_lt_zero _)
          | succ fuel => rw [splitRest, if_neg long]
        · intro chunk mem
          split_ifs at mem with none
          · cases mem
          · cases List.mem_singleton.mp mem
            exact ⟨by simpa using none, Nat.le_of_not_lt long⟩
        · cases rest with
          | nil => exact ⟨⟨[], rfl, rfl⟩, [], rfl, rfl, by simp⟩
          | cons c rest => exact whole_chunk (c :: rest)

/-- Splitting a body comes to an end, at the boundaries of characters, in chunks that are
not empty and fit a line. They are the body but for spaces where it was cut, and the words
of less than half a line are whole. -/
theorem splitBody_chunks {text : List Char} (nonempty : text ≠ []) (plain : ctcp ∉ text) :
    ∃ chunks, (∀ fuel, text.length < fuel → splitBody fuel text = some chunks) ∧
      (∀ chunk ∈ chunks, chunk ≠ [] ∧ byteLen chunk ≤ maxMsgText) ∧
      SpacedOut text chunks ∧ WholeWords text chunks := by
  by_cases short : byteLen text ≤ maxMsgText
  · refine ⟨[text], ?_, ?_, whole_chunk text⟩
    · intro fuel _
      rw [splitBody, if_pos (by simp [short])]
    · intro chunk mem
      cases List.mem_singleton.mp mem
      exact ⟨nonempty, short⟩
  · obtain ⟨chunks, runs, sound⟩ := splitRest_spec text
    refine ⟨chunks, fun fuel enough => ?_, sound⟩
    rw [splitBody, if_neg (by simp [short, plain]), runs fuel enough]

/-- Half a line of one word, and as much again of short ones. -/
def longNotice : List Char := List.replicate 250 'x' ++ (List.replicate 60 " ab".toList).flatten

theorem longNotice_chunks :
    longNotice ≠ [] ∧ ctcp ∉ longNotice ∧
    ∃ chunks, (∀ fuel, longNotice.length < fuel → splitBody fuel longNotice = some chunks) ∧
      (∀ chunk ∈ chunks, chunk ≠ [] ∧ byteLen chunk ≤ maxMsgText) ∧
      SpacedOut longNotice chunks ∧ WholeWords longNotice chunks :=
  ⟨by decide +kernel, by decide +kernel, splitBody_chunks (by decide +kernel) (by decide +kernel)⟩

end Echo
