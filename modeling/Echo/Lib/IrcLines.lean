import Echo.Lib.Splitting
import Mathlib.Data.List.Basic

/-!
Lines of the IRC protocol: message tags, a source, a command, middle parameters and a trailing
one. A line whose words are words is read as it was written, whatever stands in its tag values
and in its trailing parameter.
-/

namespace Echo.Lib.Irc

structure Line where
  tags : List (List Char × List Char) := []
  source : Option (List Char) := none
  command : List Char
  middles : List (List Char) := []
  trailing : Option (List Char) := none
  deriving DecidableEq, Repr

/-! ### Tag values -/

def escape : Char → List Char
  | ';' => ['\\', ':']
  | ' ' => ['\\', 's']
  | '\\' => ['\\', '\\']
  | '\r' => ['\\', 'r']
  | '\n' => ['\\', 'n']
  | c => [c]

/-- The character that an escaped one stands for. -/
def unescaped : Char → Char
  | ':' => ';'
  | 's' => ' '
  | 'r' => '\r'
  | 'n' => '\n'
  | c => c

def unescape : List Char → List Char
  | [] => []
  | ['\\'] => []
  | '\\' :: c :: rest => unescaped c :: unescape rest
  | c :: rest => c :: unescape rest

theorem unescape_cons {c : Char} {rest : List Char} (plain : c ≠ '\\') :
    unescape (c :: rest) = c :: unescape rest := by
  cases rest <;> simp [unescape, plain]

theorem unescape_escape (value : List Char) : unescape (value.flatMap escape) = value := by
  induction value with
  | nil => rfl
  | cons c value ih =>
    rw [List.flatMap_cons, escape.eq_def]
    split
    · simp [unescape, unescaped, ih]
    · simp [unescape, unescaped, ih]
    · simp [unescape, unescaped, ih]
    · simp [unescape, unescaped, ih]
    · simp [unescape, unescaped, ih]
    · rename_i plain _ _
      rw [List.singleton_append, unescape_cons plain, ih]

/-- An escaped value has nothing in it that ends a tag. -/
theorem not_mem_escape {value : List Char} {c : Char} (ends : c = ';' ∨ c = ' ') : c ∉ value.flatMap escape := by
  intro mem
  obtain ⟨d, -, mem⟩ := List.mem_flatMap.mp mem
  rw [escape.eq_def] at mem
  split at mem
  iterate 5 rcases ends with rfl | rfl <;> simp at mem
  obtain rfl := List.mem_singleton.mp mem
  rcases ends with rfl | rfl <;> contradiction

/-! ### Writing -/

/-- A tag with its value. -/
def writeTag (tag : List Char × List Char) : List Char := tag.1 ++ '=' :: tag.2.flatMap escape

def writeTags : List (List Char × List Char) → List Char
  | [] => []
  | tags => '@' :: ([';'].intercalate (tags.map writeTag) ++ [' '])

theorem writeTags_of_ne_nil {tags : List (List Char × List Char)} (some : tags ≠ []) :
    writeTags tags = '@' :: ([';'].intercalate (tags.map writeTag) ++ [' ']) := by
  cases tags with
  | nil => exact absurd rfl some
  | cons tag tags => simp [writeTags]

def writeSource : Option (List Char) → List Char
  | none => []
  | some source => ':' :: (source ++ [' '])

def writeParams (trailing : Option (List Char)) : List (List Char) → List Char
  | [] => match trailing with
    | none => []
    | some text => ' ' :: ':' :: text
  | middle :: middles => ' ' :: (middle ++ writeParams trailing middles)

def Line.write (line : Line) : List Char :=
  writeTags line.tags ++ (writeSource line.source ++ (line.command ++ writeParams line.trailing line.middles))

/-! ### Reading -/

def readTag (text : List Char) : List Char × List Char :=
  match splitOnce ['='] text with
  | some (key, value) => (key, unescape value)
  | none => (text, [])

def readTags : List Char → Option (List (List Char × List Char) × List Char)
  | '@' :: rest => (splitOnce [' '] rest).map fun (tags, rest) => ((tags.splitOn ';').map readTag, rest)
  | rest => some ([], rest)

def readSource : List Char → Option (Option (List Char) × List Char)
  | ':' :: rest => (splitOnce [' '] rest).map fun (source, rest) => (some source, rest)
  | rest => some (none, rest)

/-- The parameters behind a space, in so many rounds. -/
def readParams : Nat → List Char → List (List Char) × Option (List Char)
  | 0, _ => ([], none)
  | n + 1, rest =>
    match rest with
    | ':' :: trailing => ([], some trailing)
    | rest =>
      match splitOnce [' '] rest with
      | none => ([rest], none)
      | some (middle, rest) => (middle :: (readParams n rest).1, (readParams n rest).2)

def readLine (line : List Char) : Option Line := do
  let (tags, rest) ← readTags line
  let (source, rest) ← readSource rest
  match splitOnce [' '] rest with
  | none => some { tags, source, command := rest }
  | some (command, params) =>
    let (middles, trailing) := readParams (params.length + 1) params
    some { tags, source, command, middles, trailing }

/-! ### What is written is read -/

/-- A word: it is not empty, has no space in it and is not taken for a trailing parameter. -/
structure Word (word : List Char) : Prop where
  nonempty : word ≠ []
  solid : ' ' ∉ word
  plain : word.head? ≠ some ':'

structure Line.Proper (line : Line) : Prop where
  keys : ∀ tag ∈ line.tags, ';' ∉ tag.1 ∧ '=' ∉ tag.1 ∧ ' ' ∉ tag.1
  source : ∀ source ∈ line.source, ' ' ∉ source
  command : Word line.command ∧ line.command.head? ≠ some '@'
  middles : ∀ middle ∈ line.middles, Word middle

section Reading

variable {key value rest : List Char}

theorem readTag_writeTag {tag : List Char × List Char} (key : '=' ∉ tag.1) : readTag (writeTag tag) = tag := by
  rw [readTag, writeTag, splitOnce_single key]
  simp [unescape_escape]

theorem readTags_writeTags {tags : List (List Char × List Char)} {rest : List Char}
    (keys : ∀ tag ∈ tags, ';' ∉ tag.1 ∧ '=' ∉ tag.1 ∧ ' ' ∉ tag.1) (none : rest.head? ≠ some '@') :
    readTags (writeTags tags ++ rest) = some (tags, rest) := by
  cases tags with
  | nil =>
    cases rest with
    | nil => rfl
    | cons c rest =>
      have plain : c ≠ '@' := by simpa using none
      simp [readTags, writeTags, plain]
  | cons tag tags =>
    generalize all : tag :: tags = tags at keys
    have free {c : Char} (ends : c = ';' ∨ c = ' ') : ∀ part ∈ tags.map writeTag, c ∉ part := by
      intro part mem
      obtain ⟨tag, here, rfl⟩ := List.mem_map.mp mem
      have key := keys tag here
      have value := @not_mem_escape tag.2 c ends
      rcases ends with rfl | rfl <;> simp_all [writeTag]
    have solid : ' ' ∉ [';'].intercalate (tags.map writeTag) := by
      intro mem
      rcases mem_intercalate mem with bad | ⟨part, there, mem⟩
      · cases bad
      · exact free (.inr rfl) part there mem
    have split : ([';'].intercalate (tags.map writeTag)).splitOn ';' = tags.map writeTag :=
      List.splitOn_intercalate ';' (free (.inl rfl)) (by simp [← all])
    have read : (tags.map writeTag).map readTag = tags := by
      rw [List.map_map]
      exact (List.map_congr_left fun tag mem => readTag_writeTag (keys tag mem).2.1).trans (List.map_id _)
    rw [writeTags_of_ne_nil (by simp [← all]), List.cons_append, List.append_assoc, List.singleton_append, readTags,
      splitOnce_single solid]
    simp [split, read]

theorem readSource_writeSource {source : Option (List Char)} {rest : List Char} (solid : ∀ s ∈ source, ' ' ∉ s)
    (none : rest.head? ≠ some ':') : readSource (writeSource source ++ rest) = some (source, rest) := by
  cases source with
  | none =>
    cases rest with
    | nil => rfl
    | cons c rest =>
      have plain : c ≠ ':' := by simpa using none
      simp [readSource, writeSource, plain]
  | some source => simp [readSource, writeSource, splitOnce_single (solid source rfl)]

/-- Parameters begin with a space or there are none. -/
theorem writeParams_begins (trailing : Option (List Char)) (middles : List (List Char)) :
    writeParams trailing middles = [] ∧ trailing = none ∧ middles = [] ∨
      ∃ params, writeParams trailing middles = ' ' :: params := by
  cases middles with
  | nil => cases trailing <;> simp [writeParams]
  | cons middle middles => simp [writeParams]

theorem readParams_word {n : Nat} {middle rest : List Char} (word : Word middle) :
    readParams (n + 1) (middle ++ rest) =
      match splitOnce [' '] (middle ++ rest) with
      | none => ([middle ++ rest], none)
      | some (middle, rest) => (middle :: (readParams n rest).1, (readParams n rest).2) := by
  cases middle with
  | nil => exact absurd rfl word.nonempty
  | cons c middle =>
    have plain : c ≠ ':' := by simpa using word.plain
    rw [readParams.eq_def]
    simp [plain]

theorem readParams_writeParams {trailing : Option (List Char)} {middles : List (List Char)} {params : List Char}
    {n : Nat} (words : ∀ middle ∈ middles, Word middle) (written : writeParams trailing middles = ' ' :: params)
    (enough : params.length < n) : readParams n params = (middles, trailing) := by
  induction middles generalizing params n with
  | nil =>
    cases trailing with
    | none => cases written
    | some text =>
      cases written
      obtain ⟨n, rfl⟩ := Nat.exists_eq_add_of_le' (Nat.lt_of_le_of_lt (Nat.zero_le _) enough)
      rfl
  | cons middle middles ih =>
    cases written
    obtain ⟨n, rfl⟩ := Nat.exists_eq_add_of_le' (Nat.lt_of_le_of_lt (Nat.zero_le _) enough)
    have word := words middle List.mem_cons_self
    rcases writeParams_begins trailing middles with ⟨none, rfl, rfl⟩ | ⟨params, goes⟩
    · rw [none, readParams_word word, List.append_nil, splitOnce_single_none word.solid]
    · rw [goes, List.length_append, List.length_cons] at enough
      rw [goes, readParams_word word, splitOnce_single word.solid]
      simp only
      rw [ih (fun m mem => words m (List.mem_cons_of_mem _ mem)) goes (by omega)]

/-- A proper line is read as it was written. -/
theorem readLine_write {line : Line} (proper : line.Proper) : readLine line.write = some line := by
  have word := proper.command.1
  have begins {rest : List Char} : (line.command ++ rest).head? = line.command.head? := by
    cases found : line.command with
    | nil => exact absurd found word.nonempty
    | cons => rfl
  have noTags : (writeSource line.source ++ (line.command ++ writeParams line.trailing line.middles)).head? ≠
      some '@' := by
    cases line.source with
    | none => simpa [writeSource, begins] using proper.command.2
    | some source => simp [writeSource]
  have noSource : (line.command ++ writeParams line.trailing line.middles).head? ≠ some ':' := by
    rw [begins]
    exact word.plain
  rw [Line.write, readLine, readTags_writeTags proper.keys noTags]
  simp only [Option.bind_eq_bind, Option.bind_some]
  rw [readSource_writeSource proper.source noSource]
  simp only [Option.bind_some]
  rcases writeParams_begins line.trailing line.middles with ⟨none, noTrailing, noMiddles⟩ | ⟨params, written⟩
  · rw [none, List.append_nil, splitOnce_single_none word.solid]
    simp [← noTrailing, ← noMiddles]
  · rw [written, splitOnce_single word.solid]
    simp only
    rw [readParams_writeParams proper.middles written (Nat.lt_succ_self _)]

end Reading

end Echo.Lib.Irc
