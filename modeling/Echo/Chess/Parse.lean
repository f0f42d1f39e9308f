import Echo.Chess.Moves
import Echo.Chess.Wire

/-!
Moves as players write them: the two squares, and the letter of a promotion.

The squares of a text are counted from its bytes. A file beyond h is counted as well,
and carries over into the next rank; so a text can come to the squares of a legal move
without naming them, and what stands behind the letter is not read at all.
-/

namespace Echo.Chess

/-! ### The parser -/

/-- The promotion that a text asks for, by its fifth byte. -/
def letterOf : List UInt8 → UInt8
  | p :: _ => lower p
  | [] => 0

/-- The move of a text, if it is a legal one. None where an overflow ends the program. -/
def parse (checked : Bool) (st : State) (uci : List Char) : Option (Option Move) :=
  let bytes := Lib.encode uci
  if bytes.length < 4 then some none
  else do
    let src ← sqName checked (bytes.take 2)
    let dst ← sqName checked ((bytes.drop 2).take 2)
    let promo := letterOf (bytes.drop 4)
    pure ((legal st).find? fun m => m.from == src && m.to == dst && m.promo == promo)

/-! ### Names -/

/-- The text is the name of a move: its squares, and behind them the letter of the
promotion in either case. -/
def IsUci (m : Move) (text : List Char) : Prop :=
  ∃ letter : List UInt8, text = (nameSq m.from ++ nameSq m.to ++ letter).map char ∧
    if m.promo = 0 then letter = [] else letter = [m.promo] ∨ letter = [upper m.promo]

/-- The text is parsed as it should: without a fault, and to a legal move that it names
or to none. -/
def ParsedExactly (checked : Bool) (st : State) (text : List Char) : Prop :=
  parse checked st text ≠ none ∧
    ∀ m, parse checked st text = some (some m) ↔ m ∈ legal st ∧ IsUci m text

/-- The texts differ in the case of the promotion letter only. -/
def SameUpToCase (text text' : List Char) : Prop :=
  text.take 4 = text'.take 4 ∧ (text.drop 4).map Char.toLower = (text'.drop 4).map Char.toLower

/-! ### Counting -/

/-- Two bytes count to a square, where the files go on behind h. -/
def CountsTo (a b : UInt8) (s : Int) : Prop :=
  byte 'a' ≤ a ∧ byte '1' ≤ b ∧ s = csq (a - byte 'a').toNat (b - byte '1').toNat

/-- The bytes count to the squares of a move and go on with its promotion. -/
def Reaches (m : Move) : List UInt8 → Prop
  | a :: b :: c :: d :: rest => CountsTo a b m.from ∧ CountsTo c d m.to ∧ letterOf rest = m.promo
  | _ => False

/-- Bytes that count to a legal move stay within the files, and end with the move. -/
def WellSpelt (m : Move) : List UInt8 → Prop
  | a :: _ :: c :: _ :: rest =>
      a ≤ byte 'h' ∧ c ≤ byte 'h' ∧ rest.length = if m.promo = 0 then 0 else 1
  | _ => True

/-- No byte of the squares is below its first value. -/
def AboveBase : List UInt8 → Prop
  | a :: b :: c :: d :: _ => byte 'a' ≤ a ∧ byte '1' ≤ b ∧ byte 'a' ≤ c ∧ byte '1' ≤ d
  | _ => True

section Counting

variable {a b x : UInt8} {s : Int}

theorem sqName_pair (checked : Bool) (a b : UInt8) : sqName checked [a, b] =
    if checked ∧ (a < byte 'a' ∨ b < byte '1') then none
    else some (csq (a - byte 'a').toNat (b - byte '1').toNat) := by
  unfold sqName subByte
  cases checked with
  | false => simp
  | true =>
      by_cases low : a < byte 'a'
      · simp [low]
      · by_cases low' : b < byte '1'
        · simp [low, low']
        · simp [low, low']

/-- Counting to a square of the board wraps around nowhere. -/
theorem countsTo_iff (range : 0 ≤ s ∧ s < 64) :
    CountsTo a b s ↔ s = csq (a - byte 'a').toNat (b - byte '1').toNat := by
  constructor
  · rintro ⟨_, _, same⟩
    exact same
  · intro same
    have fileBase : (byte 'a').toNat = 97 := rfl
    have rankBase : (byte '1').toNat = 49 := rfl
    have file := UInt8.toNat_sub a (byte 'a')
    have rank := UInt8.toNat_sub b (byte '1')
    have smallA := a.toNat_lt
    have smallB := b.toNat_lt
    unfold csq at same
    refine ⟨?_, ?_, same⟩
    · rw [UInt8.le_iff_toNat_le]
      omega
    · rw [UInt8.le_iff_toNat_le]
      omega

theorem nameSq_eq_iff (range : 0 ≤ s ∧ s < 64) :
    nameSq s = [a, b] ↔ CountsTo a b s ∧ a ≤ byte 'h' := by
  obtain ⟨fileBack, fileUp, file⟩ := byte_add_sub (byte 'a') (by decide) (cf_onBoard s)
  obtain ⟨rankBack, rankUp, rank⟩ := byte_add_sub (byte '1') (by decide) (cr_onBoard range)
  unfold nameSq
  constructor
  · intro same
    obtain ⟨sameA, rest⟩ := List.cons.inj same
    obtain ⟨sameB, _⟩ := List.cons.inj rest
    subst sameA sameB
    refine ⟨⟨fileUp, rankUp, ?_⟩, ?_⟩
    · rw [fileBack, rankBack, file, rank, csq_cf_cr]
    · have on := cf_onBoard s
      rw [onBoard_iff] at on
      have last : (byte 'h').toNat = 104 := rfl
      have base : (byte 'a').toNat = 97 := rfl
      rw [UInt8.le_iff_toNat_le, UInt8.toNat_add]
      omega
  · rintro ⟨⟨aboveA, aboveB, same⟩, within⟩
    have base : (byte 'a').toNat = 97 := rfl
    have last : (byte 'h').toNat = 104 := rfl
    have onF : onBoard (a - byte 'a').toNat = true := by
      rw [onBoard_iff]
      rw [UInt8.le_iff_toNat_le] at aboveA within
      rw [UInt8.toNat_sub_of_le _ _ (UInt8.le_iff_toNat_le.mpr aboveA)]
      omega
    have sameF : (cf s).toNat.toUInt8 = a - byte 'a' := by
      rw [same, cf_csq onF, Int.toNat_natCast]
      exact UInt8.ofNat_toNat
    have sameR : (cr s).toNat.toUInt8 = b - byte '1' := by
      rw [same, cr_csq onF, Int.toNat_natCast]
      exact UInt8.ofNat_toNat
    rw [sameF, sameR, UInt8.add_comm, UInt8.sub_add_cancel, UInt8.add_comm (byte '1'),
      UInt8.sub_add_cancel]

end Counting

section Names

variable {m : Move} {st : State} {text : List Char}

theorem upper_promo : ∀ pr ∈ promos, lower pr = pr ∧ lower (upper pr) = pr ∧ pr ≠ 0 ∧
    Lib.encode [char pr] = [pr] ∧ Lib.encode [char (upper pr)] = [upper pr] := by decide +kernel

/-- A letter that is read as a small one is the small or the capital one. -/
theorem eq_of_lower {x pr : UInt8} (letter : pr ∈ promos) (same : lower x = pr) :
    x = pr ∨ x = upper pr := by
  unfold lower at same
  split at same
  · right
    have small : ∀ pr ∈ promos, byte 'a' ≤ pr ∧ pr ≤ byte 'z' := by decide +kernel
    unfold upper
    rw [if_pos (small pr letter), ← same, UInt8.add_sub_cancel]
  · exact .inl same

theorem letterOf_iff (promo : m.promo = 0 ∨ m.promo ∈ promos) (rest : List UInt8) :
    (if m.promo = 0 then rest = [] else rest = [m.promo] ∨ rest = [upper m.promo]) ↔
      letterOf rest = m.promo ∧ rest.length = if m.promo = 0 then 0 else 1 := by
  rcases promo with none | letter
  · rw [none, if_pos rfl, if_pos rfl, List.length_eq_zero_iff]
    constructor
    · rintro rfl
      exact ⟨rfl, rfl⟩
    · rintro ⟨_, nothing⟩
      exact nothing
  · obtain ⟨small, capital, nonzero, _⟩ := upper_promo _ letter
    rw [if_neg nonzero, if_neg nonzero, List.length_eq_one_iff]
    constructor
    · rintro (rfl | rfl)
      · exact ⟨small, m.promo, rfl⟩
      · exact ⟨capital, upper m.promo, rfl⟩
    · rintro ⟨same, x, rfl⟩
      rcases eq_of_lower letter same with rfl | rfl
      · exact .inl rfl
      · exact .inr rfl

/-- The bytes of a name. -/
theorem encode_name (marks : Marked st m) {letter : List UInt8}
    (tail : if m.promo = 0 then letter = [] else letter = [m.promo] ∨ letter = [upper m.promo]) :
    Lib.encode ((nameSq m.from ++ nameSq m.to ++ letter).map char) =
      nameSq m.from ++ nameSq m.to ++ letter := by
  have last : Lib.encode (letter.map char) = letter := by
    rcases marks.promo with none | promoted
    · rw [if_pos none] at tail
      rw [tail]
      rfl
    · obtain ⟨_, _, nonzero, small, capital⟩ := upper_promo _ promoted
      rw [if_neg nonzero] at tail
      rcases tail with rfl | rfl
      · exact small
      · exact capital
  rw [List.map_append, List.map_append, Lib.encode_append, Lib.encode_append, last,
    (nameSq_ascii marks.from).2, (nameSq_ascii marks.to).2]

/-- A text names a candidate when it counts to it and is well spelt. -/
theorem isUci_iff (marks : Marked st m) :
    IsUci m text ↔ Reaches m (Lib.encode text) ∧ WellSpelt m (Lib.encode text) := by
  constructor
  · rintro ⟨letter, rfl, tail⟩
    rw [encode_name marks tail]
    have source := (nameSq_eq_iff marks.from).mp rfl
    have target := (nameSq_eq_iff marks.to).mp rfl
    obtain ⟨promo, size⟩ := (letterOf_iff marks.promo letter).mp tail
    exact ⟨⟨source.1, target.1, promo⟩, source.2, target.2, size⟩
  · rintro ⟨reaches, spelt⟩
    generalize bytes : Lib.encode text = spelling at reaches spelt
    match spelling, reaches, spelt with
    | a :: b :: c :: d :: rest, ⟨source, target, promo⟩, ⟨withinA, withinC, size⟩ =>
        have tail := (letterOf_iff marks.promo rest).mpr ⟨promo, size⟩
        refine ⟨rest, ?_, tail⟩
        apply Lib.encode_inj
        rw [encode_name marks tail, bytes, (nameSq_eq_iff marks.from).mpr ⟨source, withinA⟩,
          (nameSq_eq_iff marks.to).mpr ⟨target, withinC⟩]
        rfl

end Names

/-! ### What the parser returns -/

section Parsing

variable {checked : Bool} {st : State} {text : List Char} {m : Move}

theorem legal_marked (mem : m ∈ legal st) : Marked st m :=
  Marked.of_mem (List.mem_filter.mp mem).1

theorem find_move {src dst : Int} {promo : UInt8} :
    ((legal st).find? fun m => m.from == src && m.to == dst && m.promo == promo) = some m ↔
      m ∈ legal st ∧ m.from = src ∧ m.to = dst ∧ m.promo = promo := by
  have asked : ∀ m : Move, (m.from == src && m.to == dst && m.promo == promo) = true ↔
      m.from = src ∧ m.to = dst ∧ m.promo = promo := by
    intro m
    rw [Bool.and_eq_true, Bool.and_eq_true, beq_iff_eq, beq_iff_eq, beq_iff_eq, and_assoc]
  constructor
  · intro found
    have hit := List.find?_some found
    exact ⟨List.mem_of_find?_eq_some found, (asked m).mp hit⟩
  · rintro ⟨mem, squares⟩
    cases found : (legal st).find? fun m => m.from == src && m.to == dst && m.promo == promo with
    | none => exact absurd ((asked m).mpr squares) (List.find?_eq_none.mp found m mem)
    | some m' =>
        -- No other legal move has the same squares and the same promotion.
        have mem' := List.mem_of_find?_eq_some found
        have hit := List.find?_some found
        obtain ⟨sameFrom, sameTo, samePromo⟩ := (asked m').mp hit
        rw [eq_of_squares (List.mem_filter.mp mem').1 (List.mem_filter.mp mem).1
          (sameFrom.trans squares.1.symm) (sameTo.trans squares.2.1.symm)
          (samePromo.trans squares.2.2.symm)]

theorem parse_four {a b c d : UInt8} {rest : List UInt8}
    (bytes : Lib.encode text = a :: b :: c :: d :: rest) : parse checked st text =
      if checked = true ∧ ((a < byte 'a' ∨ b < byte '1') ∨ c < byte 'a' ∨ d < byte '1') then none
      else some ((legal st).find? fun m => m.from == csq (a - byte 'a').toNat (b - byte '1').toNat &&
        m.to == csq (c - byte 'a').toNat (d - byte '1').toNat && m.promo == letterOf rest) := by
  have front : parse checked st text = (sqName checked [a, b]).bind fun src =>
      (sqName checked [c, d]).bind fun dst =>
        some ((legal st).find? fun m => m.from == src && m.to == dst && m.promo == letterOf rest) := by
    unfold parse
    rw [bytes]
    rfl
  rw [front, sqName_pair, sqName_pair]
  cases checked with
  | false => simp
  | true =>
      by_cases low : a < byte 'a' ∨ b < byte '1'
      · simp [low]
      · by_cases low' : c < byte 'a' ∨ d < byte '1'
        · simp [low, low']
        · simp [low, low']

/-- The parser fails on a byte below its base, if overflows are checked, and otherwise
returns the legal move that the text counts to. -/
theorem parse_cases (checked : Bool) (st : State) (text : List Char) :
    (checked = true ∧ ¬ AboveBase (Lib.encode text) ∧ parse checked st text = none) ∨
      ((checked = true → AboveBase (Lib.encode text)) ∧ ∃ out, parse checked st text = some out ∧
        ∀ m, out = some m ↔ m ∈ legal st ∧ Reaches m (Lib.encode text)) := by
  have short : (Lib.encode text).length < 4 → AboveBase (Lib.encode text) →
      (∀ m, ¬ Reaches m (Lib.encode text)) →
      (checked = true → AboveBase (Lib.encode text)) ∧ ∃ out, parse checked st text = some out ∧
        ∀ m, out = some m ↔ m ∈ legal st ∧ Reaches m (Lib.encode text) := by
    intro few above nothing
    refine ⟨fun _ => above, none, if_pos few, ?_⟩
    intro m
    simp [nothing m]
  match bytes : Lib.encode text with
  | [] | [_] | [_, _] | [_, _, _] =>
      right
      rw [bytes] at short
      exact short (by simp) trivial fun _ => id
  | a :: b :: c :: d :: rest =>
      have below : ¬ AboveBase (a :: b :: c :: d :: rest) ↔
          (a < byte 'a' ∨ b < byte '1') ∨ c < byte 'a' ∨ d < byte '1' := by
        change ¬ (byte 'a' ≤ a ∧ byte '1' ≤ b ∧ byte 'a' ≤ c ∧ byte '1' ≤ d) ↔ _
        rw [← UInt8.not_lt, ← UInt8.not_lt, ← UInt8.not_lt, ← UInt8.not_lt]
        tauto
      rw [parse_four bytes]
      by_cases low : checked = true ∧ ((a < byte 'a' ∨ b < byte '1') ∨ c < byte 'a' ∨ d < byte '1')
      · exact .inl ⟨low.1, below.mpr low.2, if_pos low⟩
      · right
        rw [if_neg low]
        refine ⟨fun on => not_not.mp fun under => low ⟨on, below.mp under⟩, _, rfl, ?_⟩
        intro m
        rw [find_move]
        apply and_congr_right
        intro mem
        have marks := legal_marked mem
        change _ ↔ CountsTo a b m.from ∧ CountsTo c d m.to ∧ letterOf rest = m.promo
        rw [countsTo_iff marks.from, countsTo_iff marks.to, @eq_comm _ m.promo]

/-- The parser is exact on a text when its bytes are not below their bases, in a program
that checks for overflows, and every legal move that the text counts to is well spelt. -/
theorem parsedExactly_iff (checked : Bool) (st : State) (text : List Char) :
    ParsedExactly checked st text ↔ (checked = true → AboveBase (Lib.encode text)) ∧
      ∀ m ∈ legal st, Reaches m (Lib.encode text) → WellSpelt m (Lib.encode text) := by
  unfold ParsedExactly
  rcases parse_cases checked st text with ⟨on, below, fails⟩ | ⟨above, out, returns, found⟩
  · rw [fails]
    constructor
    · rintro ⟨noFault, _⟩
      exact absurd rfl noFault
    · rintro ⟨above, _⟩
      exact absurd (above on) below
  · rw [returns]
    constructor
    · rintro ⟨_, parses⟩
      refine ⟨above, ?_⟩
      intro m mem reaches
      have named := (parses m).mp (congrArg some ((found m).mpr ⟨mem, reaches⟩))
      exact ((isUci_iff (legal_marked mem)).mp named.2).2
    · rintro ⟨_, spelt⟩
      refine ⟨nofun, ?_⟩
      intro m
      rw [Option.some_inj, found m]
      apply and_congr_right
      intro mem
      rw [isUci_iff (legal_marked mem)]
      constructor
      · intro reaches
        exact ⟨reaches, spelt m mem reaches⟩
      · rintro ⟨reaches, _⟩
        exact reaches

/-- Two names of one move differ in the case of its letter. -/
theorem IsUci.same {text' : List Char} (marks : Marked st m) (named : IsUci m text)
    (named' : IsUci m text') : SameUpToCase text text' := by
  obtain ⟨letter, rfl, tail⟩ := named
  obtain ⟨letter', rfl, tail'⟩ := named'
  have squares : ∀ letter : List UInt8,
      ((nameSq m.from ++ nameSq m.to ++ letter).map char).take 4 =
          (nameSq m.from ++ nameSq m.to).map char ∧
        ((nameSq m.from ++ nameSq m.to ++ letter).map char).drop 4 = letter.map char := by
    intro letter
    exact ⟨rfl, rfl⟩
  have folded : ∀ pr ∈ promos, (char (upper pr)).toLower = char pr ∧
      (char pr).toLower = char pr := by decide +kernel
  constructor
  · rw [(squares letter).1, (squares letter').1]
  · rw [(squares letter).2, (squares letter').2]
    rcases marks.promo with none | promoted
    · rw [if_pos none] at tail tail'
      rw [tail, tail']
    · obtain ⟨_, _, nonzero, _, _⟩ := upper_promo _ promoted
      obtain ⟨capital, small⟩ := folded _ promoted
      rw [if_neg nonzero] at tail tail'
      rcases tail with rfl | rfl <;> rcases tail' with rfl | rfl <;> simp [capital, small]

end Parsing

/-- Two texts are parsed exactly, and as different moves unless they differ in the case of
a promotion letter only, if and only if both are above their bases where overflows are
checked, and well spelt for every legal move they count to. -/
theorem parse_exact_iff (checked : Bool) (st : State) (text text' : List Char) :
    (ParsedExactly checked st text ∧ ParsedExactly checked st text' ∧
        ∀ m, parse checked st text = some (some m) → parse checked st text' = some (some m) →
          SameUpToCase text text') ↔
      ∀ spelling ∈ [Lib.encode text, Lib.encode text'], (checked = true → AboveBase spelling) ∧
        ∀ m ∈ legal st, Reaches m spelling → WellSpelt m spelling := by
  have both : (∀ spelling ∈ [Lib.encode text, Lib.encode text'],
      (checked = true → AboveBase spelling) ∧
        ∀ m ∈ legal st, Reaches m spelling → WellSpelt m spelling) ↔
      ParsedExactly checked st text ∧ ParsedExactly checked st text' := by
    rw [parsedExactly_iff, parsedExactly_iff, List.forall_mem_cons, List.forall_mem_singleton]
  rw [both]
  constructor
  · rintro ⟨first, second, _⟩
    exact ⟨first, second⟩
  · rintro ⟨first, second⟩
    refine ⟨first, second, ?_⟩
    intro m parsed parsed'
    obtain ⟨mem, named⟩ := (first.2 m).mp parsed
    exact named.same (legal_marked mem) ((second.2 m).mp parsed').2

/-- From the initial position, `i1i3` is taken for a double push on the a-file. -/
theorem push_misread : ¬ ParsedExactly false initial "i1i3".toList := by
  intro parses
  have played : parse false initial "i1i3".toList =
      some (some { «from» := 8, «to» := 24, dbl := true }) := by decide +kernel
  obtain ⟨letter, same, _⟩ := ((parses.2 _).mp played).2
  have first : some 'i' = some 'a' := congrArg List.head? same
  exact absurd first (by decide)

end Echo.Chess
