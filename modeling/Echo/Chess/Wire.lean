import Echo.Lib.Splitting
import Echo.Lib.Utf8
import Echo.Chess.State
import Mathlib.Data.Bool.AllAny

/-!
The wire form of a position: its rows from the eighth rank down, the side to move, the
castling rights and the en-passant square, with commas between them.

A position is read back as it was written. A row is written with the empty squares
counted and read with a counter of files, and what both have done of a rank is the same
part of the board: the squares passed are filled, all others are still empty.
-/

namespace Echo.Chess

open Echo.Lib (splitOnce splitOnce_single splitOnce_single_none)

/-! ### Writing -/

/-- One file of a rank: an empty square is counted, a piece is written behind the count. -/
def writeFile (b : Board) (r : Int) : Nat × List Char → Nat → Nat × List Char
  | (e, row), f =>
      let p := b.get (csq f r)
      if p ≠ empty then (0, (if e > 0 then row ++ Nat.toDigits 10 e else row) ++ [char p])
      else (e + 1, row)

def writeRank (b : Board) (r : Int) : List Char :=
  let (e, row) := (List.range 8).foldl (writeFile b r) (0, [])
  if e > 0 then row ++ Nat.toDigits 10 e else row

def writeRows (b : Board) : List Char :=
  (List.range 8).reverse.flatMap fun (r : Nat) => (if r < 7 then ['/'] else []) ++ writeRank b r

def writeRights (st : State) : List Char :=
  let cc := (if st.cK then ['K'] else []) ++ (if st.cQ then ['Q'] else []) ++
    (if st.cKBlack then ['k'] else []) ++ (if st.cQBlack then ['q'] else [])
  if cc = [] then ['-'] else cc

def writeEp (st : State) : List Char := if st.ep < 0 then ['-'] else (nameSq st.ep).map char

def encode (st : State) : List Char :=
  writeRows st.board ++ ',' :: ([char st.turn] ++ ',' :: (writeRights st ++ ',' :: writeEp st))

/-! ### Reading -/

/-- The first `n` fields, the last of them without the commas behind it. -/
def fields : Nat → List Char → List (List Char)
  | 0, _ => []
  | n + 1, enc =>
      match splitOnce [','] enc with
      | some (part, rest) => part :: fields n rest
      | none => [enc]

/-- A board being read, and the square the next byte is about. -/
structure Reader where
  r : Int
  f : Int
  board : Board

def Reader.read (c : Reader) (ch : UInt8) : Reader :=
  if ch = byte '/' then { c with r := c.r - 1, f := 0 }
  else if byte '1' ≤ ch ∧ ch ≤ byte '8' then { c with f := c.f + (ch - byte '0').toNat }
  else
    { c with
      board := if onBoard c.r && onBoard c.f then c.board.put (csq c.f c.r) ch else c.board
      f := c.f + 1 }

def readRight (st : State) (ch : UInt8) : State :=
  if ch = byte 'K' then { st with cK := true }
  else if ch = byte 'Q' then { st with cQ := true }
  else if ch = byte 'k' then { st with cKBlack := true }
  else if ch = byte 'q' then { st with cQBlack := true }
  else st

def readRows (rows : List Char) : Board :=
  ((Lib.encode rows).foldl Reader.read ⟨7, 0, fun _ => empty⟩).board

/-- The en-passant square, if the program gets past its name. -/
def readEp (checked : Bool) (ep : List Char) : Option Int :=
  if ep = ['-'] ∨ ep = [] then some (-1) else sqName checked (Lib.encode ep)

/-- The position of a wire form. None where the name of the en-passant square ends the
program: it is too short, or it is below a1 and overflows are checked. -/
def decode (checked : Bool) (enc : List Char) : Option State :=
  match fields 4 enc with
  | [rows, turn, rights, ep] =>
      let st : State :=
        { board := readRows rows
          turn := (Lib.encode turn).headD (byte 'w')
          cK := false
          cQ := false
          cKBlack := false
          cQBlack := false
          ep := -1 }
      (readEp checked ep).map fun sq => { (Lib.encode rights).foldl readRight st with ep := sq }
  | _ => some initial

/-! ### Well-formed positions -/

/-- The twelve pieces. -/
def pieces : List UInt8 := "PNBRQKpnbrqk".toList.map byte

structure Encodable (st : State) : Prop where
  squares : ∀ s, st.board.get s ∈ pieces ∨ st.board.get s = empty
  turn : st.turn = byte 'w' ∨ st.turn = byte 'b'
  ep : st.ep = -1 ∨ (0 ≤ st.ep ∧ st.ep < 64)

/-! ### The signs of a row -/

/-- The text of a piece is the piece, and is no other sign of a row. -/
theorem piece_sign {p : UInt8} (piece : p ∈ pieces) :
    Lib.encode [char p] = [p] ∧ p ≠ byte '/' ∧ ¬ (byte '1' ≤ p ∧ p ≤ byte '8') := by
  revert p
  decide +kernel

theorem read_piece {p : UInt8} (piece : p ∈ pieces) {r f : Int} (onR : onBoard r = true)
    (onF : onBoard f = true) (b : Board) :
    Reader.read ⟨r, f, b⟩ p = ⟨r, f + 1, b.put (csq f r) p⟩ := by
  obtain ⟨_, slash, digit⟩ := piece_sign piece
  unfold Reader.read
  rw [if_neg slash, if_neg digit, onR, onF]
  rfl

/-- A count of up to eight squares is read as one digit. -/
theorem read_count {e : Nat} (some : 0 < e) (few : e ≤ 8) (c : Reader) :
    (Lib.encode (Nat.toDigits 10 e)).foldl Reader.read c = { c with f := c.f + e } := by
  interval_cases e <;> rfl

/-! ### Rows -/

/-- The squares that have been read, up to file `n` of rank `r`, are the target's, and the
others are empty. -/
def Filled (target : Board) (r n : Int) (b : Board) : Prop :=
  ∀ f r', onBoard f = true → onBoard r' = true →
    b.get (csq f r') = if r < r' ∨ r' = r ∧ f < n then target.get (csq f r') else empty

section Rows

variable {target b : Board} {r n : Int}

/-- Empty squares need no reading. -/
theorem Filled.skip (filled : Filled target r n b) {n' : Int} (further : n ≤ n')
    (blank : ∀ f, n ≤ f → f < n' → target.get (csq f r) = empty) : Filled target r n' b := by
  intro f r' onF onR
  rw [filled f r' onF onR]
  by_cases before : r < r' ∨ r' = r ∧ f < n
  · rw [if_pos before, if_pos]
    omega
  · rw [if_neg before]
    by_cases between : r' = r ∧ f < n'
    · obtain ⟨rfl, below⟩ := between
      rw [if_pos (.inr ⟨rfl, below⟩), blank f (by omega) below]
    · rw [if_neg]
      omega

theorem Filled.put (filled : Filled target r n b) (onR : onBoard r = true) (onN : onBoard n = true) :
    Filled target r (n + 1) (b.put (csq n r) (target.get (csq n r))) := by
  intro f r' onF onR'
  rw [Board.get_put (csq_range onN onR)]
  by_cases here : csq f r' = csq n r
  · rw [if_pos here]
    obtain ⟨rfl, rfl⟩ := (csq_inj onF onN).mp here
    rw [if_pos (.inr ⟨rfl, by omega⟩)]
  · rw [if_neg here, filled f r' onF onR']
    rw [csq_inj onF onN] at here
    congr 1
    rw [eq_iff_iff]
    omega

theorem Filled.next (filled : Filled target r 8 b) : Filled target (r - 1) 0 b := by
  intro f r' onF onR
  rw [filled f r' onF onR]
  congr 1
  rw [eq_iff_iff]
  rw [onBoard_iff] at onF
  omega

/-- What is written of the first `k` files of a rank, of which the last `e` are empty
and only counted yet. -/
structure Written (target : Board) (r : Int) (k e : Nat) (row : List Char) : Prop where
  counted : e ≤ k
  blank : ∀ f : Int, k - e ≤ f → f < k → target.get (csq f r) = empty
  reads : ∀ b, Filled target r 0 b → ∃ b', Filled target r (k - e) b' ∧
    (Lib.encode row).foldl Reader.read ⟨r, 0, b⟩ = ⟨r, k - e, b'⟩

/-- With the count behind it, a row is read up to the last file written. -/
theorem Written.finish {k e : Nat} {row : List Char} (written : Written target r k e row)
    (few : k ≤ 8) (filled : Filled target r 0 b) :
    ∃ b', Filled target r k b' ∧
      (Lib.encode (if e > 0 then row ++ Nat.toDigits 10 e else row)).foldl Reader.read ⟨r, 0, b⟩ =
        ⟨r, k, b'⟩ := by
  obtain ⟨b', filled', reads⟩ := written.reads b filled
  have counted := written.counted
  refine ⟨b', filled'.skip (by omega) written.blank, ?_⟩
  by_cases some : e > 0
  · rw [if_pos some, Lib.encode_append, List.foldl_append, reads, read_count some (by omega),
      Int.sub_add_cancel]
  · obtain rfl : e = 0 := by omega
    rw [if_neg some, reads, Int.natCast_zero, Int.sub_zero]

theorem Written.writeFile {k e : Nat} {row : List Char} (written : Written target r k e row)
    (few : k < 8) (onR : onBoard r = true)
    (sound : ∀ s, target.get s ∈ pieces ∨ target.get s = empty) :
    Written target r (k + 1) (writeFile target r (e, row) k).1 (writeFile target r (e, row) k).2 := by
  have counted := written.counted
  have onK : onBoard k = true := by
    rw [onBoard_iff]
    omega
  unfold Chess.writeFile
  by_cases vacant : target.get (csq k r) = empty
  · simp only [vacant, ne_eq, not_true_eq_false, if_false]
    constructor
    · omega
    · intro f low high
      by_cases last : f = k
      · rw [last]
        exact vacant
      · exact written.blank f (by omega) (by omega)
    · intro b filled
      obtain ⟨b', filled', reads⟩ := written.reads b filled
      have same : ((k + 1 : Nat) : Int) - (e + 1 : Nat) = k - e := by omega
      rw [same]
      exact ⟨b', filled', reads⟩
  · simp only [vacant, ne_eq, not_false_eq_true, if_true]
    have piece := (sound (csq k r)).resolve_right vacant
    constructor
    · omega
    · intro f low high
      omega
    · intro b filled
      obtain ⟨b', filled', reads⟩ := written.finish (by omega) filled
      refine ⟨b'.put (csq k r) (target.get (csq k r)), ?_, ?_⟩
      · have grown := filled'.put onR onK
        have same : ((k + 1 : Nat) : Int) - (0 : Nat) = k + 1 := by omega
        rw [same]
        exact grown
      · rw [Lib.encode_append, (piece_sign piece).1, List.foldl_append, reads]
        change Reader.read ⟨r, k, b'⟩ _ = _
        rw [read_piece piece onR onK]
        congr 1

/-- A rank is read as it was written. -/
theorem read_writeRank (onR : onBoard r = true)
    (sound : ∀ s, target.get s ∈ pieces ∨ target.get s = empty) (filled : Filled target r 0 b) :
    ∃ b', Filled target r 8 b' ∧
      (Lib.encode (writeRank target r)).foldl Reader.read ⟨r, 0, b⟩ = ⟨r, 8, b'⟩ := by
  have files : ∀ k ≤ 8, Written target r k ((List.range k).foldl (writeFile target r) (0, [])).1
      ((List.range k).foldl (writeFile target r) (0, [])).2 := by
    intro k
    induction k with
    | zero =>
        intro _
        constructor
        · exact Nat.le_refl 0
        · intro f low high
          exact absurd high (Int.not_lt.mpr low)
        · intro b filled
          exact ⟨b, filled, rfl⟩
    | succ k ih =>
        intro few
        rw [List.range_succ, List.foldl_append]
        exact (ih (by omega)).writeFile (by omega) onR sound
  exact (files 8 (Nat.le_refl 8)).finish (Nat.le_refl 8) filled

/-- From the end of rank `n` on, the ranks below fill the board. -/
theorem read_ranks (sound : ∀ s, target.get s ∈ pieces ∨ target.get s = empty) {n : Nat}
    (low : n ≤ 7) (filled : Filled target n 8 b) :
    ((Lib.encode ((List.range n).reverse.flatMap fun (r : Nat) =>
      (if r < 7 then ['/'] else []) ++ writeRank target r)).foldl Reader.read ⟨n, 8, b⟩).board =
        target := by
  induction n generalizing b with
  | zero =>
      apply Board.ext_get
      intro f r onF onR
      change b.get (csq f r) = target.get (csq f r)
      rw [filled f r onF onR, if_pos]
      rw [onBoard_iff] at onF onR
      omega
  | succ n ih =>
      have onR : onBoard n = true := by
        rw [onBoard_iff]
        omega
      have lower : ((n + 1 : Nat) : Int) - 1 = n := by omega
      have next := filled.next
      rw [lower] at next
      obtain ⟨b', filled', reads⟩ := read_writeRank onR sound next
      rw [List.range_succ, List.reverse_concat, List.flatMap_cons, if_pos (show n < 7 by omega),
        Lib.encode_append, List.foldl_append, List.singleton_append,
        Lib.encode_cons_ascii (by decide), List.foldl_cons]
      change (List.foldl Reader.read (List.foldl Reader.read ⟨((n + 1 : Nat) : Int) - 1, 0, b⟩ _) _).board = _
      rw [lower, reads]
      exact ih (by omega) filled'

theorem readRows_writeRows (sound : ∀ s, target.get s ∈ pieces ∨ target.get s = empty) :
    readRows (writeRows target) = target := by
  have nothing : Filled target 7 0 fun _ => empty := by
    intro f r onF onR
    rw [onBoard_iff] at onF onR
    rw [if_neg (by omega)]
    unfold Board.get
    split <;> rfl
  obtain ⟨b', filled', reads⟩ := read_writeRank (by decide) sound nothing
  unfold readRows writeRows
  rw [List.range_succ, List.reverse_concat, List.flatMap_cons, if_neg (Nat.lt_irrefl 7),
    List.nil_append, Lib.encode_append, List.foldl_append]
  change (List.foldl Reader.read (List.foldl Reader.read ⟨7, 0, fun _ => empty⟩
    (Lib.encode (writeRank target 7))) _).board = _
  rw [reads]
  exact read_ranks sound (Nat.le_refl 7) filled'

end Rows

/-! ### Fields -/

/-- A character that may stand within a field. -/
def Plain (c : Char) : Prop := c ≠ ',' ∧ c ≠ ' ' ∧ c ≠ ';'

instance (c : Char) : Decidable (Plain c) := inferInstanceAs (Decidable (_ ∧ _))

section Fields

variable {st : State}

theorem plain_piece : ∀ p ∈ pieces, Plain (char p) :=
  List.all_iff_forall_prop.mp (by decide)

theorem plain_count {e : Nat} (few : e ≤ 8) : ∀ c ∈ Nat.toDigits 10 e, Plain c := by
  interval_cases e <;> exact List.all_iff_forall_prop.mp (by decide)

theorem plain_writeRank {target : Board} {r : Int}
    (sound : ∀ s, target.get s ∈ pieces ∨ target.get s = empty) :
    ∀ c ∈ writeRank target r, Plain c := by
  have finish : ∀ e row, e ≤ 8 → (∀ c ∈ row, Plain c) →
      ∀ c ∈ (if e > 0 then row ++ Nat.toDigits 10 e else row), Plain c := by
    intro e row few plain c mem
    split at mem
    · rcases List.mem_append.mp mem with mem | mem
      · exact plain c mem
      · exact plain_count few c mem
    · exact plain c mem
  have files : ∀ k ≤ 8, ((List.range k).foldl (writeFile target r) (0, [])).1 ≤ k ∧
      ∀ c ∈ ((List.range k).foldl (writeFile target r) (0, [])).2, Plain c := by
    intro k
    induction k with
    | zero =>
        intro _
        exact ⟨Nat.le_refl 0, nofun⟩
    | succ k ih =>
        intro few
        obtain ⟨counted, plain⟩ := ih (by omega)
        rw [List.range_succ, List.foldl_append, List.foldl_cons, List.foldl_nil]
        generalize (List.range k).foldl (writeFile target r) (0, []) = done at counted plain ⊢
        obtain ⟨e, row⟩ := done
        unfold writeFile
        by_cases vacant : target.get (csq k r) = empty
        · simp only [vacant, ne_eq, not_true_eq_false, if_false]
          exact ⟨by omega, plain⟩
        · simp only [vacant, ne_eq, not_false_eq_true, if_true]
          constructor
          · omega
          · intro c mem
            rcases List.mem_append.mp mem with mem | mem
            · exact finish e row (by omega) plain c mem
            · rw [List.mem_singleton.mp mem]
              exact plain_piece _ ((sound _).resolve_right vacant)
  obtain ⟨counted, plain⟩ := files 8 (Nat.le_refl 8)
  exact finish _ _ counted plain

theorem plain_writeRows {target : Board}
    (sound : ∀ s, target.get s ∈ pieces ∨ target.get s = empty) :
    ∀ c ∈ writeRows target, Plain c := by
  intro c mem
  obtain ⟨r, _, mem⟩ := List.mem_flatMap.mp mem
  rcases List.mem_append.mp mem with mem | mem
  · split at mem
    · rw [List.mem_singleton.mp mem]
      decide
    · contradiction
  · exact plain_writeRank sound c mem

theorem plain_writeRights (st : State) : ∀ c ∈ writeRights st, Plain c := by
  intro c mem
  simp only [writeRights] at mem
  by_cases nothing : (if st.cK then ['K'] else []) ++ (if st.cQ then ['Q'] else []) ++
      (if st.cKBlack then ['k'] else []) ++ (if st.cQBlack then ['q'] else []) = []
  · rw [if_pos nothing] at mem
    rw [List.mem_singleton.mp mem]
    decide
  · rw [if_neg nothing] at mem
    simp only [List.mem_append] at mem
    rcases mem with ((mem | mem) | mem) | mem <;>
    · split at mem
      · rw [List.mem_singleton.mp mem]
        decide
      · contradiction

/-- The text of the castling rights is read as the rights. -/
theorem readRight_writeRights {st' : State} (noK : st'.cK = false) (noQ : st'.cQ = false)
    (noKBlack : st'.cKBlack = false) (noQBlack : st'.cQBlack = false) :
    (Lib.encode (writeRights st)).foldl readRight st' =
      { st' with cK := st.cK, cQ := st.cQ, cKBlack := st.cKBlack, cQBlack := st.cQBlack } := by
  obtain ⟨board', turn', _, _, _, _, ep'⟩ := st'
  cases noK
  cases noQ
  cases noKBlack
  cases noQBlack
  obtain ⟨board, turn, cK, cQ, cKBlack, cQBlack, ep⟩ := st
  cases cK <;> cases cQ <;> cases cKBlack <;> cases cQBlack <;> rfl

theorem nameSq_ascii {s : Int} (range : 0 ≤ s ∧ s < 64) :
    (∀ c ∈ (nameSq s).map char, Plain c) ∧ Lib.encode ((nameSq s).map char) = nameSq s := by
  obtain ⟨low, high⟩ := range
  interval_cases s <;> exact ⟨List.all_iff_forall_prop.mp (by decide), by decide⟩

theorem Encodable.readEp (sound : Encodable st) (checked : Bool) :
    (∀ c ∈ writeEp st, Plain c) ∧ Chess.readEp checked (writeEp st) = some st.ep := by
  unfold writeEp
  rcases sound.ep with none | range
  · rw [none]
    exact ⟨List.all_iff_forall_prop.mp (by decide), rfl⟩
  · rw [if_neg (by omega)]
    obtain ⟨plain, bytes⟩ := nameSq_ascii range
    refine ⟨plain, ?_⟩
    unfold Chess.readEp
    have read := sqName_nameSq checked range []
    rw [List.append_nil] at read
    rw [if_neg, bytes, read]
    rintro (dash | nothing)
    · exact absurd (congrArg List.length dash) (by simp [nameSq])
    · exact absurd (congrArg List.length nothing) (by simp [nameSq])

theorem Encodable.turnText (sound : Encodable st) :
    Plain (char st.turn) ∧ Lib.encode [char st.turn] = [st.turn] := by
  rcases sound.turn with white | black
  · rw [white]
    decide
  · rw [black]
    decide

theorem fields_encode (sound : Encodable st) :
    fields 4 (encode st) = [writeRows st.board, [char st.turn], writeRights st, writeEp st] := by
  have absent : ∀ {l : List Char}, (∀ c ∈ l, Plain c) → ',' ∉ l := by
    intro l plain mem
    exact (plain ',' mem).1 rfl
  have rows := absent (plain_writeRows sound.squares)
  have turn : ',' ∉ [char st.turn] := by
    apply absent
    intro c mem
    rw [List.mem_singleton.mp mem]
    exact sound.turnText.1
  have rights := absent (plain_writeRights st)
  have ep := absent (sound.readEp true).1
  unfold encode
  unfold fields
  rw [splitOnce_single rows]
  dsimp only
  unfold fields
  rw [splitOnce_single turn]
  dsimp only
  unfold fields
  rw [splitOnce_single rights]
  dsimp only
  unfold fields
  rw [splitOnce_single_none ep]

/-- A well-formed position is read back as it was written. -/
theorem decode_encode (sound : Encodable st) (checked : Bool) : decode checked (encode st) = some st := by
  unfold decode
  rw [fields_encode sound]
  dsimp only
  rw [readRows_writeRows sound.squares, sound.turnText.2, (sound.readEp checked).2,
    readRight_writeRights rfl rfl rfl rfl]
  rfl

end Fields

/-- A position whose squares hold pieces or nothing, with white or black to move and a
square or none to capture en passant on, is read back from its wire form. No other such
position has the same form, and none of its four fields holds a comma, a space or a
semicolon. -/
theorem wire_roundtrip (st : State) (sound : Encodable st) :
    (∀ checked, decode checked (encode st) = some st) ∧
      (∀ st', Encodable st' → encode st' = encode st → st' = st) ∧
      fields 4 (encode st) = [writeRows st.board, [char st.turn], writeRights st, writeEp st] ∧
      encode st = List.intercalate [','] (fields 4 (encode st)) ∧
      ∀ field ∈ fields 4 (encode st), ∀ c ∈ field, Plain c := by
  refine ⟨decode_encode sound, ?_, fields_encode sound, ?_, ?_⟩
  · intro st' sound' same
    have read := decode_encode sound' true
    rw [same, decode_encode sound true] at read
    exact (Option.some.inj read).symm
  · rw [fields_encode sound]
    unfold encode
    simp [List.intercalate]
  · rw [fields_encode sound]
    intro field mem
    simp only [List.mem_cons, List.not_mem_nil, or_false] at mem
    rcases mem with rfl | rfl | rfl | rfl
    · exact plain_writeRows sound.squares
    · intro c mem
      rw [List.mem_singleton.mp mem]
      exact sound.turnText.1
    · exact plain_writeRights st
    · exact (sound.readEp true).1

theorem encodable_initial : Encodable initial := by
  constructor
  · intro s
    have all : ∀ i, initial.board i ∈ pieces ∨ initial.board i = empty := by decide
    unfold Board.get
    split
    · exact all _
    · exact .inr rfl
  · exact .inl rfl
  · exact .inl rfl

theorem wire_roundtrip_initial : decode true (encode initial) = some initial :=
  (wire_roundtrip initial encodable_initial).1 true

example : encode initial = "rnbqkbnr/pppppppp/8/8/8/8/PPPPPPPP/RNBQKBNR,w,KQkq,-".toList := by
  decide +kernel

end Echo.Chess
