import Echo.GameServ.Board
import Echo.Lib.Rows
import Echo.Lib.Runs

/-!
The referee of the two grid games against their rules. A board is told by the accepted
moves alone: each lays one piece, on the cell it names or on top of the column it names.
A side wins with the move that completes a row.
-/

namespace Echo.GameServ

open Echo.Lib

/-- The games that are played on a grid. -/
inductive Grid where
  | ttt
  | c4
  deriving DecidableEq, Repr

/-- Whose move it is after `n` moves. -/
def mover (n : Nat) : Side := if n % 2 = 0 then .a else .b

theorem mover_succ (n : Nat) : mover (n + 1) = (mover n).other := by
  unfold mover
  rcases Nat.mod_two_eq_zero_or_one n with even | odd
  · rw [if_neg (by omega), if_pos even]
    rfl
  · rw [if_pos (by omega), if_neg (by omega)]
    rfl

/-! ### Rules -/

/-- A piece on its cell. -/
abbrev Piece := Cell × Side

/-- A side holds a cell. -/
def Holds (ps : List Piece) (s : Side) (c : Cell) : Prop := ps.lookup c = some s

/-- How many pieces a column has. -/
def heightOf (ps : List Piece) (x : Int) : Nat := (ps.filter fun p => p.1.1 == x).length

namespace Grid

def type : Grid → GameType
  | ttt => .ttt
  | c4 => .c4

def width : Grid → Nat
  | ttt => 3
  | c4 => 7

def height : Grid → Nat
  | ttt => 3
  | c4 => 6

/-- How many pieces in a row win. -/
def need : Grid → Nat
  | ttt => 3
  | c4 => 4

def On (grid : Grid) (c : Cell) : Prop :=
  (0 ≤ c.1 ∧ c.1 < grid.width) ∧ 0 ≤ c.2 ∧ c.2 < grid.height

instance (grid : Grid) (c : Cell) : Decidable (grid.On c) := inferInstanceAs (Decidable (_ ∧ _))

/-- The cell that the number `k` comes to: the `k`-th, or the lowest free one of the
`k`-th column. -/
def place : Grid → List Piece → Nat → Cell
  | ttt, _, k => ((k % 3 : Nat), (k / 3 : Nat))
  | c4, ps, k => (k, heightOf ps k)

/-- The pieces after one more move. -/
def lay (grid : Grid) (ps : List Piece) (mv : Sent) : List Piece :=
  ps ++ [(grid.place ps ((number mv.text).getD 0), mv.side)]

/-- The pieces that moves lay, in turn. -/
def pieces (grid : Grid) (moves : List Sent) : List Piece := moves.foldl grid.lay []

/-- A move that the rules allow: in turn, and to a free cell of the board. -/
def Legal (grid : Grid) (ps : List Piece) (turn : Side) (mv : Sent) : Prop :=
  turn = mv.side ∧ ∃ k, number mv.text = some k ∧
    grid.On (grid.place ps k) ∧ ps.lookup (grid.place ps k) = none

/-- A side has a row. -/
def Won (grid : Grid) (ps : List Piece) (s : Side) : Prop := HasRow (Holds ps s) grid.need

/-- Every cell has a piece. -/
def Full (grid : Grid) (ps : List Piece) : Prop := ∀ c, grid.On c → ps.lookup c ≠ none

/-- The index of a cell, row after row from the first. -/
def index (grid : Grid) (c : Cell) : Nat := c.2.toNat * grid.width + c.1.toNat

/-- How a cell shows the side that holds it. -/
def shown (grid : Grid) : Option Side → UInt8
  | none => EMPTY
  | some s => grid.type.glyph s

/-- What the rules say of a match: whose moves its accepted ones are, what they have laid
on the board, which move is taken next, and whether the game is over. -/
structure Refereed (grid : Grid) (m : Match) : Prop where
  alternating : ∀ i mv, m.accepted[i]? = some mv → mv.side = mover i
  turn : m.game.turn = mover m.accepted.length
  inside : ∀ p ∈ grid.pieces m.accepted, grid.On p.1
  apart : ((grid.pieces m.accepted).map (·.1)).Nodup
  shows : ∀ c, grid.On c →
    m.game.board.at (grid.index c) = grid.shown ((grid.pieces m.accepted).lookup c)
  supported : grid = c4 → ∀ p ∈ grid.pieces m.accepted, ∀ y, 0 ≤ y → y < p.1.2 →
    (grid.pieces m.accepted).lookup (p.1.1, y) ≠ none
  taken : ∀ mv, terminal m.game = none →
    grid.Legal (grid.pieces m.accepted) m.game.turn mv → (m.feed mv).accepted = m.accepted ++ [mv]
  refused : ∀ mv, ¬ (terminal m.game = none ∧
    grid.Legal (grid.pieces m.accepted) m.game.turn mv) → m.feed mv = m
  won : ∀ s, terminal m.game = some (.win s) ↔ ∃ earlier mv, m.accepted = earlier ++ [mv] ∧
    mv.side = s ∧ ¬ grid.Won (grid.pieces earlier) s ∧ grid.Won (grid.pieces m.accepted) s
  drawn : terminal m.game = some .draw ↔
    grid.Full (grid.pieces m.accepted) ∧ ∀ s, ¬ grid.Won (grid.pieces m.accepted) s
  ongoing : terminal m.game = none ↔
    ¬ grid.Full (grid.pieces m.accepted) ∧ ∀ s, ¬ grid.Won (grid.pieces m.accepted) s

end Grid

/-! ### Pieces -/

section Pieces

variable {grid : Grid} {ps : List Piece} {c c' : Cell} {s s' : Side} {p : Piece}

theorem pieces_concat (moves : List Sent) (mv : Sent) :
    grid.pieces (moves ++ [mv]) = grid.lay (grid.pieces moves) mv := List.foldl_append

theorem lookup_concat :
    (ps ++ [p]).lookup c = (ps.lookup c).or (if c = p.1 then some p.2 else none) := by
  rw [List.lookup_append]
  congr 1
  rw [List.lookup_cons]
  by_cases here : c = p.1
  · rw [if_pos here, beq_iff_eq.mpr here]
  · rw [if_neg here, beq_eq_false_iff_ne.mpr here]
    rfl

theorem mem_of_lookup (held : ps.lookup c = some s) : (c, s) ∈ ps := by
  obtain ⟨front, rest, eq, -⟩ := List.lookup_eq_some_iff.mp held
  rw [eq]
  exact List.mem_append_right _ List.mem_cons_self

theorem lookup_ne_none_iff : ps.lookup c ≠ none ↔ c ∈ ps.map (·.1) := by
  rw [ne_eq, List.lookup_eq_none_iff]
  constructor
  · intro some_here
    push Not at some_here
    obtain ⟨p, inside, same⟩ := some_here
    exact List.mem_map.mpr ⟨p, inside, (by simpa using same : c = p.1).symm⟩
  · intro inside none_here
    obtain ⟨p, there, rfl⟩ := List.mem_map.mp inside
    simpa using none_here p there

/-- More pieces on free cells take nothing from who holds a cell. -/
theorem Holds.concat (held : Holds ps s c) : Holds (ps ++ [p]) s c := by
  unfold Holds at held ⊢
  rw [lookup_concat, held]
  rfl

theorem Holds.of_concat (held : Holds (ps ++ [p]) s c) (foreign : s ≠ p.2) : Holds ps s c := by
  unfold Holds at held ⊢
  rw [lookup_concat] at held
  cases before : ps.lookup c with
  | some s' =>
      rw [before] at held
      exact held
  | none =>
      rw [before, Option.none_or] at held
      split at held
      · cases held
        exact absurd rfl foreign
      · cases held

/-- Only the side that moves can come to have a row. -/
theorem Grid.Won.of_concat (won : grid.Won (ps ++ [p]) s) (foreign : s ≠ p.2) : grid.Won ps s :=
  won.mono fun _ held => held.of_concat foreign

/-- The pieces of every column are heaped from the bottom. -/
def Heaped (ps : List Piece) : Prop :=
  ∀ x y, ps.lookup (x, y) ≠ none ↔ 0 ≤ y ∧ y < heightOf ps x

theorem heightOf_concat {x : Int} :
    heightOf (ps ++ [p]) x = heightOf ps x + if p.1.1 = x then 1 else 0 := by
  unfold heightOf
  rw [List.filter_append, List.length_append]
  congr 1
  by_cases here : p.1.1 = x
  · rw [if_pos here, List.filter_cons_of_pos (by simpa using here)]
    rfl
  · rw [if_neg here, List.filter_cons_of_neg (by simpa using here)]
    rfl

/-- A piece dropped on a column leaves the board heaped. -/
theorem Heaped.drop {x : Int} (heaped : Heaped ps) : Heaped (ps ++ [((x, (heightOf ps x : Int)), s)]) := by
  intro x' y
  have before := heaped x' y
  rw [heightOf_concat, lookup_concat]
  dsimp only
  by_cases same : x = x'
  · subst same
    rw [if_pos rfl]
    by_cases top : y = heightOf ps x
    · rw [if_pos (by rw [top])]
      constructor
      · intro _
        omega
      · intro _
        cases ps.lookup (x, y) <;> simp
    · rw [if_neg (by simpa using top), Option.or_none, before]
      omega
  · rw [if_neg same, if_neg (by simp [Ne.symm same]), Option.or_none, before]
    rfl

end Pieces

/-! ### Boards -/

/-- A board shows the pieces, each on the board and heaped where they drop. -/
structure Mirrors (grid : Grid) (ps : List Piece) (g : Game) : Prop where
  kind : g.gtype = grid.type
  inside : ∀ p ∈ ps, grid.On p.1
  shows : ∀ c, grid.On c → g.board.at (grid.index c) = grid.shown (ps.lookup c)
  heaped : grid = .c4 → Heaped ps

section Boards

variable {grid : Grid} {ps : List Piece} {g : Game} {c c' : Cell} {s : Side} {mv : Sent} {k : Nat}

theorem index_inj (on : grid.On c) (on' : grid.On c') : grid.index c = grid.index c' ↔ c = c' := by
  obtain ⟨x, y⟩ := c
  obtain ⟨x', y'⟩ := c'
  unfold Grid.On at on on'
  rw [Prod.mk.injEq]
  cases grid <;> simp only [Grid.index, Grid.width, Grid.height] at on on' ⊢ <;> omega

theorem index_lt (on : grid.On c) : grid.index c < grid.width * grid.height := by
  obtain ⟨x, y⟩ := c
  unfold Grid.On at on
  cases grid <;> simp only [Grid.index, Grid.width, Grid.height] at on ⊢ <;> omega

theorem place_on : Grid.ttt.On (Grid.ttt.place ps k) ↔ k < 9 := by
  simp only [Grid.On, Grid.place, Grid.width, Grid.height]
  omega

theorem place_index : Grid.ttt.index (Grid.ttt.place ps k) = k := by
  simp only [Grid.index, Grid.place, Grid.width, Int.toNat_natCast]
  omega

theorem shown_eq_empty {o : Option Side} : grid.shown o = EMPTY ↔ o = none := by
  cases grid <;> rcases o with _ | _ | _ <;> decide

theorem glyph_ne_empty (grid : Grid) : grid.type.glyph s ≠ EMPTY := by
  cases grid <;> cases s <;> decide

theorem shown_eq_glyph {o : Option Side} : grid.shown o = grid.type.glyph s ↔ o = some s := by
  cases grid <;> cases s <;> rcases o with _ | _ | _ <;> decide

theorem sideOfGlyph_glyph (grid : Grid) : grid.type.sideOfGlyph (grid.type.glyph s) = s := by
  cases grid <;> cases s <;> decide

/-- A Connect Four board drops a piece on those of its column, if there is room. -/
theorem Mirrors.dropTo {cells : Cells (C4_W * C4_H)} {turn : Side}
    (mirrors : Mirrors .c4 ps ⟨.c4 cells, turn⟩) (col : k < 7) :
    dropTo cells k = if heightOf ps k < 6 then some (Grid.c4.index (k, heightOf ps k)) else none := by
  have free : ∀ r < 6, (cells.get (r * C4_W + k) == EMPTY) = true ↔ heightOf ps k ≤ r := by
    intro r low
    have on : Grid.c4.On (k, r) := by
      simp only [Grid.On, Grid.width, Grid.height]
      omega
    have shows := mirrors.shows (k, r) on
    simp only [Board.at, Grid.index, Grid.width, Int.toNat_natCast] at shows
    have taken := mirrors.heaped rfl k r
    change cells.get (r * 7 + k) = _ at shows
    change (cells.get (r * 7 + k) == EMPTY) = true ↔ _
    rw [beq_iff_eq, shows, shown_eq_empty]
    constructor
    · intro empty_here
      by_contra low'
      exact taken.mpr (by omega) empty_here
    · intro high
      by_contra full_here
      have := taken.mp full_here
      omega
  unfold GameServ.dropTo
  rw [List.find?_map]
  split
  · rename_i room
    rw [(List.find?_range_eq_some (i := heightOf ps k)).mpr]
    · simp [Grid.index, Grid.width, C4_W]
    · refine ⟨(free _ room).mpr le_rfl, List.mem_range.mpr room, fun j lower => ?_⟩
      have := (free j (by omega)).not.mpr (by omega)
      simpa using this
  · rename_i no_room
    rw [List.find?_eq_none.mpr]
    · rfl
    · intro r inside
      have low := List.mem_range.mp inside
      exact (free r low).not.mpr (by unfold C4_H at low; omega)

/-- A board that has one piece more, on a free cell, shows it. -/
theorem Mirrors.laid {board : Board} {turn : Side} (mirrors : Mirrors grid ps g) (on : grid.On c)
    (free : ps.lookup c = none) (kind : board.gtype = grid.type)
    (put : ∀ j < grid.width * grid.height,
      board.at j = if j = grid.index c then grid.type.glyph s else g.board.at j)
    (drops : grid = .c4 → c.2 = heightOf ps c.1) : Mirrors grid (ps ++ [(c, s)]) ⟨board, turn⟩ where
  kind := kind
  inside p here := by
    rcases List.mem_append.mp here with old | new
    · exact mirrors.inside p old
    · rw [List.mem_singleton.mp new]
      exact on
  shows c' on' := by
    rw [put _ (index_lt on'), lookup_concat]
    by_cases same : c' = c
    · subst same
      rw [if_pos rfl, if_pos rfl, free]
      rfl
    · rw [if_neg (mt (index_inj on' on).mp same), if_neg same, Option.or_none]
      exact mirrors.shows c' on'
  heaped four := by
    obtain ⟨x, y⟩ := c
    have top := drops four
    dsimp only at top
    subst top
    exact (mirrors.heaped four).drop

theorem Mirrors.ttt_free {cells : Cells 9} {turn : Side} (mirrors : Mirrors .ttt ps ⟨.ttt cells, turn⟩)
    (inside : k < 9) : cells.get k = EMPTY ↔ ps.lookup (Grid.ttt.place ps k) = none := by
  have on : Grid.ttt.On (Grid.ttt.place ps k) := place_on.mpr inside
  have shows := mirrors.shows _ on
  rw [place_index] at shows
  change cells.get k = _ at shows
  rw [shows, shown_eq_empty]

/-- A legal move is applied: it lays its piece, and the turn passes. -/
theorem Mirrors.applyMove_legal (mirrors : Mirrors grid ps g) (legal : grid.Legal ps g.turn mv) :
    ∃ board, applyMove g mv.side mv.text = (⟨board, mv.side.other⟩, true) ∧
      Mirrors grid (grid.lay ps mv) ⟨board, mv.side.other⟩ := by
  obtain ⟨inTurn, k, names, on, free⟩ := legal
  have laid : grid.lay ps mv = ps ++ [(grid.place ps k, mv.side)] := by
    rw [Grid.lay, names]
    rfl
  rw [laid]
  unfold applyMove
  rw [if_neg (not_not.mpr inTurn)]
  obtain ⟨board, turn⟩ := g
  cases board with
  | chess st =>
      have kind := mirrors.kind
      cases grid <;> cases kind
  | ttt cells =>
      have kind := mirrors.kind
      cases grid with
      | c4 => cases kind
      | ttt =>
          have inside : k < 9 := place_on.mp on
          have empty_here := (mirrors.ttt_free inside).mpr free
          refine ⟨.ttt (cells.put k (GameType.ttt.glyph mv.side)), ?_, ?_⟩
          · dsimp only
            rw [names]
            dsimp only
            rw [if_neg (not_or.mpr ⟨by omega, not_not.mpr empty_here⟩)]
            rfl
          · refine mirrors.laid on free rfl (fun j _ => ?_) nofun
            simp only [place_index]
            exact Cells.get_put inside
  | c4 cells =>
      have kind := mirrors.kind
      cases grid with
      | ttt => cases kind
      | c4 =>
          have room : k < 7 ∧ heightOf ps k < 6 := by
            simp only [Grid.On, Grid.place, Grid.width, Grid.height] at on
            omega
          have found := mirrors.dropTo room.1
          rw [if_pos room.2] at found
          refine ⟨.c4 (cells.put (Grid.c4.index (k, heightOf ps k)) (GameType.c4.glyph mv.side)), ?_, ?_⟩
          · dsimp only
            rw [names]
            dsimp only
            rw [if_neg (by unfold C4_W; omega), found]
            rfl
          · refine mirrors.laid on free rfl (fun j _ => ?_) fun _ => rfl
            exact Cells.get_put (index_lt on)

/-- Any other is refused. -/
theorem Mirrors.applyMove_illegal (mirrors : Mirrors grid ps g)
    (illegal : ¬ grid.Legal ps g.turn mv) : applyMove g mv.side mv.text = (g, false) := by
  unfold applyMove
  by_cases inTurn : g.turn = mv.side
  · rw [if_neg (not_not.mpr inTurn)]
    obtain ⟨board, turn⟩ := g
    cases board with
    | chess st =>
        have kind := mirrors.kind
        cases grid <;> cases kind
    | ttt cells =>
        have kind := mirrors.kind
        cases grid with
        | c4 => cases kind
        | ttt =>
            dsimp only
            cases names : number mv.text with
            | none => rfl
            | some k =>
                dsimp only
                rw [if_pos]
                by_contra fits
                obtain ⟨inside, empty_here⟩ := not_or.mp fits
                refine illegal ⟨inTurn, k, names, place_on.mpr (by omega), ?_⟩
                exact (mirrors.ttt_free (by omega)).mp (not_not.mp empty_here)
    | c4 cells =>
        have kind := mirrors.kind
        cases grid with
        | ttt => cases kind
        | c4 =>
            dsimp only
            cases names : number mv.text with
            | none => rfl
            | some k =>
                dsimp only
                by_cases col : k < 7
                · rw [if_neg (by unfold C4_W; omega), mirrors.dropTo col, if_neg]
                  intro room
                  have none_above := mt (mirrors.heaped rfl k (heightOf ps k)).mp (by omega)
                  refine illegal ⟨inTurn, k, names, ?_, not_not.mp none_above⟩
                  simp only [Grid.On, Grid.place, Grid.width, Grid.height]
                  omega
                · rw [if_pos (by unfold C4_W; omega)]
  · rw [if_pos inTurn]

/-! ### Rows on the board -/

theorem Mirrors.byte_iff (mirrors : Mirrors grid ps g) (on : grid.On c) :
    g.board.at (grid.index c) = grid.type.glyph s ↔ Holds ps s c := by
  rw [mirrors.shows c on, shown_eq_glyph]
  rfl

theorem Mirrors.side_of_byte (mirrors : Mirrors grid ps g) (on : grid.On c)
    (piece : g.board.at (grid.index c) ≠ EMPTY) :
    ∃ s, g.board.at (grid.index c) = grid.type.glyph s := by
  rw [mirrors.shows c on] at piece ⊢
  obtain ⟨s, held⟩ := Option.ne_none_iff_exists'.mp (mt shown_eq_empty.mpr piece)
  exact ⟨s, by rw [held]; rfl⟩

theorem Mirrors.won_of_bytes (mirrors : Mirrors grid ps g) {d : Cell} (step : IsStep d)
    (all : ∀ k < grid.need, grid.On (walk c d k) ∧
      g.board.at (grid.index (walk c d k)) = grid.type.glyph s) : grid.Won ps s :=
  ⟨c, d, step, fun k small => (mirrors.byte_iff (all k small).1).mp (all k small).2⟩

theorem Mirrors.bytes_of_won (mirrors : Mirrors grid ps g) (won : grid.Won ps s) :
    ∃ c, ∃ d ∈ forward, ∀ k < grid.need, grid.On (walk c d k) ∧
      g.board.at (grid.index (walk c d k)) = grid.type.glyph s := by
  obtain ⟨n, wanted⟩ : ∃ n, grid.need = n + 1 := by
    cases grid
    · exact ⟨2, rfl⟩
    · exact ⟨3, rfl⟩
  unfold Grid.Won at won
  rw [wanted, hasRow_iff_forward] at won
  obtain ⟨c, d, ahead, all⟩ := won
  refine ⟨c, d, ahead, fun k small => ?_⟩
  have held := all k (wanted ▸ small)
  have on := mirrors.inside _ (mem_of_lookup held)
  exact ⟨on, (mirrors.byte_iff on).mpr held⟩

/-- What a scan has found: a piece of a side that has a row, or nothing where there is none. -/
def Finds (grid : Grid) (ps : List Piece) : Option UInt8 → Prop
  | some p => ∃ s, p = grid.type.glyph s ∧ grid.Won ps s
  | none => ∀ s, ¬ grid.Won ps s

theorem threeOf_eq_some {b : Cells 9} {ln : List Nat} {p : UInt8} :
    threeOf b ln = some p ↔ p ≠ EMPTY ∧ ∀ k < 3, b.get (ln.getD k 0) = p := by
  unfold threeOf
  dsimp only
  constructor
  · intro found
    split at found
    · rename_i same
      cases found
      refine ⟨same.1, fun k small => ?_⟩
      obtain rfl | rfl | rfl : k = 0 ∨ k = 1 ∨ k = 2 := by omega
      · rfl
      · exact same.2.1.symm
      · exact same.2.2.symm
    · cases found
  · rintro ⟨piece, all⟩
    rw [all 0 (by omega), all 1 (by omega), all 2 (by omega), if_pos ⟨piece, rfl, rfl⟩]

/-- Every line of the table is a row of the board, -/
theorem row_of_line : ∀ ln ∈ TTT_LINES, ∃ x < 3, ∃ y < 3, ∃ d ∈ (-1, 1) :: forward, ∀ k < 3,
    Grid.ttt.On (walk ((x : Nat), (y : Nat)) d k) ∧
      Grid.ttt.index (walk ((x : Nat), (y : Nat)) d k) = ln.getD k 0 := by
  decide

/-- and every row is in the table. -/
theorem line_of_row : ∀ x < 3, ∀ y < 3, ∀ d ∈ forward,
    (∀ k < 3, Grid.ttt.On (walk ((x : Nat), (y : Nat)) d k)) → ∃ ln ∈ TTT_LINES, ∀ k < 3,
      ∃ j < 3, ln.getD k 0 = Grid.ttt.index (walk ((x : Nat), (y : Nat)) d j) := by
  decide

theorem Mirrors.finds_three {b : Cells 9} {turn : Side} (mirrors : Mirrors .ttt ps ⟨.ttt b, turn⟩) :
    Finds .ttt ps (TTT_LINES.findSome? (threeOf b)) := by
  cases found : TTT_LINES.findSome? (threeOf b) with
  | some p =>
      obtain ⟨ln, listed, three⟩ := List.exists_of_findSome?_eq_some found
      obtain ⟨piece, all⟩ := threeOf_eq_some.mp three
      obtain ⟨x, -, y, -, d, directed, row⟩ := row_of_line ln listed
      have step : IsStep d := by
        rcases List.mem_cons.mp directed with rfl | ahead
        · decide
        · exact isStep_of_mem ahead
      have bytes : ∀ k < 3, Board.at (.ttt b) (Grid.ttt.index (walk ((x : Int), (y : Int)) d k)) = p := by
        intro k small
        rw [(row k small).2]
        exact all k small
      obtain ⟨s, shown⟩ := mirrors.side_of_byte (row 0 (by omega)).1
        (by rw [bytes 0 (by omega)]; exact piece)
      rw [bytes 0 (by omega)] at shown
      exact ⟨s, shown, mirrors.won_of_bytes step fun k small =>
        ⟨(row k small).1, (bytes k small).trans shown⟩⟩
  | none =>
      intro s won
      obtain ⟨⟨x, y⟩, d, ahead, all⟩ := mirrors.bytes_of_won won
      have start := (all 0 (by decide)).1
      rw [walk_zero] at start
      obtain ⟨⟨left, right⟩, low, high⟩ := start
      lift x to Nat using left
      lift y to Nat using low
      obtain ⟨ln, listed, same⟩ := line_of_row x (Int.ofNat_lt.mp right) y (Int.ofNat_lt.mp high)
        d ahead fun k small => (all k small).1
      have three : threeOf b ln = some (GameType.ttt.glyph s) := by
        refine threeOf_eq_some.mpr ⟨glyph_ne_empty Grid.ttt, fun k small => ?_⟩
        obtain ⟨j, small, cell⟩ := same k small
        rw [cell]
        exact (all j small).2
      have missed := List.findSome?_eq_none_iff.mp found ln listed
      rw [three] at missed
      cases missed

theorem runs_iff {b : Cells (C4_W * C4_H)} {p : UInt8} {dc dr : Int} {n : Nat} {cc rr : Int} :
    runs b p dc dr n cc rr = true ↔ ∀ k < n, Grid.c4.On (walk (cc, rr) (dc, dr) k) ∧
      b.get (Grid.c4.index (walk (cc, rr) (dc, dr) k)) = p := by
  induction n generalizing cc rr with
  | zero => simp [runs]
  | succ n ih =>
      have here : (decide (0 ≤ cc) && decide (cc < C4_W) && (decide (0 ≤ rr) && decide (rr < C4_H)) &&
          b.get (rr.toNat * C4_W + cc.toNat) == p) = true ↔
            Grid.c4.On (walk (cc, rr) (dc, dr) 0) ∧
              b.get (Grid.c4.index (walk (cc, rr) (dc, dr) 0)) = p := by
        rw [walk_zero, Bool.and_eq_true, Bool.and_eq_true, Bool.and_eq_true, Bool.and_eq_true,
          decide_eq_true_iff, decide_eq_true_iff, decide_eq_true_iff, decide_eq_true_iff, beq_iff_eq]
        rfl
      rw [runs, Bool.and_eq_true, here, ih]
      constructor
      · rintro ⟨first, rest⟩ k small
        cases k with
        | zero => exact first
        | succ k =>
            rw [walk_succ]
            exact rest k (by omega)
      · intro all
        refine ⟨all 0 (by omega), fun k small => ?_⟩
        have next := all (k + 1) (by omega)
        rw [walk_succ] at next
        exact next

theorem fourFrom_eq_some {b : Cells (C4_W * C4_H)} {x y : Nat} {p : UInt8} :
    fourFrom b x y = some p ↔ p ≠ EMPTY ∧ b.get (y * C4_W + x) = p ∧
      ∃ d ∈ forward, runs b p d.1 d.2 4 x y = true := by
  unfold fourFrom
  dsimp only
  constructor
  · intro found
    split at found
    · cases found
    · rename_i piece
      split at found
      · rename_i ran
        cases found
        exact ⟨piece, rfl, List.any_eq_true.mp ran⟩
      · cases found
  · rintro ⟨piece, rfl, ran⟩
    rw [if_neg piece]
    exact if_pos (List.any_eq_true.mpr ran)

theorem Mirrors.finds_four {b : Cells (C4_W * C4_H)} {turn : Side}
    (mirrors : Mirrors .c4 ps ⟨.c4 b, turn⟩) :
    Finds .c4 ps ((List.range C4_W).findSome? fun c => (List.range C4_H).findSome? (fourFrom b c)) := by
  cases found : (List.range C4_W).findSome? fun c => (List.range C4_H).findSome? (fourFrom b c) with
  | some p =>
      obtain ⟨x, -, column⟩ := List.exists_of_findSome?_eq_some found
      obtain ⟨y, -, four⟩ := List.exists_of_findSome?_eq_some column
      obtain ⟨piece, -, d, ahead, ran⟩ := fourFrom_eq_some.mp four
      have all := runs_iff.mp ran
      obtain ⟨on, start⟩ := all 0 (by omega)
      obtain ⟨s, shown⟩ := mirrors.side_of_byte on
        (show b.get _ ≠ EMPTY by rw [start]; exact piece)
      have glyph : p = GameType.c4.glyph s := start.symm.trans shown
      exact ⟨s, glyph, mirrors.won_of_bytes (isStep_of_mem ahead) fun k small =>
        ⟨(all k small).1, (all k small).2.trans glyph⟩⟩
  | none =>
      intro s won
      obtain ⟨⟨x, y⟩, d, ahead, all⟩ := mirrors.bytes_of_won won
      obtain ⟨on, start⟩ := all 0 (by decide)
      rw [walk_zero] at on start
      obtain ⟨⟨left, right⟩, low, high⟩ := on
      lift x to Nat using left
      lift y to Nat using low
      have four : fourFrom b x y = some (GameType.c4.glyph s) :=
        fourFrom_eq_some.mpr ⟨glyph_ne_empty Grid.c4, start, d, ahead, runs_iff.mpr all⟩
      have missed := List.findSome?_eq_none_iff.mp
        (List.findSome?_eq_none_iff.mp found x (List.mem_range.mpr (Int.ofNat_lt.mp right)))
        y (List.mem_range.mpr (Int.ofNat_lt.mp high))
      rw [four] at missed
      cases missed

/-! ### Endings -/

theorem fullOrOngoing_spec {n : Nat} (b : Cells n) :
    (∀ i, b i ≠ EMPTY) ∧ fullOrOngoing b = some .draw ∨
      ¬ (∀ i, b i ≠ EMPTY) ∧ fullOrOngoing b = none := by
  by_cases full : ∀ i, b i ≠ EMPTY
  · exact .inl ⟨full, if_pos full⟩
  · exact .inr ⟨full, if_neg full⟩

theorem Mirrors.full_three {b : Cells 9} {turn : Side} (mirrors : Mirrors .ttt ps ⟨.ttt b, turn⟩) :
    (∀ i, b i ≠ EMPTY) ↔ Grid.ttt.Full ps := by
  constructor
  · intro all c on free
    have shows := mirrors.shows c on
    rw [free] at shows
    exact all ⟨Grid.ttt.index c, index_lt on⟩ ((b.get_val _).symm.trans shows)
  · intro full i blank
    have on : Grid.ttt.On (Grid.ttt.place ps i) := place_on.mpr i.isLt
    rw [← b.get_val i] at blank
    exact full _ on ((mirrors.ttt_free i.isLt).mp blank)

theorem Mirrors.full_four {b : Cells (C4_W * C4_H)} {turn : Side}
    (mirrors : Mirrors .c4 ps ⟨.c4 b, turn⟩) : (∀ i, b i ≠ EMPTY) ↔ Grid.c4.Full ps := by
  constructor
  · intro all c on free
    have shows := mirrors.shows c on
    rw [free] at shows
    exact all ⟨Grid.c4.index c, index_lt on⟩ ((b.get_val _).symm.trans shows)
  · intro full i blank
    have small : i.val < 42 := i.isLt
    have on : Grid.c4.On ((i.val % 7 : Nat), (i.val / 7 : Nat)) := by
      simp only [Grid.On, Grid.width, Grid.height]
      omega
    have same : Grid.c4.index ((i.val % 7 : Nat), (i.val / 7 : Nat)) = i := by
      simp only [Grid.index, Grid.width, Int.toNat_natCast]
      omega
    have shows := mirrors.shows _ on
    rw [same] at shows
    rw [← b.get_val i] at blank
    exact full _ on (shown_eq_empty.mp (shows.symm.trans blank))

/-- The referee declares a side that has a row, and with no row a draw once the board is full. -/
theorem Mirrors.terminal_spec (mirrors : Mirrors grid ps g) :
    (∃ s, grid.Won ps s ∧ terminal g = some (.win s)) ∨
      (∀ s, ¬ grid.Won ps s) ∧
        (grid.Full ps ∧ terminal g = some .draw ∨ ¬ grid.Full ps ∧ terminal g = none) := by
  obtain ⟨board, turn⟩ := g
  cases board with
  | chess st =>
      have kind := mirrors.kind
      cases grid <;> cases kind
  | ttt b =>
      have kind := mirrors.kind
      cases grid with
      | c4 => cases kind
      | ttt =>
          have finds := mirrors.finds_three
          unfold terminal
          dsimp only
          cases found : TTT_LINES.findSome? (threeOf b) with
          | some p =>
              rw [found] at finds
              obtain ⟨s, rfl, won⟩ := finds
              exact .inl ⟨s, won, congrArg (some ∘ Outcome.win) (sideOfGlyph_glyph Grid.ttt)⟩
          | none =>
              rw [found] at finds
              rw [← mirrors.full_three]
              exact .inr ⟨finds, fullOrOngoing_spec b⟩
  | c4 b =>
      have kind := mirrors.kind
      cases grid with
      | ttt => cases kind
      | c4 =>
          have finds := mirrors.finds_four
          unfold terminal
          dsimp only
          cases found : (List.range C4_W).findSome? fun c =>
              (List.range C4_H).findSome? (fourFrom b c) with
          | some p =>
              rw [found] at finds
              obtain ⟨s, rfl, won⟩ := finds
              exact .inl ⟨s, won, congrArg (some ∘ Outcome.win) (sideOfGlyph_glyph Grid.c4)⟩
          | none =>
              rw [found] at finds
              rw [← mirrors.full_four]
              exact .inr ⟨finds, fullOrOngoing_spec b⟩

end Boards

/-! ### Matches -/

/-- A match in play: what its moves have laid is on the board, and no earlier move has won. -/
structure Played (grid : Grid) (m : Match) : Prop where
  mirrors : Mirrors grid (grid.pieces m.accepted) m.game
  apart : ((grid.pieces m.accepted).map (·.1)).Nodup
  alternating : ∀ i mv, m.accepted[i]? = some mv → mv.side = mover i
  turn : m.game.turn = mover m.accepted.length
  calm : ∀ earlier mv, m.accepted = earlier ++ [mv] → ∀ s, ¬ grid.Won (grid.pieces earlier) s

section Matches

variable {grid : Grid} {m : Match} {mv : Sent}

theorem Played.new : Played grid (Match.new grid.type) where
  mirrors := {
    kind := by cases grid <;> rfl
    inside := nofun
    shows := by
      intro c _
      cases grid <;> exact Cells.get_new
    heaped := by
      intro _ x y
      constructor
      · intro some_piece
        exact absurd rfl some_piece
      · rintro ⟨low, high⟩
        exact absurd (lt_of_le_of_lt low high) (Int.lt_irrefl 0) }
  apart := List.nodup_nil
  alternating := by
    intro i mv here
    cases here
  turn := rfl
  calm := by
    intro earlier mv eq
    cases earlier <;> cases eq

theorem Played.no_row (played : Played grid m) (goes : terminal m.game = none) (s : Side) :
    ¬ grid.Won (grid.pieces m.accepted) s := by
  rcases played.mirrors.terminal_spec with ⟨_, _, won⟩ | ⟨none_won, -⟩
  · rw [goes] at won
    cases won
  · exact none_won s

/-- Only a legal move of a game that goes on is taken. -/
theorem Played.feed_refused (played : Played grid m)
    (refused : ¬ (terminal m.game = none ∧
      grid.Legal (grid.pieces m.accepted) m.game.turn mv)) : m.feed mv = m := by
  unfold Match.feed
  cases ended : terminal m.game with
  | some outcome => rfl
  | none =>
      rw [if_neg (by simp), played.mirrors.applyMove_illegal fun legal => refused ⟨ended, legal⟩]
      rfl

/-- A legal move is taken, and the match stays in play. -/
theorem Played.feed_legal (played : Played grid m) (goes : terminal m.game = none)
    (legal : grid.Legal (grid.pieces m.accepted) m.game.turn mv) :
    (m.feed mv).accepted = m.accepted ++ [mv] ∧ Played grid (m.feed mv) := by
  obtain ⟨board, applied, mirrors⟩ := played.mirrors.applyMove_legal legal
  have fed : m.feed mv = ⟨⟨board, mv.side.other⟩, m.accepted ++ [mv]⟩ := by
    unfold Match.feed
    rw [goes, if_neg (by simp), applied]
    rfl
  rw [fed]
  refine ⟨rfl, ?_, ?_, ?_, ?_, ?_⟩
  · dsimp only
    rw [pieces_concat]
    exact mirrors
  · dsimp only
    rw [pieces_concat, Grid.lay, List.map_append, List.map_singleton]
    obtain ⟨-, k, names, -, free⟩ := legal
    rw [names]
    rw [← List.concat_eq_append]
    exact List.Nodup.concat (mt lookup_ne_none_iff.mpr (not_not.mpr free)) played.apart
  · intro i mv' here
    dsimp only at here
    rcases Nat.lt_trichotomy i m.accepted.length with old | last | past
    · rw [List.getElem?_append_left old] at here
      exact played.alternating i mv' here
    · subst last
      rw [List.getElem?_concat_length] at here
      cases here
      rw [← played.turn]
      exact legal.1.symm
    · rw [List.getElem?_eq_none (by rw [List.length_append, List.length_singleton]; omega)] at here
      cases here
  · dsimp only
    rw [List.length_append, List.length_singleton, mover_succ, ← played.turn, legal.1]
  · intro earlier last eq
    obtain ⟨rfl, -⟩ := List.append_inj' eq rfl
    exact played.no_row goes

theorem Played.feed (played : Played grid m) (mv : Sent) : Played grid (m.feed mv) := by
  by_cases taken : terminal m.game = none ∧ grid.Legal (grid.pieces m.accepted) m.game.turn mv
  · exact (played.feed_legal taken.1 taken.2).2
  · rw [played.feed_refused taken]
    exact played

/-- A row belongs to the side of the last move. -/
theorem Played.won_by_last (played : Played grid m) {s : Side}
    (won : grid.Won (grid.pieces m.accepted) s) : ∃ earlier mv, m.accepted = earlier ++ [mv] ∧
      mv.side = s ∧ ¬ grid.Won (grid.pieces earlier) s ∧ grid.Won (grid.pieces m.accepted) s := by
  rcases List.eq_nil_or_concat m.accepted with none_yet | ⟨earlier, mv, eq⟩
  · rw [none_yet] at won
    obtain ⟨c, d, -, all⟩ := won
    have first := all 0 (by cases grid <;> decide)
    cases first
  · rw [List.concat_eq_append] at eq
    refine ⟨earlier, mv, eq, ?_, played.calm earlier mv eq s, won⟩
    by_contra foreign
    rw [eq, pieces_concat] at won
    exact played.calm earlier mv eq s (won.of_concat (Ne.symm foreign))

theorem Played.refereed (played : Played grid m) : grid.Refereed m where
  alternating := played.alternating
  turn := played.turn
  inside := played.mirrors.inside
  apart := played.apart
  shows := played.mirrors.shows
  supported four p here y low below := by
    have heaped := played.mirrors.heaped four
    have top := (heaped p.1.1 p.1.2).mp (lookup_ne_none_iff.mpr (List.mem_map.mpr ⟨p, here, rfl⟩))
    exact (heaped p.1.1 y).mpr ⟨low, by omega⟩
  taken _ goes legal := (played.feed_legal goes legal).1
  refused _ refused := played.feed_refused refused
  won s := by
    constructor
    · intro declared
      rcases played.mirrors.terminal_spec with ⟨s', won, same⟩ | ⟨-, ⟨-, same⟩ | ⟨-, same⟩⟩
      · rw [declared] at same
        cases same
        exact played.won_by_last won
      · rw [declared] at same
        cases same
      · rw [declared] at same
        cases same
    · rintro ⟨earlier, mv, eq, mine, -, won⟩
      rcases played.mirrors.terminal_spec with ⟨s', won', same⟩ | ⟨none_won, -⟩
      · obtain ⟨earlier', mv', eq', mine', -, -⟩ := played.won_by_last won'
        obtain ⟨-, last⟩ := List.append_inj' (eq.symm.trans eq') rfl
        cases last
        rw [same, ← mine, ← mine']
      · exact absurd won (none_won s)
  drawn := by
    rcases played.mirrors.terminal_spec with ⟨s, won, same⟩ | ⟨none_won, ⟨full, same⟩ | ⟨room, same⟩⟩
    · rw [same]
      exact ⟨nofun, fun h => absurd won (h.2 s)⟩
    · rw [same]
      exact ⟨fun _ => ⟨full, none_won⟩, fun _ => rfl⟩
    · rw [same]
      exact ⟨nofun, fun h => absurd h.1 room⟩
  ongoing := by
    rcases played.mirrors.terminal_spec with ⟨s, won, same⟩ | ⟨none_won, ⟨full, same⟩ | ⟨room, same⟩⟩
    · rw [same]
      exact ⟨nofun, fun h => absurd won (h.2 s)⟩
    · rw [same]
      exact ⟨nofun, fun h => absurd full h.1⟩
    · rw [same]
      exact ⟨fun _ => ⟨room, none_won⟩, fun _ => rfl⟩

/-- Whatever is sent, a match of either game goes by the rules. -/
theorem match_refereed (grid : Grid) (moves : List Sent) :
    grid.Refereed (after Match.feed (Match.new grid.type) moves) :=
  (invariant (fun _ mv played => played.feed mv) Played.new moves).refereed

end Matches

end Echo.GameServ
