import Echo.Chess.Parse
import Echo.Engine.Lines

/-!
The games of GameServ (`modules/gameserv/src/board.rs`): Tic-Tac-Toe, Connect Four and
chess, whose moves the referee applies and whose end it declares. Who plays, whether the
game has been accepted and how it is shown are left out; nothing here reads them.
-/

namespace Echo.GameServ

open Echo.Lib
open Chess (byte)

def C4_W : Nat := 7

def C4_H : Nat := 6

def EMPTY : UInt8 := byte ' '

def TTT_LINES : List (List Nat) :=
  [[0, 1, 2], [3, 4, 5], [6, 7, 8],
    [0, 3, 6], [1, 4, 7], [2, 5, 8],
    [0, 4, 8], [2, 4, 6]]

inductive GameType where
  | ttt
  | c4
  | chess
  deriving DecidableEq, Repr

/-- The two players. The challenger is `a`, who moves first. -/
inductive Side where
  | a
  | b
  deriving DecidableEq, Repr

def Side.other : Side → Side
  | a => b
  | b => a

namespace GameType

/-- The piece a side plays. -/
def glyph : GameType → Side → UInt8
  | ttt, .a => byte 'X'
  | ttt, .b => byte 'O'
  | c4, .a => byte 'R'
  | c4, .b => byte 'Y'
  | chess, .a => byte 'w'
  | chess, .b => byte 'b'

def sideOfGlyph (gt : GameType) (p : UInt8) : Side := if p = gt.glyph .a then .a else .b

end GameType

/-- How a finished game ended. -/
inductive Outcome where
  | draw
  | win (side : Side)
  deriving DecidableEq, Repr

/-! ### Boards -/

/-- A flat array of cells. -/
abbrev Cells (n : Nat) := Fin n → UInt8

namespace Cells

variable {n : Nat}

def new : Cells n := fun _ => EMPTY

/-- The cell at an index, which the source only takes within the array. -/
def get (cells : Cells n) (i : Nat) : UInt8 := if inside : i < n then cells ⟨i, inside⟩ else EMPTY

def put (cells : Cells n) (i : Nat) (p : UInt8) : Cells n := fun j => if j.val = i then p else cells j

variable {cells : Cells n} {i j : Nat} {p : UInt8}

theorem get_val (cells : Cells n) (i : Fin n) : cells.get i = cells i := dif_pos i.isLt

theorem get_new : (new : Cells n).get i = EMPTY := by
  unfold get new
  split <;> rfl

theorem get_put (inside : i < n) : (cells.put i p).get j = if j = i then p else cells.get j := by
  unfold get put
  by_cases here : j < n
  · rw [dif_pos here, dif_pos here]
  · rw [dif_neg here, dif_neg here, if_neg (by omega)]

end Cells

/-- The board, which tells the kind of the game. -/
inductive Board where
  | ttt (cells : Cells 9)
  | c4 (cells : Cells (C4_W * C4_H))
  | chess (st : Chess.State)

namespace Board

def new : GameType → Board
  | .ttt => .ttt Cells.new
  | .c4 => .c4 Cells.new
  | .chess => .chess Chess.initial

def gtype : Board → GameType
  | ttt _ => .ttt
  | c4 _ => .c4
  | chess _ => .chess

/-- The cell at an index of a grid. -/
def «at» : Board → Nat → UInt8
  | ttt cells, i => cells.get i
  | c4 cells, i => cells.get i
  | chess _, _ => EMPTY

end Board

structure Game where
  board : Board
  turn : Side

namespace Game

def new (gt : GameType) : Game := ⟨Board.new gt, .a⟩

def gtype (g : Game) : GameType := g.board.gtype

end Game

/-! ### Moves -/

/-- `str::parse` of a cell or a column. -/
def number (mv : String) : Option Nat := parseUnsigned mv.toList

/-- The lowest empty cell of a column, counted from the bottom row. -/
def dropTo (cells : Cells (C4_W * C4_H)) (col : Nat) : Option Nat :=
  ((List.range C4_H).map fun r => r * C4_W + col).find? fun i => cells.get i == EMPTY

/-- Apply a move of a side: the game afterwards, and whether the move was legal. -/
def applyMove (g : Game) (side : Side) (mv : String) : Game × Bool :=
  if g.turn ≠ side then (g, false)
  else
    let glyph := g.gtype.glyph side
    match g.board with
    | .ttt cells =>
        match number mv with
        | none => (g, false)
        | some c =>
            if 9 ≤ c ∨ cells.get c ≠ EMPTY then (g, false)
            else (⟨.ttt (cells.put c glyph), side.other⟩, true)
    | .c4 cells =>
        match number mv with
        | none => (g, false)
        | some col =>
            if C4_W ≤ col then (g, false)
            else match dropTo cells col with
              | some i => (⟨.c4 (cells.put i glyph), side.other⟩, true)
              | none => (g, false)
    | .chess st =>
        match (Chess.parse false st mv.toList).join with
        | none => (g, false)
        | some m =>
            let st := Chess.apply st m
            -- chess owns the side to move
            (⟨.chess st, if st.turn = byte 'w' then .a else .b⟩, true)

/-! ### Endings -/

def fullOrOngoing {n : Nat} (cells : Cells n) : Option Outcome :=
  if ∀ i, cells i ≠ EMPTY then some .draw else none

/-- The piece on each of three cells. -/
def threeOf (b : Cells 9) (ln : List Nat) : Option UInt8 :=
  let p := b.get (ln.getD 0 0)
  if p ≠ EMPTY ∧ p = b.get (ln.getD 1 0) ∧ p = b.get (ln.getD 2 0) then some p else none

/-- `n` cells of the piece from a column and row on, by the same step. -/
def runs (b : Cells (C4_W * C4_H)) (p : UInt8) (dc dr : Int) : Nat → Int → Int → Bool
  | 0, _, _ => true
  | n + 1, cc, rr =>
      (decide (0 ≤ cc) && decide (cc < C4_W) && (decide (0 ≤ rr) && decide (rr < C4_H)) &&
        b.get (rr.toNat * C4_W + cc.toNat) == p) && runs b p dc dr n (cc + dc) (rr + dr)

/-- The piece on a cell from which four of it run in one of the steps. -/
def fourFrom (b : Cells (C4_W * C4_H)) (c r : Nat) : Option UInt8 :=
  let p := b.get (r * C4_W + c)
  if p = EMPTY then none
  else if [(1, 0), (0, 1), (1, 1), (1, -1)].any fun (d : Int × Int) => runs b p d.1 d.2 4 c r then some p
  else none

/-- None while the game goes on, else how it ended. -/
def terminal (g : Game) : Option Outcome :=
  match g.board with
  | .ttt b =>
      match TTT_LINES.findSome? (threeOf b) with
      | some p => some (.win (GameType.ttt.sideOfGlyph p))
      | none => fullOrOngoing b
  | .c4 b =>
      match (List.range C4_W).findSome? fun c => (List.range C4_H).findSome? (fourFrom b c) with
      | some p => some (.win (GameType.c4.sideOfGlyph p))
      | none => fullOrOngoing b
  | .chess st =>
      match Chess.over st with
      | none => none
      | some .draw => some .draw
      | some (.checkmate c) => some (.win (if c = byte 'w' then .a else .b))

/-! ### Plays -/

/-- A move as a player sends it. -/
structure Sent where
  side : Side
  text : String
  deriving DecidableEq, Repr

/-- A game with the moves that have been accepted. -/
structure Match where
  game : Game
  accepted : List Sent

namespace Match

def new (gt : GameType) : Match := ⟨Game.new gt, []⟩

/-- What MOVE does with an active game. A game that has ended takes no move. -/
def feed (m : Match) (mv : Sent) : Match :=
  if (terminal m.game).isSome then m
  else
    let (game, ok) := applyMove m.game mv.side mv.text
    ⟨game, if ok then m.accepted ++ [mv] else m.accepted⟩

end Match

end Echo.GameServ
