import Mathlib.Data.Fintype.Pi
import Mathlib.Data.Fin.Basic
import Mathlib.Tactic.IntervalCases

/-!
Chess positions as GameServ holds them: a board of 64 bytes, the side to move, the
castling rights and the en-passant square. A square is its rank times eight plus its file,
from a1 to h8; arithmetic on it may leave the board, and -1 is no square.
-/

namespace Echo.Chess

/-- The byte of an ASCII character. -/
def byte (c : Char) : UInt8 := c.toUInt8

/-- The character of a byte. -/
def char (p : UInt8) : Char := Char.ofNat p.toNat

def empty : UInt8 := byte ' '

/-! ### Squares -/

def cf (s : Int) : Int := s % 8

def cr (s : Int) : Int := s / 8

def csq (f r : Int) : Int := r * 8 + f

/-- A file or a rank of the board. -/
def onBoard (x : Int) : Bool := decide (0 ≤ x) && decide (x < 8)

section Squares

variable {f r s : Int}

@[simp] theorem onBoard_iff {x : Int} : onBoard x = true ↔ 0 ≤ x ∧ x < 8 := by
  simp [onBoard]

theorem cf_csq (onF : onBoard f = true) : cf (csq f r) = f := by
  rw [onBoard_iff] at onF
  unfold cf csq
  omega

theorem cr_csq (onF : onBoard f = true) : cr (csq f r) = r := by
  rw [onBoard_iff] at onF
  unfold cr csq
  omega

theorem csq_cf_cr (s : Int) : csq (cf s) (cr s) = s := by
  unfold csq cf cr
  omega

theorem csq_range (onF : onBoard f = true) (onR : onBoard r = true) : 0 ≤ csq f r ∧ csq f r < 64 := by
  rw [onBoard_iff] at onF onR
  unfold csq
  omega

theorem csq_inj {f f' r' : Int} (onF : onBoard f = true) (onF' : onBoard f' = true) :
    csq f r = csq f' r' ↔ f = f' ∧ r = r' := by
  rw [onBoard_iff] at onF onF'
  unfold csq
  omega

theorem cf_onBoard (s : Int) : onBoard (cf s) = true := by
  rw [onBoard_iff]
  unfold cf
  omega

theorem cr_onBoard (range : 0 ≤ s ∧ s < 64) : onBoard (cr s) = true := by
  rw [onBoard_iff]
  unfold cr
  omega

end Squares

/-! ### Boards -/

abbrev Board := Fin 64 → UInt8

namespace Board

variable {b : Board} {s t : Int} {p : UInt8}

/-- What stands on a square. Nothing stands off the board. -/
def get (b : Board) (s : Int) : UInt8 :=
  if range : 0 ≤ s ∧ s < 64 then b ⟨s.toNat, by omega⟩ else empty

def put (b : Board) (s : Int) (p : UInt8) : Board := fun i => if (i : Int) = s then p else b i

theorem get_put (range : 0 ≤ s ∧ s < 64) : (b.put s p).get t = if t = s then p else b.get t := by
  unfold get put
  by_cases inside : 0 ≤ t ∧ t < 64
  · rw [dif_pos inside, dif_pos inside]
    have same : ((⟨t.toNat, by omega⟩ : Fin 64) : Int) = s ↔ t = s := by
      rw [Int.toNat_of_nonneg inside.1]
    by_cases here : t = s
    · rw [if_pos here, if_pos (same.mpr here)]
    · rw [if_neg here, if_neg (mt same.mp here)]
  · rw [dif_neg inside, dif_neg inside, if_neg]
    rintro rfl
    exact inside range

/-- Boards with the same on every square are the same. -/
theorem ext_get {b' : Board} (same : ∀ f r, onBoard f = true → onBoard r = true →
    b.get (csq f r) = b'.get (csq f r)) : b = b' := by
  funext i
  have range : 0 ≤ (i : Int) ∧ (i : Int) < 64 := by omega
  have here := same (cf i) (cr i) (cf_onBoard i) (cr_onBoard range)
  rw [csq_cf_cr] at here
  unfold get at here
  rw [dif_pos range, dif_pos range] at here
  exact here

end Board

/-! ### Pieces -/

/-- The side of a piece: white for an upper-case letter. -/
def ccolor (p : UInt8) : UInt8 := if byte 'A' ≤ p ∧ p ≤ byte 'Z' then byte 'w' else byte 'b'

def cown (p c : UInt8) : Bool := p != empty && ccolor p == c

def upper (p : UInt8) : UInt8 := if byte 'a' ≤ p ∧ p ≤ byte 'z' then p - 32 else p

def lower (p : UInt8) : UInt8 := if byte 'A' ≤ p ∧ p ≤ byte 'Z' then p + 32 else p

/-- The other side. -/
def other (c : UInt8) : UInt8 := if c = byte 'w' then byte 'b' else byte 'w'

/-! ### States -/

structure Move where
  «from» : Int
  «to» : Int
  /-- 0, or the letter of the piece promoted to, in lower case. -/
  promo : UInt8 := 0
  /-- En-passant capture. -/
  ep : Bool := false
  /-- Double push of a pawn. -/
  dbl : Bool := false
  /-- 0, or `K` or `Q`. -/
  castle : UInt8 := 0
  deriving DecidableEq, Repr

structure State where
  board : Board
  turn : UInt8
  cK : Bool
  cQ : Bool
  cKBlack : Bool
  cQBlack : Bool
  /-- The en-passant target square, or -1. -/
  ep : Int
  deriving DecidableEq

/-- The pieces behind the pawns, from the queen's rook on. -/
def back : List UInt8 := "RNBQKBNR".toList.map byte

def initial : State where
  board i :=
    let f := i.val % 8
    match i.val / 8 with
    | 0 => back.getD f empty
    | 1 => byte 'P'
    | 6 => byte 'p'
    | 7 => lower (back.getD f empty)
    | _ => empty
  turn := byte 'w'
  cK := true
  cQ := true
  cKBlack := true
  cQBlack := true
  ep := -1

/-! ### The names of squares -/

def nameSq (s : Int) : List UInt8 := [byte 'a' + (cf s).toNat.toUInt8, byte '1' + (cr s).toNat.toUInt8]

/-- A difference of bytes: below zero it wraps around, or ends the program where
overflows are checked. -/
def subByte (checked : Bool) (a b : UInt8) : Option UInt8 :=
  if checked ∧ a < b then none else some (a - b)

/-- The square of a name, its first two bytes. -/
def sqName (checked : Bool) : List UInt8 → Option Int
  | a :: b :: _ => do
      let f ← subByte checked a (byte 'a')
      let r ← subByte checked b (byte '1')
      pure (csq f.toNat r.toNat)
  | _ => none

theorem byte_add_sub (base : UInt8) {x : Int} (low : base.toNat ≤ 200) (on : onBoard x = true) :
    (base + x.toNat.toUInt8) - base = x.toNat.toUInt8 ∧ base ≤ base + x.toNat.toUInt8 ∧
      (x.toNat.toUInt8.toNat : Int) = x := by
  rw [onBoard_iff] at on
  have small : x.toNat.toUInt8.toNat = x.toNat := by
    rw [Nat.toUInt8, UInt8.toNat_ofNat']
    omega
  refine ⟨?_, ?_, ?_⟩
  · rw [UInt8.add_comm, UInt8.add_sub_cancel]
  · rw [UInt8.le_iff_toNat_le, UInt8.toNat_add, small]
    omega
  · rw [small]
    omega

/-- The name of a square is read back. -/
theorem sqName_nameSq (checked : Bool) {s : Int} (range : 0 ≤ s ∧ s < 64) (rest : List UInt8) :
    sqName checked (nameSq s ++ rest) = some s := by
  obtain ⟨fileBack, fileUp, file⟩ := byte_add_sub (byte 'a') (by decide) (cf_onBoard s)
  obtain ⟨rankBack, rankUp, rank⟩ := byte_add_sub (byte '1') (by decide) (cr_onBoard range)
  have within : ∀ {a b : UInt8}, b ≤ a → subByte checked a b = some (a - b) := by
    intro a b fits
    unfold subByte
    rw [if_neg]
    rintro ⟨_, below⟩
    exact absurd fits (UInt8.not_le.mpr below)
  change (subByte checked (byte 'a' + (cf s).toNat.toUInt8) (byte 'a')).bind (fun f =>
    (subByte checked (byte '1' + (cr s).toNat.toUInt8) (byte '1')).bind fun r =>
      some (csq f.toNat r.toNat)) = some s
  rw [within fileUp, Option.bind_some, within rankUp, Option.bind_some, fileBack, rankBack, file, rank,
    csq_cf_cr]

end Echo.Chess
