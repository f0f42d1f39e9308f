import Echo.Chess.State

/-!
The moves of a position as GameServ generates them: all moves of the pieces of the side
to move, of which those are kept that do not leave its own king attacked.

The source follows a line of squares in a loop that ends off the board. The loops here
count down from eight, and a line that leaves the board has left it by then.
-/

namespace Echo.Chess

def KN : List (Int × Int) :=
  [(1, 2), (2, 1), (2, -1), (1, -2), (-1, -2), (-2, -1), (-2, 1), (-1, 2)]

def KG : List (Int × Int) :=
  [(1, 0), (1, 1), (0, 1), (-1, 1), (-1, 0), (-1, -1), (0, -1), (1, -1)]

def BD : List (Int × Int) := [(1, 1), (-1, 1), (-1, -1), (1, -1)]

def RD : List (Int × Int) := [(1, 0), (-1, 0), (0, 1), (0, -1)]

/-! ### Attacks -/

/-- A piece of `side` stands there that moves as `t` does. -/
def stepAttacked (b : Board) (side t : UInt8) (f r : Int) : Bool :=
  onBoard f && onBoard r &&
    (let p := b.get (csq f r)
    p != empty && ccolor p == side && upper p == t)

/-- The first piece on a line is a queen of `side`, or moves as `t` does. -/
def lineAttacked (b : Board) (side t : UInt8) (d : Int × Int) : Nat → Int → Int → Bool
  | 0, _, _ => false
  | n + 1, f, r =>
      if onBoard f && onBoard r then
        let p := b.get (csq f r)
        if p != empty then ccolor p == side && (upper p == t || upper p == byte 'Q')
        else lineAttacked b side t d n (f + d.1) (r + d.2)
      else false

def attacked (b : Board) (target : Int) (side : UInt8) : Bool :=
  let tf := cf target
  let tr := cr target
  let pr := if side = byte 'w' then tr - 1 else tr + 1
  [-1, 1].any (fun df => stepAttacked b side (byte 'P') (tf + df) pr) ||
    KN.any (fun d => stepAttacked b side (byte 'N') (tf + d.1) (tr + d.2)) ||
    KG.any (fun d => stepAttacked b side (byte 'K') (tf + d.1) (tr + d.2)) ||
    BD.any (fun d => lineAttacked b side (byte 'B') d 8 (tf + d.1) (tr + d.2)) ||
    RD.any (fun d => lineAttacked b side (byte 'R') d 8 (tf + d.1) (tr + d.2))

def kingSq (b : Board) (c : UInt8) : Int :=
  let k := if c = byte 'w' then byte 'K' else byte 'k'
  match (List.range 64).find? fun (i : Nat) => b.get i == k with
  | some i => i
  | none => -1

def inCheck (st : State) (c : UInt8) : Bool := attacked st.board (kingSq st.board c) (other c)

/-! ### Candidates -/

def dirOf (c : UInt8) : Int := if c = byte 'w' then 1 else -1

def startRank (c : UInt8) : Int := if c = byte 'w' then 1 else 6

def promoRank (c : UInt8) : Int := if c = byte 'w' then 7 else 0

/-- The pieces a pawn can become. -/
def promos : List UInt8 := "qrbn".toList.map byte

def addPawn (src dst : Int) (promo ep dbl : Bool) : List Move :=
  if promo then promos.map fun pr => { «from» := src, «to» := dst, promo := pr }
  else [{ «from» := src, «to» := dst, ep := ep, dbl := dbl }]

def pawnPushes (st : State) (s : Int) : List Move :=
  let c := st.turn
  let f := cf s
  let r := cr s
  let r1 := r + dirOf c
  if onBoard r1 && st.board.get (csq f r1) == empty then
    addPawn s (csq f r1) (r1 == promoRank c) false false ++
      (if r == startRank c && st.board.get (csq f (r + 2 * dirOf c)) == empty then
        addPawn s (csq f (r + 2 * dirOf c)) false false true
      else [])
  else []

def pawnCaptures (st : State) (s df : Int) : List Move :=
  let c := st.turn
  let f := cf s + df
  let r := cr s + dirOf c
  if onBoard f && onBoard r then
    let dst := csq f r
    let tp := st.board.get dst
    if tp != empty && ccolor tp != c then addPawn s dst (r == promoRank c) false false
    else if dst = st.ep then [{ «from» := s, «to» := dst, ep := true }]
    else []
  else []

/-- The moves of a knight or a king. -/
def stepMoves (st : State) (s : Int) (steps : List (Int × Int)) : List Move :=
  steps.flatMap fun d =>
    let f := cf s + d.1
    let r := cr s + d.2
    if onBoard f && onBoard r then
      if !cown (st.board.get (csq f r)) st.turn then [{ «from» := s, «to» := csq f r }] else []
    else []

def castles (st : State) (s : Int) : List Move :=
  let c := st.turn
  let b := st.board
  let enemy := other c
  let rank : Int := if c = byte 'w' then 0 else 7
  let kFrom := csq 4 rank
  if s = kFrom ∧ attacked b kFrom enemy = false then
    let kr := if c = byte 'w' then st.cK else st.cKBlack
    let qr := if c = byte 'w' then st.cQ else st.cQBlack
    let rook := if c = byte 'w' then byte 'R' else byte 'r'
    (if kr && b.get (csq 5 rank) == empty && b.get (csq 6 rank) == empty &&
        b.get (csq 7 rank) == rook && !attacked b (csq 5 rank) enemy && !attacked b (csq 6 rank) enemy
      then [{ «from» := kFrom, «to» := csq 6 rank, castle := byte 'K' }] else []) ++
    (if qr && b.get (csq 3 rank) == empty && b.get (csq 2 rank) == empty &&
        b.get (csq 1 rank) == empty && b.get (csq 0 rank) == rook &&
        !attacked b (csq 3 rank) enemy && !attacked b (csq 2 rank) enemy
      then [{ «from» := kFrom, «to» := csq 2 rank, castle := byte 'Q' }] else [])
  else []

/-- The moves along a line, up to the first piece on it. -/
def slide (b : Board) (c : UInt8) (s : Int) (d : Int × Int) : Nat → Int → Int → List Move
  | 0, _, _ => []
  | n + 1, f, r =>
      if onBoard f && onBoard r then
        let tp := b.get (csq f r)
        if tp != empty then (if ccolor tp != c then [{ «from» := s, «to» := csq f r }] else [])
        else { «from» := s, «to» := csq f r } :: slide b c s d n (f + d.1) (r + d.2)
      else []

def dirsOf (t : UInt8) : List (Int × Int) :=
  if t = byte 'B' then BD else if t = byte 'R' then RD else BD ++ RD

def movesFrom (st : State) (s : Int) : List Move :=
  let p := st.board.get s
  if p == empty || ccolor p != st.turn then []
  else
    let t := upper p
    if t = byte 'P' then pawnPushes st s ++ [-1, 1].flatMap (pawnCaptures st s)
    else if t = byte 'N' then stepMoves st s KN
    else if t = byte 'K' then stepMoves st s KG ++ castles st s
    else
      (dirsOf t).flatMap fun d => slide st.board st.turn s d 8 (cf s + d.1) (cr s + d.2)

/-- The moves that may leave the mover's own king in check. -/
def pseudo (st : State) : List Move := (List.range 64).flatMap fun (s : Nat) => movesFrom st s

/-! ### Making a move -/

/-- The board after a move. -/
def applyBoard (st : State) (m : Move) : Board :=
  let c := st.turn
  let piece := st.board.get m.from
  let b := st.board.put m.from empty
  let b := if m.ep then b.put (csq (cf m.to) (cr m.from)) empty else b
  let b := b.put m.to (if m.promo ≠ 0 then (if c = byte 'w' then upper m.promo else m.promo) else piece)
  if m.castle ≠ 0 then
    let rk : Int := if c = byte 'w' then 0 else 7
    let rook := if c = byte 'w' then byte 'R' else byte 'r'
    if m.castle = byte 'K' then (b.put (csq 7 rk) empty).put (csq 5 rk) rook
    else (b.put (csq 0 rk) empty).put (csq 3 rk) rook
  else b

/-- A right of `side` is kept while its king has not moved, and nothing has left the
rook's corner or entered it. -/
def keeps (st : State) (m : Move) (side rook : UInt8) (corner : Int) : Bool :=
  let piece := st.board.get m.from
  !(upper piece == byte 'K' && (st.turn == byte 'w') == (side == byte 'w')) &&
    !(piece == rook && m.from == corner) && !(m.to == corner)

def apply (st : State) (m : Move) : State where
  board := applyBoard st m
  turn := other st.turn
  cK := st.cK && keeps st m (byte 'w') (byte 'R') (csq 7 0)
  cQ := st.cQ && keeps st m (byte 'w') (byte 'R') (csq 0 0)
  cKBlack := st.cKBlack && keeps st m (byte 'b') (byte 'r') (csq 7 7)
  cQBlack := st.cQBlack && keeps st m (byte 'b') (byte 'r') (csq 0 7)
  ep := if m.dbl then csq (cf m.from) (cr m.from + dirOf st.turn) else -1

/-! ### Legal moves -/

def legal (st : State) : List Move :=
  (pseudo st).filter fun m =>
    let ns := apply st m
    !attacked ns.board (kingSq ns.board st.turn) (other st.turn)

inductive Ending where
  | draw
  /-- The byte of the side that has won. -/
  | checkmate (winner : UInt8)
  deriving DecidableEq, Repr

/-- None while the side to move has a legal move. -/
def «over» (st : State) : Option Ending :=
  if !(legal st).isEmpty then none
  else if inCheck st st.turn then some (.checkmate (other st.turn))
  else some .draw

/-! ### Lines -/

/-- The squares of a line from (f, r) on are on the board up to the `k`-th, and those
before it are empty. -/
def Open (b : Board) (d : Int × Int) (f r : Int) (k : Nat) : Prop :=
  (∀ j : Nat, j ≤ k → onBoard (f + j * d.1) = true ∧ onBoard (r + j * d.2) = true) ∧
    ∀ j : Nat, j < k → b.get (csq (f + j * d.1) (r + j * d.2)) = empty

section Lines

variable {b : Board} {c side t : UInt8} {d : Int × Int} {f r s : Int} {k : Nat}

theorem open_zero : Open b d f r 0 ↔ onBoard f = true ∧ onBoard r = true := by
  constructor
  · rintro ⟨on, _⟩
    simpa using on 0 (Nat.le_refl 0)
  · intro on
    constructor
    · intro j low
      obtain rfl : j = 0 := by omega
      simpa using on
    · intro j low
      omega

theorem step_shift (x y : Int) (j : Nat) : x + ((j + 1 : Nat) : Int) * y = x + y + j * y := by
  rw [Int.natCast_succ, Int.add_mul, Int.one_mul]
  omega

theorem open_succ : Open b d f r (k + 1) ↔
    (onBoard f = true ∧ onBoard r = true) ∧ b.get (csq f r) = empty ∧
      Open b d (f + d.1) (r + d.2) k := by
  constructor
  · rintro ⟨on, vacant⟩
    refine ⟨by simpa using on 0 (by omega), by simpa using vacant 0 (by omega), ?_, ?_⟩
    · intro j low
      rw [← step_shift, ← step_shift]
      exact on (j + 1) (by omega)
    · intro j low
      rw [← step_shift, ← step_shift]
      exact vacant (j + 1) (by omega)
  · rintro ⟨onHere, here, on, vacant⟩
    constructor
    · intro j low
      cases j with
      | zero => simpa using onHere
      | succ j =>
          rw [step_shift, step_shift]
          exact on j (by omega)
    · intro j low
      cases j with
      | zero => simpa using here
      | succ j =>
          rw [step_shift, step_shift]
          exact vacant j (by omega)

/-- A line is attacked along when it is open up to such a piece. -/
theorem lineAttacked_iff {n : Nat} : lineAttacked b side t d n f r = true ↔
    ∃ k < n, Open b d f r k ∧
      cown (b.get (csq (f + k * d.1) (r + k * d.2))) side = true ∧
      (upper (b.get (csq (f + k * d.1) (r + k * d.2))) = t ∨
        upper (b.get (csq (f + k * d.1) (r + k * d.2))) = byte 'Q') := by
  induction n generalizing f r with
  | zero =>
      unfold lineAttacked
      constructor
      · intro impossible
        contradiction
      · rintro ⟨k, low, _⟩
        omega
  | succ n ih =>
      unfold lineAttacked
      by_cases on : onBoard f && onBoard r
      · rw [if_pos on]
        rw [Bool.and_eq_true] at on
        by_cases vacant : b.get (csq f r) = empty
        · simp only [vacant, bne_self_eq_false, Bool.false_eq_true, if_false]
          rw [ih]
          constructor
          · rintro ⟨k, low, path, hit⟩
            refine ⟨k + 1, by omega, open_succ.mpr ⟨on, vacant, path⟩, ?_⟩
            rw [step_shift, step_shift]
            exact hit
          · rintro ⟨k, low, path, hit⟩
            cases k with
            | zero =>
                simp [vacant, cown] at hit
            | succ k =>
                rw [step_shift, step_shift] at hit
                exact ⟨k, by omega, (open_succ.mp path).2.2, hit⟩
        · simp only [bne_iff_ne, ne_eq, vacant, not_false_eq_true, if_true]
          constructor
          · intro hit
            refine ⟨0, by omega, open_zero.mpr on, ?_⟩
            simpa [cown, vacant] using hit
          · rintro ⟨k, low, path, hit⟩
            cases k with
            | zero => simpa [cown, vacant] using hit
            | succ k => exact absurd (open_succ.mp path).2.1 vacant
      · rw [if_neg on]
        constructor
        · intro impossible
          contradiction
        · rintro ⟨k, low, path, _⟩
          have here := path.1 0 (by omega)
          simp only [Nat.cast_zero, zero_mul, add_zero] at here
          rw [here.1, here.2] at on
          contradiction

theorem mem_slide {n : Nat} {m : Move} : m ∈ slide b c s d n f r ↔
    ∃ k < n, Open b d f r k ∧
      cown (b.get (csq (f + k * d.1) (r + k * d.2))) c = false ∧
      m = { «from» := s, «to» := csq (f + k * d.1) (r + k * d.2) } := by
  induction n generalizing f r with
  | zero =>
      unfold slide
      constructor
      · intro impossible
        contradiction
      · rintro ⟨k, low, _⟩
        omega
  | succ n ih =>
      unfold slide
      by_cases on : onBoard f && onBoard r
      · rw [if_pos on]
        rw [Bool.and_eq_true] at on
        by_cases vacant : b.get (csq f r) = empty
        · simp only [vacant, bne_self_eq_false, Bool.false_eq_true, if_false]
          rw [List.mem_cons, ih]
          constructor
          · rintro (here | ⟨k, low, path, free, same⟩)
            · refine ⟨0, by omega, open_zero.mpr on, ?_⟩
              simpa [cown, vacant] using here
            · refine ⟨k + 1, by omega, open_succ.mpr ⟨on, vacant, path⟩, ?_⟩
              rw [step_shift, step_shift]
              exact ⟨free, same⟩
          · rintro ⟨k, low, path, free, same⟩
            cases k with
            | zero =>
                left
                simpa using same
            | succ k =>
                right
                rw [step_shift, step_shift] at free same
                exact ⟨k, by omega, (open_succ.mp path).2.2, free, same⟩
        · simp only [bne_iff_ne, ne_eq, vacant, not_false_eq_true, if_true]
          constructor
          · intro mem
            split at mem
            · rename_i enemy
              refine ⟨0, by omega, open_zero.mpr on, ?_⟩
              simpa [cown, vacant, enemy] using mem
            · contradiction
          · rintro ⟨k, low, path, free, same⟩
            cases k with
            | zero =>
                have enemy : ccolor (b.get (csq f r)) ≠ c := by simpa [cown, vacant] using free
                rw [if_pos enemy]
                simpa using same
            | succ k => exact absurd (open_succ.mp path).2.1 vacant
      · rw [if_neg on]
        constructor
        · intro impossible
          contradiction
        · rintro ⟨k, low, path, _⟩
          have here := path.1 0 (by omega)
          simp only [Nat.cast_zero, zero_mul, add_zero] at here
          rw [here.1, here.2] at on
          contradiction

end Lines

/-! ### What is generated -/

section Members

variable {st : State} {s src dst df : Int} {m : Move} {promo ep dbl : Bool}

theorem mem_addPawn : m ∈ addPawn src dst promo ep dbl ↔
    (promo = true ∧ ∃ pr ∈ promos, m = { «from» := src, «to» := dst, promo := pr }) ∨
      (promo = false ∧ m = { «from» := src, «to» := dst, ep := ep, dbl := dbl }) := by
  cases promo with
  | false => simp [addPawn]
  | true => simp [addPawn, eq_comm]

theorem mem_pawnPushes : m ∈ pawnPushes st s ↔
    onBoard (cr s + dirOf st.turn) = true ∧
      st.board.get (csq (cf s) (cr s + dirOf st.turn)) = empty ∧
      (m ∈ addPawn s (csq (cf s) (cr s + dirOf st.turn))
          (cr s + dirOf st.turn == promoRank st.turn) false false ∨
        cr s = startRank st.turn ∧
          st.board.get (csq (cf s) (cr s + 2 * dirOf st.turn)) = empty ∧
          m = { «from» := s, «to» := csq (cf s) (cr s + 2 * dirOf st.turn), dbl := true }) := by
  unfold pawnPushes
  dsimp only
  split
  · rename_i free
    rw [Bool.and_eq_true, beq_iff_eq] at free
    rw [List.mem_append]
    split
    · rename_i start
      rw [Bool.and_eq_true, beq_iff_eq, beq_iff_eq] at start
      have double : m ∈ addPawn s (csq (cf s) (cr s + 2 * dirOf st.turn)) false false true ↔
          m = { «from» := s, «to» := csq (cf s) (cr s + 2 * dirOf st.turn), dbl := true } :=
        List.mem_singleton
      rw [double]
      constructor
      · rintro (mem | same)
        · exact ⟨free.1, free.2, .inl mem⟩
        · exact ⟨free.1, free.2, .inr ⟨start.1, start.2, same⟩⟩
      · rintro ⟨_, _, mem | ⟨_, _, same⟩⟩
        · exact .inl mem
        · exact .inr same
    · rename_i start
      rw [Bool.and_eq_true, beq_iff_eq, beq_iff_eq] at start
      constructor
      · rintro (mem | mem)
        · exact ⟨free.1, free.2, .inl mem⟩
        · contradiction
      · rintro ⟨_, _, mem | ⟨rank, vacant, _⟩⟩
        · exact .inl mem
        · exact absurd ⟨rank, vacant⟩ start
  · rename_i blocked
    rw [Bool.and_eq_true, beq_iff_eq] at blocked
    constructor
    · intro mem
      contradiction
    · rintro ⟨on, vacant, _⟩
      exact absurd ⟨on, vacant⟩ blocked

theorem mem_pawnCaptures : m ∈ pawnCaptures st s df ↔
    onBoard (cf s + df) = true ∧ onBoard (cr s + dirOf st.turn) = true ∧
      ((st.board.get (csq (cf s + df) (cr s + dirOf st.turn)) ≠ empty ∧
          ccolor (st.board.get (csq (cf s + df) (cr s + dirOf st.turn))) ≠ st.turn ∧
          m ∈ addPawn s (csq (cf s + df) (cr s + dirOf st.turn))
            (cr s + dirOf st.turn == promoRank st.turn) false false) ∨
        ¬ (st.board.get (csq (cf s + df) (cr s + dirOf st.turn)) ≠ empty ∧
          ccolor (st.board.get (csq (cf s + df) (cr s + dirOf st.turn))) ≠ st.turn) ∧
          csq (cf s + df) (cr s + dirOf st.turn) = st.ep ∧
          m = { «from» := s, «to» := csq (cf s + df) (cr s + dirOf st.turn), ep := true }) := by
  unfold pawnCaptures
  dsimp only
  by_cases on : onBoard (cf s + df) && onBoard (cr s + dirOf st.turn)
  · rw [if_pos on]
    rw [Bool.and_eq_true] at on
    by_cases enemy : st.board.get (csq (cf s + df) (cr s + dirOf st.turn)) ≠ empty ∧
        ccolor (st.board.get (csq (cf s + df) (cr s + dirOf st.turn))) ≠ st.turn
    · simp [enemy, on]
    · rw [if_neg (by simpa using enemy), List.mem_ite_nil_right, List.mem_singleton]
      constructor
      · rintro ⟨passed, same⟩
        exact ⟨on.1, on.2, .inr ⟨enemy, passed, same⟩⟩
      · rintro ⟨_, _, ⟨piece, color, _⟩ | ⟨_, passed, same⟩⟩
        · exact absurd ⟨piece, color⟩ enemy
        · exact ⟨passed, same⟩
  · rw [if_neg on]
    rw [Bool.and_eq_true] at on
    constructor
    · intro mem
      contradiction
    · rintro ⟨onF, onR, _⟩
      exact absurd ⟨onF, onR⟩ on

theorem mem_stepMoves {steps : List (Int × Int)} : m ∈ stepMoves st s steps ↔
    ∃ d ∈ steps, (onBoard (cf s + d.1) = true ∧ onBoard (cr s + d.2) = true) ∧
      cown (st.board.get (csq (cf s + d.1) (cr s + d.2))) st.turn = false ∧
      m = { «from» := s, «to» := csq (cf s + d.1) (cr s + d.2) } := by
  unfold stepMoves
  simp only [List.mem_flatMap]
  constructor
  · rintro ⟨d, step, mem⟩
    split at mem
    · rename_i on
      rw [Bool.and_eq_true] at on
      split at mem
      · rename_i free
        exact ⟨d, step, on, by simpa using free, List.mem_singleton.mp mem⟩
      · contradiction
    · contradiction
  · rintro ⟨d, step, ⟨onF, onR⟩, free, same⟩
    refine ⟨d, step, ?_⟩
    rw [onF, onR, free]
    exact List.mem_singleton.mpr same

/-- A castling move of the source's data: the right, the rook and the king's two squares. -/
theorem mem_castles : m ∈ castles st s ↔
    let c := st.turn
    let b := st.board
    let rank : Int := if c = byte 'w' then 0 else 7
    let rook := if c = byte 'w' then byte 'R' else byte 'r'
    s = csq 4 rank ∧ attacked b (csq 4 rank) (other c) = false ∧
      (((if c = byte 'w' then st.cK else st.cKBlack) = true ∧ b.get (csq 5 rank) = empty ∧
          b.get (csq 6 rank) = empty ∧ b.get (csq 7 rank) = rook ∧
          attacked b (csq 5 rank) (other c) = false ∧ attacked b (csq 6 rank) (other c) = false ∧
          m = { «from» := csq 4 rank, «to» := csq 6 rank, castle := byte 'K' }) ∨
        (if c = byte 'w' then st.cQ else st.cQBlack) = true ∧ b.get (csq 3 rank) = empty ∧
          b.get (csq 2 rank) = empty ∧ b.get (csq 1 rank) = empty ∧ b.get (csq 0 rank) = rook ∧
          attacked b (csq 3 rank) (other c) = false ∧ attacked b (csq 2 rank) (other c) = false ∧
          m = { «from» := csq 4 rank, «to» := csq 2 rank, castle := byte 'Q' }) := by
  unfold castles
  dsimp only
  generalize (if st.turn = byte 'w' then (0 : Int) else 7) = rank
  generalize (if st.turn = byte 'w' then st.cK else st.cKBlack) = kr
  generalize (if st.turn = byte 'w' then st.cQ else st.cQBlack) = qr
  generalize (if st.turn = byte 'w' then byte 'R' else byte 'r') = rook
  by_cases home : s = csq 4 rank ∧ attacked st.board (csq 4 rank) (other st.turn) = false
  · rw [if_pos home, List.mem_append, List.mem_ite_nil_right, List.mem_ite_nil_right]
    simp only [home, true_and, Bool.and_eq_true, beq_iff_eq, Bool.not_eq_true', List.mem_singleton]
    tauto
  · rw [if_neg home]
    constructor
    · intro mem
      contradiction
    · rintro ⟨start, safe, _⟩
      exact absurd ⟨start, safe⟩ home

/-- The candidates from a square, by the piece on it. -/
theorem mem_movesFrom : m ∈ movesFrom st s ↔
    cown (st.board.get s) st.turn = true ∧
      ((upper (st.board.get s) = byte 'P' ∧
          (m ∈ pawnPushes st s ∨ ∃ df, (df = -1 ∨ df = 1) ∧ m ∈ pawnCaptures st s df)) ∨
        (upper (st.board.get s) = byte 'N' ∧ m ∈ stepMoves st s KN) ∨
        (upper (st.board.get s) = byte 'K' ∧ (m ∈ stepMoves st s KG ∨ m ∈ castles st s)) ∨
        (upper (st.board.get s) ≠ byte 'P' ∧ upper (st.board.get s) ≠ byte 'N' ∧
          upper (st.board.get s) ≠ byte 'K' ∧ ∃ d ∈ dirsOf (upper (st.board.get s)),
            m ∈ slide st.board st.turn s d 8 (cf s + d.1) (cr s + d.2))) := by
  unfold movesFrom
  generalize st.board.get s = p
  dsimp only
  by_cases own : cown p st.turn = true
  · have mine : (p == empty || ccolor p != st.turn) = false := by
      simpa [cown] using own
    rw [mine, if_neg (by decide)]
    simp only [own, true_and]
    by_cases pawn : upper p = byte 'P'
    · have others : byte 'P' ≠ byte 'N' ∧ byte 'P' ≠ byte 'K' := by decide
      simp [pawn, others]
    · by_cases knight : upper p = byte 'N'
      · have others : byte 'N' ≠ byte 'P' ∧ byte 'N' ≠ byte 'K' := by decide
        simp [knight, others]
      · by_cases king : upper p = byte 'K'
        · have others : byte 'K' ≠ byte 'P' ∧ byte 'K' ≠ byte 'N' := by decide
          simp [king, others]
        · simp [pawn, knight, king]
  · have notMine : (p == empty || ccolor p != st.turn) = true := by
      simp only [cown, Bool.and_eq_true, bne_iff_ne, beq_iff_eq, not_and] at own
      by_cases nothing : p = empty
      · simp [nothing]
      · simp [own nothing]
    rw [notMine, if_pos rfl]
    simp [own]

theorem mem_pseudo : m ∈ pseudo st ↔ ∃ s, 0 ≤ s ∧ s < 64 ∧ m ∈ movesFrom st s := by
  unfold pseudo
  rw [List.mem_flatMap]
  constructor
  · rintro ⟨s, low, mem⟩
    rw [List.mem_range] at low
    exact ⟨s, by omega, by omega, mem⟩
  · rintro ⟨s, low, high, mem⟩
    refine ⟨s.toNat, List.mem_range.mpr (by omega), ?_⟩
    rwa [Int.toNat_of_nonneg low]

theorem from_of_mem_addPawn (mem : m ∈ addPawn src dst promo ep dbl) : m.from = src := by
  rcases mem_addPawn.mp mem with ⟨_, _, _, rfl⟩ | ⟨_, rfl⟩
  · rfl
  · rfl

/-- A candidate starts where its piece stands. -/
theorem from_of_mem (mem : m ∈ movesFrom st s) : m.from = s := by
  have stepped : ∀ {ds}, m ∈ stepMoves st s ds → m.from = s := by
    intro ds mem
    obtain ⟨_, _, _, _, rfl⟩ := mem_stepMoves.mp mem
    rfl
  rcases (mem_movesFrom.mp mem).2 with ⟨_, mem | ⟨df, _, mem⟩⟩ | ⟨_, mem⟩ | ⟨_, mem | mem⟩ |
    ⟨_, _, _, d, _, mem⟩
  · obtain ⟨_, _, mem | ⟨_, _, rfl⟩⟩ := mem_pawnPushes.mp mem
    · exact from_of_mem_addPawn mem
    · rfl
  · obtain ⟨_, _, ⟨_, _, mem⟩ | ⟨_, _, rfl⟩⟩ := mem_pawnCaptures.mp mem
    · exact from_of_mem_addPawn mem
    · rfl
  · exact stepped mem
  · exact stepped mem
  · have members := mem_castles.mp mem
    dsimp only at members
    obtain ⟨start, _, ⟨_, _, _, _, _, _, rfl⟩ | ⟨_, _, _, _, _, _, _, rfl⟩⟩ := members
    · exact start.symm
    · exact start.symm
  · obtain ⟨_, _, _, _, rfl⟩ := mem_slide.mp mem
    rfl

end Members

/-! ### What the squares of a move say about it -/

/-- The marks of a candidate: which kind of move it is follows from its squares. -/
structure Marked (st : State) (m : Move) : Prop where
  «from» : 0 ≤ m.from ∧ m.from < 64
  «to» : 0 ≤ m.to ∧ m.to < 64
  promo : m.promo = 0 ∨ m.promo ∈ promos
  ep : m.ep = true ↔ upper (st.board.get m.from) = byte 'P' ∧ cf m.to ≠ cf m.from ∧
    ¬ (st.board.get m.to ≠ empty ∧ ccolor (st.board.get m.to) ≠ st.turn)
  dbl : m.dbl = true ↔
    upper (st.board.get m.from) = byte 'P' ∧ cr m.to = cr m.from + 2 * dirOf st.turn
  castle : m.castle =
    if upper (st.board.get m.from) = byte 'K' ∧ cf m.to = cf m.from + 2 then byte 'K'
    else if upper (st.board.get m.from) = byte 'K' ∧ cf m.to = cf m.from - 2 then byte 'Q' else 0

section Marks

variable {st : State} {s df : Int} {m : Move}

theorem dirOf_cases (c : UInt8) : dirOf c = 1 ∨ dirOf c = -1 := by
  unfold dirOf
  split
  · exact .inl rfl
  · exact .inr rfl

/-- A piece that is no pawn moves without marks, unless a king goes two files. -/
theorem Marked.plain {f r : Int} (range : 0 ≤ s ∧ s < 64) (onF : onBoard f = true)
    (onR : onBoard r = true) (noPawn : upper (st.board.get s) ≠ byte 'P')
    (near : upper (st.board.get s) = byte 'K' → f ≠ cf s + 2 ∧ f ≠ cf s - 2) :
    Marked st { «from» := s, «to» := csq f r } where
  «from» := range
  «to» := csq_range onF onR
  promo := .inl rfl
  ep := by simp [noPawn]
  dbl := by simp [noPawn]
  castle := by
    simp only [cf_csq onF]
    rw [if_neg, if_neg]
    · rintro ⟨king, far⟩
      exact (near king).2 far
    · rintro ⟨king, far⟩
      exact (near king).1 far

theorem Marked.addPawn {f r : Int} {ep dbl : Bool} (range : 0 ≤ s ∧ s < 64) (onF : onBoard f = true)
    (onR : onBoard r = true) (pawn : upper (st.board.get s) = byte 'P')
    (passes : ep = true ↔ f ≠ cf s ∧
      ¬ (st.board.get (csq f r) ≠ empty ∧ ccolor (st.board.get (csq f r)) ≠ st.turn))
    (far : dbl = true ↔ r = cr s + 2 * dirOf st.turn) {promo : Bool}
    (quiet : promo = true → ep = false ∧ dbl = false) (mem : m ∈ addPawn s (csq f r) promo ep dbl) :
    Marked st m := by
  have noKing : byte 'P' ≠ byte 'K' := by decide
  rcases mem_addPawn.mp mem with ⟨promoted, pr, letter, rfl⟩ | ⟨_, rfl⟩
  · obtain ⟨rfl, rfl⟩ := quiet promoted
    constructor
    · exact range
    · exact csq_range onF onR
    · exact .inr letter
    · simpa only [pawn, true_and, cf_csq onF] using passes
    · simpa only [pawn, true_and, cr_csq onF] using far
    · simp [pawn, noKing]
  · constructor
    · exact range
    · exact csq_range onF onR
    · exact .inl rfl
    · simpa only [pawn, true_and, cf_csq onF] using passes
    · simpa only [pawn, true_and, cr_csq onF] using far
    · simp [pawn, noKing]

theorem Marked.pawnPushes (range : 0 ≤ s ∧ s < 64) (pawn : upper (st.board.get s) = byte 'P')
    (mem : m ∈ pawnPushes st s) : Marked st m := by
  obtain ⟨onR, vacant, mem⟩ := mem_pawnPushes.mp mem
  have dir := dirOf_cases st.turn
  rcases mem with mem | ⟨start, vacant2, rfl⟩
  · refine Marked.addPawn range (cf_onBoard s) onR pawn ?_ ?_ ?_ mem
    · simp
    · simp only [Bool.false_eq_true, false_iff]
      omega
    · intro _
      exact ⟨rfl, rfl⟩
  · have onR2 : onBoard (cr s + 2 * dirOf st.turn) = true := by
      rw [onBoard_iff, start]
      unfold startRank dirOf
      split <;> decide
    have only : (⟨s, csq (cf s) (cr s + 2 * dirOf st.turn), 0, false, true, 0⟩ : Move) ∈
        Chess.addPawn s (csq (cf s) (cr s + 2 * dirOf st.turn)) false false true :=
      List.mem_singleton_self _
    refine Marked.addPawn range (cf_onBoard s) onR2 pawn ?_ ?_ ?_ only
    · simp
    · simp
    · intro impossible
      contradiction

theorem Marked.pawnCaptures (range : 0 ≤ s ∧ s < 64) (pawn : upper (st.board.get s) = byte 'P')
    (side : df = -1 ∨ df = 1) (mem : m ∈ pawnCaptures st s df) : Marked st m := by
  obtain ⟨onF, onR, mem⟩ := mem_pawnCaptures.mp mem
  have dir := dirOf_cases st.turn
  have near : ¬ cr s + dirOf st.turn = cr s + 2 * dirOf st.turn := by omega
  have aside : cf s + df ≠ cf s := by omega
  rcases mem with ⟨piece, enemy, mem⟩ | ⟨quiet, _, rfl⟩
  · refine Marked.addPawn range onF onR pawn ?_ ?_ ?_ mem
    · simp [piece, enemy]
    · simp [near]
    · intro _
      exact ⟨rfl, rfl⟩
  · have only : (⟨s, csq (cf s + df) (cr s + dirOf st.turn), 0, true, false, 0⟩ : Move) ∈
        Chess.addPawn s (csq (cf s + df) (cr s + dirOf st.turn)) false true false :=
      List.mem_singleton_self _
    refine Marked.addPawn range onF onR pawn ?_ ?_ ?_ only
    · simpa [aside] using quiet
    · simp [near]
    · intro impossible
      contradiction

theorem Marked.castles (king : upper (st.board.get s) = byte 'K') (mem : m ∈ castles st s) :
    Marked st m := by
  have noPawn : byte 'K' ≠ byte 'P' := by decide
  have kings := mem_castles.mp mem
  dsimp only at kings
  obtain ⟨rfl, _, kings⟩ := kings
  have onR : onBoard (if st.turn = byte 'w' then 0 else 7) = true := by
    split <;> decide
  generalize (if st.turn = byte 'w' then (0 : Int) else 7) = rank at kings king onR
  have on4 : onBoard 4 = true := by decide
  rcases kings with ⟨_, _, _, _, _, _, rfl⟩ | ⟨_, _, _, _, _, _, _, rfl⟩
  · have on6 : onBoard 6 = true := by decide
    constructor
    · exact csq_range on4 onR
    · exact csq_range on6 onR
    · exact .inl rfl
    · simp [king, noPawn]
    · simp [king, noPawn]
    · simp [king, cf_csq on4, cf_csq on6]
  · have on2 : onBoard 2 = true := by decide
    constructor
    · exact csq_range on4 onR
    · exact csq_range on2 onR
    · exact .inl rfl
    · simp [king, noPawn]
    · simp [king, noPawn]
    · simp [king, cf_csq on4, cf_csq on2]

theorem Marked.of_mem (mem : m ∈ pseudo st) : Marked st m := by
  obtain ⟨s, low, high, mem⟩ := mem_pseudo.mp mem
  obtain ⟨_, kinds⟩ := mem_movesFrom.mp mem
  have steps : ∀ steps : List (Int × Int), upper (st.board.get s) ≠ byte 'P' →
      (upper (st.board.get s) = byte 'K' → ∀ d ∈ steps, d.1 ≠ 2 ∧ d.1 ≠ -2) →
      m ∈ stepMoves st s steps → Marked st m := by
    intro steps noPawn near mem
    obtain ⟨d, step, ⟨onF, onR⟩, _, rfl⟩ := mem_stepMoves.mp mem
    refine Marked.plain ⟨low, high⟩ onF onR noPawn ?_
    intro king
    obtain ⟨right, left⟩ := near king d step
    omega
  rcases kinds with ⟨pawn, mem | ⟨df, side, mem⟩⟩ | ⟨knight, mem⟩ | ⟨king, mem | mem⟩ |
    ⟨noPawn, _, noKing, d, _, mem⟩
  · exact Marked.pawnPushes ⟨low, high⟩ pawn mem
  · exact Marked.pawnCaptures ⟨low, high⟩ pawn side mem
  · refine steps KN ?_ ?_ mem
    · rw [knight]
      decide
    · rw [knight]
      intro impossible
      exact absurd impossible (by decide)
  · refine steps KG ?_ ?_ mem
    · rw [king]
      decide
    · intro _
      decide
  · exact Marked.castles king mem
  · obtain ⟨k, _, path, _, rfl⟩ := mem_slide.mp mem
    obtain ⟨onF, onR⟩ := path.1 k (Nat.le_refl k)
    refine Marked.plain ⟨low, high⟩ onF onR noPawn ?_
    intro king
    exact absurd king noKing

/-- Two candidates with the same squares and the same promotion are one. -/
theorem eq_of_squares {m' : Move} (mem : m ∈ pseudo st) (mem' : m' ∈ pseudo st)
    (sameFrom : m.from = m'.from) (sameTo : m.to = m'.to) (samePromo : m.promo = m'.promo) : m = m' := by
  have marks := Marked.of_mem mem
  have marks' := Marked.of_mem mem'
  have sameEp : m.ep = m'.ep := by
    rw [Bool.eq_iff_iff, marks.ep, marks'.ep, sameFrom, sameTo]
  have sameDbl : m.dbl = m'.dbl := by
    rw [Bool.eq_iff_iff, marks.dbl, marks'.dbl, sameFrom, sameTo]
  have sameCastle : m.castle = m'.castle := by
    rw [marks.castle, marks'.castle, sameFrom, sameTo]
  cases m
  cases m'
  simp_all

end Marks

end Echo.Chess
