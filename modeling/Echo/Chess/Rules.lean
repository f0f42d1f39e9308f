import Mathlib.Logic.Function.Basic
import Mathlib.Tactic.Push

/-!
The rules of chess: how the men go, what they attack, and what a player may do.

A man remembers whether it has been moved, so that castling can ask for a king and a rook
that have not. A position remembers the last ply, so that a pawn can be taken in passing.
What is kept by every ply is proved here: each side has its one king, which is never taken.
-/

namespace Echo.Chess.Rules

/-! ### Men and squares -/

inductive Color where
  | white
  | black
  deriving DecidableEq, Repr

inductive Kind where
  | pawn
  | knight
  | bishop
  | rook
  | queen
  | king
  deriving DecidableEq, Repr

structure Man where
  color : Color
  kind : Kind
  moved : Bool
  deriving DecidableEq, Repr

/-- A file and a rank, counted from 0. -/
abbrev Square := Int × Int

def On (s : Square) : Prop := (0 ≤ s.1 ∧ s.1 < 8) ∧ 0 ≤ s.2 ∧ s.2 < 8

abbrev Men := Square → Option Man

namespace Color

def other : Color → Color
  | white => black
  | black => white

/-- The direction of the pawns. -/
def dir : Color → Int
  | white => 1
  | black => -1

def home : Color → Int
  | white => 0
  | black => 7

def pawnRank : Color → Int
  | white => 1
  | black => 6

def lastRank : Color → Int
  | white => 7
  | black => 0

@[simp] theorem other_other (c : Color) : c.other.other = c := by
  cases c <;> rfl

theorem eq_or_eq_other (a c : Color) : a = c ∨ a = c.other := by
  cases a <;> cases c <;> decide

theorem dir_other (c : Color) : c.other.dir = -c.dir := by
  cases c <;> rfl

theorem dir_cases (c : Color) : c.dir = 1 ∨ c.dir = -1 := by
  cases c
  · exact .inl rfl
  · exact .inr rfl

end Color

/-! ### Attacks -/

/-- The directions of a line piece. -/
def Kind.Along : Kind → Int × Int → Prop
  | bishop, d => d.1.natAbs = 1 ∧ d.2.natAbs = 1
  | rook, d => d.1.natAbs + d.2.natAbs = 1
  | queen, d => d.1.natAbs ≤ 1 ∧ d.2.natAbs ≤ 1 ∧ d ≠ (0, 0)
  | _, _ => False

/-- `k` steps in direction `d`. -/
def steps (s : Square) (d : Int × Int) (k : Nat) : Square := (s.1 + k * d.1, s.2 + k * d.2)

/-- Nothing stands between a square and the `k`-th from it. -/
def Clear (men : Men) (s : Square) (d : Int × Int) (k : Nat) : Prop :=
  ∀ j : Nat, 0 < j → j < k → men (steps s d j) = none

/-- A man attacks a square from another, which for all but the pawn is how it goes. -/
def Attacks (men : Men) (man : Man) (s t : Square) : Prop :=
  match man.kind with
  | .pawn => (t.1 = s.1 + 1 ∨ t.1 = s.1 - 1) ∧ t.2 = s.2 + man.color.dir
  | .knight => (t.1 - s.1).natAbs = 1 ∧ (t.2 - s.2).natAbs = 2 ∨
      (t.1 - s.1).natAbs = 2 ∧ (t.2 - s.2).natAbs = 1
  | .king => (t.1 - s.1).natAbs ≤ 1 ∧ (t.2 - s.2).natAbs ≤ 1 ∧ t ≠ s
  | kind => ∃ d, kind.Along d ∧ ∃ k : Nat, 0 < k ∧ t = steps s d k ∧ Clear men s d k

/-- A man of color `c` attacks the square. -/
def Attacked (men : Men) (t : Square) (c : Color) : Prop :=
  ∃ s man, On s ∧ men s = some man ∧ man.color = c ∧ Attacks men man s t

def KingAt (men : Men) (c : Color) (s : Square) : Prop :=
  ∃ man, men s = some man ∧ man.color = c ∧ man.kind = .king

/-- The king of `c` is attacked. -/
def Check (men : Men) (c : Color) : Prop := ∃ s, On s ∧ KingAt men c s ∧ Attacked men s c.other

/-! ### Positions and plies -/

structure Position where
  men : Men
  turn : Color
  /-- The squares of the last ply. -/
  last : Option (Square × Square)

structure Ply where
  src : Square
  dst : Square
  /-- The piece that a pawn becomes. -/
  promo : Option Kind
  deriving DecidableEq

/-- The two sides of the board, for castling. -/
inductive Wing where
  | king
  | queen
  deriving DecidableEq, Repr

namespace Wing

def rookFile : Wing → Int
  | king => 7
  | queen => 0

def rookTo : Wing → Int
  | king => 5
  | queen => 3

def kingTo : Wing → Int
  | king => 6
  | queen => 2

/-- The files between king and rook. -/
def between : Wing → List Int
  | king => [5, 6]
  | queen => [1, 2, 3]

/-- The files the king stands on, passes and goes to. -/
def path : Wing → List Int
  | king => [4, 5, 6]
  | queen => [4, 3, 2]

end Wing

/-- The last ply took an enemy pawn two squares ahead, over this one. -/
def Passed (pos : Position) (t : Square) : Prop :=
  pos.last = some ((t.1, t.2 + pos.turn.dir), (t.1, t.2 - pos.turn.dir)) ∧
    ∃ man, pos.men (t.1, t.2 - pos.turn.dir) = some man ∧ man.color = pos.turn.other ∧
      man.kind = .pawn

def promotions : List Kind := [.queen, .rook, .bishop, .knight]

/-- A pawn becomes another piece on the last rank, and only there. -/
def Promotes (man : Man) (ply : Ply) : Prop :=
  if ply.dst.2 = man.color.lastRank then ∃ kind ∈ promotions, ply.promo = some kind
  else ply.promo = none

/-- A ply of a man, as the man goes: it may leave its own king in check. -/
inductive Goes (pos : Position) (man : Man) (ply : Ply) : Prop
  | advance (pawn : man.kind = .pawn) (ahead : ply.dst = (ply.src.1, ply.src.2 + man.color.dir))
      (free : pos.men ply.dst = none) (promo : Promotes man ply)
  | double (pawn : man.kind = .pawn) (start : ply.src.2 = man.color.pawnRank)
      (ahead : ply.dst = (ply.src.1, ply.src.2 + 2 * man.color.dir))
      (passed : pos.men (ply.src.1, ply.src.2 + man.color.dir) = none)
      (free : pos.men ply.dst = none) (promo : ply.promo = none)
  | take (pawn : man.kind = .pawn) (attacks : Attacks pos.men man ply.src ply.dst)
      (enemy : ∃ man', pos.men ply.dst = some man' ∧ man'.color ≠ man.color)
      (promo : Promotes man ply)
  | enPassant (pawn : man.kind = .pawn) (attacks : Attacks pos.men man ply.src ply.dst)
      (passed : Passed pos ply.dst) (promo : ply.promo = none)
  | piece (noPawn : man.kind ≠ .pawn) (attacks : Attacks pos.men man ply.src ply.dst)
      (free : ∀ man', pos.men ply.dst = some man' → man'.color ≠ man.color)
      (promo : ply.promo = none)
  | castle (wing : Wing) (king : man.kind = .king) (unmoved : man.moved = false)
      (start : ply.src = (4, man.color.home))
      (rook : pos.men (wing.rookFile, man.color.home) = some ⟨man.color, .rook, false⟩)
      (free : ∀ f ∈ wing.between, pos.men (f, man.color.home) = none)
      (quiet : ∀ f ∈ wing.path, ¬ Attacked pos.men (f, man.color.home) man.color.other)
      (goal : ply.dst = (wing.kingTo, man.color.home)) (promo : ply.promo = none)

/-! ### Playing -/

/-- The man that stands on the goal of a ply. -/
def Man.placed (man : Man) (ply : Ply) : Man := ⟨man.color, ply.promo.getD man.kind, true⟩

/-- A pawn that goes aside to an empty square takes in passing. -/
def InPassing (men : Men) (man : Man) (ply : Ply) : Prop :=
  man.kind = .pawn ∧ ply.dst.1 ≠ ply.src.1 ∧ men ply.dst = none

instance (men : Men) (man : Man) (ply : Ply) : Decidable (InPassing men man ply) :=
  inferInstanceAs (Decidable (_ ∧ _))

/-- A king that goes two files castles. -/
def wingOf (man : Man) (ply : Ply) : Option Wing :=
  if man.kind = .king ∧ ply.dst.1 = ply.src.1 + 2 then some .king
  else if man.kind = .king ∧ ply.dst.1 = ply.src.1 - 2 then some .queen
  else none

/-- The man taken from its square and put on the other. -/
def landed (men : Men) (man : Man) (ply : Ply) : Men :=
  let after := Function.update men ply.src none
  Function.update
    (if InPassing men man ply then Function.update after (ply.dst.1, ply.src.2) none else after)
    ply.dst (some (man.placed ply))

/-- The men after a ply of one of them. -/
def replace (men : Men) (man : Man) (ply : Ply) : Men :=
  match wingOf man ply with
  | some wing =>
      Function.update (Function.update (landed men man ply) (wing.rookFile, man.color.home) none)
        (wing.rookTo, man.color.home) (some ⟨man.color, .rook, true⟩)
  | none => landed men man ply

def Position.play (pos : Position) (ply : Ply) : Position where
  men := ((pos.men ply.src).map fun man => replace pos.men man ply).getD pos.men
  turn := pos.turn.other
  last := some (ply.src, ply.dst)

/-- A ply that the player to move may play. -/
structure Position.Legal (pos : Position) (ply : Ply) : Prop where
  src : On ply.src
  dst : On ply.dst
  goes : ∃ man, pos.men ply.src = some man ∧ man.color = pos.turn ∧ Goes pos man ply
  safe : ¬ Check (pos.play ply).men pos.turn

/-- The pieces behind the pawns, from the queen's rook on. -/
def backRank : List Kind := [.rook, .knight, .bishop, .queen, .king, .bishop, .knight, .rook]

def startMen : Men := fun (f, r) =>
  if 0 ≤ f ∧ f < 8 then
    if r = 0 then backRank[f.toNat]?.map (⟨.white, ·, false⟩)
    else if r = 1 then some ⟨.white, .pawn, false⟩
    else if r = 6 then some ⟨.black, .pawn, false⟩
    else if r = 7 then backRank[f.toNat]?.map (⟨.black, ·, false⟩)
    else none
  else none

def start : Position := ⟨startMen, .white, none⟩

/-- The position after the plies of a game. -/
def after (plies : List Ply) : Position := plies.foldl Position.play start

/-! ### What a ply changes -/

section Replace

variable {men : Men} {man q : Man} {ply : Ply} {x : Square}

theorem Position.play_men {pos : Position} (here : pos.men ply.src = some man) :
    (pos.play ply).men = replace pos.men man ply := by
  unfold Position.play
  rw [here]
  rfl

theorem landed_some (stands : landed men man ply x = some q) :
    (x = ply.dst ∧ q = man.placed ply) ∨ (x ≠ ply.src ∧ x ≠ ply.dst ∧ men x = some q) := by
  have left : Function.update men ply.src none x = some q → x ≠ ply.src ∧ men x = some q := by
    intro stands
    rw [Function.update_apply] at stands
    by_cases source : x = ply.src
    · rw [if_pos source] at stands
      contradiction
    · rw [if_neg source] at stands
      exact ⟨source, stands⟩
  unfold landed at stands
  rw [Function.update_apply] at stands
  by_cases goal : x = ply.dst
  · rw [if_pos goal] at stands
    exact .inl ⟨goal, (Option.some.inj stands).symm⟩
  · right
    rw [if_neg goal] at stands
    split at stands
    · rw [Function.update_apply] at stands
      split at stands
      · contradiction
      · exact ⟨(left stands).1, goal, (left stands).2⟩
    · exact ⟨(left stands).1, goal, (left stands).2⟩

/-- Where a man stands after a ply, it has gone to or castled to, or stood before. -/
theorem replace_some (stands : replace men man ply x = some q) :
    (x = ply.dst ∧ q = man.placed ply) ∨
      (∃ wing, wingOf man ply = some wing ∧ x = (wing.rookTo, man.color.home) ∧
        q = ⟨man.color, .rook, true⟩) ∨
      (x ≠ ply.src ∧ x ≠ ply.dst ∧ men x = some q) := by
  unfold replace at stands
  cases two : wingOf man ply with
  | none =>
      rw [two] at stands
      exact (landed_some stands).imp_right .inr
  | some wing =>
      rw [two] at stands
      dsimp only at stands
      rw [Function.update_apply] at stands
      by_cases rook : x = (wing.rookTo, man.color.home)
      · rw [if_pos rook] at stands
        exact .inr (.inl ⟨wing, rfl, rook, (Option.some.inj stands).symm⟩)
      · rw [if_neg rook, Function.update_apply] at stands
        split at stands
        · contradiction
        · exact (landed_some stands).imp_right .inr

/-- The squares a ply has nothing to do with. -/
theorem replace_other (notSrc : x ≠ ply.src) (notDst : x ≠ ply.dst)
    (notTaken : InPassing men man ply → x ≠ (ply.dst.1, ply.src.2))
    (noRook : ∀ wing, wingOf man ply = some wing →
      x ≠ (wing.rookFile, man.color.home) ∧ x ≠ (wing.rookTo, man.color.home)) :
    replace men man ply x = men x := by
  have stays : landed men man ply x = men x := by
    unfold landed
    rw [Function.update_of_ne notDst]
    split
    · rename_i passing
      rw [Function.update_of_ne (notTaken passing), Function.update_of_ne notSrc]
    · rw [Function.update_of_ne notSrc]
  unfold replace
  cases two : wingOf man ply with
  | none => exact stays
  | some wing =>
      obtain ⟨notCorner, notGoal⟩ := noRook wing two
      dsimp only
      rw [Function.update_of_ne notGoal, Function.update_of_ne notCorner]
      exact stays

theorem replace_dst (noRook : ∀ wing, wingOf man ply = some wing →
      ply.dst ≠ (wing.rookFile, man.color.home) ∧ ply.dst ≠ (wing.rookTo, man.color.home)) :
    replace men man ply ply.dst = some (man.placed ply) := by
  have stands : landed men man ply ply.dst = some (man.placed ply) := by
    unfold landed
    rw [Function.update_self]
  unfold replace
  cases two : wingOf man ply with
  | none => exact stands
  | some wing =>
      obtain ⟨notCorner, notGoal⟩ := noRook wing two
      dsimp only
      rw [Function.update_of_ne notGoal, Function.update_of_ne notCorner]
      exact stands

end Replace

/-! ### What a ply goes by -/

/-- The king of each side stands on the board, once; the player who has moved is not in
check; and the square that a pawn has passed is empty. -/
structure Sound (pos : Position) : Prop where
  king : ∀ c, ∃ s, On s ∧ KingAt pos.men c s
  one : ∀ c s s', KingAt pos.men c s → KingAt pos.men c s' → s = s'
  safe : ¬ Check pos.men pos.turn.other
  vacant : ∀ t, Passed pos t → pos.men t = none

section Goes

variable {pos : Position} {man : Man} {ply : Ply}

theorem Promotes.cases (promo : Promotes man ply) :
    ply.promo = none ∨ ∃ kind ∈ promotions, ply.promo = some kind := by
  unfold Promotes at promo
  split at promo
  · exact .inr promo
  · exact .inl promo

theorem Goes.promo_cases (goes : Goes pos man ply) : ply.promo = none ∨
    man.kind = .pawn ∧ ∃ kind ∈ promotions, ply.promo = some kind := by
  cases goes with
  | advance pawn _ _ promo => exact promo.cases.imp_right fun became => ⟨pawn, became⟩
  | double _ _ _ _ _ promo => exact .inl promo
  | take pawn _ _ promo => exact promo.cases.imp_right fun became => ⟨pawn, became⟩
  | enPassant _ _ _ promo => exact .inl promo
  | piece _ _ _ promo => exact .inl promo
  | castle _ _ _ _ _ _ _ _ promo => exact .inl promo

/-- No man becomes a king, and none but a pawn is a pawn afterwards. -/
theorem Goes.placed_kind (goes : Goes pos man ply) :
    ((man.placed ply).kind = .king ↔ man.kind = .king) ∧
      ((man.placed ply).kind = .pawn ↔ man.kind = .pawn ∧ ply.promo = none) := by
  have other : ∀ kind ∈ promotions, kind ≠ .king ∧ kind ≠ .pawn := by decide
  unfold Man.placed
  rcases goes.promo_cases with stays | ⟨pawn, kind, became, same⟩
  · rw [stays]
    simp
  · rw [same, pawn]
    simp [other kind became]

theorem Goes.attacks_of_taken (goes : Goes pos man ply) (vacant : ∀ t, Passed pos t → pos.men t = none)
    {man' : Man} (taken : pos.men ply.dst = some man') :
    Attacks pos.men man ply.src ply.dst ∧ man'.color ≠ man.color := by
  cases goes with
  | advance _ _ free _ =>
      rw [free] at taken
      contradiction
  | double _ _ _ _ free _ =>
      rw [free] at taken
      contradiction
  | take _ attacks enemy _ =>
      obtain ⟨man'', same, color⟩ := enemy
      rw [taken] at same
      obtain rfl := Option.some.inj same
      exact ⟨attacks, color⟩
  | enPassant _ _ passed _ =>
      rw [vacant _ passed] at taken
      contradiction
  | piece _ attacks free _ => exact ⟨attacks, free man' taken⟩
  | castle wing _ _ _ _ free _ goal _ =>
      have empty : pos.men (wing.kingTo, man.color.home) = none := by
        apply free
        cases wing <;> decide
      rw [goal, empty] at taken
      contradiction

/-- A ply to a square aside that is empty takes the pawn that has just passed. -/
theorem Goes.inPassing (goes : Goes pos man ply) (own : man.color = pos.turn)
    (passing : InPassing pos.men man ply) :
    Passed pos ply.dst ∧ ∃ man', pos.men (ply.dst.1, ply.src.2) = some man' ∧
      man'.color = man.color.other ∧ man'.kind = .pawn := by
  obtain ⟨pawn, aside, free⟩ := passing
  cases goes with
  | advance _ ahead _ _ =>
      rw [ahead] at aside
      contradiction
  | double _ _ ahead _ _ _ =>
      rw [ahead] at aside
      contradiction
  | take _ _ enemy _ =>
      obtain ⟨man', same, _⟩ := enemy
      rw [free] at same
      contradiction
  | enPassant _ attacks passed _ =>
      refine ⟨passed, ?_⟩
      have rank : ply.dst.2 - pos.turn.dir = ply.src.2 := by
        simp only [Attacks, pawn] at attacks
        rw [attacks.2, own]
        omega
      have behind := passed.2
      rw [rank, ← own] at behind
      exact behind
  | piece noPawn _ _ _ => contradiction
  | castle _ king _ _ _ _ _ _ _ =>
      rw [pawn] at king
      contradiction

/-- A king that goes two files castles with the rook of that side. -/
theorem Goes.castles (goes : Goes pos man ply) {wing : Wing} (two : wingOf man ply = some wing) :
    man.kind = .king ∧ ply.src = (4, man.color.home) ∧ ply.dst = (wing.kingTo, man.color.home) ∧
      pos.men (wing.rookFile, man.color.home) = some ⟨man.color, .rook, false⟩ ∧
      pos.men (wing.rookTo, man.color.home) = none := by
  have king : man.kind = .king := by
    unfold wingOf at two
    split at two
    · rename_i kings
      exact kings.1
    · split at two
      · rename_i kings
        exact kings.1
      · contradiction
  have noPawn : man.kind ≠ .pawn := by
    rw [king]
    decide
  cases goes with
  | advance pawn _ _ _ => contradiction
  | double pawn _ _ _ _ _ => contradiction
  | take pawn _ _ _ => contradiction
  | enPassant pawn _ _ _ => contradiction
  | piece _ attacks _ _ =>
      -- A step of the king is too short.
      simp only [Attacks, king] at attacks
      unfold wingOf at two
      rw [if_neg (by omega), if_neg (by omega)] at two
      contradiction
  | castle wing' _ _ start rook free _ goal _ =>
      have same : wing = wing' := by
        unfold wingOf at two
        rw [start, goal, king] at two
        cases wing' <;> simp [Wing.kingTo] at two <;> exact two.symm
      subst same
      refine ⟨king, start, goal, rook, free _ ?_⟩
      cases wing <;> decide

end Goes

/-! ### What every ply keeps -/

section Kept

variable {pos : Position} {man : Man} {ply : Ply}

/-- A king is never taken. -/
theorem Goes.not_king (goes : Goes pos man ply) (sound : Sound pos) (onSrc : On ply.src)
    (onDst : On ply.dst) (here : pos.men ply.src = some man) (own : man.color = pos.turn) {c : Color} :
    ¬ KingAt pos.men c ply.dst := by
  rintro ⟨man', there, color, king⟩
  obtain ⟨attacks, enemy⟩ := goes.attacks_of_taken sound.vacant there
  have side : man'.color = pos.turn.other := by
    rcases Color.eq_or_eq_other man'.color pos.turn with same | same
    · exact absurd (same.trans own.symm) enemy
    · exact same
  refine sound.safe ⟨ply.dst, onDst, ⟨man', there, side, king⟩, ply.src, man, onSrc, here, ?_, attacks⟩
  rw [Color.other_other]
  exact own

/-- A man that is neither moved, nor taken, nor castled with stays where it is. -/
theorem Goes.stays (goes : Goes pos man ply) (own : man.color = pos.turn) {x : Square} {q : Man}
    (there : pos.men x = some q) (notSrc : x ≠ ply.src) (notDst : x ≠ ply.dst)
    (noPawn : q.kind ≠ .pawn) (noRook : man.kind = .king → q.color = man.color → q.kind ≠ .rook) :
    replace pos.men man ply x = some q := by
  rw [← there]
  apply replace_other notSrc notDst
  · intro passing same
    obtain ⟨_, man', behind, _, pawn⟩ := goes.inPassing own passing
    rw [← same, there] at behind
    obtain rfl := Option.some.inj behind
    exact noPawn pawn
  · intro wing two
    obtain ⟨king, _, _, rook, free⟩ := goes.castles two
    constructor
    · rintro rfl
      rw [there] at rook
      obtain rfl := Option.some.inj rook
      exact noRook king rfl rfl
    · rintro rfl
      rw [there] at free
      contradiction

theorem Goes.placed (goes : Goes pos man ply) :
    replace pos.men man ply ply.dst = some (man.placed ply) := by
  apply replace_dst
  intro wing two
  obtain ⟨_, _, goal, _, _⟩ := goes.castles two
  rw [goal]
  cases wing <;> simp [Wing.kingTo, Wing.rookFile, Wing.rookTo]

/-- After a ply, each side still has one king. -/
theorem Goes.kings (goes : Goes pos man ply) (sound : Sound pos) (onSrc : On ply.src)
    (onDst : On ply.dst) (here : pos.men ply.src = some man) (own : man.color = pos.turn) (c : Color) :
    (∃ s, On s ∧ KingAt (replace pos.men man ply) c s) ∧
      ∀ s s', KingAt (replace pos.men man ply) c s → KingAt (replace pos.men man ply) c s' → s = s' := by
  obtain ⟨k, onK, q, there, color, king⟩ := sound.king c
  have noPawn : q.kind ≠ .pawn := by
    rw [king]
    decide
  have noRook : q.kind ≠ .rook := by
    rw [king]
    decide
  have notDst : k ≠ ply.dst := by
    rintro rfl
    exact goes.not_king sound onSrc onDst here own ⟨q, there, color, king⟩
  -- A king that stands afterwards has gone there, or stood there before.
  have before : ∀ s, KingAt (replace pos.men man ply) c s →
      (s = ply.dst ∧ man.kind = .king ∧ man.color = c) ∨ (s ≠ ply.src ∧ s = k) := by
    rintro s ⟨q', stands, color', king'⟩
    rcases replace_some stands with ⟨rfl, rfl⟩ | ⟨_, _, _, rfl⟩ | ⟨notSrc, _, stood⟩
    · exact .inl ⟨rfl, goes.placed_kind.1.mp king', color'⟩
    · contradiction
    · exact .inr ⟨notSrc, sound.one c s k ⟨q', stood, color', king'⟩ ⟨q, there, color, king⟩⟩
  by_cases moves : k = ply.src
  · -- The king is the man that goes.
    rw [moves, here] at there
    obtain rfl := Option.some.inj there
    have stands : KingAt (replace pos.men man ply) c ply.dst :=
      ⟨man.placed ply, goes.placed, color, goes.placed_kind.1.mpr king⟩
    have only : ∀ s, KingAt (replace pos.men man ply) c s → s = ply.dst := by
      intro s stands
      rcases before s stands with ⟨same, _⟩ | ⟨notSrc, same⟩
      · exact same
      · exact absurd (same.trans moves) notSrc
    exact ⟨⟨ply.dst, onDst, stands⟩, fun s s' at_s at_s' => (only s at_s).trans (only s' at_s').symm⟩
  · have stands : KingAt (replace pos.men man ply) c k :=
      ⟨q, goes.stays own there moves notDst noPawn fun _ _ => noRook, color, king⟩
    have only : ∀ s, KingAt (replace pos.men man ply) c s → s = k := by
      intro s stands
      rcases before s stands with ⟨_, kind, side⟩ | ⟨_, same⟩
      · exact absurd (sound.one c k ply.src ⟨q, there, color, king⟩ ⟨man, here, side, kind⟩) moves
      · exact same
    exact ⟨⟨k, onK, stands⟩, fun s s' at_s at_s' => (only s at_s).trans (only s' at_s').symm⟩

/-- Which square a ply lets an enemy pawn take on: the one a pawn has gone over. -/
theorem Goes.passed (goes : Goes pos man ply) (here : pos.men ply.src = some man)
    (own : man.color = pos.turn) (t : Square) : Passed (pos.play ply) t ↔
      man.kind = .pawn ∧ ply.dst.2 = ply.src.2 + 2 * pos.turn.dir ∧
        t = (ply.src.1, ply.src.2 + pos.turn.dir) := by
  have dir := pos.turn.dir_cases
  have turned : (pos.play ply).turn.dir = -pos.turn.dir := Color.dir_other pos.turn
  have played : (pos.play ply).last = some (ply.src, ply.dst) := rfl
  unfold Passed
  rw [turned, played, Position.play_men here, Option.some_inj, Prod.mk.injEq]
  constructor
  · rintro ⟨⟨source, goal⟩, q, stands, _, pawn⟩
    have behind : (t.1, t.2 - -pos.turn.dir) = ply.dst := goal.symm
    rw [behind, goes.placed] at stands
    obtain rfl := Option.some.inj stands
    refine ⟨(goes.placed_kind.2.mp pawn).1, ?_, ?_⟩
    · rw [goal, source]
      dsimp only
      omega
    · rw [source]
      ext
      · rfl
      · dsimp only
        omega
  · rintro ⟨pawn, far, rfl⟩
    have file : ply.dst.1 = ply.src.1 ∧ ply.promo = none := by
      cases goes with
      | advance _ ahead _ _ =>
          rw [ahead, own] at far
          dsimp only at far
          omega
      | double _ _ ahead _ _ promo =>
          rw [ahead]
          exact ⟨rfl, promo⟩
      | take _ attacks _ _ =>
          simp only [Attacks, pawn, own] at attacks
          omega
      | enPassant _ attacks _ _ =>
          simp only [Attacks, pawn, own] at attacks
          omega
      | piece noPawn _ _ _ => contradiction
      | castle _ king _ _ _ _ _ _ _ =>
          rw [pawn] at king
          contradiction
    have goal : ((ply.src.1, ply.src.2 + pos.turn.dir).1,
        (ply.src.1, ply.src.2 + pos.turn.dir).2 - -pos.turn.dir) = ply.dst := by
      ext
      · exact file.1.symm
      · dsimp only
        omega
    refine ⟨⟨?_, goal.symm⟩, man.placed ply, ?_, ?_, ?_⟩
    · ext
      · rfl
      · dsimp only
        omega
    · rw [goal]
      exact goes.placed
    · change man.color = pos.turn.other.other
      rw [Color.other_other]
      exact own
    · exact goes.placed_kind.2.mpr ⟨pawn, file.2⟩

/-- Every legal ply keeps a position sound. -/
theorem Sound.play (sound : Sound pos) (legal : pos.Legal ply) : Sound (pos.play ply) := by
  obtain ⟨man, here, own, goes⟩ := legal.goes
  have men := Position.play_men here
  constructor
  · intro c
    rw [men]
    exact (goes.kings sound legal.src legal.dst here own c).1
  · intro c
    rw [men]
    exact (goes.kings sound legal.src legal.dst here own c).2
  · change ¬ Check (pos.play ply).men pos.turn.other.other
    rw [Color.other_other]
    exact legal.safe
  · intro t passed
    have dir := pos.turn.dir_cases
    obtain ⟨pawn, far, rfl⟩ := (goes.passed here own t).mp passed
    rw [men]
    cases goes with
    | advance _ ahead _ _ =>
        rw [ahead, own] at far
        dsimp only at far
        omega
    | double _ start ahead mid free promo =>
        have goes : Goes pos man ply := .double pawn start ahead mid free promo
        rw [own] at mid ahead
        rw [← mid]
        apply replace_other
        · intro same
          have ranks := congrArg Prod.snd same
          dsimp only at ranks
          omega
        · rw [ahead]
          intro same
          have ranks := congrArg Prod.snd same
          dsimp only at ranks
          omega
        · rintro ⟨_, aside, _⟩
          rw [ahead] at aside
          contradiction
        · intro wing two
          rw [(goes.castles two).1] at pawn
          contradiction
    | take _ attacks _ _ =>
        simp only [Attacks, pawn, own] at attacks
        omega
    | enPassant _ attacks _ _ =>
        simp only [Attacks, pawn, own] at attacks
        omega
    | piece noPawn _ _ _ => contradiction
    | castle _ king _ _ _ _ _ _ _ =>
        rw [pawn] at king
        contradiction

/-- King and rook of a wing stand where they started, and have not been moved. -/
def Unmoved (men : Men) (c : Color) (wing : Wing) : Prop :=
  men (4, c.home) = some ⟨c, .king, false⟩ ∧ men (wing.rookFile, c.home) = some ⟨c, .rook, false⟩

/-- They are still so after a ply of another man that does not take the rook. -/
theorem Goes.unmoved (goes : Goes pos man ply) (sound : Sound pos) (onSrc : On ply.src)
    (onDst : On ply.dst) (here : pos.men ply.src = some man) (own : man.color = pos.turn) (c : Color)
    (wing : Wing) : Unmoved (replace pos.men man ply) c wing ↔ Unmoved pos.men c wing ∧
      ¬ (man.kind = .king ∧ man.color = c) ∧ ply.src ≠ (wing.rookFile, c.home) ∧
        ply.dst ≠ (wing.rookFile, c.home) := by
  have before : ∀ {x q}, replace pos.men man ply x = some q → q.moved = false →
      x ≠ ply.src ∧ x ≠ ply.dst ∧ pos.men x = some q := by
    intro x q stands fresh
    rcases replace_some stands with ⟨_, rfl⟩ | ⟨_, _, _, rfl⟩ | stood
    · contradiction
    · contradiction
    · exact stood
  constructor
  · rintro ⟨king, rook⟩
    obtain ⟨notSrc, _, king⟩ := before king rfl
    obtain ⟨notCorner, notTaken, rook⟩ := before rook rfl
    refine ⟨⟨king, rook⟩, ?_, notCorner.symm, notTaken.symm⟩
    rintro ⟨kind, color⟩
    exact notSrc (sound.one c _ _ ⟨_, king, rfl, rfl⟩ ⟨man, here, color, kind⟩)
  · rintro ⟨⟨king, rook⟩, another, notCorner, notTaken⟩
    constructor
    · apply goes.stays own king
      · rintro same
        rw [same, here] at king
        obtain rfl := Option.some.inj king
        exact another ⟨rfl, rfl⟩
      · intro same
        rw [same] at king
        exact goes.not_king sound onSrc onDst here own ⟨_, king, rfl, rfl⟩
      · exact nofun
      · exact fun _ _ => nofun
    · apply goes.stays own rook notCorner.symm notTaken.symm
      · exact nofun
      · intro kind color
        exact absurd ⟨kind, color.symm⟩ another

end Kept

end Echo.Chess.Rules
