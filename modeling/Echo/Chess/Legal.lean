import Echo.Chess.Sight

/-!
The source's moves are the legal plies of the rules, in every position of a game.

A state mirrors a position when its board shows the men, its castling rights say which
kings and rooks have not been moved, and its en-passant square is the one a pawn has just
passed. The initial state mirrors the start, every move keeps it so, and in states that
mirror a position the generated moves are the plies that go by the rules.
-/

namespace Echo.Chess

open Rules

/-! ### Moves as plies -/

def sq (s : Int) : Square := (cf s, cr s)

def kindOf (p : UInt8) : Option Kind :=
  if p = byte 'q' then some .queen
  else if p = byte 'r' then some .rook
  else if p = byte 'b' then some .bishop
  else if p = byte 'n' then some .knight
  else none

/-- What a move is to the rules: its squares and the piece promoted to. -/
def plyOf (m : Move) : Ply := ⟨sq m.from, sq m.to, kindOf m.promo⟩

/-! ### States and positions -/

def right (st : State) : Color → Wing → Bool
  | .white, .king => st.cK
  | .white, .queen => st.cQ
  | .black, .king => st.cKBlack
  | .black, .queen => st.cQBlack

structure Mirrors (st : State) (pos : Position) : Prop where
  shows : Shows st.board pos.men
  turn : st.turn = colorByte pos.turn
  sound : Sound pos
  rights : ∀ c wing, right st c wing = true ↔ Unmoved pos.men c wing
  ep : ∀ t, On t → (csq t.1 t.2 = st.ep ↔ Passed pos t)

section Squares

variable {s f r : Int} {t : Square} {m : Move}

theorem sq_csq (onF : onBoard f = true) : sq (csq f r) = (f, r) := by
  unfold sq
  rw [cf_csq onF, cr_csq onF]

theorem csq_sq (s : Int) : csq (sq s).1 (sq s).2 = s := csq_cf_cr s

theorem on_sq (range : 0 ≤ s ∧ s < 64) : On (sq s) := on_iff.mpr ⟨cf_onBoard s, cr_onBoard range⟩

theorem csq_on (on : On t) : 0 ≤ csq t.1 t.2 ∧ csq t.1 t.2 < 64 := by
  obtain ⟨onF, onR⟩ := on_iff.mp on
  exact csq_range onF onR

theorem sq_of_on (on : On t) : sq (csq t.1 t.2) = t := sq_csq (on_iff.mp on).1

theorem Shows.sq {b : Board} {men : Men} (shows : Shows b men) (range : 0 ≤ s ∧ s < 64) :
    b.get s = glyph (men (sq s)) := by
  have here := shows.at (on_sq range)
  rwa [csq_sq] at here

/-- A promotion's letter and its piece. -/
theorem promos_kinds : (∀ pr ∈ promos, ∃ kind ∈ promotions, kindOf pr = some kind) ∧
    (∀ kind ∈ promotions, ∃ pr ∈ promos, kindOf pr = some kind) ∧ kindOf 0 = none := by decide +kernel

end Squares

/-! ### The moves of a pawn -/

section Pawns

variable {st : State} {pos : Position} {man : Man} {s df : Int} {m : Move} {ply : Ply}

/-- The moves of one target, with a promotion on the last rank. -/
theorem promotes_of_mem {t : Square} {dbl : Bool} (on : On t)
    (mem : m ∈ addPawn s (csq t.1 t.2) (t.2 == man.color.lastRank) false dbl) :
    (plyOf m).src = sq s ∧ (plyOf m).dst = t ∧ Promotes man (plyOf m) := by
  unfold Promotes
  rcases mem_addPawn.mp mem with ⟨last, pr, letter, rfl⟩ | ⟨last, rfl⟩
  · rw [beq_iff_eq] at last
    refine ⟨rfl, sq_of_on on, ?_⟩
    change if (sq (csq t.1 t.2)).2 = _ then _ else _
    rw [sq_of_on on, if_pos last]
    exact promos_kinds.1 pr letter
  · rw [beq_eq_false_iff_ne] at last
    refine ⟨rfl, sq_of_on on, ?_⟩
    change if (sq (csq t.1 t.2)).2 = _ then _ else _
    rw [sq_of_on on, if_neg last]
    rfl

theorem mem_of_promotes (dbl : Bool) (on : On ply.dst) (src : ply.src = sq s)
    (promotes : Promotes man ply) :
    ∃ m ∈ addPawn s (csq ply.dst.1 ply.dst.2) (ply.dst.2 == man.color.lastRank) false dbl,
      plyOf m = ply := by
  obtain ⟨source, goal, promo⟩ := ply
  obtain rfl : source = sq s := src
  unfold Promotes at promotes
  dsimp only at on promotes ⊢
  by_cases last : goal.2 = man.color.lastRank
  · rw [if_pos last] at promotes
    obtain ⟨kind, mem, rfl⟩ := promotes
    obtain ⟨pr, letter, same⟩ := promos_kinds.2.1 kind mem
    refine ⟨_, mem_addPawn.mpr (.inl ⟨beq_iff_eq.mpr last, pr, letter, rfl⟩), ?_⟩
    unfold plyOf
    rw [sq_of_on on, same]
  · rw [if_neg last] at promotes
    refine ⟨_, mem_addPawn.mpr (.inr ⟨beq_eq_false_iff_ne.mpr last, rfl⟩), ?_⟩
    unfold plyOf
    rw [sq_of_on on, promotes]
    rfl

theorem Mirrors.pushes (mirrors : Mirrors st pos)
    (own : man.color = pos.turn) (pawn : man.kind = .pawn) (mem : m ∈ pawnPushes st s) :
    Goes pos man (plyOf m) := by
  obtain ⟨onR, vacant, mem⟩ := mem_pawnPushes.mp mem
  rw [mirrors.turn, ← own, dirOf_colorByte] at onR vacant mem
  have onF := cf_onBoard s
  rw [mirrors.shows _ _ onF onR, glyph_eq_empty] at vacant
  rcases mem with mem | ⟨start, vacant2, rfl⟩
  · rw [promoRank_colorByte] at mem
    obtain ⟨source, goal, promotes⟩ := promotes_of_mem (on_iff.mpr ⟨onF, onR⟩) mem
    refine .advance pawn ?_ ?_ promotes
    · rw [goal, source]
      rfl
    · rw [goal]
      exact vacant
  · rw [startRank_colorByte] at start
    have onR2 : onBoard (cr s + 2 * man.color.dir) = true := by
      rw [onBoard_iff, start]
      cases man.color <;> decide
    have goal : (plyOf { «from» := s, «to» := csq (cf s) (cr s + 2 * man.color.dir), dbl := true }).dst =
        (cf s, cr s + 2 * man.color.dir) := sq_csq onF
    rw [mirrors.shows _ _ onF onR2, glyph_eq_empty] at vacant2
    refine .double pawn start goal vacant ?_ rfl
    rw [goal]
    exact vacant2

theorem Mirrors.captures (mirrors : Mirrors st pos) (own : man.color = pos.turn)
    (pawn : man.kind = .pawn) (side : df = -1 ∨ df = 1) (mem : m ∈ pawnCaptures st s df) :
    Goes pos man (plyOf m) := by
  obtain ⟨onF, onR, mem⟩ := mem_pawnCaptures.mp mem
  rw [mirrors.turn, ← own, dirOf_colorByte] at onR mem
  have on : On (cf s + df, cr s + man.color.dir) := on_iff.mpr ⟨onF, onR⟩
  have attacks : Attacks pos.men man (sq s) (cf s + df, cr s + man.color.dir) := by
    simp only [Attacks, pawn]
    refine ⟨?_, rfl⟩
    change cf s + df = cf s + 1 ∨ cf s + df = cf s - 1
    omega
  rw [mirrors.shows _ _ onF onR] at mem
  rcases mem with ⟨there, color, mem⟩ | ⟨_, passed, rfl⟩
  · rw [promoRank_colorByte] at mem
    obtain ⟨source, goal, promotes⟩ := promotes_of_mem on mem
    refine .take pawn ?_ ?_ promotes
    · rw [source, goal]
      exact attacks
    · rw [goal]
      cases taken : pos.men (cf s + df, cr s + man.color.dir) with
      | none =>
          rw [taken] at there
          exact absurd rfl there
      | some man' =>
          rw [taken, (glyph_man man').2.2, ne_eq, colorByte_inj] at color
          exact ⟨man', rfl, color⟩
  · have goal : (plyOf { «from» := s, «to» := csq (cf s + df) (cr s + man.color.dir), ep := true }).dst =
        (cf s + df, cr s + man.color.dir) := sq_csq onF
    refine .enPassant pawn ?_ ?_ rfl
    · rw [goal]
      exact attacks
    · rw [goal]
      exact (mirrors.ep _ on).mp passed

theorem Mirrors.mem_pushes (mirrors : Mirrors st pos) (own : man.color = pos.turn)
    (src : ply.src = sq s) (onDst : On ply.dst)
    (ahead : ply.dst = (ply.src.1, ply.src.2 + man.color.dir)) (free : pos.men ply.dst = none)
    (promo : Promotes man ply) : ∃ m ∈ pawnPushes st s, plyOf m = ply := by
  obtain ⟨m, mem, same⟩ := mem_of_promotes false onDst src promo
  rw [src] at ahead
  have vacant := mirrors.shows.at onDst
  rw [ahead] at mem vacant free onDst
  rw [free] at vacant
  refine ⟨m, mem_pawnPushes.mpr ?_, same⟩
  rw [mirrors.turn, ← own, dirOf_colorByte, promoRank_colorByte]
  exact ⟨(on_iff.mp onDst).2, vacant, .inl mem⟩

theorem Mirrors.mem_double (mirrors : Mirrors st pos) (own : man.color = pos.turn)
    (src : ply.src = sq s) (start : ply.src.2 = man.color.pawnRank)
    (ahead : ply.dst = (ply.src.1, ply.src.2 + 2 * man.color.dir))
    (passed : pos.men (ply.src.1, ply.src.2 + man.color.dir) = none) (free : pos.men ply.dst = none)
    (promo : ply.promo = none) : ∃ m ∈ pawnPushes st s, plyOf m = ply := by
  obtain ⟨source, goal, became⟩ := ply
  obtain rfl : source = sq s := src
  dsimp only at start ahead passed free promo
  subst ahead promo
  have onF := cf_onBoard s
  have on : On (cf s, cr s + man.color.dir) ∧ On (cf s, cr s + 2 * man.color.dir) := by
    rw [on_iff, on_iff, onF, onBoard_iff, onBoard_iff]
    change cr s = _ at start
    rw [start]
    cases man.color <;> decide
  have vacant := mirrors.shows.at on.1
  have vacant2 := mirrors.shows.at on.2
  change pos.men (cf s, cr s + man.color.dir) = none at passed
  change pos.men (cf s, cr s + 2 * man.color.dir) = none at free
  rw [passed] at vacant
  rw [free] at vacant2
  refine ⟨{ «from» := s, «to» := csq (cf s) (cr s + 2 * man.color.dir), dbl := true },
    mem_pawnPushes.mpr ?_, ?_⟩
  · rw [mirrors.turn, ← own, dirOf_colorByte, startRank_colorByte]
    exact ⟨(on_iff.mp on.1).2, vacant, .inr ⟨start, vacant2, rfl⟩⟩
  · unfold plyOf
    rw [sq_csq onF]
    rfl

/-- The side step of a pawn that attacks. -/
theorem pawn_side {men : Men} {t : Square} (pawn : man.kind = .pawn) (attacks : Attacks men man (sq s) t) :
    ∃ df, (df = -1 ∨ df = 1) ∧ t = (cf s + df, cr s + man.color.dir) := by
  simp only [Attacks, pawn] at attacks
  obtain ⟨file, rank⟩ := attacks
  change t.1 = cf s + 1 ∨ t.1 = cf s - 1 at file
  change t.2 = cr s + man.color.dir at rank
  refine ⟨t.1 - cf s, by omega, ?_⟩
  ext
  · dsimp only
    omega
  · exact rank

theorem Mirrors.mem_captures (mirrors : Mirrors st pos) (own : man.color = pos.turn)
    (pawn : man.kind = .pawn) (src : ply.src = sq s) (onDst : On ply.dst)
    (attacks : Attacks pos.men man ply.src ply.dst)
    (enemy : ∃ man', pos.men ply.dst = some man' ∧ man'.color ≠ man.color) (promo : Promotes man ply) :
    ∃ df, (df = -1 ∨ df = 1) ∧ ∃ m ∈ pawnCaptures st s df, plyOf m = ply := by
  obtain ⟨m, mem, same⟩ := mem_of_promotes false onDst src promo
  rw [src] at attacks
  obtain ⟨df, side, goal⟩ := pawn_side pawn attacks
  obtain ⟨man', there, color⟩ := enemy
  have shown := mirrors.shows.at onDst
  rw [goal] at mem shown there onDst
  rw [there] at shown
  obtain ⟨onF, onR⟩ := on_iff.mp onDst
  refine ⟨df, side, m, mem_pawnCaptures.mpr ?_, same⟩
  rw [mirrors.turn, ← own, dirOf_colorByte, promoRank_colorByte, shown, (glyph_man man').2.2]
  refine ⟨onF, onR, .inl ⟨(glyph_man man').1, ?_, mem⟩⟩
  rw [ne_eq, colorByte_inj]
  exact color

theorem Mirrors.mem_enPassant (mirrors : Mirrors st pos) (own : man.color = pos.turn)
    (pawn : man.kind = .pawn) (src : ply.src = sq s) (onDst : On ply.dst)
    (attacks : Attacks pos.men man ply.src ply.dst) (passed : Passed pos ply.dst)
    (promo : ply.promo = none) :
    ∃ df, (df = -1 ∨ df = 1) ∧ ∃ m ∈ pawnCaptures st s df, plyOf m = ply := by
  rw [src] at attacks
  obtain ⟨df, side, goal⟩ := pawn_side pawn attacks
  have shown := mirrors.shows.at onDst
  have target := (mirrors.ep _ onDst).mpr passed
  rw [mirrors.sound.vacant _ passed] at shown
  rw [goal] at shown target onDst
  obtain ⟨onF, onR⟩ := on_iff.mp onDst
  refine ⟨df, side, { «from» := s, «to» := csq (cf s + df) (cr s + man.color.dir), ep := true },
    mem_pawnCaptures.mpr ?_, ?_⟩
  · rw [mirrors.turn, ← own, dirOf_colorByte, shown]
    refine ⟨onF, onR, .inr ⟨?_, target, rfl⟩⟩
    rintro ⟨there, _⟩
    exact there rfl
  · obtain ⟨source, goal', became⟩ := ply
    dsimp only at src goal promo
    subst src goal promo
    unfold plyOf
    rw [sq_csq onF]
    rfl

end Pawns

/-! ### The moves of pieces -/

section Pieces

variable {st : State} {pos : Position} {man : Man} {s : Int} {m : Move} {ply : Ply}

/-- A goal is free for a piece unless a man of its own side stands there. -/
theorem Mirrors.free_iff (mirrors : Mirrors st pos) (own : man.color = pos.turn) {t : Square}
    (on : On t) : cown (st.board.get (csq t.1 t.2)) st.turn = false ↔
      ∀ man', pos.men t = some man' → man'.color ≠ man.color := by
  rw [← Bool.not_eq_true, mirrors.shows.at on, mirrors.turn, ← own, cown_glyph]
  constructor
  · intro free man' there color
    exact free ⟨man', there, color⟩
  · rintro free ⟨man', there, color⟩
    exact free man' there color

theorem Mirrors.plain (mirrors : Mirrors st pos) (own : man.color = pos.turn)
    (noPawn : man.kind ≠ .pawn) {t : Square} (on : On t)
    (free : cown (st.board.get (csq t.1 t.2)) st.turn = false)
    (attacks : Attacks pos.men man (sq s) t) :
    Goes pos man (plyOf { «from» := s, «to» := csq t.1 t.2 }) := by
  have goal : (plyOf { «from» := s, «to» := csq t.1 t.2 }).dst = t := sq_of_on on
  refine .piece noPawn ?_ ?_ rfl
  · rw [goal]
    exact attacks
  · rw [goal]
    exact (mirrors.free_iff own on).mp free

theorem plyOf_plain (src : ply.src = sq s) (on : On ply.dst) (promo : ply.promo = none) :
    plyOf { «from» := s, «to» := csq ply.dst.1 ply.dst.2 } = ply := by
  obtain ⟨source, goal, became⟩ := ply
  dsimp only at src promo on
  subst src promo
  unfold plyOf
  rw [sq_of_on on]
  rfl

theorem Mirrors.stepMoves (mirrors : Mirrors st pos) (own : man.color = pos.turn)
    (noPawn : man.kind ≠ .pawn) {ds : List (Int × Int)}
    (attacks : ∀ d ∈ ds, Attacks pos.men man (sq s) (cf s + d.1, cr s + d.2))
    (mem : m ∈ stepMoves st s ds) : Goes pos man (plyOf m) := by
  obtain ⟨d, step, on, free, rfl⟩ := mem_stepMoves.mp mem
  exact mirrors.plain own noPawn (on_iff.mpr on) free (attacks d step)

theorem Mirrors.mem_stepMoves (mirrors : Mirrors st pos) (own : man.color = pos.turn)
    (src : ply.src = sq s) (onDst : On ply.dst) {ds : List (Int × Int)}
    (step : (ply.dst.1 - cf s, ply.dst.2 - cr s) ∈ ds)
    (free : ∀ man', pos.men ply.dst = some man' → man'.color ≠ man.color) (promo : ply.promo = none) :
    ∃ m ∈ Chess.stepMoves st s ds, plyOf m = ply := by
  have file : cf s + (ply.dst.1 - cf s) = ply.dst.1 := by omega
  have rank : cr s + (ply.dst.2 - cr s) = ply.dst.2 := by omega
  refine ⟨_, Chess.mem_stepMoves.mpr ⟨_, step, ?_, ?_, ?_⟩, plyOf_plain src onDst promo⟩
  · rw [file, rank]
    exact on_iff.mp onDst
  · rw [file, rank]
    exact (mirrors.free_iff own onDst).mpr free
  · rw [file, rank]

theorem Mirrors.slides (mirrors : Mirrors st pos) (range : 0 ≤ s ∧ s < 64)
    (own : man.color = pos.turn) (noPawn : man.kind ≠ .pawn) {d : Int × Int} (unit : Unit d)
    (attacks : ∀ k : Nat, 0 < k → Clear pos.men (sq s) d k →
      Attacks pos.men man (sq s) (steps (sq s) d k))
    (mem : m ∈ slide st.board st.turn s d 8 (cf s + d.1) (cr s + d.2)) : Goes pos man (plyOf m) := by
  obtain ⟨k, _, path, free, rfl⟩ := mem_slide.mp mem
  obtain ⟨goal, clear⟩ := (mirrors.shows.open unit (on_sq range)).mp path
  have there := attacks (k + 1) (Nat.succ_pos k) clear
  rw [steps_succ] at goal there
  exact mirrors.plain own noPawn goal free there

theorem Mirrors.mem_slides (mirrors : Mirrors st pos) (range : 0 ≤ s ∧ s < 64)
    (own : man.color = pos.turn) (src : ply.src = sq s) (onDst : On ply.dst) {d : Int × Int}
    (unit : Unit d) {k : Nat} (pos' : 0 < k) (goal : ply.dst = steps (sq s) d k)
    (clear : Clear pos.men (sq s) d k)
    (free : ∀ man', pos.men ply.dst = some man' → man'.color ≠ man.color) (promo : ply.promo = none) :
    ∃ m ∈ slide st.board st.turn s d 8 (cf s + d.1) (cr s + d.2), plyOf m = ply := by
  obtain ⟨j, rfl⟩ : ∃ j, k = j + 1 := ⟨k - 1, by omega⟩
  have onGoal := onDst
  have freeGoal := (mirrors.free_iff own onDst).mpr free
  have whole := plyOf_plain src onDst promo
  rw [goal] at onGoal freeGoal whole
  have few := unit.few (on_sq range) onGoal
  have path := (mirrors.shows.open unit (on_sq range)).mpr ⟨onGoal, clear⟩
  rw [steps_succ] at freeGoal whole
  exact ⟨_, mem_slide.mpr ⟨j, by omega, path, freeGoal, rfl⟩, whole⟩

end Pieces

/-! ### Castling -/

section Castling

variable {st : State} {pos : Position} {man : Man} {s : Int} {m : Move} {ply : Ply} {c : Color}

theorem home_colorByte : (if colorByte c = byte 'w' then (0 : Int) else 7) = c.home := by
  cases c <;> rfl

theorem rook_colorByte : (if colorByte c = byte 'w' then byte 'R' else byte 'r') =
    glyph (some ⟨c, .rook, false⟩) := by
  cases c <;> rfl

theorem right_king : (if colorByte c = byte 'w' then st.cK else st.cKBlack) = right st c .king := by
  cases c <;> rfl

theorem right_queen : (if colorByte c = byte 'w' then st.cQ else st.cQBlack) = right st c .queen := by
  cases c <;> rfl

theorem onBoard_home (c : Color) : onBoard c.home = true := by
  cases c <;> rfl

/-- A square of the home rank. -/
theorem on_home {f : Int} (onF : onBoard f = true) : On (f, c.home) :=
  on_iff.mpr ⟨onF, onBoard_home c⟩

theorem Mirrors.quiet (mirrors : Mirrors st pos) {f : Int} (onF : onBoard f = true) :
    attacked st.board (csq f c.home) (colorByte c.other) = false ↔
      ¬ Attacked pos.men (f, c.home) c.other := by
  rw [← Bool.not_eq_true, ← mirrors.shows.attacked (on_home onF)]

theorem Mirrors.vacant (mirrors : Mirrors st pos) {f : Int} (onF : onBoard f = true) :
    st.board.get (csq f c.home) = empty ↔ pos.men (f, c.home) = none := by
  rw [mirrors.shows _ _ onF (onBoard_home c), glyph_eq_empty]

/-- The source's castling moves are those of the two wings. -/
theorem Mirrors.mem_castles (mirrors : Mirrors st pos) (own : man.color = pos.turn) :
    m ∈ castles st s ↔ s = csq 4 man.color.home ∧ ∃ wing : Wing, Unmoved pos.men man.color wing ∧
      (∀ f ∈ wing.between, pos.men (f, man.color.home) = none) ∧
      (∀ f ∈ wing.path, ¬ Attacked pos.men (f, man.color.home) man.color.other) ∧
      m = { «from» := csq 4 man.color.home, «to» := csq wing.kingTo man.color.home,
            castle := if wing = .king then byte 'K' else byte 'Q' } := by
  have corner : ∀ wing, right st man.color wing = true →
      st.board.get (csq wing.rookFile man.color.home) = glyph (some ⟨man.color, .rook, false⟩) := by
    intro wing kept
    have onF : onBoard wing.rookFile = true := by
      cases wing <;> rfl
    rw [mirrors.shows _ _ onF (onBoard_home _), ((mirrors.rights _ _).mp kept).2]
  have members := @Chess.mem_castles st s m
  dsimp only at members
  rw [mirrors.turn, ← own, home_colorByte, rook_colorByte, right_king, right_queen, other_colorByte,
    mirrors.quiet rfl, mirrors.quiet rfl, mirrors.quiet rfl, mirrors.quiet rfl, mirrors.quiet rfl,
    mirrors.vacant rfl, mirrors.vacant rfl, mirrors.vacant rfl, mirrors.vacant rfl,
    mirrors.vacant rfl] at members
  rw [members]
  apply and_congr_right
  intro _
  constructor
  · rintro ⟨quiet4, ⟨kept, free5, free6, _, quiet5, quiet6, same⟩ |
      ⟨kept, free3, free2, free1, _, quiet3, quiet2, same⟩⟩
    · refine ⟨.king, (mirrors.rights _ _).mp kept, ?_, ?_, same⟩
      · simp [Wing.between, free5, free6]
      · simp [Wing.path, quiet4, quiet5, quiet6]
    · refine ⟨.queen, (mirrors.rights _ _).mp kept, ?_, ?_, same⟩
      · simp [Wing.between, free1, free2, free3]
      · simp [Wing.path, quiet4, quiet3, quiet2]
  · rintro ⟨wing, unmoved, free, quiet, same⟩
    have kept := (mirrors.rights _ _).mpr unmoved
    have rook := corner wing kept
    cases wing with
    | king =>
        simp only [Wing.between, Wing.path, List.forall_mem_cons, List.not_mem_nil, false_implies,
          implies_true, and_true] at free quiet
        exact ⟨quiet.1, .inl ⟨kept, free.1, free.2, rook, quiet.2.1, quiet.2.2, same⟩⟩
    | queen =>
        simp only [Wing.between, Wing.path, List.forall_mem_cons, List.not_mem_nil, false_implies,
          implies_true, and_true] at free quiet
        exact ⟨quiet.1, .inr ⟨kept, free.2.2, free.2.1, free.1, rook, quiet.2.1, quiet.2.2, same⟩⟩

theorem plyOf_castle (c : Color) (wing : Wing) (mark : UInt8) :
    plyOf { «from» := csq 4 c.home, «to» := csq wing.kingTo c.home, castle := mark } =
      ⟨(4, c.home), (wing.kingTo, c.home), none⟩ := by
  have onF : onBoard wing.kingTo = true := by
    cases wing <;> rfl
  unfold plyOf
  rw [sq_csq onF, sq_csq rfl]
  rfl

end Castling

/-! ### Candidates are the plies that go by the rules -/

section Candidates

variable {st : State} {pos : Position} {man : Man} {s : Int} {m : Move} {ply : Ply}

/-- The man of the mover on a square, and what the source reads of it. -/
theorem Mirrors.own_iff (mirrors : Mirrors st pos) (range : 0 ≤ s ∧ s < 64) :
    cown (st.board.get s) st.turn = true ↔ ∃ man, pos.men (sq s) = some man ∧ man.color = pos.turn := by
  rw [mirrors.shows.sq range, mirrors.turn, cown_glyph]

theorem Mirrors.upper (mirrors : Mirrors st pos) (range : 0 ≤ s ∧ s < 64)
    (here : pos.men (sq s) = some man) : upper (st.board.get s) = letter man.kind := by
  rw [mirrors.shows.sq range, here]
  exact (glyph_man man).2.1

theorem mem_dirsOf {kind : Kind} (noPawn : kind ≠ .pawn) (noKnight : kind ≠ .knight)
    (noKing : kind ≠ .king) {d : Int × Int} : d ∈ dirsOf (letter kind) ↔ kind.Along d := by
  cases kind with
  | pawn => contradiction
  | knight => contradiction
  | king => contradiction
  | bishop => exact mem_BD
  | rook => exact mem_RD
  | queen =>
      rw [along_queen, ← mem_BD, ← mem_RD, ← List.mem_append]
      rfl

/-- Every candidate goes by the rules. -/
theorem Mirrors.goes (mirrors : Mirrors st pos) (mem : m ∈ pseudo st) :
    ∃ man, pos.men (plyOf m).src = some man ∧ man.color = pos.turn ∧ Goes pos man (plyOf m) := by
  obtain ⟨s, low, high, mem⟩ := mem_pseudo.mp mem
  have range : 0 ≤ s ∧ s < 64 := ⟨low, high⟩
  obtain ⟨mine, kinds⟩ := mem_movesFrom.mp mem
  obtain ⟨man, here, own⟩ := (mirrors.own_iff range).mp mine
  rw [mirrors.upper range here] at kinds
  have kindIs : ∀ kind, letter man.kind = letter kind → man.kind = kind := fun _ => letter_inj.mp
  have src : (plyOf m).src = sq s := congrArg sq (from_of_mem mem)
  refine ⟨man, src ▸ here, own, ?_⟩
  rcases kinds with ⟨pawn, mem | ⟨df, side, mem⟩⟩ | ⟨knight, mem⟩ | ⟨king, mem | mem⟩ |
    ⟨noPawn, noKnight, noKing, d, dir, mem⟩
  · exact mirrors.pushes own (kindIs .pawn pawn) mem
  · exact mirrors.captures own (kindIs .pawn pawn) side mem
  · have kind := kindIs .knight knight
    have noPawn : man.kind ≠ .pawn := by
      rw [kind]
      decide
    refine mirrors.stepMoves own noPawn ?_ mem
    intro d step
    rw [mem_KN] at step
    simp only [Attacks, kind, sq]
    omega
  · have kind := kindIs .king king
    have noPawn : man.kind ≠ .pawn := by
      rw [kind]
      decide
    refine mirrors.stepMoves own noPawn ?_ mem
    intro d step
    obtain ⟨near, near', moves⟩ := mem_KG.mp step
    simp only [Attacks, kind, sq]
    refine ⟨by omega, by omega, ?_⟩
    intro same
    rw [Prod.mk.injEq] at same
    apply moves
    ext
    · dsimp only
      omega
    · dsimp only
      omega
  · obtain ⟨rfl, wing, unmoved, free, quiet, rfl⟩ := (mirrors.mem_castles own).mp mem
    rw [sq_csq rfl, unmoved.1] at here
    have same := Option.some.inj here
    have fresh : man.kind = .king ∧ man.moved = false := by
      rw [← same]
      exact ⟨rfl, rfl⟩
    rw [plyOf_castle]
    exact .castle wing fresh.1 fresh.2 rfl unmoved.2 free quiet rfl rfl
  · have kinds : man.kind ≠ .pawn ∧ man.kind ≠ .knight ∧ man.kind ≠ .king := by
      refine ⟨?_, ?_, ?_⟩
      · exact fun same => noPawn (same ▸ rfl)
      · exact fun same => noKnight (same ▸ rfl)
      · exact fun same => noKing (same ▸ rfl)
    have along := (mem_dirsOf kinds.1 kinds.2.1 kinds.2.2).mp dir
    refine mirrors.slides range own kinds.1 (Along.unit along) ?_ mem
    intro k pos' clear
    have line : ∃ d, man.kind.Along d ∧ ∃ j : Nat, 0 < j ∧ steps (sq s) _ k = steps (sq s) d j ∧
        Clear pos.men (sq s) d j := ⟨_, along, k, pos', rfl, clear⟩
    cases kind : man.kind with
    | pawn => exact absurd kind kinds.1
    | knight => exact absurd kind kinds.2.1
    | king => exact absurd kind kinds.2.2
    | bishop | rook | queen =>
        simp only [Attacks, kind]
        rw [kind] at line
        exact line

/-- Every ply that goes by the rules is a candidate. -/
theorem Mirrors.candidate (mirrors : Mirrors st pos) (onSrc : On ply.src) (onDst : On ply.dst)
    (here : pos.men ply.src = some man) (own : man.color = pos.turn) (goes : Goes pos man ply) :
    ∃ m ∈ pseudo st, plyOf m = ply := by
  have range := csq_on onSrc
  have src : ply.src = sq (csq ply.src.1 ply.src.2) := (sq_of_on onSrc).symm
  generalize csq ply.src.1 ply.src.2 = s at range src
  rw [src] at here
  have mine := (mirrors.own_iff range).mpr ⟨man, here, own⟩
  have upper := mirrors.upper range here
  suffices found : ∃ m ∈ movesFrom st s, plyOf m = ply by
    obtain ⟨m, mem, same⟩ := found
    exact ⟨m, mem_pseudo.mpr ⟨s, range.1, range.2, mem⟩, same⟩
  have ofPawn : man.kind = .pawn → ∀ m, (m ∈ pawnPushes st s ∨
      ∃ df, (df = -1 ∨ df = 1) ∧ m ∈ pawnCaptures st s df) → m ∈ movesFrom st s := by
    intro pawn m mem
    rw [mem_movesFrom, upper, pawn]
    exact ⟨mine, .inl ⟨rfl, mem⟩⟩
  cases goes with
  | advance pawn ahead free promo =>
      obtain ⟨m, mem, same⟩ := mirrors.mem_pushes own src onDst ahead free promo
      exact ⟨m, ofPawn pawn m (.inl mem), same⟩
  | double pawn start ahead passed free promo =>
      obtain ⟨m, mem, same⟩ := mirrors.mem_double own src start ahead passed free promo
      exact ⟨m, ofPawn pawn m (.inl mem), same⟩
  | take pawn attacks enemy promo =>
      obtain ⟨df, side, m, mem, same⟩ := mirrors.mem_captures own pawn src onDst attacks enemy promo
      exact ⟨m, ofPawn pawn m (.inr ⟨df, side, mem⟩), same⟩
  | enPassant pawn attacks passed promo =>
      obtain ⟨df, side, m, mem, same⟩ := mirrors.mem_enPassant own pawn src onDst attacks passed promo
      exact ⟨m, ofPawn pawn m (.inr ⟨df, side, mem⟩), same⟩
  | piece noPawn attacks free promo =>
      rw [src] at attacks
      have byLine : man.kind ≠ .knight → man.kind ≠ .king → (∃ d, man.kind.Along d ∧ ∃ k : Nat,
          0 < k ∧ ply.dst = steps (sq s) d k ∧ Clear pos.men (sq s) d k) →
          ∃ m ∈ movesFrom st s, plyOf m = ply := by
        rintro noKnight noKing ⟨d, along, k, pos', goal, clear⟩
        obtain ⟨m, mem, same⟩ := mirrors.mem_slides range own src onDst (Along.unit along) pos' goal
          clear free promo
        refine ⟨m, mem_movesFrom.mpr ⟨mine, .inr (.inr (.inr ⟨?_, ?_, ?_, d, ?_, mem⟩))⟩, same⟩
        · rw [upper]
          exact fun same => noPawn (letter_inj.mp same)
        · rw [upper]
          exact fun same => noKnight (letter_inj.mp same)
        · rw [upper]
          exact fun same => noKing (letter_inj.mp same)
        · rw [upper, mem_dirsOf noPawn noKnight noKing]
          exact along
      cases kind : man.kind with
      | pawn => contradiction
      | knight =>
          simp only [Attacks, kind, sq] at attacks
          have step : (ply.dst.1 - cf s, ply.dst.2 - cr s) ∈ KN := mem_KN.mpr attacks
          obtain ⟨m, mem, same⟩ := mirrors.mem_stepMoves own src onDst step free promo
          refine ⟨m, mem_movesFrom.mpr ⟨mine, .inr (.inl ⟨?_, mem⟩)⟩, same⟩
          rw [upper, kind]
          rfl
      | king =>
          simp only [Attacks, kind, sq] at attacks
          obtain ⟨near, near', apart⟩ := attacks
          have step : (ply.dst.1 - cf s, ply.dst.2 - cr s) ∈ KG := by
            refine mem_KG.mpr ⟨near, near', ?_⟩
            intro same
            rw [Prod.mk.injEq] at same
            apply apart
            ext
            · dsimp only
              omega
            · dsimp only
              omega
          obtain ⟨m, mem, same⟩ := mirrors.mem_stepMoves own src onDst step free promo
          refine ⟨m, mem_movesFrom.mpr ⟨mine, .inr (.inr (.inl ⟨?_, .inl mem⟩))⟩, same⟩
          rw [upper, kind]
          rfl
      | bishop | rook | queen =>
          apply byLine
          · rw [kind]
            decide
          · rw [kind]
            decide
          · simp only [Attacks, kind] at attacks
            rw [kind]
            exact attacks
  | castle wing king unmoved start rook free quiet goal promo =>
      obtain ⟨source, target, became⟩ := ply
      dsimp only at src start goal promo
      subst goal promo
      rw [src] at start
      have origin : s = csq 4 man.color.home := by
        rw [← csq_sq s, start]
      rw [start] at here src
      have kingHere : pos.men (4, man.color.home) = some ⟨man.color, .king, false⟩ := by
        rw [here, ← king, ← unmoved]
      refine ⟨_, mem_movesFrom.mpr ⟨mine, .inr (.inr (.inl ⟨?_, .inr ((mirrors.mem_castles own).mpr
        ⟨origin, wing, ⟨kingHere, rook⟩, free, quiet, rfl⟩)⟩))⟩, ?_⟩
      · rw [upper, king]
        rfl
      · rw [plyOf_castle, src]

end Candidates

/-! ### Boards after a move -/

section Boards

variable {b : Board} {men : Men} {st : State} {pos : Position} {man : Man} {m : Move} {c : Color}

theorem Shows.put (shows : Shows b men) {x : Square} (on : On x) {s : Int} (place : csq x.1 x.2 = s)
    {p : UInt8} {o : Option Man} (same : glyph o = p) :
    Shows (b.put s p) (Function.update men x o) := by
  subst place
  intro f r onF onR
  rw [Board.get_put (csq_on on), Function.update_apply, shows f r onF onR]
  have here : csq f r = csq x.1 x.2 ↔ (f, r) = x := by
    rw [csq_inj onF (on_iff.mp on).1, Prod.ext_iff]
  by_cases at_x : (f, r) = x
  · rw [if_pos (here.mpr at_x), if_pos at_x, same]
  · rw [if_neg (mt here.mp at_x), if_neg at_x]

/-- A man's letter does not show whether it has been moved. -/
theorem glyph_moved (c : Color) (kind : Kind) (x y : Bool) :
    glyph (some ⟨c, kind, x⟩) = glyph (some ⟨c, kind, y⟩) := by
  cases c <;> rfl

theorem glyph_promoted (c : Color) (kind : Kind) : ∀ pr ∈ promos, pr ≠ 0 ∧
    glyph (some ⟨c, (kindOf pr).getD kind, true⟩) = if colorByte c = byte 'w' then upper pr else pr := by
  cases c <;> cases kind <;> decide +kernel

/-- The marks of a candidate, in the words of the rules. -/
structure Reads (m : Move) (men : Men) (man : Man) : Prop where
  ep : m.ep = true ↔ InPassing men man (plyOf m)
  dbl : m.dbl = true ↔ man.kind = .pawn ∧ (plyOf m).dst.2 = (plyOf m).src.2 + 2 * man.color.dir
  castle : m.castle =
    match wingOf man (plyOf m) with
    | some .king => byte 'K'
    | some .queen => byte 'Q'
    | none => 0

theorem Mirrors.reads (mirrors : Mirrors st pos) (mem : m ∈ pseudo st)
    (here : pos.men (plyOf m).src = some man) (own : man.color = pos.turn)
    (goes : Goes pos man (plyOf m)) : Reads m pos.men man := by
  have marks := Marked.of_mem mem
  have upper := mirrors.upper marks.from here
  have pawnIff : letter man.kind = byte 'P' ↔ man.kind = .pawn := @letter_inj man.kind .pawn
  have kingIff : letter man.kind = byte 'K' ↔ man.kind = .king := @letter_inj man.kind .king
  have goal := mirrors.shows.sq marks.to
  constructor
  · rw [marks.ep, upper, pawnIff, goal]
    change _ ↔ man.kind = .pawn ∧ (sq m.to).1 ≠ (sq m.from).1 ∧ pos.men (sq m.to) = none
    apply and_congr_right
    intro pawn
    apply and_congr_right
    intro aside
    constructor
    · intro noEnemy
      cases taken : pos.men (sq m.to) with
      | none => rfl
      | some man' =>
          have enemy := (goes.attacks_of_taken mirrors.sound.vacant taken).2
          rw [taken, mirrors.turn, ← own, (glyph_man man').2.2, ne_eq, ne_eq, colorByte_inj] at noEnemy
          exact absurd ⟨(glyph_man man').1, enemy⟩ noEnemy
    · intro free
      rw [free]
      rintro ⟨there, _⟩
      exact there rfl
  · rw [marks.dbl, upper, pawnIff, mirrors.turn, ← own, dirOf_colorByte]
    rfl
  · rw [marks.castle, upper]
    simp only [kingIff]
    unfold wingOf
    change _ = match (if man.kind = .king ∧ cf m.to = cf m.from + 2 then some Wing.king
      else if man.kind = .king ∧ cf m.to = cf m.from - 2 then some Wing.queen else none) with
      | some .king => byte 'K'
      | some .queen => byte 'Q'
      | none => 0
    by_cases short : man.kind = .king ∧ cf m.to = cf m.from + 2
    · rw [if_pos short, if_pos short]
    · rw [if_neg short, if_neg short]
      by_cases long : man.kind = .king ∧ cf m.to = cf m.from - 2
      · rw [if_pos long, if_pos long]
      · rw [if_neg long, if_neg long]

/-- The board after a move shows the men after its ply. -/
theorem Mirrors.board (mirrors : Mirrors st pos) (mem : m ∈ pseudo st)
    (here : pos.men (plyOf m).src = some man) (own : man.color = pos.turn)
    (goes : Goes pos man (plyOf m)) : Shows (applyBoard st m) (replace pos.men man (plyOf m)) := by
  have marks := Marked.of_mem mem
  have reads := mirrors.reads mem here own goes
  have piece := mirrors.shows.sq marks.from
  have onSrc := on_sq marks.from
  have onDst := on_sq marks.to
  have placed : glyph (some (man.placed (plyOf m))) = if m.promo ≠ 0 then
      (if st.turn = byte 'w' then Chess.upper m.promo else m.promo) else st.board.get m.from := by
    rw [mirrors.turn, ← own]
    change glyph (some ⟨man.color, (kindOf m.promo).getD man.kind, true⟩) = _
    rcases marks.promo with none | letter
    · rw [none, if_neg (not_not.mpr rfl), piece]
      change _ = glyph (pos.men (plyOf m).src)
      rw [here]
      exact glyph_moved _ _ _ _
    · obtain ⟨nonzero, same⟩ := glyph_promoted man.color man.kind m.promo letter
      rw [if_pos nonzero]
      exact same
  have source := mirrors.shows.put onSrc (csq_sq m.from) (show glyph none = empty from rfl)
  have gone : Shows (if m.ep then (st.board.put m.from empty).put (csq (cf m.to) (cr m.from)) empty
      else st.board.put m.from empty) (if InPassing pos.men man (plyOf m) then
        Function.update (Function.update pos.men (plyOf m).src none)
          ((plyOf m).dst.1, (plyOf m).src.2) none
        else Function.update pos.men (plyOf m).src none) := by
    by_cases passing : m.ep = true
    · rw [if_pos passing, if_pos (reads.ep.mp passing)]
      exact source.put (on_iff.mpr ⟨cf_onBoard m.to, cr_onBoard marks.from⟩) rfl rfl
    · rw [if_neg passing, if_neg (mt reads.ep.mpr passing)]
      exact source
  have there := gone.put onDst (csq_sq m.to) placed
  have castle := reads.castle
  cases two : wingOf man (plyOf m) with
  | none =>
      rw [two] at castle
      unfold applyBoard replace
      rw [two, castle]
      exact there
  | some wing =>
      have home : man.color.home = if st.turn = byte 'w' then 0 else 7 := by
        rw [mirrors.turn, ← own, home_colorByte]
      have rook : glyph (some ⟨man.color, .rook, true⟩) =
          if st.turn = byte 'w' then byte 'R' else byte 'r' := by
        rw [mirrors.turn, ← own, rook_colorByte]
        exact glyph_moved _ _ _ _
      rw [two] at castle
      unfold applyBoard replace
      rw [two, castle]
      cases wing with
      | king =>
          have corner := there.put (@on_home man.color 7 rfl) (congrArg (csq 7) home)
            (show glyph none = empty from rfl)
          exact corner.put (@on_home man.color 5 rfl) (congrArg (csq 5) home) rook
      | queen =>
          have corner := there.put (@on_home man.color 0 rfl) (congrArg (csq 0) home)
            (show glyph none = empty from rfl)
          exact corner.put (@on_home man.color 3 rfl) (congrArg (csq 3) home) rook

end Boards

/-! ### Legal moves -/

section Legality

variable {b : Board} {men : Men} {st : State} {pos : Position} {man : Man} {m : Move} {ply : Ply}
  {c : Color}

theorem glyph_king {o : Option Man} : glyph o = (if colorByte c = byte 'w' then byte 'K' else byte 'k') ↔
    ∃ man, o = some man ∧ man.color = c ∧ man.kind = .king := by
  cases o with
  | none =>
      have noKing : glyph none ≠ if colorByte c = byte 'w' then byte 'K' else byte 'k' := by
        cases c <;> decide
      simp [noKing]
  | some man =>
      obtain ⟨color, kind, moved⟩ := man
      have letters : glyph (some ⟨color, kind, false⟩) =
          (if colorByte c = byte 'w' then byte 'K' else byte 'k') ↔ color = c ∧ kind = .king := by
        cases c <;> cases color <;> cases kind <;> decide
      rw [glyph_moved color kind moved false, letters]
      simp

/-- The source's king is the one on the board. -/
theorem Shows.kingSq (shows : Shows b men) {k : Square} (onK : On k) (king : KingAt men c k)
    (one : ∀ s, KingAt men c s → s = k) : kingSq b (colorByte c) = csq k.1 k.2 := by
  have range := csq_on onK
  have asked : ∀ i : Nat, i < 64 →
      ((b.get i == if colorByte c = byte 'w' then byte 'K' else byte 'k') = true ↔ (i : Int) = csq k.1 k.2) := by
    intro i low
    rw [beq_iff_eq, shows.sq (show 0 ≤ (i : Int) ∧ (i : Int) < 64 by omega), glyph_king]
    constructor
    · intro there
      rw [← one _ there, csq_sq]
    · intro same
      rw [same, sq_of_on onK]
      exact king
  unfold Chess.kingSq
  dsimp only
  cases found : (List.range 64).find? fun (i : Nat) =>
      b.get i == if colorByte c = byte 'w' then byte 'K' else byte 'k' with
  | some i =>
      have low := List.mem_range.mp (List.mem_of_find?_eq_some found)
      have hit := List.find?_some found
      exact (asked i low).mp hit
  | none =>
      have low : (csq k.1 k.2).toNat < 64 := by omega
      have missed := List.find?_eq_none.mp found _ (List.mem_range.mpr low)
      exact absurd ((asked _ low).mpr (Int.toNat_of_nonneg range.1)) missed

/-- The source's test for check is right. -/
theorem Shows.check (shows : Shows b men) (king : ∃ s, On s ∧ KingAt men c s)
    (one : ∀ s s', KingAt men c s → KingAt men c s' → s = s') :
    Chess.attacked b (Chess.kingSq b (colorByte c)) (Chess.other (colorByte c)) = true ↔
      Check men c := by
  obtain ⟨k, onK, king⟩ := king
  rw [shows.kingSq onK king fun s there => one s k there king, other_colorByte, shows.attacked onK]
  constructor
  · intro attacked
    exact ⟨k, onK, king, attacked⟩
  · rintro ⟨s, _, there, attacked⟩
    rw [← one s k there king]
    exact attacked

/-- The legal moves are the legal plies. -/
theorem Mirrors.legal_iff (mirrors : Mirrors st pos) (mem : m ∈ pseudo st) :
    m ∈ legal st ↔ pos.Legal (plyOf m) := by
  obtain ⟨man, here, own, goes⟩ := mirrors.goes mem
  have marks := Marked.of_mem mem
  have onSrc : On (plyOf m).src := on_sq marks.from
  have onDst : On (plyOf m).dst := on_sq marks.to
  have board := mirrors.board mem here own goes
  obtain ⟨king, one⟩ := goes.kings mirrors.sound onSrc onDst here own pos.turn
  have safe : (!attacked (apply st m).board (Chess.kingSq (apply st m).board st.turn)
      (Chess.other st.turn)) = true ↔ ¬ Check (pos.play (plyOf m)).men pos.turn := by
    rw [Bool.not_eq_true', ← Bool.not_eq_true, mirrors.turn, Position.play_men here]
    exact not_congr (board.check king one)
  unfold legal
  rw [List.mem_filter]
  constructor
  · rintro ⟨_, kept⟩
    exact ⟨onSrc, onDst, ⟨man, here, own, goes⟩, safe.mp kept⟩
  · intro plays
    exact ⟨mem, safe.mpr plays.safe⟩

theorem Mirrors.legal (mirrors : Mirrors st pos) :
    (∃ m ∈ Chess.legal st, plyOf m = ply) ↔ pos.Legal ply := by
  constructor
  · rintro ⟨m, mem, rfl⟩
    exact (mirrors.legal_iff (List.mem_filter.mp mem).1).mp mem
  · intro plays
    obtain ⟨man, here, own, goes⟩ := plays.goes
    obtain ⟨m, mem, rfl⟩ := mirrors.candidate plays.src plays.dst here own goes
    exact ⟨m, (mirrors.legal_iff mem).mpr plays, rfl⟩

end Legality

/-! ### Every move keeps the state a mirror -/

section Steps

variable {st : State} {pos : Position} {man : Man} {m : Move} {c : Color} {wing : Wing}

theorem right_apply (st : State) (m : Move) (c : Color) (wing : Wing) : right (apply st m) c wing =
    (right st c wing && keeps st m (colorByte c) (glyph (some ⟨c, .rook, false⟩))
      (csq wing.rookFile c.home)) := by
  cases c <;> cases wing <;> rfl

/-- Which right a move keeps, in the words of the rules. -/
theorem Mirrors.keeps (mirrors : Mirrors st pos) (range : 0 ≤ m.from ∧ m.from < 64)
    (here : pos.men (plyOf m).src = some man) (own : man.color = pos.turn) :
    keeps st m (colorByte c) (glyph (some ⟨c, .rook, false⟩)) (csq wing.rookFile c.home) = true ↔
      ¬ (man.kind = .king ∧ man.color = c) ∧
        ¬ (st.board.get m.from = glyph (some ⟨c, .rook, false⟩) ∧ m.from = csq wing.rookFile c.home) ∧
        m.to ≠ csq wing.rookFile c.home := by
  have kingIff : letter man.kind = byte 'K' ↔ man.kind = .king := @letter_inj man.kind .king
  have side : ((colorByte man.color == byte 'w') = (colorByte c == byte 'w')) ↔ man.color = c := by
    cases man.color <;> cases c <;> decide
  unfold Chess.keeps
  dsimp only
  rw [mirrors.upper range here, mirrors.turn, ← own]
  simp only [Bool.and_eq_true, Bool.not_eq_true', Bool.and_eq_false_iff, beq_eq_false_iff_ne, ne_eq,
    kingIff, side]
  tauto

/-- The rights after a move say which kings and rooks have still not been moved. -/
theorem Mirrors.rights_apply (mirrors : Mirrors st pos) (mem : m ∈ pseudo st)
    (here : pos.men (plyOf m).src = some man) (own : man.color = pos.turn)
    (goes : Goes pos man (plyOf m)) :
    right (apply st m) c wing = true ↔ Unmoved (replace pos.men man (plyOf m)) c wing := by
  have marks := Marked.of_mem mem
  have corner : ∀ s : Int, s = csq wing.rookFile c.home ↔ sq s = (wing.rookFile, c.home) := by
    intro s
    have onF : onBoard wing.rookFile = true := by
      cases wing <;> rfl
    constructor
    · rintro rfl
      exact sq_csq onF
    · intro same
      rw [← csq_sq s, same]
  rw [right_apply, Bool.and_eq_true, mirrors.rights, mirrors.keeps marks.from here own,
    goes.unmoved mirrors.sound (on_sq marks.from) (on_sq marks.to) here own]
  change _ ↔ _ ∧ _ ∧ sq m.from ≠ _ ∧ sq m.to ≠ _
  simp only [ne_eq, ← corner]
  constructor
  · rintro ⟨unmoved, another, notRook, notTaken⟩
    refine ⟨unmoved, another, ?_, notTaken⟩
    intro start
    apply notRook
    refine ⟨?_, start⟩
    rw [mirrors.shows.sq marks.from, (corner _).mp start, unmoved.2]
  · rintro ⟨unmoved, another, notCorner, notTaken⟩
    exact ⟨unmoved, another, fun rook => notCorner rook.2, notTaken⟩

/-- The en-passant square after a move is the one a pawn has passed. -/
theorem Mirrors.ep_apply (mirrors : Mirrors st pos) (mem : m ∈ pseudo st)
    (here : pos.men (plyOf m).src = some man) (own : man.color = pos.turn)
    (goes : Goes pos man (plyOf m)) {t : Square} (on : On t) :
    csq t.1 t.2 = (apply st m).ep ↔ Passed (pos.play (plyOf m)) t := by
  have reads := mirrors.reads mem here own goes
  have onF := (on_iff.mp on).1
  rw [goes.passed here own t, ← own]
  change csq t.1 t.2 = (if m.dbl then csq (cf m.from) (cr m.from + dirOf st.turn) else -1) ↔ _
  rw [mirrors.turn, ← own, dirOf_colorByte]
  by_cases far : m.dbl = true
  · obtain ⟨pawn, two⟩ := reads.dbl.mp far
    rw [if_pos far, csq_inj onF (cf_onBoard m.from)]
    constructor
    · rintro ⟨file, rank⟩
      exact ⟨pawn, two, Prod.ext file rank⟩
    · rintro ⟨_, _, rfl⟩
      exact ⟨rfl, rfl⟩
  · rw [if_neg far]
    constructor
    · intro off
      have range := csq_on on
      omega
    · rintro ⟨pawn, two, _⟩
      exact absurd (reads.dbl.mpr ⟨pawn, two⟩) far

/-- A legal move takes a state that mirrors a position to one that mirrors the next. -/
theorem Mirrors.apply (mirrors : Mirrors st pos) (mem : m ∈ Chess.legal st) :
    Mirrors (Chess.apply st m) (pos.play (plyOf m)) := by
  have candidate := (List.mem_filter.mp mem).1
  obtain ⟨man, here, own, goes⟩ := mirrors.goes candidate
  have men := Position.play_men here
  constructor
  · rw [men]
    exact mirrors.board candidate here own goes
  · change Chess.other st.turn = colorByte pos.turn.other
    rw [mirrors.turn, other_colorByte]
  · exact mirrors.sound.play ((mirrors.legal_iff candidate).mp mem)
  · intro c wing
    rw [men]
    exact mirrors.rights_apply candidate here own goes
  · intro t on
    exact mirrors.ep_apply candidate here own goes on

theorem shows_start : Shows initial.board start.men := by
  intro f r onF onR
  rw [onBoard_iff] at onF onR
  have files : f = 0 ∨ f = 1 ∨ f = 2 ∨ f = 3 ∨ f = 4 ∨ f = 5 ∨ f = 6 ∨ f = 7 := by omega
  have ranks : r = 0 ∨ r = 1 ∨ r = 2 ∨ r = 3 ∨ r = 4 ∨ r = 5 ∨ r = 6 ∨ r = 7 := by omega
  rcases files with rfl | rfl | rfl | rfl | rfl | rfl | rfl | rfl <;>
    rcases ranks with rfl | rfl | rfl | rfl | rfl | rfl | rfl | rfl <;> rfl

theorem king_start {s : Square} (king : KingAt start.men c s) : s = (4, c.home) := by
  obtain ⟨f, r⟩ := s
  obtain ⟨man, there, color, kind⟩ := king
  change startMen (f, r) = some man at there
  unfold startMen at there
  dsimp only at there
  -- Only the fifth piece of a back rank is a king.
  have back : ∀ {color' : Color}, 0 ≤ f → f < 8 →
      backRank[f.toNat]?.map (⟨color', ·, false⟩) = some man → f = 4 ∧ man.color = color' := by
    intro color' low high there
    obtain ⟨kind', index, rfl⟩ := Option.map_eq_some_iff.mp there
    obtain rfl : kind' = .king := kind
    have files : f = 0 ∨ f = 1 ∨ f = 2 ∨ f = 3 ∨ f = 4 ∨ f = 5 ∨ f = 6 ∨ f = 7 := by omega
    refine ⟨?_, rfl⟩
    rcases files with rfl | rfl | rfl | rfl | rfl | rfl | rfl | rfl <;>
      first | rfl | exact absurd index (by decide)
  split at there
  · rename_i onF
    split at there
    · rename_i rank
      obtain ⟨file, white⟩ := back onF.1 onF.2 there
      rw [file, rank, ← color, white]
      rfl
    · split at there
      · obtain rfl := Option.some.inj there
        contradiction
      · split at there
        · obtain rfl := Option.some.inj there
          contradiction
        · split at there
          · rename_i rank
            obtain ⟨file, black⟩ := back onF.1 onF.2 there
            rw [file, rank, ← color, black]
            rfl
          · contradiction
  · contradiction

theorem mirrors_start : Mirrors initial start := by
  have notPassed : ∀ t, ¬ Passed start t := by
    rintro t ⟨impossible, _⟩
    contradiction
  have kings : ∀ c, On (4, c.home) ∧ KingAt start.men c (4, c.home) := by
    intro c
    exact ⟨on_home rfl, ⟨c, .king, false⟩, by cases c <;> rfl, rfl, rfl⟩
  have one : ∀ c s s', KingAt start.men c s → KingAt start.men c s' → s = s' :=
    fun c s s' king king' => (king_start king).trans (king_start king').symm
  constructor
  · exact shows_start
  · rfl
  · constructor
    · exact fun c => ⟨_, kings c⟩
    · exact one
    · intro check
      have attacked := (shows_start.check ⟨_, kings .black⟩ (one .black)).mpr check
      exact absurd attacked (by decide +kernel)
    · exact fun t passed => absurd passed (notPassed t)
  · intro c wing
    cases c <;> cases wing <;> exact ⟨fun _ => ⟨rfl, rfl⟩, fun _ => rfl⟩
  · intro t on
    have range := csq_on on
    constructor
    · intro off
      change csq t.1 t.2 = -1 at off
      omega
    · intro passed
      exact absurd passed (notPassed t)

end Steps

/-! ### Games -/

/-- The moves of a game, each of them legal, and the state they lead to. -/
inductive Game : List Move → State → Prop
  | start : Game [] initial
  | move {ms : List Move} {st : State} {m : Move} (game : Game ms st) (mem : m ∈ legal st) :
      Game (ms ++ [m]) (apply st m)

section Games

variable {ms : List Move} {st : State} {pos : Position} {m m' : Move}

/-- The state of a game mirrors the position after its plies. -/
theorem Game.mirrors (game : Game ms st) : Mirrors st (after (ms.map plyOf)) := by
  induction game with
  | start => exact mirrors_start
  | move game mem ih =>
      unfold after
      rw [List.map_append, List.foldl_append]
      exact ih.apply mem

/-- Two candidates that are one ply are one move. -/
theorem plyOf_inj (mem : m ∈ pseudo st) (mem' : m' ∈ pseudo st) (same : plyOf m = plyOf m') :
    m = m' := by
  have letters : ∀ p ∈ 0 :: promos, ∀ p' ∈ 0 :: promos, kindOf p = kindOf p' → p = p' := by decide +kernel
  have letter : ∀ {m}, m ∈ pseudo st → m.promo ∈ 0 :: promos := by
    intro m mem
    rw [List.mem_cons]
    exact (Marked.of_mem mem).promo
  apply eq_of_squares mem mem'
  · rw [← csq_sq m.from, ← csq_sq m'.from, show sq m.from = sq m'.from from congrArg Ply.src same]
  · rw [← csq_sq m.to, ← csq_sq m'.to, show sq m.to = sq m'.to from congrArg Ply.dst same]
  · exact letters _ (letter mem) _ (letter mem') (congrArg Ply.promo same)

theorem Mirrors.over (mirrors : Mirrors st pos) : Chess.over st =
    if (Chess.legal st).isEmpty then
      some (if inCheck st st.turn then .checkmate (colorByte pos.turn.other) else .draw)
    else none := by
  unfold Chess.over
  rw [mirrors.turn, other_colorByte]
  cases (Chess.legal st).isEmpty with
  | false => rfl
  | true => cases inCheck st (colorByte pos.turn) <;> rfl

theorem Mirrors.stuck (mirrors : Mirrors st pos) :
    (Chess.legal st).isEmpty = true ↔ ¬ ∃ ply, pos.Legal ply := by
  rw [List.isEmpty_iff]
  constructor
  · rintro nothing ⟨ply, plays⟩
    obtain ⟨m, mem, _⟩ := mirrors.legal.mpr plays
    rw [nothing] at mem
    contradiction
  · intro stuck
    cases moves : Chess.legal st with
    | nil => rfl
    | cons m rest =>
        have mem : m ∈ Chess.legal st := by
          rw [moves]
          exact List.mem_cons_self
        exact absurd ⟨plyOf m, mirrors.legal.mp ⟨m, mem, rfl⟩⟩ stuck

theorem Mirrors.inCheck (mirrors : Mirrors st pos) :
    inCheck st st.turn = true ↔ Check pos.men pos.turn := by
  unfold Chess.inCheck
  rw [mirrors.turn]
  exact mirrors.shows.check (mirrors.sound.king _) (mirrors.sound.one _)

end Games

/-- In every state of a game, the legal moves are the plies that the rules allow in the
position after the game's plies, each of them once. The game is over with a checkmate by
the other side when the rules allow none and the king is in check, and with a draw when they
allow none and it is not. -/
theorem legal_exact {ms : List Move} {st : State} (game : Game ms st) :
    Shows st.board (after (ms.map plyOf)).men ∧
      st.turn = colorByte (after (ms.map plyOf)).turn ∧
      (∀ ply, (∃ m ∈ legal st, plyOf m = ply) ↔ (after (ms.map plyOf)).Legal ply) ∧
      (∀ m ∈ legal st, ∀ m' ∈ legal st, plyOf m = plyOf m' → m = m') ∧
      (∀ winner, Chess.over st = some (.checkmate winner) ↔
        winner = colorByte (after (ms.map plyOf)).turn.other ∧
          (¬ ∃ ply, (after (ms.map plyOf)).Legal ply) ∧
          Check (after (ms.map plyOf)).men (after (ms.map plyOf)).turn) ∧
      (Chess.over st = some .draw ↔ (¬ ∃ ply, (after (ms.map plyOf)).Legal ply) ∧
        ¬ Check (after (ms.map plyOf)).men (after (ms.map plyOf)).turn) := by
  have mirrors := game.mirrors
  generalize after (ms.map plyOf) = pos at mirrors
  refine ⟨mirrors.shows, mirrors.turn, fun ply => mirrors.legal, ?_, ?_, ?_⟩
  · intro m mem m' mem'
    exact plyOf_inj (List.mem_filter.mp mem).1 (List.mem_filter.mp mem').1
  · intro winner
    rw [← mirrors.stuck, ← mirrors.inCheck, mirrors.over]
    by_cases stuck : (legal st).isEmpty = true
    · by_cases check : inCheck st st.turn = true
      · simp [stuck, check, eq_comm]
      · simp [stuck, check]
    · simp [stuck]
  · rw [← mirrors.stuck, ← mirrors.inCheck, mirrors.over]
    by_cases stuck : (legal st).isEmpty = true
    · by_cases check : inCheck st st.turn = true
      · simp [stuck, check]
      · simp [stuck, check]
    · simp [stuck]

/-- The king's pawn opens. -/
theorem legal_exact_opening : ∃ st, ∀ ply,
    (∃ m ∈ legal st, plyOf m = ply) ↔ (after [⟨(4, 1), (4, 3), none⟩]).Legal ply := by
  have opening : Game [{ «from» := 12, «to» := 28, dbl := true }]
      (apply initial { «from» := 12, «to» := 28, dbl := true }) :=
    .move .start (by decide +kernel)
  exact ⟨_, (legal_exact opening).2.2.1⟩

end Echo.Chess
