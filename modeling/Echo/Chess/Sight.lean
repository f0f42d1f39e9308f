import Mathlib.Tactic.Ring
import Echo.Chess.Moves
import Echo.Chess.Rules

/-!
A board of bytes shows the men of a position, and what it says of attacks is what the
rules say: a square is attacked along the lines and steps that the source tries from it.
-/

namespace Echo.Chess

open Rules

/-! ### Letters -/

def colorByte : Color → UInt8
  | .white => byte 'w'
  | .black => byte 'b'

def letter : Kind → UInt8
  | .pawn => byte 'P'
  | .knight => byte 'N'
  | .bishop => byte 'B'
  | .rook => byte 'R'
  | .queen => byte 'Q'
  | .king => byte 'K'

def glyph : Option Man → UInt8
  | none => empty
  | some ⟨.white, kind, _⟩ => letter kind
  | some ⟨.black, kind, _⟩ => lower (letter kind)

section Letters

variable {c c' : Color} {kind kind' : Kind} {man : Man} {o : Option Man}

theorem letter_inj : letter kind = letter kind' ↔ kind = kind' := by
  cases kind <;> cases kind' <;> decide

theorem colorByte_inj : colorByte c = colorByte c' ↔ c = c' := by
  cases c <;> cases c' <;> decide

theorem other_colorByte : Chess.other (colorByte c) = colorByte c.other := by
  cases c <;> rfl

theorem dirOf_colorByte : dirOf (colorByte c) = c.dir := by
  cases c <;> rfl

theorem startRank_colorByte : startRank (colorByte c) = c.pawnRank := by
  cases c <;> rfl

theorem promoRank_colorByte : promoRank (colorByte c) = c.lastRank := by
  cases c <;> rfl

theorem glyph_man (man : Man) : glyph (some man) ≠ empty ∧ upper (glyph (some man)) = letter man.kind ∧
    ccolor (glyph (some man)) = colorByte man.color := by
  obtain ⟨color, kind, moved⟩ := man
  cases color <;> cases kind <;> decide +revert

theorem glyph_eq_empty : glyph o = empty ↔ o = none := by
  cases o with
  | none => simp [glyph]
  | some man => simp [(glyph_man man).1]

theorem cown_glyph : cown (glyph o) (colorByte c) = true ↔ ∃ man, o = some man ∧ man.color = c := by
  cases o with
  | none => simp [cown, glyph]
  | some man =>
      obtain ⟨there, _, side⟩ := glyph_man man
      simp [cown, there, side, colorByte_inj]

end Letters

/-! ### Boards -/

theorem on_iff {f r : Int} : On (f, r) ↔ onBoard f = true ∧ onBoard r = true := by
  rw [onBoard_iff, onBoard_iff]
  rfl

/-- The board has the men's letters on its squares. -/
def Shows (b : Board) (men : Men) : Prop :=
  ∀ f r, onBoard f = true → onBoard r = true → b.get (csq f r) = glyph (men (f, r))

section Sight

variable {b : Board} {men : Men} {c : Color} {kind : Kind} {d : Int × Int} {s t : Square} {k : Nat}

theorem Shows.at (shows : Shows b men) (on : On s) : b.get (csq s.1 s.2) = glyph (men s) := by
  obtain ⟨onF, onR⟩ := on_iff.mp on
  exact shows s.1 s.2 onF onR

theorem Shows.stepAttacked (shows : Shows b men) {f r : Int} :
    stepAttacked b (colorByte c) (letter kind) f r = true ↔
      On (f, r) ∧ ∃ man, men (f, r) = some man ∧ man.color = c ∧ man.kind = kind := by
  unfold Chess.stepAttacked
  rw [Bool.and_eq_true, Bool.and_eq_true, ← on_iff]
  apply and_congr_right
  intro on
  rw [shows.at on]
  cases men (f, r) with
  | none => simp [glyph]
  | some man =>
      obtain ⟨there, upper, side⟩ := glyph_man man
      simp [there, upper, side, colorByte_inj, letter_inj]

/-- A direction of a king. -/
def Unit (d : Int × Int) : Prop := d.1.natAbs ≤ 1 ∧ d.2.natAbs ≤ 1 ∧ d ≠ (0, 0)

/-- A line on the board has fewer than eight steps. -/
theorem Unit.few (unit : Unit d) (on : On s) (on' : On (steps s d k)) : k < 8 := by
  obtain ⟨x, y⟩ := d
  obtain ⟨smallX, smallY, moves⟩ := unit
  unfold On steps at *
  rw [ne_eq, Prod.mk.injEq] at moves
  dsimp only at *
  have cases : x = 1 ∨ x = -1 ∨ y = 1 ∨ y = -1 := by omega
  rcases cases with rfl | rfl | rfl | rfl <;> omega

/-- Between two squares of the board, a line stays on it. -/
theorem Unit.between (unit : Unit d) (on : On s) (on' : On (steps s d k)) {j : Nat} (low : j ≤ k) :
    On (steps s d j) := by
  obtain ⟨x, y⟩ := d
  obtain ⟨smallX, smallY, _⟩ := unit
  unfold On steps at *
  dsimp only at *
  have casesX : x = 1 ∨ x = -1 ∨ x = 0 := by omega
  have casesY : y = 1 ∨ y = -1 ∨ y = 0 := by omega
  rcases casesX with rfl | rfl | rfl <;> rcases casesY with rfl | rfl | rfl <;> omega

theorem steps_succ (s : Square) (d : Int × Int) (j : Nat) :
    steps s d (j + 1) = (s.1 + d.1 + j * d.1, s.2 + d.2 + j * d.2) := by
  unfold steps
  rw [step_shift, step_shift]

theorem Shows.open (shows : Shows b men) (unit : Unit d) (on : On s) :
    Open b d (s.1 + d.1) (s.2 + d.2) k ↔ On (steps s d (k + 1)) ∧ Clear men s d (k + 1) := by
  constructor
  · rintro ⟨path, vacant⟩
    constructor
    · rw [steps_succ, on_iff]
      exact path k (Nat.le_refl k)
    · intro j pos low
      obtain ⟨i, rfl⟩ : ∃ i, j = i + 1 := ⟨j - 1, by omega⟩
      have free := vacant i (by omega)
      have onHere := on_iff.mpr (path i (by omega))
      rw [shows.at onHere, glyph_eq_empty] at free
      rw [steps_succ]
      exact free
  · rintro ⟨goal, clear⟩
    have path : ∀ j ≤ k, On (s.1 + d.1 + j * d.1, s.2 + d.2 + j * d.2) := by
      intro j low
      rw [← steps_succ]
      exact unit.between on goal (by omega)
    constructor
    · intro j low
      exact on_iff.mp (path j low)
    · intro j low
      rw [shows.at (path j (by omega)), glyph_eq_empty]
      have free := clear (j + 1) (by omega) (by omega)
      rw [steps_succ] at free
      exact free

theorem Shows.lineAttacked (shows : Shows b men) (unit : Unit d) (on : On t) :
    lineAttacked b (colorByte c) (letter kind) d 8 (t.1 + d.1) (t.2 + d.2) = true ↔
      ∃ k : Nat, 0 < k ∧ On (steps t d k) ∧ Clear men t d k ∧
        ∃ man, men (steps t d k) = some man ∧ man.color = c ∧ (man.kind = kind ∨ man.kind = .queen) := by
  have hit : ∀ k, On (steps t d (k + 1)) →
      ((cown (b.get (csq (t.1 + d.1 + k * d.1) (t.2 + d.2 + k * d.2))) (colorByte c) = true ∧
        (upper (b.get (csq (t.1 + d.1 + k * d.1) (t.2 + d.2 + k * d.2))) = letter kind ∨
          upper (b.get (csq (t.1 + d.1 + k * d.1) (t.2 + d.2 + k * d.2))) = byte 'Q')) ↔
      ∃ man, men (steps t d (k + 1)) = some man ∧ man.color = c ∧
        (man.kind = kind ∨ man.kind = .queen)) := by
    intro k onGoal
    have here := shows.at onGoal
    rw [steps_succ] at here ⊢
    rw [here]
    cases men (t.1 + d.1 + k * d.1, t.2 + d.2 + k * d.2) with
    | none => simp [cown, glyph]
    | some man =>
        obtain ⟨there, upper, side⟩ := glyph_man man
        have queen : letter man.kind = byte 'Q' ↔ man.kind = .queen := @letter_inj man.kind .queen
        simp [cown, there, upper, side, colorByte_inj, letter_inj, queen]
  rw [lineAttacked_iff]
  constructor
  · rintro ⟨k, _, path, found⟩
    obtain ⟨goal, clear⟩ := (shows.open unit on).mp path
    exact ⟨k + 1, by omega, goal, clear, (hit k goal).mp found⟩
  · rintro ⟨k, pos, goal, clear, found⟩
    obtain ⟨j, rfl⟩ : ∃ j, k = j + 1 := ⟨k - 1, by omega⟩
    have few := unit.few on goal
    exact ⟨j, by omega, (shows.open unit on).mpr ⟨goal, clear⟩, (hit j goal).mpr found⟩

/-- A line is as clear from its other end. -/
theorem clear_back (clear : Clear men s d k) : Clear men (steps s d k) (-d) k := by
  intro j pos low
  have same : steps (steps s d k) (-d) j = steps s d (k - j) := by
    unfold steps
    rw [Prod.mk.injEq, Prod.fst_neg, Prod.snd_neg]
    have count : ((k - j : Nat) : Int) = k - j := by omega
    constructor
    · rw [count]
      ring
    · rw [count]
      ring
  rw [same]
  exact clear (k - j) (by omega) (by omega)

theorem steps_back (s : Square) (d : Int × Int) (k : Nat) : steps (steps s d k) (-d) k = s := by
  unfold steps
  ext
  · dsimp only [Prod.fst_neg]
    ring
  · dsimp only [Prod.snd_neg]
    ring

end Sight

/-! ### Directions -/

section Directions

variable {d : Int × Int}

theorem mem_KN : d ∈ KN ↔ d.1.natAbs = 1 ∧ d.2.natAbs = 2 ∨ d.1.natAbs = 2 ∧ d.2.natAbs = 1 := by
  obtain ⟨x, y⟩ := d
  simp only [KN, List.mem_cons, Prod.mk.injEq, List.not_mem_nil, or_false]
  omega

theorem mem_KG : d ∈ KG ↔ Unit d := by
  obtain ⟨x, y⟩ := d
  simp only [KG, Unit, List.mem_cons, Prod.mk.injEq, List.not_mem_nil, or_false, ne_eq]
  omega

theorem mem_BD : d ∈ BD ↔ Kind.bishop.Along d := by
  obtain ⟨x, y⟩ := d
  simp only [BD, Kind.Along, List.mem_cons, Prod.mk.injEq, List.not_mem_nil, or_false]
  omega

theorem mem_RD : d ∈ RD ↔ Kind.rook.Along d := by
  obtain ⟨x, y⟩ := d
  simp only [RD, Kind.Along, List.mem_cons, Prod.mk.injEq, List.not_mem_nil, or_false]
  omega

theorem along_queen : Kind.queen.Along d ↔ Kind.bishop.Along d ∨ Kind.rook.Along d := by
  obtain ⟨x, y⟩ := d
  simp only [Kind.Along, ne_eq, Prod.mk.injEq]
  omega

theorem Along.unit {kind : Kind} (along : kind.Along d) : Unit d := by
  obtain ⟨x, y⟩ := d
  unfold Unit
  cases kind <;> simp only [Kind.Along, ne_eq, Prod.mk.injEq] at along ⊢ <;> omega

theorem Along.neg {kind : Kind} (along : kind.Along d) : kind.Along (-d) := by
  obtain ⟨x, y⟩ := d
  cases kind <;> simp only [Kind.Along, ne_eq, Prod.mk.injEq, Prod.neg_mk] at along ⊢ <;> omega

end Directions

/-! ### Attacks -/

section Attacks

variable {b : Board} {men : Men} {c : Color} {t : Square}

/-- The squares a pawn of `c` attacks from are on the rank behind. -/
theorem pawn_rank (c : Color) (r : Int) :
    (if colorByte c = byte 'w' then r - 1 else r + 1) = r - c.dir := by
  cases c with
  | white => rfl
  | black =>
      rw [if_neg (by decide)]
      change r + 1 = r - -1
      omega

/-- A line of attackers, seen from the square they attack. -/
theorem Shows.attackers (shows : Shows b men) (on : On t) {kind : Kind} {ds : List (Int × Int)}
    (dirs : ∀ d, d ∈ ds ↔ kind.Along d) :
    (∃ d ∈ ds, Chess.lineAttacked b (colorByte c) (letter kind) d 8 (t.1 + d.1) (t.2 + d.2) = true) ↔
      ∃ s man, On s ∧ men s = some man ∧ man.color = c ∧ (man.kind = kind ∨ man.kind = .queen) ∧
        ∃ d, kind.Along d ∧ ∃ k : Nat, 0 < k ∧ t = steps s d k ∧ Clear men s d k := by
  constructor
  · rintro ⟨d, mem, attacked⟩
    have along := (dirs d).mp mem
    obtain ⟨k, pos, goal, clear, man, there, color, same⟩ :=
      (shows.lineAttacked (Along.unit along) on).mp attacked
    exact ⟨steps t d k, man, goal, there, color, same, -d, Along.neg along, k, pos,
      (steps_back t d k).symm, clear_back clear⟩
  · rintro ⟨s, man, onS, there, color, same, d, along, k, pos, rfl, clear⟩
    refine ⟨-d, (dirs _).mpr (Along.neg along), ?_⟩
    rw [shows.lineAttacked (Along.unit (Along.neg along)) on]
    refine ⟨k, pos, ?_, clear_back clear, man, ?_, color, same⟩
    · rw [steps_back]
      exact onS
    · rw [steps_back]
      exact there

/-- Steps of attackers, seen from the square they attack. -/
theorem Shows.steppers (shows : Shows b men) {kind : Kind} {ds : List (Int × Int)} :
    (∃ d ∈ ds, Chess.stepAttacked b (colorByte c) (letter kind) (t.1 + d.1) (t.2 + d.2) = true) ↔
      ∃ s man, On s ∧ men s = some man ∧ man.color = c ∧ man.kind = kind ∧ (s.1 - t.1, s.2 - t.2) ∈ ds := by
  constructor
  · rintro ⟨d, mem, attacked⟩
    obtain ⟨on, man, there, color, same⟩ := shows.stepAttacked.mp attacked
    have back : (t.1 + d.1 - t.1, t.2 + d.2 - t.2) = d := by
      ext
      · dsimp only
        omega
      · dsimp only
        omega
    refine ⟨(t.1 + d.1, t.2 + d.2), man, on, there, color, same, ?_⟩
    rw [back]
    exact mem
  · rintro ⟨s, man, on, there, color, same, mem⟩
    refine ⟨_, mem, ?_⟩
    have back : (t.1 + (s.1 - t.1, s.2 - t.2).1, t.2 + (s.1 - t.1, s.2 - t.2).2) = s := by
      ext
      · dsimp only
        omega
      · dsimp only
        omega
    rw [shows.stepAttacked, back]
    exact ⟨on, man, there, color, same⟩

theorem Shows.pawnAttackers (shows : Shows b men) :
    (∃ df ∈ [(-1 : Int), 1], Chess.stepAttacked b (colorByte c) (letter .pawn) (t.1 + df)
        (if colorByte c = byte 'w' then t.2 - 1 else t.2 + 1) = true) ↔
      ∃ s man, On s ∧ men s = some man ∧ man.color = c ∧ man.kind = .pawn ∧
        (t.1 = s.1 + 1 ∨ t.1 = s.1 - 1) ∧ t.2 = s.2 + c.dir := by
  simp only [shows.stepAttacked, pawn_rank]
  constructor
  · rintro ⟨df, mem, on, man, there, color, pawn⟩
    refine ⟨_, man, on, there, color, pawn, ?_, ?_⟩
    · simp only [List.mem_cons, List.not_mem_nil, or_false] at mem
      dsimp only
      omega
    · dsimp only
      omega
  · rintro ⟨s, man, on, there, color, pawn, file, rank⟩
    have back : (t.1 + (s.1 - t.1), t.2 - c.dir) = s := by
      ext
      · dsimp only
        omega
      · dsimp only
        omega
    refine ⟨s.1 - t.1, ?_, ?_⟩
    · simp only [List.mem_cons, List.not_mem_nil, or_false]
      omega
    · rw [back]
      exact ⟨on, man, there, color, pawn⟩

/-- The source's test for an attacked square is right. -/
theorem Shows.attacked (shows : Shows b men) (on : On t) :
    Chess.attacked b (csq t.1 t.2) (colorByte c) = true ↔ Attacked men t c := by
  obtain ⟨onF, _⟩ := on_iff.mp on
  have pawns : (∃ df ∈ [(-1 : Int), 1], Chess.stepAttacked b (colorByte c) (byte 'P') (t.1 + df)
      (if colorByte c = byte 'w' then t.2 - 1 else t.2 + 1) = true) ↔ _ := shows.pawnAttackers
  have knights : (∃ d ∈ KN, Chess.stepAttacked b (colorByte c) (byte 'N') (t.1 + d.1)
      (t.2 + d.2) = true) ↔ _ := @Shows.steppers b men c t shows .knight KN
  have kings : (∃ d ∈ KG, Chess.stepAttacked b (colorByte c) (byte 'K') (t.1 + d.1)
      (t.2 + d.2) = true) ↔ _ := @Shows.steppers b men c t shows .king KG
  have bishops : (∃ d ∈ BD, Chess.lineAttacked b (colorByte c) (byte 'B') d 8 (t.1 + d.1)
      (t.2 + d.2) = true) ↔ _ := @Shows.attackers b men c t shows on .bishop BD fun d => mem_BD
  have rooks : (∃ d ∈ RD, Chess.lineAttacked b (colorByte c) (byte 'R') d 8 (t.1 + d.1)
      (t.2 + d.2) = true) ↔ _ := @Shows.attackers b men c t shows on .rook RD fun d => mem_RD
  unfold Chess.attacked
  simp only [Bool.or_eq_true, List.any_eq_true, cf_csq onF, cr_csq onF]
  rw [pawns, knights, kings, bishops, rooks]
  constructor
  · rintro ((((⟨s, man, onS, there, color, kind, goes⟩ | ⟨s, man, onS, there, color, kind, goes⟩) |
      ⟨s, man, onS, there, color, kind, goes⟩) | ⟨s, man, onS, there, color, kind, d, along, goes⟩) |
      ⟨s, man, onS, there, color, kind, d, along, goes⟩) <;>
      refine ⟨s, man, onS, there, color, ?_⟩
    · simp only [Attacks, kind, color]
      exact goes
    · rw [mem_KN] at goes
      simp only [Attacks, kind]
      omega
    · rw [mem_KG] at goes
      obtain ⟨near, near', apart⟩ := goes
      simp only [Attacks, kind]
      refine ⟨by omega, by omega, ?_⟩
      rintro rfl
      exact apart (by rw [Int.sub_self, Int.sub_self])
    · rcases kind with kind | kind
      · simp only [Attacks, kind]
        exact ⟨d, along, goes⟩
      · simp only [Attacks, kind]
        exact ⟨d, along_queen.mpr (.inl along), goes⟩
    · rcases kind with kind | kind
      · simp only [Attacks, kind]
        exact ⟨d, along, goes⟩
      · simp only [Attacks, kind]
        exact ⟨d, along_queen.mpr (.inr along), goes⟩
  · rintro ⟨s, man, onS, there, color, attacks⟩
    cases kind : man.kind with
    | pawn =>
        simp only [Attacks, kind, color] at attacks
        exact .inl (.inl (.inl (.inl ⟨s, man, onS, there, color, kind, attacks⟩)))
    | knight =>
        simp only [Attacks, kind] at attacks
        refine .inl (.inl (.inl (.inr ⟨s, man, onS, there, color, kind, mem_KN.mpr ?_⟩)))
        dsimp only
        omega
    | king =>
        simp only [Attacks, kind] at attacks
        obtain ⟨near, near', apart⟩ := attacks
        refine .inl (.inl (.inr ⟨s, man, onS, there, color, kind, mem_KG.mpr ⟨?_, ?_, ?_⟩⟩))
        · dsimp only
          omega
        · dsimp only
          omega
        · intro same
          rw [Prod.mk.injEq] at same
          apply apart
          ext
          · omega
          · omega
    | bishop =>
        simp only [Attacks, kind] at attacks
        exact .inl (.inr ⟨s, man, onS, there, color, .inl kind, attacks⟩)
    | rook =>
        simp only [Attacks, kind] at attacks
        exact .inr ⟨s, man, onS, there, color, .inl kind, attacks⟩
    | queen =>
        simp only [Attacks, kind] at attacks
        obtain ⟨d, along, goes⟩ := attacks
        rcases along_queen.mp along with along | along
        · exact .inl (.inr ⟨s, man, onS, there, color, .inr kind, d, along, goes⟩)
        · exact .inr ⟨s, man, onS, there, color, .inr kind, d, along, goes⟩

end Attacks

end Echo.Chess
