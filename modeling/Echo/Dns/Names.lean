import Echo.Lib.Loops
import Echo.Lib.Lossy

/-!
The names of a DNS message (`read_name` in `dns.rs`), for every message and every position
in it. A name lies in a message label by label, up to a zero or to a pointer to where it
goes on. `NameAt` says so; a name behind a pointer that leads back to it lies nowhere. The
reader finds the names that take no more than 16 pointers, and no others.
-/

namespace Echo.Dns

open Echo.Lib

def maxJumps : Nat := 16

/-- `slice::get` of a range. -/
def range (msg : List UInt8) (first last : Nat) : Option (List UInt8) :=
  if first ≤ last ∧ last ≤ msg.length then some ((msg.take last).drop first) else none

/-- The two high bits of a length are set in a pointer. -/
def isPointer (len : UInt8) : Bool := len &&& 0xC0 == 0xC0

/-- Where a pointer leads. -/
def target (len b2 : UInt8) : Nat := (len &&& 0x3F).toNat <<< 8 ||| b2.toNat

/-- One more label of a dotted name. -/
def addLabel (name : List Char) (label : List UInt8) : List Char :=
  (if name.isEmpty then [] else name ++ ['.']) ++ fromUtf8Lossy label

/-- How far `read_name` has got. -/
structure Reading where
  pos : Nat
  name : List Char := []
  jumps : Nat := 0
  endAfter : Option Nat := none

/-- One lap of the loop of `read_name`. -/
def readLap (msg : List UInt8) (r : Reading) : Lap Reading (Option (List Char × Nat)) :=
  match msg[r.pos]? with
  | none => .done none
  | some len =>
    if isPointer len then
      match msg[r.pos + 1]? with
      | none => .done none
      | some b2 =>
        if maxJumps < r.jumps + 1 then .done none
        else .again { r with
          pos := target len b2
          jumps := r.jumps + 1
          endAfter := r.endAfter.or (some (r.pos + 2)) }
    else if len = 0 then .done (some (r.name, r.endAfter.getD (r.pos + 1)))
    else
      match range msg (r.pos + 1) (r.pos + 1 + len.toNat) with
      | none => .done none
      | some label => .again { r with pos := r.pos + 1 + len.toNat, name := addLabel r.name label }

/-- As many laps as there are positions, for each stretch between two pointers. -/
def maxLaps (msg : List UInt8) : Nat := (maxJumps + 1) * (msg.length + 1)

/-- The dotted name at a position, and the position behind it. -/
def readName (msg : List UInt8) (pos : Nat) : Option (List Char × Nat) :=
  (laps (readLap msg) (maxLaps msg) { pos }).join

/-! ### What a lap does -/

section Laps

variable {msg : List UInt8} {r r' : Reading}

/-- A label stands at a position, up to another. -/
structure LabelAt (msg : List UInt8) (pos : Nat) (label : List UInt8) (past : Nat) : Prop where
  length : ∃ len, msg[pos]? = some len ∧ isPointer len = false ∧ len ≠ 0 ∧ past = pos + 1 + len.toNat
  held : range msg (pos + 1) past = some label

/-- A pointer stands at a position. -/
def PointerAt (msg : List UInt8) (pos goal : Nat) : Prop :=
  ∃ len b2, msg[pos]? = some len ∧ isPointer len = true ∧ msg[pos + 1]? = some b2 ∧ goal = target len b2

theorem readLap_label {label : List UInt8} {past : Nat} (here : LabelAt msg r.pos label past) :
    readLap msg r = .again { r with pos := past, name := addLabel r.name label } := by
  obtain ⟨⟨len, found, plain, nonzero, rfl⟩, held⟩ := here
  simp [readLap, found, plain, nonzero, held]

theorem readLap_pointer {goal : Nat} (here : PointerAt msg r.pos goal) (few : r.jumps + 1 ≤ maxJumps) :
    readLap msg r = .again { r with
      pos := goal, jumps := r.jumps + 1, endAfter := r.endAfter.or (some (r.pos + 2)) } := by
  obtain ⟨len, b2, found, pointer, second, rfl⟩ := here
  simp only [readLap, found, pointer, second, if_true, if_neg (Nat.not_lt.mpr few)]

theorem readLap_root (here : msg[r.pos]? = some 0) :
    readLap msg r = .done (some (r.name, r.endAfter.getD (r.pos + 1))) := by
  simp [readLap, here, isPointer]

/-- A lap takes a label or a pointer, or it stops at a zero or with nothing. -/
theorem readLap_cases (msg : List UInt8) (r : Reading) :
    (∃ label past, LabelAt msg r.pos label past) ∨ (∃ goal, PointerAt msg r.pos goal ∧ r.jumps + 1 ≤ maxJumps) ∨
      msg[r.pos]? = some 0 ∨ readLap msg r = .done none := by
  cases found : msg[r.pos]? with
  | none => exact .inr (.inr (.inr (by simp [readLap, found])))
  | some len =>
    cases pointer : isPointer len with
    | true =>
      cases second : msg[r.pos + 1]? with
      | none => exact .inr (.inr (.inr (by simp [readLap, found, pointer, second])))
      | some b2 =>
        by_cases few : r.jumps + 1 ≤ maxJumps
        · exact .inr (.inl ⟨_, ⟨len, b2, found, pointer, second, rfl⟩, few⟩)
        · exact .inr (.inr (.inr (by simp [readLap, found, pointer, second, Nat.not_le.mp few])))
    | false =>
      by_cases zero : len = 0
      · exact .inr (.inr (.inl (by rw [zero])))
      · cases held : range msg (r.pos + 1) (r.pos + 1 + len.toNat) with
        | none => exact .inr (.inr (.inr (by simp [readLap, found, pointer, zero, held])))
        | some label => exact .inl ⟨label, _, ⟨len, found, pointer, zero, rfl⟩, held⟩

theorem LabelAt.bounds {pos past : Nat} {label : List UInt8} (here : LabelAt msg pos label past) :
    pos < past ∧ past ≤ msg.length := by
  obtain ⟨⟨len, -, -, -, rfl⟩, held⟩ := here
  have fits : pos + 1 + len.toNat ≤ msg.length := by
    by_contra beyond
    simp [range, beyond] at held
  omega

end Laps

/-! ### It ends -/

/-- How far a reading is from its end at most. -/
def remaining (msg : List UInt8) (r : Reading) : Nat :=
  (maxJumps - r.jumps) * (msg.length + 1) + (msg.length - r.pos)

theorem remaining_lt {msg : List UInt8} {r r' : Reading} (goes : readLap msg r = .again r') :
    remaining msg r' < remaining msg r := by
  rcases readLap_cases msg r with ⟨label, past, here⟩ | ⟨goal, here, few⟩ | root | stuck
  · rw [readLap_label here] at goes
    cases goes
    have bounds := here.bounds
    dsimp only [remaining]
    omega
  · rw [readLap_pointer here few] at goes
    cases goes
    obtain ⟨left, jumps⟩ : ∃ left, maxJumps - r.jumps = left + 1 := ⟨maxJumps - r.jumps - 1, by omega⟩
    have fewer : maxJumps - (r.jumps + 1) = left := by omega
    dsimp only [remaining]
    rw [fewer, jumps, Nat.add_one_mul]
    omega
  · rw [readLap_root root] at goes
    cases goes
  · rw [stuck] at goes
    cases goes

/-- Whatever the message, pointers to pointers included, reading a name stops. -/
theorem readLap_stops (msg : List UInt8) (pos : Nat) : ∃ result, laps (readLap msg) (maxLaps msg) { pos } = some result := by
  refine laps_stop (remaining msg) remaining_lt ?_
  simp only [remaining, maxLaps, Nat.add_one_mul, Nat.sub_zero]
  omega

theorem laps_readLap {msg : List UInt8} {pos n : Nat} (enough : maxLaps msg ≤ n) :
    laps (readLap msg) n { pos } = some (readName msg pos) := by
  obtain ⟨result, stopped⟩ := readLap_stops msg pos
  rw [laps_mono stopped enough, readName, stopped]
  rfl

/-! ### Names in a message -/

/-- A name lies in a message from a position up to another: its labels, and how many pointers
it takes. -/
inductive NameAt (msg : List UInt8) : (pos : Nat) → (labels : List (List UInt8)) → (jumps past : Nat) → Prop
  | root {pos : Nat} (here : msg[pos]? = some 0) : NameAt msg pos [] 0 (pos + 1)
  | label {pos past jumps last : Nat} {label : List UInt8} {labels : List (List UInt8)}
      (here : LabelAt msg pos label past) (rest : NameAt msg past labels jumps last) :
      NameAt msg pos (label :: labels) jumps last
  | pointer {pos goal jumps last : Nat} {labels : List (List UInt8)} (here : PointerAt msg pos goal)
      (rest : NameAt msg goal labels jumps last) : NameAt msg pos labels (jumps + 1) (pos + 2)

namespace NameAt

variable {msg : List UInt8} {pos jumps last : Nat} {labels : List (List UInt8)}

theorem bounds (here : NameAt msg pos labels jumps last) : pos < last ∧ last ≤ msg.length := by
  have inside {i : Nat} {b : UInt8} (found : msg[i]? = some b) : i < msg.length :=
    (List.getElem?_eq_some_iff.mp found).1
  induction here with
  | root here => have := inside here; omega
  | label here rest ih => have := here.bounds; omega
  | pointer here rest ih =>
    obtain ⟨len, b2, -, -, second, -⟩ := here
    have := inside second
    omega

/-- There is one name at a position. -/
theorem unique (here : NameAt msg pos labels jumps last) {labels' : List (List UInt8)} {jumps' last' : Nat}
    (also : NameAt msg pos labels' jumps' last') : labels = labels' ∧ jumps = jumps' ∧ last = last' := by
  induction here generalizing labels' jumps' last' with
  | root zero =>
    cases also with
    | root => exact ⟨rfl, rfl, rfl⟩
    | label here _ => obtain ⟨⟨len, found, -, nonzero, -⟩, -⟩ := here; simp_all
    | pointer here _ => obtain ⟨len, b2, found, pointer, -⟩ := here; simp_all [isPointer]
  | label first rest ih =>
    obtain ⟨⟨len, found, plain, nonzero, rfl⟩, held⟩ := first
    cases also with
    | root zero => simp_all
    | label here rest' =>
      obtain ⟨⟨len', found', -, -, rfl⟩, held'⟩ := here
      obtain rfl : len = len' := by simpa [found] using found'
      obtain rfl := Option.some.inj (held.symm.trans held')
      obtain ⟨rfl, rfl, rfl⟩ := ih rest'
      exact ⟨rfl, rfl, rfl⟩
    | pointer here _ => obtain ⟨len', b2, found', pointer, -⟩ := here; simp_all
  | pointer first rest ih =>
    obtain ⟨len, b2, found, pointer, second, rfl⟩ := first
    cases also with
    | root zero =>
      obtain rfl : len = 0 := by simpa [found] using zero
      exact absurd pointer (by decide)
    | label here _ => obtain ⟨⟨len', found', plain, -⟩, -⟩ := here; simp_all
    | pointer here rest' =>
      obtain ⟨len', b2', found', -, second', rfl⟩ := here
      obtain rfl : len = len' := by simpa [found] using found'
      obtain rfl : b2 = b2' := by simpa [second] using second'
      obtain ⟨rfl, rfl, -⟩ := ih rest'
      exact ⟨rfl, rfl, rfl⟩

/-- From any point of a reading on, a name that takes few enough pointers is read. -/
theorem laps_eq (here : NameAt msg pos labels jumps last) {r : Reading} (at' : r.pos = pos)
    (few : r.jumps + jumps ≤ maxJumps) :
    ∃ n, laps (readLap msg) n r = some (some (labels.foldl addLabel r.name, r.endAfter.getD last)) := by
  induction here generalizing r with
  | root here =>
    subst at'
    exact ⟨1, laps_done (readLap_root here)⟩
  | label here rest ih =>
    subst at'
    obtain ⟨n, read⟩ := ih (r := { r with pos := _, name := addLabel r.name _ }) rfl few
    exact ⟨n + 1, (laps_again (readLap_label here)).trans read⟩
  | @pointer pos goal jumps last labels here rest ih =>
    subst at'
    obtain ⟨n, read⟩ := ih (r := { r with
      pos := goal, jumps := r.jumps + 1, endAfter := r.endAfter.or (some (r.pos + 2)) }) rfl (by dsimp only; omega)
    refine ⟨n + 1, (laps_again (readLap_pointer here (by omega))).trans (read.trans ?_)⟩
    cases r.endAfter <;> rfl

end NameAt

/-- And nothing else is. -/
theorem nameAt_of_laps {msg : List UInt8} {n : Nat} {r : Reading} {name : List Char} {last : Nat}
    (within : r.jumps ≤ maxJumps) (read : laps (readLap msg) n r = some (some (name, last))) :
    ∃ labels jumps past, NameAt msg r.pos labels jumps past ∧ r.jumps + jumps ≤ maxJumps ∧
      name = labels.foldl addLabel r.name ∧ last = r.endAfter.getD past := by
  induction n generalizing r with
  | zero => cases read
  | succ n ih =>
    rcases readLap_cases msg r with ⟨label, past, here⟩ | ⟨goal, here, few⟩ | root | stuck
    · rw [laps_again (readLap_label here)] at read
      obtain ⟨labels, jumps, past', rest, few, rfl, rfl⟩ :=
        ih (r := { r with pos := past, name := addLabel r.name label }) within read
      exact ⟨label :: labels, jumps, past', .label here rest, few, rfl, rfl⟩
    · rw [laps_again (readLap_pointer here few)] at read
      obtain ⟨labels, jumps, past', rest, few', rfl, rfl⟩ := ih few read
      refine ⟨labels, jumps + 1, r.pos + 2, .pointer here rest, by dsimp only at few'; omega, rfl, ?_⟩
      cases r.endAfter <;> rfl
    · rw [laps_done (readLap_root root)] at read
      cases read
      exact ⟨[], 0, r.pos + 1, .root root, within, rfl, rfl⟩
    · rw [laps_done stuck] at read
      cases read

/-- The reader finds the names of a message that take no more than 16 pointers. -/
theorem readName_eq_some_iff {msg : List UInt8} {pos last : Nat} {name : List Char} :
    readName msg pos = some (name, last) ↔
      ∃ labels jumps, NameAt msg pos labels jumps last ∧ jumps ≤ maxJumps ∧ name = labels.foldl addLabel [] := by
  constructor
  · intro read
    have stopped := @laps_readLap msg pos _ (Nat.le_refl _)
    rw [read] at stopped
    obtain ⟨labels, jumps, past, here, few, named, rfl⟩ := nameAt_of_laps (Nat.zero_le _) stopped
    exact ⟨labels, jumps, here, by simpa using few, named⟩
  · rintro ⟨labels, jumps, here, few, rfl⟩
    obtain ⟨n, read⟩ := here.laps_eq (r := { pos }) rfl (by simpa using few)
    have longer := laps_mono read (Nat.le_max_left n (maxLaps msg))
    rw [laps_readLap (Nat.le_max_right n (maxLaps msg))] at longer
    exact Option.some.inj longer

end Echo.Dns
