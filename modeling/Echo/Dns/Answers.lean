import Echo.Dns.Names
import Echo.Engine.Addresses

/-!
The answers of a DNS message (`answer_rdatas`, `parse_mx`, `parse_a` and `parse_aaaa` in
`dns.rs`), for every message. Where the source indexes the message it would panic outside
of it; here that is an error, and none comes up. What is returned of a message are records
that lie in it: the name of the owner, ten bytes behind that, and the data.
-/

namespace Echo.Dns

open Echo.Lib

def qtypeA : Nat := 1
def qtypeAaaa : Nat := 28
def qtypeMx : Nat := 15

/-- An index, or the end of a range, out of bounds. -/
inductive Panic where
  | outOfBounds
  deriving DecidableEq, Repr

/-- `msg[i]` -/
def index (msg : List UInt8) (i : Nat) : Except Panic UInt8 :=
  match msg[i]? with
  | none => .error .outOfBounds
  | some b => .ok b

/-- A number of bytes, the most significant first. -/
def fromBeBytes (bytes : List UInt8) : Nat := bytes.foldl (fun n b => n * 256 + b.toNat) 0

/-- `u16::from_be_bytes([msg[i], msg[i + 1]])` -/
def u16 (msg : List UInt8) (i : Nat) : Except Panic Nat := do
  pure (fromBeBytes [← index msg i, ← index msg (i + 1)])

/-- `&msg[first..last]` -/
def slice (msg : List UInt8) (first last : Nat) : Except Panic (List UInt8) :=
  match range msg first last with
  | none => .error .outOfBounds
  | some bytes => .ok bytes

def skipName (msg : List UInt8) (pos : Nat) : Option Nat := (readName msg pos).map (·.2)

/-- Behind so many questions. -/
def skipQuestions (msg : List UInt8) : Nat → Nat → Option Nat
  | 0, pos => some pos
  | n + 1, pos => do
    let p ← skipName msg pos
    -- qtype and qclass
    skipQuestions msg n (p + 4)

/-- Of so many records, the data of those that are wanted, up to one that is malformed. -/
def walk (msg : List UInt8) (want : Nat) : Nat → Nat → Except Panic (List (Nat × Nat))
  | 0, _ => .ok []
  | n + 1, pos =>
    match skipName msg pos with
    | none => .ok []
    | some pos =>
      if msg.length < pos + 10 then .ok []
      else do
        let rtype ← u16 msg pos
        let rdlen ← u16 msg (pos + 8)
        let rdata := pos + 10
        if msg.length < rdata + rdlen then pure []
        else
          let rest ← walk msg want n (rdata + rdlen)
          pure (if rtype = want then (rdata, rdlen) :: rest else rest)

/-- The start and the length of the data of each answer of a type. -/
def answerRdatas (msg : List UInt8) (want : Nat) : Except Panic (List (Nat × Nat)) :=
  if msg.length < 12 then .ok []
  else do
    let qd ← u16 msg 4
    let an ← u16 msg 6
    match skipQuestions msg qd 12 with
    | none => pure []
    | some pos => walk msg want an pos

/-- What each of some records is read as, if anything. -/
def collect {α β : Type} (read : α → Except Panic (Option β)) : List α → Except Panic (List β)
  | [] => .ok []
  | a :: as => do
    let found ← read a
    let rest ← collect read as
    pure (found.toList ++ rest)

structure Mx where
  preference : Nat
  exchange : List Char
  deriving DecidableEq, Repr

def readMx (msg : List UInt8) (rr : Nat × Nat) : Except Panic (Option Mx) :=
  if rr.2 < 3 then .ok none
  else do
    let preference ← u16 msg rr.1
    match readName msg (rr.1 + 2) with
    | none => pure none
    | some (exchange, _) => pure (if exchange.isEmpty then none else some { preference, exchange })

def parseMx (msg : List UInt8) : Except Panic (List Mx) := do
  collect (readMx msg) (← answerRdatas msg qtypeMx)

def readA (msg : List UInt8) (rr : Nat × Nat) : Except Panic (Option IpAddr) :=
  if rr.2 = 4 then do
    let octets := [← index msg rr.1, ← index msg (rr.1 + 1), ← index msg (rr.1 + 2), ← index msg (rr.1 + 3)]
    pure (some (.v4 (BitVec.ofNat 32 (fromBeBytes octets))))
  else .ok none

def parseA (msg : List UInt8) : Except Panic (List IpAddr) := do
  collect (readA msg) (← answerRdatas msg qtypeA)

def readAaaa (msg : List UInt8) (rr : Nat × Nat) : Except Panic (Option IpAddr) :=
  if rr.2 = 16 then do
    let o ← slice msg rr.1 (rr.1 + 16)
    pure (some (.v6 (BitVec.ofNat 128 (fromBeBytes o))))
  else .ok none

def parseAaaa (msg : List UInt8) : Except Panic (List IpAddr) := do
  collect (readAaaa msg) (← answerRdatas msg qtypeAaaa)

/-! ### What lies in a message -/

/-- A number of two bytes stands at a position. -/
def U16At (msg : List UInt8) (i n : Nat) : Prop :=
  ∃ a b, msg[i]? = some a ∧ msg[i + 1]? = some b ∧ n = fromBeBytes [a, b]

/-- A record of a type, with its data from `rr.1` on over `rr.2` bytes: its name, its header and
its data lie in the message. -/
structure RecordAt (msg : List UInt8) (want : Nat) (rr : Nat × Nat) : Prop where
  owner : ∃ pos past labels jumps, NameAt msg pos labels jumps past ∧ rr.1 = past + 10 ∧
    U16At msg past want ∧ U16At msg (past + 8) rr.2
  data : rr.1 + rr.2 ≤ msg.length

section Safe

variable {msg : List UInt8}

theorem index_ok (msg : List UInt8) {i : Nat} (inside : i < msg.length) : ∃ b, index msg i = .ok b ∧ msg[i]? = some b :=
  ⟨msg[i], by simp [index, inside], by simp [inside]⟩

theorem u16_ok (msg : List UInt8) {i : Nat} (inside : i + 1 < msg.length) : ∃ n, u16 msg i = .ok n ∧ U16At msg i n := by
  obtain ⟨a, first, here⟩ := index_ok msg (Nat.lt_of_succ_lt inside)
  obtain ⟨b, second, there⟩ := index_ok msg inside
  refine ⟨fromBeBytes [a, b], ?_, a, b, here, there, rfl⟩
  simp [u16, first, second, pure, Except.pure, bind, Except.bind]

theorem skipName_eq_some {pos past : Nat} (skipped : skipName msg pos = some past) :
    ∃ labels jumps, NameAt msg pos labels jumps past := by
  obtain ⟨⟨name, last⟩, read, rfl⟩ := Option.map_eq_some_iff.mp skipped
  obtain ⟨labels, jumps, here, -⟩ := readName_eq_some_iff.mp read
  exact ⟨labels, jumps, here⟩

/-- The walk indexes nothing outside the message, and what it finds lies in it. -/
theorem walk_ok (msg : List UInt8) (want n pos : Nat) :
    ∃ out, walk msg want n pos = .ok out ∧ ∀ rr ∈ out, RecordAt msg want rr := by
  induction n generalizing pos with
  | zero => exact ⟨[], rfl, by simp⟩
  | succ n ih =>
    cases skipped : skipName msg pos with
    | none => exact ⟨[], by simp [walk, skipped], by simp⟩
    | some past =>
      by_cases short : msg.length < past + 10
      · exact ⟨[], by simp [walk, skipped, short], by simp⟩
      · obtain ⟨rtype, type, typeAt⟩ := u16_ok msg (i := past) (by omega)
        obtain ⟨rdlen, length, lengthAt⟩ := u16_ok msg (i := past + 8) (by omega)
        by_cases beyond : msg.length < past + 10 + rdlen
        · exact ⟨[], by simp [walk, skipped, short, type, length, beyond, bind, Except.bind, pure, Except.pure], by simp⟩
        · obtain ⟨rest, walked, lie⟩ := ih (past + 10 + rdlen)
          refine ⟨if rtype = want then (past + 10, rdlen) :: rest else rest, ?_, ?_⟩
          · simp [walk, skipped, short, type, length, beyond, walked, bind, Except.bind, pure, Except.pure]
          · obtain ⟨labels, jumps, owner⟩ := skipName_eq_some skipped
            intro rr mem
            split_ifs at mem with wanted
            · rcases List.mem_cons.mp mem with rfl | mem
              · exact ⟨⟨pos, past, labels, jumps, owner, rfl, wanted ▸ typeAt, lengthAt⟩, Nat.not_lt.mp beyond⟩
              · exact lie rr mem
            · exact lie rr mem

theorem answerRdatas_ok (msg : List UInt8) (want : Nat) :
    ∃ out, answerRdatas msg want = .ok out ∧ ∀ rr ∈ out, RecordAt msg want rr := by
  by_cases short : msg.length < 12
  · exact ⟨[], by simp [answerRdatas, short], by simp⟩
  · obtain ⟨qd, questions, -⟩ := u16_ok msg (i := 4) (by omega)
    obtain ⟨an, answers, -⟩ := u16_ok msg (i := 6) (by omega)
    cases skipped : skipQuestions msg qd 12 with
    | none =>
      refine ⟨[], ?_, by simp⟩
      simp [answerRdatas, short, questions, answers, skipped, bind, Except.bind, pure, Except.pure]
    | some pos =>
      obtain ⟨out, walked, lie⟩ := walk_ok msg want an pos
      refine ⟨out, ?_, lie⟩
      simp [answerRdatas, short, questions, answers, skipped, walked, bind, Except.bind]

theorem collect_ok {α β : Type} {read : α → Except Panic (Option β)} {P : α → Prop} {Q : β → Prop}
    (each : ∀ a, P a → ∃ found, read a = .ok found ∧ ∀ b ∈ found, Q b) {as : List α} (all : ∀ a ∈ as, P a) :
    ∃ out, collect read as = .ok out ∧ ∀ b ∈ out, Q b := by
  induction as with
  | nil => exact ⟨[], rfl, by simp⟩
  | cons a as ih =>
    obtain ⟨found, first, holds⟩ := each a (all a List.mem_cons_self)
    obtain ⟨rest, later, hold⟩ := ih fun b mem => all b (List.mem_cons_of_mem a mem)
    refine ⟨found.toList ++ rest, by simp [collect, first, later, bind, Except.bind, pure, Except.pure], ?_⟩
    intro b mem
    rcases List.mem_append.mp mem with here | there
    · exact holds b (by simpa using here)
    · exact hold b there

/-- An exchange is read from a record of its own. -/
def MxOf (msg : List UInt8) (mx : Mx) : Prop :=
  ∃ rr, RecordAt msg qtypeMx rr ∧ 3 ≤ rr.2 ∧ U16At msg rr.1 mx.preference ∧
    ∃ labels jumps past, NameAt msg (rr.1 + 2) labels jumps past ∧ mx.exchange = labels.foldl addLabel []

theorem readMx_ok {rr : Nat × Nat} (here : RecordAt msg qtypeMx rr) :
    ∃ found, readMx msg rr = .ok found ∧ ∀ mx ∈ found, MxOf msg mx := by
  have inside := here.data
  by_cases short : rr.2 < 3
  · exact ⟨none, by simp [readMx, short], by simp⟩
  · obtain ⟨preference, read, preferred⟩ := u16_ok msg (i := rr.1) (by omega)
    cases named : readName msg (rr.1 + 2) with
    | none =>
      refine ⟨none, ?_, by simp⟩
      simp [readMx, short, read, named, bind, Except.bind, pure, Except.pure]
    | some name =>
      obtain ⟨exchange, last⟩ := name
      refine ⟨if exchange.isEmpty then none else some { preference, exchange }, ?_, ?_⟩
      · simp [readMx, short, read, named, bind, Except.bind, pure, Except.pure]
      · intro mx mem
        obtain ⟨-, rfl⟩ : ¬ exchange.isEmpty ∧ { preference, exchange } = mx := by simpa using mem
        obtain ⟨labels, jumps, there, -, spelt⟩ := readName_eq_some_iff.mp named
        exact ⟨rr, here, Nat.not_lt.mp short, preferred, labels, jumps, last, there, spelt⟩

/-- An address of so many bytes is read from a record of its own. -/
def AddressOf (msg : List UInt8) (want width : Nat) (address : Nat → IpAddr) (ip : IpAddr) : Prop :=
  ∃ rr, RecordAt msg want rr ∧ rr.2 = width ∧ ∃ bytes, range msg rr.1 (rr.1 + width) = some bytes ∧
    ip = address (fromBeBytes bytes)

theorem range_ok (msg : List UInt8) {first last : Nat} (ordered : first ≤ last) (inside : last ≤ msg.length) :
    range msg first last = some ((msg.take last).drop first) := if_pos ⟨ordered, inside⟩

theorem drop_of_getElem? {i : Nat} {b : UInt8} (found : msg[i]? = some b) : msg.drop i = b :: msg.drop (i + 1) := by
  obtain ⟨inside, rfl⟩ := List.getElem?_eq_some_iff.mp found
  exact List.drop_eq_getElem_cons inside

theorem readA_ok {rr : Nat × Nat} (here : RecordAt msg qtypeA rr) :
    ∃ found, readA msg rr = .ok found ∧ ∀ ip ∈ found, AddressOf msg qtypeA 4 (fun n => .v4 (BitVec.ofNat 32 n)) ip := by
  have inside := here.data
  by_cases four : rr.2 = 4
  · obtain ⟨a, ra, ha⟩ := index_ok msg (i := rr.1) (by omega)
    obtain ⟨b, rb, hb⟩ := index_ok msg (i := rr.1 + 1) (by omega)
    obtain ⟨c, rc, hc⟩ := index_ok msg (i := rr.1 + 2) (by omega)
    obtain ⟨d, rd, hd⟩ := index_ok msg (i := rr.1 + 3) (by omega)
    refine ⟨some (.v4 (BitVec.ofNat 32 (fromBeBytes [a, b, c, d]))), ?_, ?_⟩
    · simp [readA, four, ra, rb, rc, rd, bind, Except.bind, pure, Except.pure]
    · rintro ip ⟨⟩
      refine ⟨rr, here, four, [a, b, c, d], ?_, rfl⟩
      rw [range_ok msg (by omega) (by omega), List.drop_take, Nat.add_sub_cancel_left, drop_of_getElem? ha,
        drop_of_getElem? hb, drop_of_getElem? hc, drop_of_getElem? hd]
      rfl
  · exact ⟨none, by simp [readA, four], by simp⟩

theorem readAaaa_ok {rr : Nat × Nat} (here : RecordAt msg qtypeAaaa rr) :
    ∃ found, readAaaa msg rr = .ok found ∧
      ∀ ip ∈ found, AddressOf msg qtypeAaaa 16 (fun n => .v6 (BitVec.ofNat 128 n)) ip := by
  have inside := here.data
  by_cases sixteen : rr.2 = 16
  · have held := range_ok msg (Nat.le_add_right rr.1 16) (by omega)
    refine ⟨some (.v6 (BitVec.ofNat 128 (fromBeBytes ((msg.take (rr.1 + 16)).drop rr.1)))), ?_, ?_⟩
    · simp [readAaaa, sixteen, slice, held, bind, Except.bind, pure, Except.pure]
    · rintro ip ⟨⟩
      exact ⟨rr, here, sixteen, _, held, rfl⟩
  · exact ⟨none, by simp [readAaaa, sixteen], by simp⟩

end Safe

/-- Whatever a message is, reading a name in it stops, no index is outside of it, and what is
returned of it lies in it. -/
theorem answers_safe (msg : List UInt8) :
    (∀ pos, ∃ result, ∀ n, 17 * (msg.length + 1) ≤ n → laps (readLap msg) n { pos } = some result) ∧
      (∀ want, ∃ out, answerRdatas msg want = .ok out ∧ ∀ rr ∈ out, RecordAt msg want rr) ∧
      (∃ out, parseMx msg = .ok out ∧ ∀ mx ∈ out, MxOf msg mx) ∧
      (∃ out, parseA msg = .ok out ∧ ∀ ip ∈ out, AddressOf msg qtypeA 4 (fun n => .v4 (BitVec.ofNat 32 n)) ip) ∧
      ∃ out, parseAaaa msg = .ok out ∧
        ∀ ip ∈ out, AddressOf msg qtypeAaaa 16 (fun n => .v6 (BitVec.ofNat 128 n)) ip := by
  refine ⟨fun pos => ⟨readName msg pos, fun n enough => laps_readLap enough⟩, answerRdatas_ok msg, ?_, ?_, ?_⟩
  · obtain ⟨rrs, found, lie⟩ := answerRdatas_ok msg qtypeMx
    obtain ⟨out, read, hold⟩ := collect_ok (fun rr here => readMx_ok here) lie
    exact ⟨out, by simp [parseMx, found, read, bind, Except.bind], hold⟩
  · obtain ⟨rrs, found, lie⟩ := answerRdatas_ok msg qtypeA
    obtain ⟨out, read, hold⟩ := collect_ok (fun rr here => readA_ok here) lie
    exact ⟨out, by simp [parseA, found, read, bind, Except.bind], hold⟩
  · obtain ⟨rrs, found, lie⟩ := answerRdatas_ok msg qtypeAaaa
    obtain ⟨out, read, hold⟩ := collect_ok (fun rr here => readAaaa_ok here) lie
    exact ⟨out, by simp [parseAaaa, found, read, bind, Except.bind], hold⟩

end Echo.Dns
