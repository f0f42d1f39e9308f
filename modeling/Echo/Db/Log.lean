import Echo.Db.Apply

/-!
The append-only event log (`mod.rs`, `EventLog`): `open'` absorbs the entries of
a file, `append` stamps and commits a locally authored event, `ingest` accepts
an entry of another node, `missingFor` offers a peer what it lacks and `compact`
rewrites the log to a snapshot under a new epoch.

A log's `faults` are the outcomes its next writes to the file will have, oldest
first; where they run out, writes succeed. Epochs, sequence numbers and the
Lamport clock are naturals: the source's `u64` saturates only past `2 ^ 64`
entries or compactions.
-/

namespace Echo

open Echo.Lib

/-- A position in one origin's history: compaction epoch, then sequence number. -/
abbrev Cursor := Nat × Nat

/-- A version vector: the cursor reached for each origin. -/
abbrev Versions := Table Cursor

/-- Is `incoming` strictly newer than `have'`? The epoch dominates. -/
def cursorNewer (have' incoming : Cursor) : Bool :=
  decide (incoming.1 > have'.1 ∨ incoming.1 = have'.1 ∧ incoming.2 > have'.2)

/-- What a signature covers: everything that fixes an entry's identity and
content. -/
structure Signed where
  origin : String
  epoch : Nat
  seq : Nat
  lamport : Nat
  event : Event
  deriving DecidableEq

/-- A node's signing configuration (`sign.rs`). The Ed25519 primitives are the
parameters: `signer` signs with the node's own key, and `trust` holds, for each
trusted origin, the check against that origin's public key. -/
structure Signing where
  signer : Signed → String
  trust : String → Option (Signed → String → Bool)

def Signing.sign (s : Signing) (content : Signed) : String := s.signer content

/-- False if the origin is not trusted, the signature is missing or it does not
verify. -/
def Signing.verify (s : Signing) (content : Signed) (sig : Option String) : Bool :=
  match s.trust content.origin with
  | none => false
  | some vk =>
      match sig with
      | none => false
      | some sig => vk content sig

/-- One durable record: an event, who authored it and where it stands in its
author's history. -/
structure LogEntry where
  origin : String
  seq : Nat
  lamport : Nat
  epoch : Nat
  sig : Option String
  event : Event
  deriving DecidableEq

def LogEntry.cursor (e : LogEntry) : Cursor := (e.epoch, e.seq)

/-- A Global entry, the only kind that carries a gossip identity. -/
def LogEntry.isGlobal (e : LogEntry) : Bool := e.event.isGlobal

def LogEntry.content (e : LogEntry) : Signed :=
  ⟨e.origin, e.epoch, e.seq, e.lamport, e.event⟩

/-- Why a write was refused. -/
inductive IoError where
  | permissionDenied
  | io
  deriving DecidableEq, Repr

structure EventLog where
  origin : String
  lamport : Nat := 0
  epoch : Nat := 0
  versions : Versions := ∅
  entries : List LogEntry := []
  /-- The entries pushed to subscribers so far, once a channel is wired. -/
  outbound : Option (List LogEntry) := none
  readonly : Bool := false
  signing : Option Signing := none
  faults : List Bool := []

namespace EventLog

/-- Roll the clock and the version vector forward over an entry. Any entry of
our own recovers the epoch; only a Global one carries a cursor. -/
def absorb (log : EventLog) (entry : LogEntry) : EventLog :=
  let log := if entry.origin = log.origin then { log with epoch := max log.epoch entry.epoch }
    else log
  if entry.event.scope ≠ .global then log
  else
    { log with
      lamport := max log.lamport entry.lamport
      versions := log.versions.alter entry.origin fun
        | some c => some (if cursorNewer c entry.cursor then entry.cursor else c)
        | none => some entry.cursor }

/-- Open a log over the entries its file holds. -/
def open' (origin : String) (file : List LogEntry) : EventLog :=
  file.foldl (fun log e => { log.absorb e with entries := log.entries ++ [e] }) { origin }

/-- The sequence number of the next locally authored Global event. -/
def nextSeq (log : EventLog) : Nat :=
  match log.versions[log.origin]? with
  | some (e, s) => if e = log.epoch then s + 1 else 0
  | none => 0

/-- Push a committed entry to the subscribers, if any. -/
def notify (log : EventLog) (entry : LogEntry) : EventLog :=
  { log with outbound := log.outbound.map (· ++ [entry]) }

/-- Write one record: the next fault decides. -/
def persist (log : EventLog) : EventLog × Except IoError Unit :=
  ({ log with faults := log.faults.tail },
    if log.faults.headD false then .error .io else .ok ())

/-- The entry a locally authored event is committed as, and the clock after it. -/
def stamp (log : EventLog) (event : Event) : EventLog × LogEntry :=
  if event.scope = .global then
    let lamport := log.lamport + 1
    let seq := log.nextSeq
    let sig := log.signing.map fun s => s.sign ⟨log.origin, log.epoch, seq, lamport, event⟩
    ({ log with lamport }, ⟨log.origin, seq, lamport, log.epoch, sig, event⟩)
  else (log, ⟨log.origin, 0, 0, 0, none, event⟩)

/-- Commit an entry that has been written. -/
def commitEntry (log : EventLog) (entry : LogEntry) : EventLog :=
  let log := log.notify entry
  { log with entries := log.entries ++ [entry] }

/-- Persist a locally authored event. -/
def append (log : EventLog) (event : Event) : EventLog × Except IoError Unit :=
  if log.readonly then (log, .error .permissionDenied)
  else
    let (log, entry) := log.stamp event
    match log.persist with
    | (log, .error e) => (log, .error e)
    | (log, .ok ()) =>
        let log := if event.scope = .global then
            { log with versions := log.versions.insert entry.origin entry.cursor }
          else log
        (log.commitEntry entry, .ok ())

/-! ### What an append does -/

/-- The entry an append of this event writes. -/
def stamped (log : EventLog) (event : Event) : LogEntry := (log.stamp event).2

@[simp] theorem stamped_event (log : EventLog) (event : Event) :
    (log.stamped event).event = event := by
  unfold stamped stamp
  split <;> rfl

@[simp] theorem stamped_origin (log : EventLog) (event : Event) :
    (log.stamped event).origin = log.origin := by
  unfold stamped stamp
  split <;> rfl

/-- Only a Global event carries a cursor. -/
theorem stamped_cursor {log : EventLog} {event : Event} (global : event.scope = .global) :
    (log.stamped event).cursor = (log.epoch, log.nextSeq) := by
  unfold stamped stamp
  rw [if_pos global]
  rfl

/-- The clock and the faults left after an attempt to write an event. -/
def attempted (log : EventLog) (event : Event) : EventLog :=
  { log with
    lamport := if event.scope = .global then log.lamport + 1 else log.lamport
    faults := log.faults.tail }

/-- The log after an event has been written. -/
def committed (log : EventLog) (event : Event) : EventLog :=
  { log.attempted event with
    versions :=
      if event.scope = .global then log.versions.insert log.origin (log.epoch, log.nextSeq)
      else log.versions
    outbound := log.outbound.map (· ++ [log.stamped event])
    entries := log.entries ++ [log.stamped event] }

/-- Whether the next append will succeed. -/
def writable (log : EventLog) : Bool := !log.readonly && !log.faults.headD false

/-- Whether the next `n` appends will succeed. -/
def writableFor (log : EventLog) (n : Nat) : Bool :=
  !log.readonly && (log.faults.take n).all (!·)

/-- A writable log takes the event; any other keeps its entries and cursors. -/
theorem append_eq (log : EventLog) (event : Event) :
    log.append event =
      if log.writable then (log.committed event, .ok ())
      else if log.readonly then (log, .error .permissionDenied)
      else (log.attempted event, .error .io) := by
  unfold append writable committed attempted stamped persist
  by_cases ro : log.readonly = true
  · simp [ro]
  · rcases faults : log.faults with _ | ⟨_ | _, rest⟩ <;>
      by_cases global : event.scope = .global <;>
        simp [stamp, commitEntry, notify, ro, faults, global, LogEntry.cursor]

theorem append_of_writable {log : EventLog} (h : log.writable = true) (event : Event) :
    log.append event = (log.committed event, .ok ()) := by
  rw [append_eq, if_pos h]

theorem append_of_not_writable {log : EventLog} (h : log.writable = false) (event : Event) :
    ∃ e log', log.append event = (log', .error e) ∧ log'.entries = log.entries := by
  rw [append_eq, if_neg (by simp [h])]
  by_cases ro : log.readonly = true
  · exact ⟨.permissionDenied, log, by rw [if_pos ro], rfl⟩
  · exact ⟨.io, log.attempted event, by rw [if_neg ro], rfl⟩

theorem append_ok {log log' : EventLog} {event : Event} (h : log.append event = (log', .ok ())) :
    log' = log.committed event := by
  rw [append_eq] at h
  split at h
  · exact (congrArg Prod.fst h).symm
  · split at h
    · exact absurd (congrArg Prod.snd h) (by simp)
    · exact absurd (congrArg Prod.snd h) (by simp)

theorem append_error {log log' : EventLog} {event : Event} {e : IoError}
    (h : log.append event = (log', .error e)) : log' = log ∨ log' = log.attempted event := by
  rw [append_eq] at h
  split at h
  · exact absurd (congrArg Prod.snd h) (by simp)
  · split at h
    · exact .inl (congrArg Prod.fst h).symm
    · exact .inr (congrArg Prod.fst h).symm

theorem writableFor_succ {log : EventLog} {n : Nat} (event : Event) :
    log.writableFor (n + 1) = true ↔
      log.writable = true ∧ (log.committed event).writableFor n = true := by
  unfold writableFor writable committed attempted
  rcases log.faults with _ | ⟨_ | _, rest⟩ <;> cases log.readonly <;> simp

/-! ### Ingest and what a peer lacks -/

/-- Whether a cursor may follow the one held for its origin: the next sequence
number of the epoch, or the start of a later epoch. -/
def follows (held : Option Cursor) (next : Cursor) : Bool :=
  match held with
  | none => next.2 == 0
  | some (e, s) =>
      if next.1 = e then next.2 == s + 1
      else if next.1 > e then next.2 == 0
      else false

/-- Ingest an entry authored by another node: the event to fold, or none if the
entry was not accepted. -/
def ingest (log : EventLog) (entry : LogEntry) : EventLog × Except IoError (Option Event) :=
  if entry.event.scope ≠ .global then (log, .ok none)
  else if log.signing.any fun s => !s.verify entry.content entry.sig then (log, .ok none)
  else if !follows log.versions[entry.origin]? entry.cursor then (log, .ok none)
  else
    match log.persist with
    | (log, .error e) => (log, .error e)
    | (log, .ok ()) =>
        let log := { log with
          lamport := max log.lamport entry.lamport + 1
          versions := log.versions.insert entry.origin entry.cursor }
        (log.commitEntry entry, .ok (some entry.event))

/-- Whether an entry passes the checks of an ingest. -/
def acceptable (log : EventLog) (entry : LogEntry) : Bool :=
  entry.isGlobal && log.signing.all (·.verify entry.content entry.sig) &&
    follows log.versions[entry.origin]? entry.cursor

/-- The log after an entry of another node has been written. -/
def accepted (log : EventLog) (entry : LogEntry) : EventLog :=
  { log with
    lamport := max log.lamport entry.lamport + 1
    versions := log.versions.insert entry.origin entry.cursor
    outbound := log.outbound.map (· ++ [entry])
    entries := log.entries ++ [entry]
    faults := log.faults.tail }

/-- An entry that fails a check, or that the file refuses, leaves the log's
entries and cursors alone. -/
theorem ingest_eq (log : EventLog) (entry : LogEntry) :
    log.ingest entry =
      if log.acceptable entry then
        if log.faults.headD false then ({ log with faults := log.faults.tail }, .error .io)
        else (log.accepted entry, .ok (some entry.event))
      else (log, .ok none) := by
  unfold ingest acceptable accepted persist
  by_cases global : entry.event.scope = .global
  · have isGlobal : entry.isGlobal = true := Event.isGlobal_iff.mpr global
    rw [if_neg (not_not.mpr global), isGlobal, Bool.true_and]
    cases signed : log.signing.all (·.verify entry.content entry.sig) with
    | false =>
        have unsigned : log.signing.any (fun s => !s.verify entry.content entry.sig) = true := by
          cases h : log.signing <;> simp_all
        rw [if_pos unsigned]
        rfl
    | true =>
        have notUnsigned : ¬ log.signing.any (fun s => !s.verify entry.content entry.sig) = true := by
          cases h : log.signing <;> simp_all
        rw [if_neg notUnsigned]
        cases follows log.versions[entry.origin]? entry.cursor with
        | false => rfl
        | true => cases faults : log.faults.headD false <;> simp [commitEntry, notify]
  · have notGlobal : entry.isGlobal = false :=
      Bool.eq_false_iff.mpr fun h => global (Event.isGlobal_iff.mp h)
    rw [if_pos global, notGlobal]
    rfl

/-- The Global entries a peer lacks, given the version vector it sent. -/
def missingFor (log : EventLog) (peer : Versions) : List LogEntry :=
  (log.entries.filter fun e => e.event.scope == .global).filter fun e =>
    match peer[e.origin]? with
    | none => true
    | some h => cursorNewer h e.cursor

/-- What a compaction has written so far. -/
structure Rewrite where
  lamport : Nat
  seq : Nat := 0
  lastGlobal : Option Nat := none
  snapshot : List LogEntry := []

/-- Write one snapshot event. Global events take the next sequence number of the
new epoch; Local ones carry the epoch alone, so that a restart recovers it. -/
def rewriteOne (log : EventLog) (epoch : Nat) (w : Rewrite) (event : Event) : Rewrite :=
  if event.scope = .global then
    let lamport := w.lamport + 1
    let sig := log.signing.map fun s => s.sign ⟨log.origin, epoch, w.seq, lamport, event⟩
    { lamport
      seq := w.seq + 1
      lastGlobal := some w.seq
      snapshot := w.snapshot ++ [⟨log.origin, w.seq, lamport, epoch, sig, event⟩] }
  else
    { w with snapshot := w.snapshot ++ [⟨log.origin, 0, 0, epoch, none, event⟩] }

/-- Rewrite the log to a snapshot under the next epoch. An empty snapshot leaves
the log alone; a failed write leaves the file, with the epoch and clock moved. -/
def compact (log : EventLog) (events : List Event) : EventLog × Except IoError Unit :=
  if events.isEmpty then (log, .ok ())
  else
    let epoch := log.epoch + 1
    let w := events.foldl (log.rewriteOne epoch) { lamport := log.lamport }
    let log := { log with epoch, lamport := w.lamport }
    match log.persist with
    | (log, .error e) => (log, .error e)
    | (log, .ok ()) =>
        ({ log with
            versions := match w.lastGlobal with
              | some last => (∅ : Versions).insert log.origin (epoch, last)
              | none => ∅
            entries := w.snapshot }, .ok ())

/-- What a compaction to these events writes. -/
def rewritten (log : EventLog) (events : List Event) : Rewrite :=
  events.foldl (log.rewriteOne (log.epoch + 1)) { lamport := log.lamport }

/-- A compaction is skipped, refused or done. -/
theorem compact_eq (log : EventLog) (events : List Event) :
    log.compact events =
      if events = [] then (log, .ok ())
      else
        let w := log.rewritten events
        let moved := { log with
          epoch := log.epoch + 1, lamport := w.lamport, faults := log.faults.tail }
        if log.faults.headD false then (moved, .error .io)
        else
          ({ moved with
              versions := match w.lastGlobal with
                | some last => (∅ : Versions).insert log.origin (log.epoch + 1, last)
                | none => ∅
              entries := w.snapshot }, .ok ()) := by
  unfold compact persist rewritten
  cases events with
  | nil => rfl
  | cons e events =>
      rw [if_neg (by simp), if_neg (by simp)]
      dsimp only
      cases log.faults.headD false <;> rfl

end EventLog

/-- The events of some entries, in order. -/
def eventsOf (entries : List LogEntry) : List Event := entries.map LogEntry.event

theorem eventsOf_append (entries entries' : List LogEntry) :
    eventsOf (entries ++ entries') = eventsOf entries ++ eventsOf entries' := List.map_append

namespace EventLog

/-- A rewrite holds the events it was given, in order. -/
theorem eventsOf_rewrite (log : EventLog) (epoch : Nat) (events : List Event) (w : Rewrite) :
    eventsOf (events.foldl (log.rewriteOne epoch) w).snapshot = eventsOf w.snapshot ++ events := by
  induction events generalizing w with
  | nil => exact (List.append_nil _).symm
  | cons e events ih =>
      have first : eventsOf (log.rewriteOne epoch w e).snapshot = eventsOf w.snapshot ++ [e] := by
        unfold rewriteOne
        split <;> simp [eventsOf]
      rw [List.foldl_cons, ih, first, List.append_assoc, List.singleton_append]

theorem eventsOf_rewritten (log : EventLog) (events : List Event) :
    eventsOf (log.rewritten events).snapshot = events :=
  log.eventsOf_rewrite (log.epoch + 1) events { lamport := log.lamport }

/-- Whether a compaction to these events replaces the file. -/
def rewrites (log : EventLog) (events : List Event) : Bool :=
  !events.isEmpty && !log.faults.headD false

theorem eventsOf_compact (log : EventLog) (events : List Event) :
    eventsOf (log.compact events).1.entries =
      if log.rewrites events then events else eventsOf log.entries := by
  rw [compact_eq]
  unfold rewrites
  cases events with
  | nil => rfl
  | cons e events =>
      rw [if_neg (List.cons_ne_nil e events)]
      dsimp only
      cases log.faults.headD false with
      | true => rfl
      | false => exact log.eventsOf_rewritten (e :: events)

end EventLog

/-- The state replay rebuilds from a log's entries. -/
def replay (entries : List LogEntry) : Store := fold {} (eventsOf entries)

end Echo
