import Echo.Db.File
import Echo.Db.Identity

/-!
Writes that fail part of the way (`EventLog::persist`): the file cannot be
opened, the record is cut short, or it is written and the sync fails. `append`
answers with the error and moves no cursor, whatever is in the file by then.

A file written so holds complete records, and lines made of the beginnings of
records with at most one whole record behind them. The reader takes the first and
skips the second, as long as no failed write leaves its whole text.
-/

namespace Echo

open Std (ExtTreeMap)
open Echo.Lib
open Echo.Lib.Brackets (Value Object Text Scan)

/-- How a `persist` comes out. -/
inductive Persist where
  | done
  | openFailed
  /-- `writeln!` fails with this many bytes of the record in the file. -/
  | writeFailed (kept : Nat)
  | syncFailed
  deriving DecidableEq

def Persist.failed : Persist → Bool
  | .done => false
  | _ => true

/-- What reaches the file of a record. -/
def Persist.left (record : List UInt8) : Persist → List UInt8
  | .done | .syncFailed => record
  | .openFailed => []
  | .writeFailed kept => record.take kept

/-- The log before a write that comes out so. -/
def EventLog.facing (log : EventLog) (outcome : Persist) : EventLog :=
  { log with faults := [outcome.failed] }

/-- An append whose write comes out so. -/
def Disk.append (serde : Serde) (disk : Disk) (event : Event) (outcome : Persist) :
    Disk × Except IoError Unit :=
  if disk.log.readonly then (disk, .error .permissionDenied)
  else
    let attempt := (disk.log.facing outcome).append event
    ({ log := attempt.1
       file := disk.file ++ outcome.left (record serde (disk.log.stamped event)) }, attempt.2)

/-- What happens to a node that only appends. -/
inductive WriteAction where
  | append (event : Event) (outcome : Persist)
  | reopen
  | wire (signing : Option Signing) (outbound : Option (List LogEntry))
  | lockdown (on : Bool)

/-- A disk with the entries whose append answered `Ok`, oldest first. -/
structure Journal where
  disk : Disk
  committed : List LogEntry := []

namespace Journal

def fresh (serde : Serde) (origin : String) : Journal := { disk := Disk.fresh serde origin }

def step (serde : Serde) (j : Journal) : WriteAction → Journal
  | .append event outcome =>
      match j.disk.append serde event outcome with
      | (disk, .ok ()) => { disk, committed := j.committed ++ [j.disk.log.stamped event] }
      | (disk, .error _) => { j with disk }
  | .reopen => { j with disk := Disk.reopen serde j.disk.log.origin j.disk.file }
  | .wire signing outbound =>
      { j with disk := { j.disk with log := { j.disk.log with signing, outbound } } }
  | .lockdown on => { j with disk := { j.disk with log := { j.disk.log with readonly := on } } }

/-- The entry an action writes is one the library prints faithfully. -/
def Prints (serde : Serde) (j : Journal) : WriteAction → Prop
  | .append event _ => serde.Faithful (j.disk.log.stamped event)
  | _ => True

/-- A write that fails leaves less than the record's text in the file. -/
def Partial (serde : Serde) (j : Journal) : WriteAction → Prop
  | .append event outcome =>
      let entry := j.disk.log.stamped event
      outcome.failed = true →
        (outcome.left (record serde entry)).length < (encode (serde.toString entry)).length
  | _ => True

end Journal

/-! ### Files of complete and torn records -/

/-- The file is not text, and nothing that starts a character mends it. -/
def Spoiled (file : List UInt8) : Prop := ∀ next, Startable next → ¬ IsUtf8 (file ++ next)

/-- The file is text: complete lines, which read as these entries, and behind them
a line that no value completes. -/
structure Layout (serde : Serde) (file : List UInt8) (entries : List LogEntry) : Prop where
  split : ∃ done pending, file = encode (done ++ pending) ∧
    (∀ rest, parseLines serde (done ++ rest) = entries ++ parseLines serde rest) ∧
    (∀ c ∈ pending, 32 ≤ c.toNat) ∧
    (pending = [] ∨ pending.head? = some '{' ∧ Scan.run (.outside 0) pending ≠ .outside 0)

/-- The entries a file written by appends holds. -/
def Holds (serde : Serde) (file : List UInt8) (entries : List LogEntry) : Prop :=
  Layout serde file entries ∨ Spoiled file ∧ entries = []

section Files

variable {serde : Serde} {file : List UInt8} {entries : List LogEntry} {e : LogEntry}

theorem holds_nil : Holds serde [] [] :=
  .inl ⟨[], [], rfl, fun _ => rfl, by simp, .inl rfl⟩

theorem not_blank_of_head {line : List Char} (head : line.head? = some '{') :
    line.all isWhitespace = false := by
  cases line with
  | nil => contradiction
  | cons c line => exact not_blank (.inl (Option.some.inj head))

/-- A line that has not closed does not parse. -/
theorem Serde.Strict.unread (strict : serde.Strict) {line : List Char}
    (unclosed : Scan.run (.outside 0) line ≠ .outside 0) : serde.fromStr line = none := by
  cases read : serde.fromStr line with
  | none => rfl
  | some e => exact absurd (strict line e read).closes unclosed

theorem Holds.reads (strict : serde.Strict) (h : Holds serde file entries) :
    readLog serde file = entries := by
  rcases h with ⟨done, pending, rfl, parsed, printable, dead⟩ | ⟨spoiled, rfl⟩
  · unfold readLog
    rw [decode_encode]
    dsimp only
    rw [parsed]
    rcases dead with rfl | ⟨head, unclosed⟩
    · exact List.append_nil entries
    · rw [parseLines_last printable (not_blank_of_head head), strict.unread unclosed]
      exact List.append_nil entries
  · have broken := spoiled [] startable_nil
    rw [List.append_nil] at broken
    unfold readLog
    rw [decode_eq_none broken]

theorem Serde.Faithful.text_head (faithful : serde.Faithful e) :
    ∃ rest, serde.toString e = '{' :: rest := by
  obtain ⟨c, rest, spelt, _⟩ := faithful.value.keyed
  exact ⟨_, spelt⟩

/-- Any part of a record starts a character. -/
theorem Serde.Faithful.startable (faithful : serde.Faithful e) {left lost : List UInt8}
    (cut : record serde e = left ++ lost) : Startable left := by
  obtain ⟨rest, spelt⟩ := faithful.text_head
  have bytes : record serde e = encode ('{' :: (rest ++ ['\n'])) := by
    unfold record recordText
    rw [spelt, List.cons_append]
  have starts : Startable (record serde e) := bytes ▸ startable_encode _
  intro byte mem
  refine starts byte ?_
  rw [cut]
  cases left with
  | nil => contradiction
  | cons b left => exact mem

theorem Spoiled.append (h : Spoiled file) {more : List UInt8} (starts : Startable more) :
    Spoiled (file ++ more) := by
  intro next nextStarts
  rw [List.append_assoc]
  refine h _ fun byte mem => ?_
  cases more with
  | nil => exact nextStarts byte mem
  | cons b more => exact starts byte mem

/-- A whole record ends the pending line: it is read if the line was empty, and
lost with it if not. -/
theorem Holds.record (strict : serde.Strict) (faithful : serde.Faithful e)
    (h : Holds serde file entries) :
    ∃ entries', Holds serde (file ++ record serde e) entries' ∧
      (entries' = entries ++ [e] ∨ entries' = entries) := by
  rcases h with ⟨done, pending, rfl, parsed, printable, dead⟩ | ⟨spoiled, rfl⟩
  · have bytes : encode (done ++ pending) ++ Echo.record serde e =
        encode ((done ++ (pending ++ serde.toString e ++ ['\n'])) ++ []) := by
      unfold Echo.record recordText
      rw [← encode_append]
      simp
    have plain : ∀ c ∈ pending ++ serde.toString e, 32 ≤ c.toNat := by
      intro c mem
      rcases List.mem_append.mp mem with mem | mem
      · exact printable c mem
      · exact faithful.printable c mem
    have next : ∀ rest, parseLines serde (done ++ (pending ++ serde.toString e ++ ['\n']) ++ rest) =
        entries ++ parseLines serde (pending ++ serde.toString e ++ '\n' :: rest) := by
      intro rest
      rw [List.append_assoc, parsed]
      simp
    rcases dead with rfl | ⟨head, unclosed⟩
    · refine ⟨entries ++ [e], .inl ⟨_, [], bytes, fun rest => ?_, by simp, .inl rfl⟩, .inl rfl⟩
      rw [next, List.nil_append, parseLines_newline faithful.printable faithful.not_blank,
        faithful.reads_back]
      simp
    · refine ⟨entries, .inl ⟨_, [], bytes, fun rest => ?_, by simp, .inl rfl⟩, .inr rfl⟩
      have line : (pending ++ serde.toString e).all isWhitespace = false := by
        refine not_blank_of_head ?_
        rw [List.head?_append, head]
        rfl
      have lost : serde.fromStr (pending ++ serde.toString e) = none := by
        refine strict.unread ?_
        rw [Scan.run_append]
        have object := faithful.value
        rw [← List.append_nil (serde.toString e)] at object
        exact object.run_front_ne unclosed
      rw [next, parseLines_newline plain line, lost]
      rfl
  · have starts : Startable (Echo.record serde e) :=
      faithful.startable (List.append_nil _).symm
    exact ⟨[], .inr ⟨spoiled.append starts, rfl⟩, .inr rfl⟩

/-- Less than a record's text leaves the pending line open, or the file no
text. -/
theorem Holds.torn (faithful : serde.Faithful e) {left lost : List UInt8}
    (cut : Echo.record serde e = left ++ lost)
    (less : left.length < (encode (serde.toString e)).length) (h : Holds serde file entries) :
    ∃ entries', Holds serde (file ++ left) entries' ∧ (entries' = entries ∨ entries' = []) := by
  have starts := faithful.startable cut
  rcases h with ⟨done, pending, rfl, parsed, printable, dead⟩ | ⟨spoiled, rfl⟩
  · by_cases text : IsUtf8 left
    · refine ⟨entries, .inl ?_, .inl rfl⟩
      obtain ⟨p, rfl⟩ := text
      obtain ⟨q, missing, spelt⟩ : ∃ q, q ≠ [] ∧ serde.toString e = p ++ q := by
        obtain ⟨rest, whole⟩ := prefix_of_encode cut.symm
        unfold recordText at whole
        rcases List.append_eq_append_iff.mp whole with ⟨q, here, _⟩ | ⟨q, here, _⟩
        · refine ⟨q, ?_, here⟩
          rintro rfl
          rw [List.append_nil] at here
          rw [here] at less
          exact Nat.lt_irrefl _ less
        · rw [here, encode_append, List.length_append] at less
          omega
      by_cases nothing : p = []
      · rw [nothing, encode_nil, List.append_nil]
        exact ⟨done, pending, rfl, parsed, printable, dead⟩
      · have object := faithful.value
        rw [spelt] at object
        refine ⟨done, pending ++ p, ?_, parsed, ?_, .inr ⟨?_, ?_⟩⟩
        · rw [← encode_append, List.append_assoc]
        · intro c mem
          rcases List.mem_append.mp mem with mem | mem
          · exact printable c mem
          · refine faithful.printable c ?_
            rw [spelt]
            exact List.mem_append_left q mem
        · rcases dead with rfl | ⟨head, _⟩
          · obtain ⟨rest, start⟩ := faithful.text_head
            rw [spelt] at start
            cases p with
            | nil => exact absurd rfl nothing
            | cons c p => exact congrArg some (List.cons.inj start).1
          · rw [List.head?_append, head]
            rfl
        · rcases dead with rfl | ⟨_, unclosed⟩
          · exact object.open_before p q rfl nothing missing
          · rw [Scan.run_append]
            exact object.run_front_ne unclosed
    · refine ⟨[], .inr ⟨fun next nextStarts valid => ?_, rfl⟩, .inr rfl⟩
      rw [List.append_assoc, isUtf8_encode_append_iff] at valid
      exact text (isUtf8_of_append cut nextStarts valid)
  · exact ⟨[], .inr ⟨spoiled.append starts, rfl⟩, .inl rfl⟩

end Files

/-! ### Runs of appends -/

theorem globalCursors_sublist {first rest : List LogEntry} (h : first.Sublist rest) :
    (globalCursors first).Sublist (globalCursors rest) :=
  (h.filter _).map _

/-- The cursor a log stamps next is past those of the entries it was opened
over. -/
theorem EventLog.open_nextStamp {origin : String} {file : List LogEntry}
    (own : ∀ e ∈ file, e.origin = origin) :
    ∀ c ∈ globalCursors file, Earlier c (EventLog.open' origin file).nextStamp := by
  intro c mem
  obtain ⟨e, listed, rfl⟩ := List.mem_map.mp mem
  obtain ⟨inFile, global⟩ := List.mem_filter.mp listed
  obtain ⟨h, held, behind⟩ := open_covers origin file e inFile global
  have next := (settled_open origin file).next_nextStamp
  rw [own e inFile] at held
  rw [open_origin, held] at next
  have later := next.earlier
  unfold Earlier at *
  omega

namespace Disk

variable {serde : Serde} {disk : Disk}

theorem append_readonly (readonly : disk.log.readonly = true) (event : Event) (outcome : Persist) :
    disk.append serde event outcome = (disk, .error .permissionDenied) := if_pos readonly

theorem append_done (writable : disk.log.readonly = false) (event : Event) :
    disk.append serde event .done =
      ({ log := (disk.log.facing .done).committed event
         file := disk.file ++ record serde (disk.log.stamped event) }, .ok ()) := by
  unfold append
  rw [if_neg (by simp [writable])]
  dsimp only
  rw [EventLog.append_of_writable
    (by simp [EventLog.writable, EventLog.facing, writable, Persist.failed])]
  rfl

theorem append_failed (writable : disk.log.readonly = false) {outcome : Persist}
    (failed : outcome.failed = true) (event : Event) :
    disk.append serde event outcome =
      ({ log := (disk.log.facing outcome).attempted event
         file := disk.file ++ outcome.left (record serde (disk.log.stamped event)) },
        .error .io) := by
  unfold append
  rw [if_neg (by simp [writable])]
  dsimp only
  rw [EventLog.append_eq, if_neg (by simp [EventLog.writable, EventLog.facing, failed]),
    if_neg (by simp [EventLog.facing, writable])]

end Disk

namespace Journal

variable {serde : Serde} {j : Journal} {entries : List LogEntry}

/-- The file holds these entries of the node's own, all of them committed, and the
cursor of the next one is past theirs. -/
structure Kept (serde : Serde) (j : Journal) (entries : List LogEntry) : Prop where
  holds : Holds serde j.disk.file entries
  committed : entries.Sublist j.committed
  own : ∀ e ∈ entries, e.origin = j.disk.log.origin
  increasing : (globalCursors entries).Pairwise Earlier
  before : ∀ c ∈ globalCursors entries, Earlier c j.disk.log.nextStamp

theorem fresh_eq (origin : String) :
    fresh serde origin = { disk := { log := EventLog.fresh origin, file := [] } } := by
  unfold fresh
  rw [Disk.fresh_eq]

theorem kept_fresh (origin : String) : Kept serde (fresh serde origin) [] := by
  have file : (fresh serde origin).disk.file = [] := rfl
  exact ⟨file ▸ holds_nil, List.Sublist.refl _, by simp, .nil, by simp [globalCursors]⟩

/-- A file that lost entries, on a node whose next cursor has not gone back. -/
theorem Kept.less {j' : Journal} {entries' : List LogEntry} (h : Kept serde j entries)
    (holds : Holds serde j'.disk.file entries') (fewer : entries'.Sublist entries)
    (committed : j.committed.Sublist j'.committed)
    (origin : j'.disk.log.origin = j.disk.log.origin)
    (forward : ¬ Earlier j'.disk.log.nextStamp j.disk.log.nextStamp) : Kept serde j' entries' where
  holds := holds
  committed := fewer.trans (h.committed.trans committed)
  own := by
    intro e mem
    rw [origin]
    exact h.own e (fewer.subset mem)
  increasing := h.increasing.sublist (globalCursors_sublist fewer)
  before := by
    intro c mem
    have earlier := h.before c ((globalCursors_sublist fewer).subset mem)
    unfold Earlier at *
    omega

theorem step_done (writable : j.disk.log.readonly = false) (event : Event) :
    j.step serde (.append event .done) =
      { disk :=
          { log := (j.disk.log.facing .done).committed event
            file := j.disk.file ++ record serde (j.disk.log.stamped event) }
        committed := j.committed ++ [j.disk.log.stamped event] } := by
  unfold step
  dsimp only
  rw [Disk.append_done writable]

theorem step_failed (writable : j.disk.log.readonly = false) {outcome : Persist}
    (failed : outcome.failed = true) (event : Event) :
    j.step serde (.append event outcome) =
      { disk :=
          { log := (j.disk.log.facing outcome).attempted event
            file := j.disk.file ++ outcome.left (record serde (j.disk.log.stamped event)) }
        committed := j.committed } := by
  unfold step
  dsimp only
  rw [Disk.append_failed writable failed]

/-- An append that goes through. -/
theorem Kept.done (strict : serde.Strict) (h : Kept serde j entries) {event : Event}
    (prints : serde.Faithful (j.disk.log.stamped event)) (writable : j.disk.log.readonly = false) :
    ∃ entries', Kept serde (j.step serde (.append event .done)) entries' := by
  have stamp : ((j.disk.log.facing .done).committed event).nextStamp =
      if event.scope = .global then (j.disk.log.epoch, j.disk.log.nextSeq + 1)
      else j.disk.log.nextStamp := EventLog.nextStamp_committed _ event
  have forward : ¬ Earlier ((j.disk.log.facing .done).committed event).nextStamp
      j.disk.log.nextStamp := by
    rw [stamp]
    unfold EventLog.nextStamp Earlier
    split <;> simp
  rw [step_done writable]
  obtain ⟨entries', holds, written | lost⟩ := h.holds.record strict prints
  · subst written
    have cursors : globalCursors (entries ++ [j.disk.log.stamped event]) =
        globalCursors entries ++ if event.scope = .global then [j.disk.log.nextStamp] else [] := by
      rw [← EventLog.globalCursors_stamped]
      unfold globalCursors
      rw [List.filter_append, List.map_append]
    refine ⟨_, holds, h.committed.append (List.Sublist.refl _), ?_, ?_, ?_⟩
    · intro e mem
      rcases List.mem_append.mp mem with mem | mem
      · exact h.own e mem
      · rw [List.mem_singleton.mp mem]
        exact EventLog.stamped_origin _ event
    · rw [cursors, List.pairwise_append]
      refine ⟨h.increasing, ?_, fun c mem d new => ?_⟩
      · split
        · exact List.pairwise_singleton _ _
        · exact .nil
      · split at new
        · rw [List.mem_singleton.mp new]
          exact h.before c mem
        · contradiction
    · intro c mem
      dsimp only
      rw [stamp]
      rw [cursors] at mem
      rcases List.mem_append.mp mem with mem | mem
      · have earlier := h.before c mem
        split
        · unfold EventLog.nextStamp Earlier at *
          dsimp only at *
          omega
        · exact earlier
      · split at mem
        · rename_i global
          rw [if_pos global, List.mem_singleton.mp mem]
          exact .inr ⟨rfl, Nat.lt_succ_self _⟩
        · contradiction
  · subst lost
    exact ⟨_, h.less holds (List.Sublist.refl _) (List.sublist_append_left _ _) rfl forward⟩

/-- An append whose write fails short of the record's text. -/
theorem Kept.failed (h : Kept serde j entries) {event : Event} {outcome : Persist}
    (prints : serde.Faithful (j.disk.log.stamped event)) (writable : j.disk.log.readonly = false)
    (failed : outcome.failed = true)
    (less : (outcome.left (record serde (j.disk.log.stamped event))).length <
      (encode (serde.toString (j.disk.log.stamped event))).length) :
    ∃ entries', Kept serde (j.step serde (.append event outcome)) entries' := by
  obtain ⟨lost, cut⟩ : ∃ lost, record serde (j.disk.log.stamped event) =
      outcome.left (record serde (j.disk.log.stamped event)) ++ lost := by
    cases outcome with
    | done => exact ⟨[], (List.append_nil _).symm⟩
    | openFailed => exact ⟨_, rfl⟩
    | writeFailed kept => exact ⟨_, (List.take_append_drop kept _).symm⟩
    | syncFailed => exact ⟨[], (List.append_nil _).symm⟩
  rw [step_failed writable failed]
  obtain ⟨entries', holds, same | none⟩ := h.holds.torn prints cut less
  · subst same
    exact ⟨_, h.less holds (List.Sublist.refl _) (List.Sublist.refl _) rfl Earlier.irrefl⟩
  · subst none
    exact ⟨_, h.less holds (List.nil_sublist _) (List.Sublist.refl _) rfl Earlier.irrefl⟩

theorem Kept.step (strict : serde.Strict) (h : Kept serde j entries) {action : WriteAction}
    (prints : j.Prints serde action) (part : j.Partial serde action) :
    ∃ entries', Kept serde (j.step serde action) entries' := by
  cases action with
  | append event outcome =>
      cases writable : j.disk.log.readonly with
      | true =>
          refine ⟨entries, ?_⟩
          unfold Journal.step
          dsimp only
          rw [Disk.append_readonly writable]
          exact h
      | false =>
          cases failed : outcome.failed with
          | true => exact h.failed prints writable failed (part failed)
          | false =>
              cases outcome with
              | done => exact h.done strict prints writable
              | openFailed => contradiction
              | writeFailed kept => contradiction
              | syncFailed => contradiction
  | reopen =>
      have reads := h.holds.reads strict
      refine ⟨entries, h.holds, h.committed, ?_, h.increasing, ?_⟩
      · show ∀ e ∈ entries, e.origin = (EventLog.open' j.disk.log.origin _).origin
        rw [EventLog.open_origin]
        exact h.own
      · show ∀ c ∈ globalCursors entries,
          Earlier c (EventLog.open' j.disk.log.origin (readLog serde j.disk.file)).nextStamp
        rw [reads]
        exact EventLog.open_nextStamp h.own
  | wire signing outbound =>
      exact ⟨entries, h.holds, h.committed, h.own, h.increasing, h.before⟩
  | lockdown on => exact ⟨entries, h.holds, h.committed, h.own, h.increasing, h.before⟩

theorem kept_after (strict : serde.Strict) (origin : String) {actions : List WriteAction}
    (prints : Along (Journal.step serde) (Prints serde) (fresh serde origin) actions)
    (part : Along (Journal.step serde) (Partial serde) (fresh serde origin) actions) :
    ∃ entries, Kept serde (after (Journal.step serde) (fresh serde origin) actions) entries := by
  induction actions using List.reverseRecOn with
  | nil => exact ⟨[], kept_fresh origin⟩
  | append_singleton actions action ih =>
      rw [along_append] at prints part
      obtain ⟨entries, kept⟩ := ih prints.1 part.1
      rw [after_concat]
      exact kept.step strict prints.2.1 part.2.1

/-- Global entries with increasing cursors are told apart by them. -/
theorem eq_of_cursor {entries : List LogEntry} (increasing : (globalCursors entries).Pairwise Earlier)
    {e e' : LogEntry} (mem : e ∈ entries) (mem' : e' ∈ entries) (global : e.isGlobal = true)
    (global' : e'.isGlobal = true) (same : e.cursor = e'.cursor) : e = e' := by
  unfold globalCursors at increasing
  rw [List.pairwise_map] at increasing
  have apart : ∀ {a b : LogEntry}, Earlier a.cursor b.cursor → a.cursor ≠ b.cursor := by
    intro a b earlier equal
    rw [equal] at earlier
    exact Earlier.irrefl earlier
  have told : ∀ a ∈ entries.filter (·.isGlobal), ∀ b ∈ entries.filter (·.isGlobal),
      a.cursor = b.cursor → a = b :=
    List.Pairwise.forall_of_forall_of_flip (fun _ _ _ => rfl)
      (increasing.imp fun earlier equal => absurd equal (apart earlier))
      (increasing.imp fun earlier equal => absurd equal.symm (apart earlier))
  exact told e (List.mem_filter.mpr ⟨mem, global⟩) e' (List.mem_filter.mpr ⟨mem', global'⟩) same

/-- In a run of appends and restarts in which no failed write leaves its record's
whole text, opening the file again yields Global entries with an identity each,
and none but those whose append answered `Ok`. -/
theorem one_identity_one_event (serde : Serde) (strict : serde.Strict) (origin : String)
    (actions : List WriteAction)
    (prints : Along (Journal.step serde) (Prints serde) (fresh serde origin) actions)
    (part : Along (Journal.step serde) (Partial serde) (fresh serde origin) actions) :
    let j := after (Journal.step serde) (fresh serde origin) actions
    let reopened := Disk.reopen serde origin j.disk.file
    (∀ e ∈ reopened.log.entries, ∀ e' ∈ reopened.log.entries,
        e.isGlobal = true → e'.isGlobal = true →
        (e.origin, e.epoch, e.seq) = (e'.origin, e'.epoch, e'.seq) → e = e') ∧
      reopened.log.entries.Sublist j.committed := by
  obtain ⟨entries, kept⟩ := kept_after strict origin prints part
  intro j reopened
  have reads : reopened.log.entries = entries := by
    show (EventLog.open' origin (readLog serde j.disk.file)).entries = entries
    rw [EventLog.open_entries]
    exact kept.holds.reads strict
  rw [reads]
  refine ⟨fun e mem e' mem' global global' same => ?_, kept.committed⟩
  refine eq_of_cursor kept.increasing mem mem' global global' ?_
  exact (Prod.mk.inj same).2

/-! Two channels registered on node "a"; and two accounts verified there, the
first with a sync that fails. -/

def registeredX : LogEntry := ⟨"a", 0, 0, 0, none, .channelRegistered "#x" "b" 1⟩

def registeredY : LogEntry := ⟨"a", 0, 0, 0, none, .channelRegistered "#y" "b" 1⟩

def unsynced : LogEntry := ⟨"a", 0, 1, 0, none, .accountVerified "b"⟩

def restamped : LogEntry := ⟨"a", 0, 2, 0, none, .accountVerified "c"⟩

def stampedTexts : List (LogEntry × List Char) :=
  [(registeredX,
      "\x7b\"origin\":\"a\",\"seq\":0,\"lamport\":0,\"event\":\"ChannelRegistered\",\"name\":\"#x\",\"founder\":\"b\",\"ts\":1\x7d".toList),
    (registeredY,
      "\x7b\"origin\":\"a\",\"seq\":0,\"lamport\":0,\"event\":\"ChannelRegistered\",\"name\":\"#y\",\"founder\":\"b\",\"ts\":1\x7d".toList),
    (unsynced,
      "\x7b\"origin\":\"a\",\"seq\":0,\"lamport\":1,\"event\":\"AccountVerified\",\"account\":\"b\"\x7d".toList),
    (restamped,
      "\x7b\"origin\":\"a\",\"seq\":0,\"lamport\":2,\"event\":\"AccountVerified\",\"account\":\"c\"\x7d".toList)]

def stampedSerde : Serde := Serde.ofTable stampedTexts

theorem stampedTexts_object : ∀ known ∈ stampedTexts, Object known.2 := by
  decide +kernel

theorem stampedSerde_faithful :
    ∀ e ∈ [registeredX, registeredY, unsynced, restamped], stampedSerde.Faithful e := by
  intro e mem
  simp only [List.mem_cons, List.not_mem_nil, or_false] at mem
  refine Serde.ofTable_faithful stampedTexts_object rfl ?_ ?_
  · rcases mem with rfl | rfl | rfl | rfl <;> decide
  · rcases mem with rfl | rfl | rfl | rfl <;> decide

/-- Local entries share one identity, with every write going through. And a Global
event whose sync fails is read back, next to the one stamped with its identity
after it. -/
theorem one_identity_two_events :
    let channels := after (Journal.step stampedSerde) (fresh stampedSerde "a")
      [.append (.channelRegistered "#x" "b" 1) .done, .append (.channelRegistered "#y" "b" 1) .done]
    let accounts := after (Journal.step stampedSerde) (fresh stampedSerde "a")
      [.append (.accountVerified "b") .syncFailed, .append (.accountVerified "c") .done]
    (Disk.reopen stampedSerde "a" channels.disk.file).log.entries = [registeredX, registeredY] ∧
      registeredX ≠ registeredY ∧
      (registeredX.origin, registeredX.epoch, registeredX.seq) =
        (registeredY.origin, registeredY.epoch, registeredY.seq) ∧
      (Disk.reopen stampedSerde "a" accounts.disk.file).log.entries = [unsynced, restamped] ∧
      accounts.committed = [restamped] ∧
      (unsynced.origin, unsynced.epoch, unsynced.seq) =
        (restamped.origin, restamped.epoch, restamped.seq) := by
  have reads : ∀ e ∈ [registeredX, unsynced], ∀ e' ∈ [registeredY, restamped],
      (Disk.reopen stampedSerde "a" (records stampedSerde [e, e'])).log.entries = [e, e'] := by
    intro e mem e' mem'
    show ( EventLog.open' "a" (readLog stampedSerde _)).entries = _
    rw [EventLog.open_entries]
    refine readLog_records fun x listed => stampedSerde_faithful x ?_
    simp only [List.mem_cons, List.not_mem_nil, or_false] at mem mem' listed ⊢
    rcases listed with rfl | rfl
    · rcases mem with rfl | rfl <;> simp
    · rcases mem' with rfl | rfl <;> simp
  have file (e e' : LogEntry) : [] ++ record stampedSerde e ++ record stampedSerde e' =
      records stampedSerde [e, e'] := by
    rw [List.nil_append, ← records_singleton, ← records_singleton, ← records_append]
    rfl
  intro channels accounts
  have registered : channels.disk.file = records stampedSerde [registeredX, registeredY] := by
    simp only [channels, after_cons, after_nil]
    rw [fresh_eq, step_done rfl, step_done rfl]
    exact file registeredX registeredY
  have verified : accounts =
      { disk :=
          { log := (((EventLog.fresh "a").facing .syncFailed).attempted
              (.accountVerified "b")).facing .done |>.committed (.accountVerified "c")
            file := [] ++ record stampedSerde unsynced ++ record stampedSerde restamped }
        committed := [] ++ [restamped] } := by
    simp only [accounts, after_cons, after_nil]
    rw [fresh_eq, @step_failed stampedSerde _ rfl .syncFailed rfl, step_done rfl]
    rfl
  rw [registered, verified, file]
  exact ⟨reads _ (by simp) _ (by simp), by decide, rfl, reads _ (by simp) _ (by simp), rfl, rfl⟩

/-- Nothing is left of a record whose file could not be opened. -/
theorem one_identity_one_event_unopened :
    let actions := [.append (.accountVerified "b") .openFailed, .append (.accountVerified "c") .done]
    let j := after (Journal.step stampedSerde) (fresh stampedSerde "a") actions
    let reopened := Disk.reopen stampedSerde "a" j.disk.file
    (∀ e ∈ reopened.log.entries, ∀ e' ∈ reopened.log.entries,
        e.isGlobal = true → e'.isGlobal = true →
        (e.origin, e.epoch, e.seq) = (e'.origin, e'.epoch, e'.seq) → e = e') ∧
      reopened.log.entries.Sublist j.committed := by
  refine one_identity_one_event stampedSerde (Serde.ofTable_strict stampedTexts_object) "a" _ ?_ ?_
  · refine ⟨?_, ?_, trivial⟩
    · show stampedSerde.Faithful _
      rw [fresh_eq]
      exact stampedSerde_faithful unsynced (by simp)
    · rw [fresh_eq, @step_failed stampedSerde _ rfl .openFailed rfl]
      exact stampedSerde_faithful restamped (by simp)
  · refine ⟨fun _ => ?_, fun failed => absurd failed (by decide), trivial⟩
    rw [fresh_eq]
    decide

end Journal

end Echo
