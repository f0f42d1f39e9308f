import Echo.Db.LogRun
import Echo.Lib.Brackets
import Echo.Lib.Utf8

/-!
The log's file as bytes (`EventLog::open`, `EventLog::persist`): one JSON record a
line, read back as UTF-8 text, line by line, with what does not parse skipped.

`Serde` is the JSON library, a parameter. What the log relies on is `Faithful`
for the entries it writes and `Strict` for the texts it reads: a record reads
back, is one value in brackets and holds no control character; and whatever
parses is one value in brackets.

A file whose records were all written in full reads back as the entries it was
written from, so a restart of a disk is the restart of its log.
-/

namespace Echo

open Echo.Lib
open Echo.Lib.Brackets (Value Object Text)

/-- `serde_json` at the type of log entries. -/
structure Serde where
  toString : LogEntry → List Char
  fromStr : List Char → Option LogEntry

namespace Serde

/-- What the log relies on when it writes an entry. -/
structure Faithful (serde : Serde) (entry : LogEntry) : Prop where
  reads_back : serde.fromStr (serde.toString entry) = some entry
  value : Object (serde.toString entry)
  printable : ∀ c ∈ serde.toString entry, 32 ≤ c.toNat

/-- What the log relies on when it reads a line. -/
def Strict (serde : Serde) : Prop := ∀ text entry, serde.fromStr text = some entry → Text text

end Serde

/-- A library that knows some records. -/
def Serde.ofTable (table : List (LogEntry × List Char)) : Serde where
  toString entry := ((table.find? fun known => decide (known.1 = entry)).map Prod.snd).getD []
  fromStr text := (table.find? fun known => decide (known.2 = text)).map Prod.fst

section OfTable

variable {table : List (LogEntry × List Char)}

theorem Serde.ofTable_strict (objects : ∀ known ∈ table, Object known.2) :
    (Serde.ofTable table).Strict := by
  intro text entry read
  obtain ⟨known, found, rfl⟩ := Option.map_eq_some_iff.mp read
  have same := List.find?_some found
  rw [decide_eq_true_iff] at same
  refine ⟨[], text, [], by simp, rfl, rfl, ?_⟩
  rw [← same]
  exact (objects known (List.mem_of_find?_eq_some found)).toValue

theorem Serde.ofTable_faithful (objects : ∀ known ∈ table, Object known.2)
    (plain : (table.all fun known => known.2.all fun c => 32 ≤ c.toNat) = true) {e : LogEntry}
    (written : (e, (Serde.ofTable table).toString e) ∈ table)
    (reads : (Serde.ofTable table).fromStr ((Serde.ofTable table).toString e) = some e) :
    (Serde.ofTable table).Faithful e := by
  have text := List.all_eq_true.mp plain _ written
  exact ⟨reads, objects _ written,
    fun c mem => of_decide_eq_true (List.all_eq_true.mp text c mem)⟩

end OfTable

/-! ### Reading -/

/-- Whether a character is white space to `str::trim`. -/
def isWhitespace (c : Char) : Bool :=
  let n := c.toNat
  (9 ≤ n && n ≤ 13) || n == 0x20 || n == 0x85 || n == 0xA0 || n == 0x1680 ||
    (0x2000 ≤ n && n ≤ 0x200A) || n == 0x2028 || n == 0x2029 || n == 0x202F || n == 0x205F ||
    n == 0x3000

theorem isWhitespace_of_alphanum {x : Char} (plain : x.isAlphanum = true) : isWhitespace x = false := by
  have ranges : x.isAlphanum = ((decide (x.val ≥ 'A'.val ∧ x.val ≤ 'Z'.val) ||
      (decide (x.val ≥ 'a'.val) && decide (x.val ≤ 'z'.val))) ||
        (decide (x.val ≥ '0'.val) && decide (x.val ≤ '9'.val))) := rfl
  rw [ranges] at plain
  simp only [Bool.or_eq_true, Bool.and_eq_true, decide_eq_true_eq, UInt32.le_iff_toNat_le] at plain
  simp only [isWhitespace, Char.toNat]
  simp at plain ⊢
  omega

/-- The lines of a text, as `str::lines` cuts them: at each newline, with a
carriage return before it dropped. -/
def lines : List Char → List (List Char)
  | [] => []
  | c :: rest =>
      if c = '\n' then [] :: lines rest
      else if c = '\r' ∧ rest.head? = some '\n' then lines rest
      else
        match lines rest with
        | [] => [[c]]
        | line :: others => (c :: line) :: others

/-- The entries a text holds: blank lines and those that do not parse are
skipped. -/
def parseLines (serde : Serde) (data : List Char) : List LogEntry :=
  ((lines data).filter fun l => !l.all isWhitespace).filterMap serde.fromStr

/-- The entries a file holds; none if it is not text. -/
def readLog (serde : Serde) (file : List UInt8) : List LogEntry :=
  match decode file with
  | none => []
  | some data => parseLines serde data

/-! ### Writing -/

/-- The line `persist` writes for an entry. -/
def recordText (serde : Serde) (entry : LogEntry) : List Char := serde.toString entry ++ ['\n']

def record (serde : Serde) (entry : LogEntry) : List UInt8 := encode (recordText serde entry)

/-- A file that holds these entries. -/
def records (serde : Serde) (entries : List LogEntry) : List UInt8 :=
  encode (entries.flatMap (recordText serde))

theorem records_append (serde : Serde) (first rest : List LogEntry) :
    records serde (first ++ rest) = records serde first ++ records serde rest := by
  unfold records
  rw [List.flatMap_append, encode_append]

theorem records_singleton (serde : Serde) (entry : LogEntry) :
    records serde [entry] = record serde entry := by
  simp [records, record]

theorem records_concat (serde : Serde) (entries : List LogEntry) (entry : LogEntry) :
    records serde (entries ++ [entry]) = records serde entries ++ record serde entry := by
  rw [records_append, records_singleton]

/-- Append an entry's record to the file. -/
def persist (serde : Serde) (file : List UInt8) (entry : LogEntry) : List UInt8 :=
  file ++ record serde entry

theorem foldl_persist (serde : Serde) (file : List UInt8) (entries : List LogEntry) :
    entries.foldl (persist serde) file = file ++ records serde entries := by
  induction entries generalizing file with
  | nil => exact (List.append_nil file).symm
  | cons entry entries ih =>
      have first : records serde (entry :: entries) = record serde entry ++ records serde entries := by
        rw [← List.singleton_append, records_append, records_singleton]
      rw [List.foldl_cons, ih, first]
      exact List.append_assoc _ _ _

/-! ### What is written in full reads back -/

theorem ne_newline {c : Char} (printable : 32 ≤ c.toNat) : c ≠ '\n' ∧ c ≠ '\r' := by
  constructor
  · rintro rfl
    exact absurd printable (by decide)
  · rintro rfl
    exact absurd printable (by decide)

theorem lines_cons {c : Char} (printable : 32 ≤ c.toNat) (rest : List Char) :
    lines (c :: rest) =
      match lines rest with
      | [] => [[c]]
      | line :: others => (c :: line) :: others := by
  obtain ⟨newline, carriage⟩ := ne_newline printable
  rw [lines, if_neg newline, if_neg fun h => carriage h.1]

theorem lines_newline {line : List Char} (printable : ∀ c ∈ line, 32 ≤ c.toNat) (rest : List Char) :
    lines (line ++ '\n' :: rest) = line :: lines rest := by
  induction line with
  | nil => rw [List.nil_append, lines, if_pos rfl]
  | cons c line ih =>
      rw [List.cons_append, lines_cons (printable c List.mem_cons_self),
        ih fun d mem => printable d (List.mem_cons_of_mem c mem)]

theorem lines_last {line : List Char} (printable : ∀ c ∈ line, 32 ≤ c.toNat) (some : line ≠ []) :
    lines line = [line] := by
  induction line with
  | nil => exact absurd rfl some
  | cons c line ih =>
      rw [lines_cons (printable c List.mem_cons_self)]
      cases line with
      | nil => rfl
      | cons d line =>
          rw [ih (fun e mem => printable e (List.mem_cons_of_mem c mem)) (List.cons_ne_nil d line)]

theorem bracket_not_whitespace {c : Char} (bracket : c = '{' ∨ c = '[') :
    isWhitespace c = false := by
  rcases bracket with rfl | rfl <;> rfl

/-- A line that starts with a bracket is not blank. -/
theorem not_blank {front : List Char} {c : Char} (bracket : c = '{' ∨ c = '[') :
    (c :: front).all isWhitespace = false := by
  rw [List.all_cons, bracket_not_whitespace bracket, Bool.false_and]

section Reading

variable {serde : Serde}

/-- The first line of a text, read. -/
theorem parseLines_newline {line : List Char} (printable : ∀ c ∈ line, 32 ≤ c.toNat)
    (blank : line.all isWhitespace = false) (rest : List Char) :
    parseLines serde (line ++ '\n' :: rest) =
      (serde.fromStr line).toList ++ parseLines serde rest := by
  unfold parseLines
  rw [lines_newline printable, List.filter_cons_of_pos (by rw [blank]; rfl), List.filterMap_cons]
  cases serde.fromStr line <;> rfl

/-- The last line of a text, read though no newline ends it. -/
theorem parseLines_last {line : List Char} (printable : ∀ c ∈ line, 32 ≤ c.toNat)
    (blank : line.all isWhitespace = false) :
    parseLines serde line = (serde.fromStr line).toList := by
  have some : line ≠ [] := by
    rintro rfl
    exact absurd blank (by simp)
  unfold parseLines
  rw [lines_last printable some, List.filter_cons_of_pos (by rw [blank]; rfl), List.filterMap_cons]
  cases serde.fromStr line <;> rfl

theorem Serde.Faithful.not_blank {entry : LogEntry} (faithful : serde.Faithful entry) :
    (serde.toString entry).all isWhitespace = false := by
  obtain ⟨c, rest, spelt, bracket⟩ := faithful.value.cons
  rw [spelt]
  exact Echo.not_blank bracket

theorem parseLines_records {entries : List LogEntry} (faithful : ∀ e ∈ entries, serde.Faithful e)
    (rest : List Char) :
    parseLines serde (entries.flatMap (recordText serde) ++ rest) =
      entries ++ parseLines serde rest := by
  induction entries with
  | nil => rfl
  | cons e entries ih =>
      have head := faithful e List.mem_cons_self
      have spelt : (e :: entries).flatMap (recordText serde) ++ rest =
          serde.toString e ++ '\n' :: (entries.flatMap (recordText serde) ++ rest) := by
        simp [recordText]
      rw [spelt, parseLines_newline head.printable head.not_blank, head.reads_back,
        ih fun e' mem => faithful e' (List.mem_cons_of_mem e mem)]
      rfl

/-- Records written in full come first, then whatever the text behind them
holds. -/
theorem readLog_records_encode {entries : List LogEntry}
    (faithful : ∀ e ∈ entries, serde.Faithful e) (rest : List Char) :
    readLog serde (records serde entries ++ encode rest) = entries ++ parseLines serde rest := by
  unfold readLog records
  rw [← encode_append, decode_encode]
  exact parseLines_records faithful rest

theorem readLog_records {entries : List LogEntry} (faithful : ∀ e ∈ entries, serde.Faithful e) :
    readLog serde (records serde entries) = entries := by
  have whole := readLog_records_encode faithful []
  rw [encode_nil, List.append_nil] at whole
  rw [whole]
  exact List.append_nil entries

end Reading

/-! ### A log and its file -/

/-- A log with the bytes of its file. -/
structure Disk where
  log : EventLog
  file : List UInt8

namespace Disk

/-- Open a log over a file. -/
def reopen (serde : Serde) (origin : String) (file : List UInt8) : Disk :=
  { log := EventLog.open' origin (readLog serde file), file }

def fresh (serde : Serde) (origin : String) : Disk := reopen serde origin []

/-- What each action leaves in the file: an accepted entry's record at its end, or
the records of a snapshot in its place. -/
def step (serde : Serde) (disk : Disk) : LogAction → Disk
  | .append event =>
      match disk.log.append event with
      | (log, .ok ()) => { log, file := persist serde disk.file (disk.log.stamped event) }
      | (log, .error _) => { disk with log }
  | .ingest entry =>
      match disk.log.ingest entry with
      | (log, .ok (some _)) => { log, file := persist serde disk.file entry }
      | (log, _) => { disk with log }
  | .compact events =>
      match disk.log.compact events with
      | (log, .ok ()) =>
          { log, file := if events.isEmpty then disk.file else records serde log.entries }
      | (log, .error _) => { disk with log }
  | .reopen => reopen serde disk.log.origin disk.file
  | .wire signing outbound => { disk with log := { disk.log with signing, outbound } }
  | .lockdown on => { disk with log := { disk.log with readonly := on } }
  | .faults outcomes => { disk with log := { disk.log with faults := outcomes } }

/-- The file holds the entries of the log, each of which reads back. -/
structure Intact (serde : Serde) (disk : Disk) : Prop where
  file : disk.file = records serde disk.log.entries
  faithful : ∀ e ∈ disk.log.entries, serde.Faithful e

/-- The entries the log has after a step read back. -/
def Prints (serde : Serde) (disk : Disk) (action : LogAction) : Prop :=
  ∀ e ∈ (disk.step serde action).log.entries, serde.Faithful e

variable {serde : Serde}

theorem fresh_eq (origin : String) :
    fresh serde origin = { log := EventLog.fresh origin, file := [] } := by
  have nothing : readLog serde [] = [] := @readLog_records serde [] (by simp)
  unfold fresh reopen EventLog.fresh
  rw [nothing]

theorem intact_fresh (origin : String) : Intact serde (fresh serde origin) := by
  rw [fresh_eq]
  exact ⟨rfl, by simp [EventLog.fresh, EventLog.open']⟩

/-- A step of a disk is a step of its log, and writes what the log gained. -/
theorem Intact.step {disk : Disk} (intact : Intact serde disk) (action : LogAction) :
    (disk.step serde action).log = disk.log.step action ∧
      (disk.step serde action).file = records serde (disk.step serde action).log.entries := by
  cases action with
  | append event =>
      unfold Disk.step EventLog.step
      dsimp only
      rw [EventLog.append_eq]
      by_cases writable : disk.log.writable = true
      · rw [if_pos writable]
        refine ⟨rfl, ?_⟩
        show persist serde disk.file _ = records serde (disk.log.entries ++ [_])
        rw [records_concat, intact.file]
        rfl
      · rw [if_neg writable]
        cases disk.log.readonly with
        | true => exact ⟨rfl, intact.file⟩
        | false => exact ⟨rfl, intact.file⟩
  | ingest entry =>
      unfold Disk.step EventLog.step
      dsimp only
      rw [EventLog.ingest_eq]
      by_cases fits : disk.log.acceptable entry = true
      · rw [if_pos fits]
        cases disk.log.faults.headD false with
        | true => exact ⟨rfl, intact.file⟩
        | false =>
            refine ⟨rfl, ?_⟩
            show persist serde disk.file entry = records serde (disk.log.entries ++ [entry])
            rw [records_concat, intact.file]
            rfl
      · rw [if_neg fits]
        exact ⟨rfl, intact.file⟩
  | compact events =>
      unfold Disk.step EventLog.step
      dsimp only
      rw [EventLog.compact_eq]
      cases events with
      | nil => exact ⟨rfl, intact.file⟩
      | cons event events =>
          rw [if_neg (List.cons_ne_nil event events)]
          dsimp only
          cases disk.log.faults.headD false with
          | true => exact ⟨rfl, intact.file⟩
          | false => exact ⟨rfl, rfl⟩
  | reopen =>
      have entries : readLog serde disk.file = disk.log.entries := by
        rw [intact.file, readLog_records intact.faithful]
      constructor
      · show EventLog.open' disk.log.origin (readLog serde disk.file) = _
        rw [entries]
        rfl
      · show disk.file =
          records serde (EventLog.open' disk.log.origin (readLog serde disk.file)).entries
        rw [EventLog.open_entries, entries, intact.file]
  | wire signing outbound => exact ⟨rfl, intact.file⟩
  | lockdown on => exact ⟨rfl, intact.file⟩
  | faults outcomes => exact ⟨rfl, intact.file⟩

/-- Whether a run's records read back is a matter of its log alone. -/
theorem Intact.along {disk : Disk} (intact : Intact serde disk) {actions : List LogAction}
    (run : Along EventLog.step
      (fun log action => ∀ e ∈ (log.step action).entries, serde.Faithful e) disk.log actions) :
    Along (Disk.step serde) (Prints serde) disk actions := by
  induction actions generalizing disk with
  | nil => trivial
  | cons action actions ih =>
      obtain ⟨log, file⟩ := intact.step action
      have prints : Prints serde disk action := by
        unfold Prints
        rw [log]
        exact run.1
      refine ⟨prints, ih ⟨file, prints⟩ ?_⟩
      rw [log]
      exact run.2

/-- In a run whose records read back, the file always holds the entries of the
log. -/
theorem intact_after (origin : String) (actions : List LogAction)
    (run : Along (step serde) (Prints serde) (fresh serde origin) actions) :
    Intact serde (after (step serde) (fresh serde origin) actions) := by
  refine run.invariant (fun disk action intact prints => ?_) (intact_fresh origin)
  exact ⟨(intact.step action).2, prints⟩

/-- Restarts through the file are restarts of the log: the disk's runs are the
log's. -/
theorem after_log (origin : String) (actions : List LogAction)
    (run : Along (step serde) (Prints serde) (fresh serde origin) actions) :
    (after (step serde) (fresh serde origin) actions).log =
      after EventLog.step (EventLog.fresh origin) actions := by
  induction actions using List.reverseRecOn with
  | nil => rfl
  | append_singleton actions action ih =>
      rw [along_append] at run
      rw [after_concat, after_concat, ← ih run.1]
      exact ((intact_after origin actions run.1).step action).1

end Disk

end Echo
