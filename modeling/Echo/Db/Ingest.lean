import Echo.Db.Identity
import Echo.Db.Run

/-!
Exactly-once ingestion: what a store accepts of each origin is contiguous, so no
entry is folded twice, and what it turns away leaves no trace.

The log does not tell an entry of its own origin from any other. One that its
checks let pass is taken, and the next local append may then fall behind it.
-/

namespace Echo

open Std (ExtTreeMap)
open Echo.Lib
open EventLog (Settled Appends)

/-- The cursors of the Global entries of one origin, in order. -/
def cursorsOf (origin : String) (entries : List LogEntry) : List Cursor :=
  (entries.filter fun e => e.isGlobal && e.origin == origin).map LogEntry.cursor

theorem cursorsOf_concat (origin : String) (entries : List LogEntry) (entry : LogEntry) :
    cursorsOf origin (entries ++ [entry]) =
      cursorsOf origin entries ++
        if entry.isGlobal = true ∧ entry.origin = origin then [entry.cursor] else [] := by
  unfold cursorsOf
  rw [List.filter_append, List.map_append]
  by_cases global : entry.isGlobal = true
  · by_cases own : entry.origin = origin
    · simp [global, own]
    · simp [own]
  · simp [global]

/-- A log that has grown from an opened one: what it has added is contiguous for
each origin, and its cursors are those reached. -/
structure Grown (opened log : EventLog) : Prop where
  origin : log.origin = opened.origin
  settled : Settled log
  grown : ∃ new, log.entries = opened.entries ++ new ∧ ∀ o : String,
    Contiguous opened.versions[o]? (cursorsOf o new) ∧
      log.versions[o]? = reached opened.versions[o]? (cursorsOf o new)

namespace Grown

variable {opened log : EventLog}

theorem start (origin : String) (file : List LogEntry) :
    Grown (EventLog.open' origin file) (EventLog.open' origin file) where
  origin := rfl
  settled := EventLog.settled_open origin file
  grown := ⟨[], (List.append_nil _).symm, fun _ => ⟨trivial, rfl⟩⟩

theorem same (h : Grown opened log) {log' : EventLog} (origin : log'.origin = log.origin)
    (entries : log'.entries = log.entries) (versions : log'.versions = log.versions)
    (epoch : log'.epoch = log.epoch) : Grown opened log' where
  origin := origin.trans h.origin
  settled := h.settled.same origin entries versions epoch
  grown := by
    rw [entries, versions]
    exact h.grown

/-- One more entry, the next of its origin if it is Global. -/
theorem push (h : Grown opened log) {log' : EventLog} (entry : LogEntry)
    (origin : log'.origin = log.origin) (settled : Settled log')
    (entries : log'.entries = log.entries ++ [entry])
    (versions : log'.versions =
      if entry.isGlobal then log.versions.insert entry.origin entry.cursor else log.versions)
    (next : entry.isGlobal = true → Next log.versions[entry.origin]? entry.cursor) :
    Grown opened log' := by
  obtain ⟨new, old, cursors⟩ := h.grown
  refine ⟨origin.trans h.origin, settled, new ++ [entry], ?_, fun o => ?_⟩
  · rw [entries, old, List.append_assoc]
  · obtain ⟨contiguous, held⟩ := cursors o
    rw [cursorsOf_concat, versions]
    by_cases new : entry.isGlobal = true ∧ entry.origin = o
    · obtain ⟨global, rfl⟩ := new
      rw [if_pos ⟨global, rfl⟩, if_pos global, reached_concat, ExtTreeMap.getElem?_insert_self]
      refine ⟨contiguous.concat ?_, rfl⟩
      rw [← held]
      exact next global
    · rw [if_neg new, List.append_nil]
      refine ⟨contiguous, ?_⟩
      rw [← held]
      split
      · rename_i global
        rw [ExtTreeMap.getElem?_insert, if_neg]
        exact fun same => new ⟨global, Std.LawfulEqCmp.eq_of_compare same⟩
      · rfl

theorem committed (h : Grown opened log) (event : Event) : Grown opened (log.committed event) := by
  have global : (log.stamped event).isGlobal = true ↔ event.scope = .global := by
    rw [LogEntry.isGlobal, EventLog.stamped_event, Event.isGlobal_iff]
  refine h.push (log.stamped event) rfl (EventLog.settled_committed h.settled event) rfl ?_
    fun isGlobal => ?_
  · simp only [EventLog.committed, global, EventLog.stamped_origin]
    split
    · rename_i scope
      rw [EventLog.stamped_cursor scope]
    · rfl
  · rw [EventLog.stamped_origin, EventLog.stamped_cursor (global.mp isGlobal)]
    exact h.settled.next_nextStamp

/-- What a call does to a log keeps it so, whatever the file answers. -/
theorem appends {events : List Event} {log' : EventLog} (h : Grown opened log)
    (steps : Appends log events log') : Grown opened log' := by
  induction steps with
  | refl => exact h
  | ok _ written ih =>
      rw [EventLog.append_ok written]
      exact ih.committed _
  | failed _ refused ih =>
      rcases EventLog.append_error refused with rfl | rfl
      · exact ih
      · exact ih.same rfl rfl rfl rfl
  | lockdown on _ ih => exact ih.same rfl rfl rfl rfl

theorem accepted (h : Grown opened log) {entry : LogEntry}
    (acceptable : log.acceptable entry = true) (foreign : entry.origin ≠ log.origin) :
    Grown opened (log.accepted entry) := by
  obtain ⟨global, next⟩ := EventLog.acceptable_next acceptable
  refine h.push entry rfl ?_ rfl ?_ fun _ => next
  · exact EventLog.settled_accepted h.settled acceptable fun own => absurd own foreign
  · rw [if_pos global]
    rfl

end Grown

namespace Db

variable {db : Db}

/-- A run of calls, restarts and arrivals without a compaction, in which no entry
of the store's own origin passes the checks. -/
def Foreign (db : Db) : Action → Prop
  | .ingest _ entry => entry.origin = db.log.origin → db.log.acceptable entry = false
  | .compact _ => False
  | .call .. | .reopen | .wire .. | .faults _ => True

theorem grown_step {opened : EventLog} (wf : db.Wf) (h : Grown opened db.log) {a : Action}
    (ok : db.Foreign a) : Grown opened (db.step a).log := by
  cases a with
  | call env c =>
      obtain ⟨events, steps⟩ := (Call.sound wf : Keeps Sound (c.run env) db).2
      exact h.appends steps
  | ingest env entry =>
      rw [step_ingest, EventLog.ingest_eq]
      cases acceptable : db.log.acceptable entry with
      | false => exact h
      | true =>
          cases db.log.faults.headD false with
          | true => exact h.same rfl rfl rfl rfl
          | false =>
              refine h.accepted acceptable fun own => ?_
              rw [ok own] at acceptable
              contradiction
  | compact env => exact ok.elim
  | reopen =>
      refine h.same (EventLog.open_origin _ _) (EventLog.open_entries _ _) ?_ ?_
      · exact h.settled.versions
      · exact h.settled.epoch
  | wire signing outbound => exact h.same rfl rfl rfl rfl
  | faults outcomes => exact h.same rfl rfl rfl rfl

/-- Why an entry is turned away: it is not Global, its signature is not that of a
trusted origin, it is not the next of its origin, or it is of the store's own
origin. -/
def Rejected (db : Db) (entry : LogEntry) : Prop :=
  entry.isGlobal = false ∨ db.log.signing.all (·.verify entry.content entry.sig) = false ∨
    ¬ Next db.log.versions[entry.origin]? entry.cursor ∨ entry.origin = db.log.origin

theorem step_rejected {env : Env} {entry : LogEntry} (ok : db.Foreign (.ingest env entry))
    (rejected : db.Rejected entry) : db.step (.ingest env entry) = db := by
  have refused : db.log.acceptable entry = false := by
    rcases rejected with notGlobal | unsigned | gap | own
    · unfold EventLog.acceptable
      rw [notGlobal]
      rfl
    · unfold EventLog.acceptable
      rw [unsigned, Bool.and_false, Bool.false_and]
    · refine Bool.eq_false_iff.mpr fun acceptable => gap ?_
      exact (EventLog.acceptable_next acceptable).2
    · exact ok own
  rw [step_ingest, EventLog.ingest_eq, refused]
  rfl

theorem mem_cursorsOf {entries : List LogEntry} {e : LogEntry} (mem : e ∈ entries)
    (global : e.isGlobal = true) : e.cursor ∈ cursorsOf e.origin entries :=
  List.mem_map_of_mem (List.mem_filter.mpr ⟨mem, by rw [global, beq_self_eq_true]; rfl⟩)

/-- Contiguous for each origin, entries of one origin stand in the order of their
cursors. -/
theorem ordered_of_contiguous {held : String → Option Cursor} {entries : List LogEntry}
    (h : ∀ o, Contiguous (held o) (cursorsOf o entries)) :
    entries.Pairwise fun a b =>
      a.isGlobal = true → b.isGlobal = true → a.origin = b.origin → Earlier a.cursor b.cursor := by
  refine List.pairwise_iff_forall_sublist.mpr fun {a b} both aGlobal bGlobal same => ?_
  have increasing := (h a.origin).increases.2
  unfold cursorsOf at increasing
  rw [List.pairwise_map, List.pairwise_filter] at increasing
  refine List.pairwise_iff_forall_sublist.mp increasing both ?_ ?_
  · rw [aGlobal, beq_self_eq_true]
    rfl
  · rw [bGlobal, same, beq_self_eq_true]
    rfl

/-- In a run in which no entry of the store's own origin passes the checks, what
the log adds is contiguous for each origin and follows what the file held, so no
Global entry is there twice; and an entry that is turned away changes nothing. -/
theorem ingested_once (origin : String) (file : List LogEntry) (actions : List Action)
    (run : Along Db.step Foreign (Db.open' origin file) actions) :
    let db := after Db.step (Db.open' origin file) actions
    (∃ new, db.log.entries = file ++ new ∧
      (∀ o : String, Contiguous (EventLog.open' origin file).versions[o]? (cursorsOf o new)) ∧
      (new.Pairwise fun a b =>
        a.isGlobal = true → b.isGlobal = true → a.origin = b.origin → Earlier a.cursor b.cursor) ∧
      ∀ e ∈ file, ∀ e' ∈ new, e.isGlobal = true → e'.isGlobal = true → e.origin = e'.origin →
        Earlier e.cursor e'.cursor) ∧
    ∀ env entry, db.Foreign (.ingest env entry) → db.Rejected entry →
      db.step (.ingest env entry) = db := by
  intro db
  have held := run.invariant
    (I := fun db : Db => db.Wf ∧ Grown (EventLog.open' origin file) db.log)
    (fun _ a h ok => ⟨wf_step h.1 a, grown_step h.1 h.2 ok⟩)
    ⟨wf_open origin file, .start origin file⟩
  obtain ⟨new, entries, cursors⟩ := held.2.grown
  rw [EventLog.open_entries] at entries
  have contiguous := fun o => (cursors o).1
  refine ⟨⟨new, entries, contiguous, ordered_of_contiguous contiguous, ?_⟩,
    fun _ _ ok rejected => step_rejected ok rejected⟩
  intro e mem e' mem' global global' same
  obtain ⟨h, reached, behind⟩ := EventLog.open_covers origin file e mem global
  have later : Earlier h e'.cursor := by
    refine (contiguous e.origin).increases.1 h reached e'.cursor ?_
    rw [same]
    exact mem_cursorsOf mem' global'
  unfold Earlier at behind later ⊢
  omega

/-- An entry of another node arrives twice. -/
def arrival : LogEntry := ⟨"b", 0, 0, 0, none, .accountVerified "bob"⟩

/-- The second time it changes nothing. -/
theorem ingested_once_again :
    (after Db.step (.fresh "a") [.ingest .still arrival]).step (.ingest .still arrival) =
      after Db.step (.fresh "a") [.ingest .still arrival] := by
  have held : (after Db.step (.fresh "a") [.ingest .still arrival]).log.versions["b"]? =
      some (0, 0) := by decide
  refine (ingested_once "a" [] [.ingest .still arrival] ⟨fun own => ?_, trivial⟩).2 .still arrival
    (fun own => ?_) (.inr (.inr (.inl ?_)))
  · exact absurd own (by decide)
  · exact absurd own (by decide)
  · change ¬ Next (after Db.step (.fresh "a") [.ingest .still arrival]).log.versions["b"]? (0, 0)
    rw [held]
    unfold Next
    omega

/-- An entry of the node's own origin from a later epoch arrives, the node
writes, and the entry arrives again. -/
def ownArrivals : List Action :=
  [.ingest .still ⟨"a", 0, 0, 1, none, .accountVerified "bob"⟩,
    .call .still (.operGrant "alice" ["admin"] none),
    .ingest .still ⟨"a", 0, 0, 1, none, .accountVerified "bob"⟩]

/-- It is taken both times. -/
theorem own_entry_folded_twice :
    cursorsOf "a" (after Db.step (.fresh "a") ownArrivals).log.entries = [(1, 0), (0, 0), (1, 0)] ∧
      ¬ (cursorsOf "a" (after Db.step (.fresh "a") ownArrivals).log.entries).Pairwise Earlier := by
  have taken : cursorsOf "a" (after Db.step (.fresh "a") ownArrivals).log.entries =
      [(1, 0), (0, 0), (1, 0)] := by decide
  refine ⟨taken, fun increasing => ?_⟩
  rw [taken] at increasing
  exact Earlier.irrefl ((List.pairwise_cons.mp increasing).1 (1, 0)
    (List.mem_cons_of_mem _ List.mem_cons_self))

end Db

end Echo
