import Echo.Db.Network
import Echo.Db.Wf
import Echo.Lib.Runs

/-!
Lockstep: what a mutator does to the records in memory is what the fold does
with the events it logged meanwhile, and nothing else.

A mutator that ends the call on a failed write keeps lockstep whatever fails;
one that ignores the failure keeps it only where the write goes through. The
events reach the log through `append` alone, which `Appends` follows.

`LockstepIn P` also says what the mutator's guards have checked: each event was
logged over records that `P` permits it in.
-/

namespace Echo

open Std (ExtTreeMap)
open Echo.Lib

namespace EventLog

/-- `log'` is reached from `log` by appends, `events` being those that succeeded,
and by entering and leaving lockdown. -/
inductive Appends : EventLog → List Event → EventLog → Prop where
  | refl (log : EventLog) : Appends log [] log
  | ok {log mid log' : EventLog} {events : List Event} {event : Event} :
      Appends log events mid → mid.append event = (log', .ok ()) →
      Appends log (events ++ [event]) log'
  | failed {log mid log' : EventLog} {events : List Event} {event : Event} {e : IoError} :
      Appends log events mid → mid.append event = (log', .error e) → Appends log events log'
  | lockdown {log mid : EventLog} {events : List Event} (on : Bool) :
      Appends log events mid → Appends log events { mid with readonly := on }

theorem Appends.trans {log mid log' : EventLog} {events events' : List Event}
    (first : Appends log events mid) (second : Appends mid events' log') :
    Appends log (events ++ events') log' := by
  induction second with
  | refl => rwa [List.append_nil]
  | ok _ written ih =>
      rw [← List.append_assoc]
      exact .ok ih written
  | failed _ refused ih => exact .failed ih refused
  | lockdown on _ ih => exact .lockdown on ih

end EventLog

open EventLog (Appends)

/-- The records moved exactly as the events logged meanwhile say. -/
def Lockstep (db db' : Db) : Prop :=
  ∃ events, Appends db.log events db'.log ∧ db'.toStore = fold db.toStore events

instance : IsPreorder Db Lockstep where
  refl db := ⟨[], .refl db.log, rfl⟩
  trans := by
    rintro a b c ⟨events, logs, stores⟩ ⟨events', logs', stores'⟩
    refine ⟨events ++ events', logs.trans logs', ?_⟩
    rw [stores', stores, fold_append]

theorem Lockstep.wf {db db' : Db} (h : Lockstep db db') (wf : db.Wf) : db'.Wf := by
  obtain ⟨events, -, stores⟩ := h
  rw [stores]
  exact fold_wf wf events

/-- Lockstep in which each event was logged over records that permit it. -/
def LockstepIn (P : Store → Event → Prop) (db db' : Db) : Prop :=
  ∃ events, Appends db.log events db'.log ∧ Along apply P db.toStore events ∧
    db'.toStore = fold db.toStore events

variable {P : Store → Event → Prop}

instance : IsPreorder Db (LockstepIn P) where
  refl db := ⟨[], .refl db.log, trivial, rfl⟩
  trans := by
    rintro a b c ⟨events, logs, permitted, stores⟩ ⟨events', logs', permitted', stores'⟩
    refine ⟨events ++ events', logs.trans logs', along_append.mpr ⟨permitted, ?_⟩, ?_⟩
    · rwa [stores] at permitted'
    · rw [stores', stores, fold_append]

theorem LockstepIn.lockstep {db db' : Db} (h : LockstepIn P db db') : Lockstep db db' := by
  obtain ⟨events, logs, -, stores⟩ := h
  exact ⟨events, logs, stores⟩

/-- Session data is nobody's record. -/
theorem LockstepIn.of_same {db db' : Db} (stores : db'.toStore = db.toStore)
    (logs : db'.log = db.log) : LockstepIn P db db' :=
  ⟨[], logs ▸ .refl db.log, trivial, stores⟩

theorem Lockstep.of_same {db db' : Db} (stores : db'.toStore = db.toStore)
    (logs : db'.log = db.log) : Lockstep db db' :=
  ⟨[], logs ▸ .refl db.log, stores⟩

namespace Db

variable {ε α : Type} {db : Db} {P : Store → Event → Prop}

/-! ### The two ways of writing -/

/-- How a write to the log that ends the call comes out. -/
theorem run_append (event : Event) (onError : IoError → ε) (db : Db) :
    (append event onError).run.run db =
      match db.log.append event with
      | (log, .ok ()) => (.ok (), { db with log })
      | (log, .error e) => (.error (onError e), { db with log }) := by
  unfold append
  rw [ExceptT.run_bind, StateT.run_bind]
  change (ExceptT.run (_ : DbM ε Unit)).run db = _
  rcases db.log.append event with ⟨log, e | ⟨⟩⟩ <;> rfl

/-- How an edit that its log entry precedes comes out: a refused entry leaves it
undone. -/
theorem run_logged (event : Event) (onError : IoError → ε) (write : Store → Store) (db : Db) :
    (logged event onError write).run.run db =
      match db.log.append event with
      | (log, .ok ()) => (.ok (), { db with toStore := write db.toStore, log })
      | (log, .error e) => (.error (onError e), { db with log }) := by
  unfold logged
  rw [run_bindE, run_append]
  rcases db.log.append event with ⟨log, e | ⟨⟩⟩ <;> rfl

/-- Where the edit is the fold of the event, logging and then editing keeps
lockstep: a refused event edits nothing. -/
theorem lockstep_logged {event : Event} {onError : IoError → ε} {write : Store → Store}
    (same : write db.toStore = apply db.toStore event) (permitted : P db.toStore event) :
    Keeps (LockstepIn P) (logged event onError write).run db := by
  unfold Keeps logged
  rw [run_bindE, run_append]
  rcases outcome : db.log.append event with ⟨log, e | ⟨⟩⟩
  · exact ⟨[], (Appends.refl db.log).failed outcome, trivial, rfl⟩
  · exact ⟨[event], (Appends.refl db.log).ok outcome, ⟨permitted, trivial⟩, same⟩

/-- A refused write ends the call with the records as they were. -/
theorem lockstep_logged_refused {event : Event} {onError : IoError → ε} {write : Store → Store}
    (refused : db.log.writable = false) :
    Keeps (LockstepIn P) (logged event onError write).run db := by
  obtain ⟨e, log, outcome, -⟩ := EventLog.append_of_not_writable refused event
  unfold Keeps logged
  rw [run_bindE, run_append, outcome]
  exact ⟨[], (Appends.refl db.log).failed outcome, trivial, rfl⟩

/-- What a write that ignores the log's answer does: the log takes its attempt,
the records the edit. -/
theorem run_quietly (event : Event) (write : Store → Store) (db : Db) :
    ((quietly event write).run db).2 =
      { db with toStore := write db.toStore, log := (db.log.append event).1 } := by
  unfold quietly
  change ((edit write).run ((append event id).run.run db).2).2 = _
  rw [run_append]
  rcases db.log.append event with ⟨log, e | ⟨⟩⟩ <;> rfl

/-- A write that ignores the log's answer keeps lockstep where the log takes it. -/
theorem lockstep_quietly {event : Event} {write : Store → Store}
    (same : write db.toStore = apply db.toStore event) (permitted : P db.toStore event)
    (writable : db.log.writable = true) : Keeps (LockstepIn P) (quietly event write) db := by
  unfold Keeps
  rw [run_quietly]
  have written := EventLog.append_of_writable writable event
  exact ⟨[event], (Appends.refl db.log).ok (by rw [written]), ⟨permitted, trivial⟩, same⟩

end Db

end Echo
