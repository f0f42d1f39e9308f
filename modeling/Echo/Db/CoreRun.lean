import Echo.Db.Core
import Echo.Db.LogRun

/-!
Runs seen through the core. After any run the core in memory is the one a
restart rebuilds, so a restart and a compaction leave it alone, and what moves
it is what the calls were permitted to log and the entries that were taken in.
A property that the core decides is an invariant when those events keep it.
-/

namespace Echo

open Echo.Lib

theorem ChannelInfo.core_recovered (c : ChannelInfo) : c.recovered.core = c.core := rfl

/-- A snapshot loses nothing of the core. -/
theorem Store.core_recovered {opers : Bool} (now : Nat) (s : Store) :
    (s.recovered now).core opers = s.core opers := by
  refine core_congr rfl ?_ rfl ?_
  · change (s.channels.map fun _ c => c.recovered).map _ = _
    rw [map_map]
    rfl
  · cases opers <;> rfl

namespace Db

variable {opers : Bool} {db : Db} {a : Action}

/-- Whether an entry of another node is taken in: it passes the checks and the
file takes it. -/
def adopts (db : Db) (entry : LogEntry) : Bool :=
  db.log.acceptable entry && !db.log.faults.headD false

theorem step_ingest_adopts (env : Env) (entry : LogEntry) :
    (db.step (.ingest env entry)).toStore =
      if db.adopts entry then apply db.toStore entry.event else db.toStore := by
  rw [step_ingest, EventLog.ingest_eq]
  unfold adopts
  cases db.log.acceptable entry with
  | false => rfl
  | true => cases db.log.faults.headD false <;> rfl

theorem replay_ingest_adopts (env : Env) (entry : LogEntry) :
    replay (db.step (.ingest env entry)).log.entries =
      if db.adopts entry then apply (replay db.log.entries) entry.event
      else replay db.log.entries := by
  rw [step_ingest, EventLog.ingest_eq]
  unfold adopts
  cases db.log.acceptable entry with
  | false => rfl
  | true =>
      cases db.log.faults.headD false with
      | true => rfl
      | false =>
          change fold {} (eventsOf (db.log.entries ++ [entry])) = _
          rw [eventsOf_append]
          exact fold_concat _ _ _

/-- What an action may fold: a call what its guards let it log, an entry of
another node its event. -/
def permits (db : Db) : Action → Store → Event → Prop
  | .call _ c, s, e => c.permits s e
  | .ingest _ entry, s, e => db.adopts entry = true ∧ s = db.toStore ∧ e = entry.event
  | _, _, _ => False

/-- The core in memory is the one a restart rebuilds. -/
def Tracked (db : Db) : Prop :=
  db.toStore.core false = (replay db.log.entries).core false

theorem tracked_open (origin : String) (file : List LogEntry) :
    (Db.open' origin file).Tracked := rfl

theorem Tracked.tracks {c : Call} {db' : Db} (tracked : db.Tracked) (h : Tracks c db db') :
    db'.Tracked := by
  obtain ⟨events, logs, -, cores⟩ := h
  unfold Tracked replay at *
  rw [cores, logs.events, fold_append]
  exact fold_core tracked events

theorem replay_reopen (db : Db) : (db.step .reopen).toStore = replay db.log.entries := by
  change fold {} (eventsOf (EventLog.open' db.log.origin db.log.entries).entries) = _
  rw [EventLog.open_entries]
  rfl

/-- What a compaction leaves to be rebuilt. -/
theorem replay_compact (wf : db.Wf) (env : Env) :
    replay (db.step (.compact env)).log.entries =
      if db.log.rewrites (db.toStore.snapshot env) then db.toStore.recovered env.now
      else replay db.log.entries := by
  rw [step_compact]
  unfold replay
  rw [EventLog.eventsOf_compact]
  split
  · exact Store.rebuilds_snapshot wf env
  · rfl

/-- What a compaction leaves to be rebuilt is what it found in memory, or what
was to be rebuilt before. -/
theorem core_replay_compact (opers : Bool) (wf : db.Wf) (env : Env) :
    (replay (db.step (.compact env)).log.entries).core opers = db.toStore.core opers ∨
      replay (db.step (.compact env)).log.entries = replay db.log.entries := by
  rw [replay_compact wf]
  split
  · left
    exact Store.core_recovered env.now db.toStore
  · exact .inr rfl

theorem tracked_step (wf : db.Wf) (tracked : db.Tracked) : (db.step a).Tracked := by
  cases a with
  | call env c => exact tracked.tracks (Call.tracks wf)
  | ingest env entry =>
      obtain ⟨events, entries, stores⟩ : Follows db _ := follows_ingest env entry
      unfold Tracked replay at *
      rw [stores, entries, fold_append]
      exact fold_core tracked events
  | compact env =>
      unfold Tracked
      rcases core_replay_compact false wf env with taken | kept
      · rw [taken, step_compact]
      · rw [kept, step_compact]
        exact tracked
  | reopen => rfl
  | wire signing outbound => exact tracked
  | faults outcomes => exact tracked

/-- Each action moves the core by the events it is permitted. -/
theorem core_step (wf : db.Wf) (tracked : db.Tracked) :
    ∃ events, Along apply (db.permits a) db.toStore events ∧
      (db.step a).toStore.core false = (fold db.toStore events).core false := by
  cases a with
  | call env c =>
      obtain ⟨events, -, permitted, cores⟩ : Tracks c db _ := Call.tracks wf
      exact ⟨events, permitted, cores⟩
  | ingest env entry =>
      rw [step_ingest_adopts]
      split
      · rename_i adopted
        exact ⟨[entry.event], ⟨⟨adopted, rfl, rfl⟩, trivial⟩, rfl⟩
      · exact ⟨[], trivial, rfl⟩
  | compact env =>
      rw [step_compact]
      exact ⟨[], trivial, rfl⟩
  | reopen =>
      rw [replay_reopen]
      exact ⟨[], trivial, tracked.symm⟩
  | wire signing outbound => exact ⟨[], trivial, rfl⟩
  | faults outcomes => exact ⟨[], trivial, rfl⟩

/-- A property that the core decides is kept by an action when the events the
action is permitted keep it. -/
theorem core_invariant_step {I : Store → Prop} (decided : ∀ s, I (s.core false) ↔ I s)
    (wf : db.Wf) (tracked : db.Tracked)
    (keeps : ∀ s e, db.permits a s e → I s → I (apply s e)) (start : I db.toStore) :
    I (db.step a).toStore := by
  obtain ⟨events, permitted, cores⟩ := core_step wf tracked
  have folded : I (fold db.toStore events) :=
    permitted.invariant (fun s e held allowed => keeps s e allowed held) start
  rwa [← decided, cores, decided]

end Db

/-! ### A serving node -/

/-- What happens to a node between two restarts. -/
inductive Service where
  | call (env : Env) (c : Call)
  | ingest (env : Env) (entry : LogEntry)
  | compact (env : Env)
  | faults (outcomes : List Bool)

def Service.action : Service → Action
  | .call env c => .call env c
  | .ingest env entry => .ingest env entry
  | .compact env => .compact env
  | .faults outcomes => .faults outcomes

def Db.serve (db : Db) (a : Service) : Db := db.step a.action

theorem Db.wf_serve {db : Db} (wf : db.Wf) (a : Service) : (db.serve a).Wf := wf_step wf a.action

end Echo
