import Echo.Db.Refused
import Echo.Db.Recover
import Echo.Lib.Runs

/-!
Runs of a store: calls of its mutators, entries arriving from other nodes,
compactions and restarts, with whatever outcomes the writes to the file have.

The records in memory follow the log: after a run they are what a restart would
rebuild, as long as each call stays in step and each compaction loses nothing.
-/

namespace Echo

open Std (ExtTreeMap)
open Echo.Lib

/-- One thing that happens to a store. -/
inductive Action where
  | call (env : Env) (c : Call)
  | ingest (env : Env) (entry : LogEntry)
  | compact (env : Env)
  /-- Restart over the file the log has written. -/
  | reopen
  /-- Configure signing and the channel of subscribers. -/
  | wire (signing : Option Signing) (outbound : Option (List LogEntry))
  /-- What the file will answer to the next writes. -/
  | faults (outcomes : List Bool)

/-- Surroundings in which nothing happens: a clock at zero, every check of a
pattern passing and every key refused. -/
def Env.still : Env where
  now := 0
  validatePubkey _ := none
  regexCompiles _ := true
  iter := id
  iter_perm _ := .refl _

namespace Db

/-- A store over an empty file. -/
def fresh (origin : String) : Db := Db.open' origin []

def step (db : Db) : Action → Db
  | .call env c => ((c.run env).run db).2
  | .ingest env entry => ((Db.ingest env entry).run.run db).2
  | .compact env => ((Db.compact env).run.run db).2
  | .reopen => Db.open' db.log.origin db.log.entries
  | .wire signing outbound => { db with log := { db.log with signing, outbound } }
  | .faults outcomes => { db with log := { db.log with faults := outcomes } }

variable {db : Db}

/-! ### One step -/

theorem step_ingest (env : Env) (entry : LogEntry) (db : Db) :
    db.step (.ingest env entry) =
      match db.log.ingest entry with
      | (log, .ok (some event)) => { db with toStore := apply db.toStore event, log }
      | (log, _) => { db with log } := by
  change ((Db.ingest env entry).run.run db).2 = _
  unfold Db.ingest
  rw [ExceptT.run_bind, StateT.run_bind]
  change ((ExceptT.run (_ : DbM IoError _)).run db).2 = _
  rcases db.log.ingest entry with ⟨log, e | _ | event⟩ <;> rfl

theorem step_compact (env : Env) (db : Db) :
    db.step (.compact env) =
      { db with log := (db.log.compact (db.toStore.snapshot env)).1 } := by
  change ((Db.compact env).run.run db).2 = _
  unfold Db.compact
  rw [ExceptT.run_bind, StateT.run_bind]
  change ((ExceptT.run (_ : DbM IoError _)).run db).2 = _
  rcases db.log.compact (db.toStore.snapshot env) with ⟨log, e | ⟨⟩⟩ <;> rfl

/-- The log grew by some entries, and the records by the fold of their events. -/
def Follows (db db' : Db) : Prop :=
  ∃ logged, eventsOf db'.log.entries = eventsOf db.log.entries ++ logged ∧
    db'.toStore = fold db.toStore logged

end Db

theorem EventLog.Appends.events {log log' : EventLog} {events : List Event}
    (h : Appends log events log') : eventsOf log'.entries = eventsOf log.entries ++ events := by
  induction h with
  | refl => exact (List.append_nil _).symm
  | ok first written ih =>
      rw [append_ok written, ← List.append_assoc, ← ih]
      simp [committed, eventsOf]
  | failed first refused ih =>
      rcases append_error refused with rfl | rfl
      · exact ih
      · exact ih
  | lockdown on first ih => exact ih

namespace Db

variable {db : Db}

theorem follows_of_lockstep {db' : Db} (h : Lockstep db db') : Follows db db' := by
  obtain ⟨events, logs, stores⟩ := h
  exact ⟨events, logs.events, stores⟩

theorem follows_ingest (env : Env) (entry : LogEntry) :
    Follows db (db.step (.ingest env entry)) := by
  rw [step_ingest, EventLog.ingest_eq]
  cases db.log.acceptable entry with
  | false => exact ⟨[], (List.append_nil _).symm, rfl⟩
  | true =>
      cases db.log.faults.headD false with
      | true => exact ⟨[], (List.append_nil _).symm, rfl⟩
      | false => exact ⟨[entry.event], eventsOf_append db.log.entries [entry], rfl⟩

theorem wf_open (origin : String) (file : List LogEntry) : (Db.open' origin file).Wf :=
  fold_wf wf_empty _

/-- Every action leaves a well-formed store. -/
theorem wf_step (wf : db.Wf) (a : Action) : (db.step a).Wf := by
  cases a with
  | call env c => exact Call.wf wf
  | ingest env entry =>
      obtain ⟨events, -, stores⟩ := follows_ingest env entry
      rw [stores]
      exact fold_wf wf events
  | compact env =>
      rw [step_compact]
      exact wf
  | reopen => exact wf_open db.log.origin db.log.entries
  | wire signing outbound => exact wf
  | faults outcomes => exact wf

/-- A store reached from an opened one. -/
theorem wf_after {origin : String} {file : List LogEntry} (actions : List Action) :
    (after Db.step (Db.open' origin file) actions).Wf :=
  invariant (I := fun db : Db => db.Wf) (fun _ a wf => wf_step wf a) (wf_open origin file) actions

/-! ### Live state and replay -/

/-- No write to the file will be refused. -/
def Reliable (db : Db) : Prop := db.log.readonly = false ∧ db.log.faults = []

/-- A run of calls whose writes succeed and of entries from other nodes, each
call in step with the fold of what it logs. -/
def InStep (db : Db) : Action → Prop
  | .call env c => (db.Reliable ∨ ∃ on, c = .setReadonly on) ∧ c.inStep env db
  | .compact _ | .faults _ => False
  | .ingest .. | .reopen | .wire .. => True

theorem Reliable.writableFor (h : db.Reliable) (n : Nat) : db.log.writableFor n = true := by
  unfold EventLog.writableFor
  rw [h.1, h.2, List.take_nil]
  rfl

theorem Reliable.writable (h : db.Reliable) : db.log.writable = true := by
  unfold EventLog.writable
  rw [h.1, h.2]
  rfl

/-- On a reliable log a call that is in step is safe. -/
theorem Reliable.safe (h : db.Reliable) {env : Env} {c : Call} (inStep : c.inStep env db) :
    c.safe env db := by
  have offered : ∀ event ∈ c.offers env db,
      db.log.writable = true ∨ apply db.toStore event = db.toStore := fun _ _ => .inl h.writable
  cases c with
  | memoSend | botDel | botChange => exact fun _ => inStep
  | botDelAll => exact fun _ _ => ⟨h.writableFor _, inStep⟩
  | notifyClear => exact fun _ _ => h.writableFor _
  | reportFile | helpRequest => exact ⟨inStep, fun _ => h.writable⟩
  | _ => exact offered

theorem Follows.live {db' : Db} (h : Follows db db')
    (live : db.toStore = replay db.log.entries) : db'.toStore = replay db'.log.entries := by
  obtain ⟨logged, entries, stores⟩ := h
  unfold Echo.replay at *
  rw [stores, live, entries, fold_append]

/-- What a restart rebuilds is what is in memory. -/
theorem replay_open (origin : String) (file : List LogEntry) :
    (Db.open' origin file).toStore = replay (Db.open' origin file).log.entries := rfl

theorem replay_step (wf : db.Wf) {a : Action} (ok : db.InStep a)
    (live : db.toStore = replay db.log.entries) :
    (db.step a).toStore = replay (db.step a).log.entries := by
  cases a with
  | call env c =>
      have safe : c.safe env db := by
        rcases ok.1 with reliable | ⟨on, rfl⟩
        · exact reliable.safe ok.2
        · exact fun _ none => by contradiction
      exact (follows_of_lockstep (Call.lockstep wf safe)).live live
  | ingest env entry => exact (follows_ingest env entry).live live
  | compact env => exact ok.elim
  | reopen => exact replay_open db.log.origin db.log.entries
  | wire signing outbound => exact live
  | faults outcomes => exact ok.elim

/-- In a run of calls that stay in step, what is in memory is what a restart
would rebuild. -/
theorem live_eq_replay (origin : String) (file : List LogEntry) (actions : List Action)
    (run : Along Db.step InStep (Db.open' origin file) actions) :
    (after Db.step (Db.open' origin file) actions).toStore =
      replay (after Db.step (Db.open' origin file) actions).log.entries := by
  refine (run.invariant (I := fun db : Db => db.Wf ∧ db.toStore = replay db.log.entries)
    ?_ ⟨wf_open origin file, replay_open origin file⟩).2
  intro db a ⟨wf, live⟩ ok
  exact ⟨wf_step wf a, replay_step wf ok live⟩

/-- Adding one bot to a fresh store stays in step. -/
theorem live_eq_replay_botAdd :
    (after Db.step (.fresh "a") [.call .still (.botAdd "Botty" "bot" "host" "A bot")]).toStore =
      replay (after Db.step (.fresh "a")
        [.call .still (.botAdd "Botty" "bot" "host" "A bot")]).log.entries :=
  live_eq_replay "a" [] _ ⟨⟨.inl ⟨rfl, rfl⟩, trivial⟩, trivial⟩

/-- A bot is added, made the default and deleted. -/
def defaultBotDeleted : List Action :=
  [.call .still (.botAdd "Botty" "bot" "host" "A bot"), .call .still (.setDefaultBot (some "Botty")),
    .call .still (.botDel "Botty")]

/-- In memory the deleted bot stays the default; a restart clears it. -/
theorem live_ne_replay_botDel :
    Along Db.step (fun db _ => db.Reliable) (.fresh "a") defaultBotDeleted ∧
      (after Db.step (.fresh "a") defaultBotDeleted).persisted ≠
        (replay (after Db.step (.fresh "a") defaultBotDeleted).log.entries).persisted := by
  constructor
  · exact ⟨⟨rfl, rfl⟩, ⟨rfl, rfl⟩, ⟨rfl, rfl⟩, trivial⟩
  · intro same
    have live : (after Db.step (.fresh "a") defaultBotDeleted).net.defaultBot = some "botty" := by
      decide
    have replayed : (replay (after Db.step (.fresh "a")
        defaultBotDeleted).log.entries).net.defaultBot = none := by decide
    have defaults := congrArg (fun s : Store => s.net.defaultBot) same
    exact absurd (live.symm.trans (defaults.trans replayed)) (by simp)

/-! ### Compaction -/

/-- A compaction that gets to rewrite the file writes the snapshot, and the fold
of the snapshot is the store up to what had expired exactly when the store is
lossless. -/
theorem snapshot_preserves_iff (origin : String) (file : List LogEntry) (actions : List Action)
    (env : Env) :
    let db := after Db.step (Db.open' origin file) actions
    eventsOf (db.step (.compact env)).log.entries =
        (if db.log.rewrites (db.toStore.snapshot env) then db.toStore.snapshot env
          else eventsOf db.log.entries) ∧
      ((fold {} (db.toStore.snapshot env)).persisted = (db.toStore.forgetExpired env.now).persisted ↔
        db.toStore.Lossless) := by
  intro db
  constructor
  · rw [step_compact]
    exact db.log.eventsOf_compact (db.toStore.snapshot env)
  · have rebuilt : fold {} (db.toStore.snapshot env) = db.toStore.recovered env.now :=
      Store.rebuilds_snapshot (wf_after actions) env
    rw [rebuilt]
    exact Store.recovered_persisted_iff

/-- A channel is registered and its topic cleared. -/
def topicCleared : List Action :=
  [.call .still (.registerChannel "#chan" "alice"), .call .still (.setChannelTopic "#chan" "" "alice")]

/-- The snapshot forgets who cleared the topic. -/
theorem snapshot_loses_topicSetter :
    (after Db.step (.fresh "a") topicCleared).log.rewrites
        ((after Db.step (.fresh "a") topicCleared).toStore.snapshot .still) = true ∧
      (fold {} ((after Db.step (.fresh "a") topicCleared).toStore.snapshot .still)).persisted ≠
        ((after Db.step (.fresh "a") topicCleared).toStore.forgetExpired 0).persisted := by
  constructor
  · decide
  · intro same
    have forgotten := congrArg (fun s : Store => (s.channels["#chan"]?).map (·.topicSetter)) same
    exact absurd forgotten (by decide)

/-! ### Refused writes -/

/-- A run in which writes may be refused: each call is safe, and a compaction
that gets to rewrite the file does so to a store it loses nothing of. -/
def Traceless (db : Db) : Action → Prop
  | .call env c => c.safe env db
  | .compact env =>
      db.log.rewrites (db.toStore.snapshot env) = true →
        db.toStore.Lossless ∧ db.toStore.forgetExpired env.now = db.toStore
  | .ingest .. | .reopen | .wire .. | .faults _ => True

theorem Follows.persisted {db' : Db} (h : Follows db db')
    (live : db.persisted = (replay db.log.entries).persisted) :
    db'.persisted = (replay db'.log.entries).persisted := by
  obtain ⟨logged, entries, stores⟩ := h
  unfold Echo.replay at *
  rw [stores, entries, fold_append]
  exact fold_persisted live logged

theorem persisted_step (wf : db.Wf) {a : Action} (ok : db.Traceless a)
    (live : db.persisted = (replay db.log.entries).persisted) :
    (db.step a).persisted = (replay (db.step a).log.entries).persisted := by
  cases a with
  | call env c =>
      exact (follows_of_lockstep (Call.lockstep wf ok)).persisted live
  | ingest env entry => exact (follows_ingest env entry).persisted live
  | compact env =>
      rw [step_compact]
      unfold replay
      rw [EventLog.eventsOf_compact]
      split
      · rename_i rewrites
        obtain ⟨lossless, unexpired⟩ := ok rewrites
        rw [show fold {} (db.toStore.snapshot env) = db.toStore.recovered env.now from
          Store.rebuilds_snapshot wf env, Store.recovered_persisted_iff.mpr lossless, unexpired]
      · exact live
  | reopen => rfl
  | wire signing outbound => exact live
  | faults outcomes => exact live

/-- Whatever writes are refused, the records in memory are the fold of what was
logged; after each call they have moved by exactly what it logged. -/
theorem memory_follows_log (origin : String) (file : List LogEntry) (actions : List Action)
    (run : Along Db.step Traceless (Db.open' origin file) actions) :
    let db := after Db.step (Db.open' origin file) actions
    db.persisted = (replay db.log.entries).persisted ∧
      ∀ env c, c.safe env db → Follows db (db.step (.call env c)) := by
  have held := run.invariant
    (I := fun db : Db => db.Wf ∧ db.persisted = (replay db.log.entries).persisted)
    (fun _ a h ok => ⟨wf_step h.1 a, persisted_step h.1 ok h.2⟩) ⟨wf_open origin file, rfl⟩
  exact ⟨held.2, fun env c safe => follows_of_lockstep (Call.lockstep held.1 safe)⟩

/-- Granting an operator on a fresh store is safe. -/
theorem memory_follows_log_operGrant :
    (after Db.step (.fresh "a") [.call .still (.operGrant "alice" ["admin"] none)]).persisted =
        (replay (after Db.step (.fresh "a")
          [.call .still (.operGrant "alice" ["admin"] none)]).log.entries).persisted ∧
      Follows (after Db.step (.fresh "a") [.call .still (.operGrant "alice" ["admin"] none)])
        ((after Db.step (.fresh "a") [.call .still (.operGrant "alice" ["admin"] none)]).step
          (.call .still (.operRevoke "bob"))) := by
  have followed := memory_follows_log "a" [] [.call .still (.operGrant "alice" ["admin"] none)]
    ⟨fun _ _ => .inl rfl, trivial⟩
  exact ⟨followed.1, followed.2 .still (.operRevoke "bob") (fun _ offered => by contradiction)⟩

/-- The file refuses the grant. -/
def grantRefused : List Action :=
  [.faults [true], .call .still (.operGrant "alice" ["admin"] none)]

/-- The grant stands in memory all the same. -/
theorem operGrant_refused_leaves_trace :
    (after Db.step (.fresh "a") grantRefused).log.entries = [] ∧
      (after Db.step (.fresh "a") grantRefused).persisted ≠
        (replay (after Db.step (.fresh "a") grantRefused).log.entries).persisted := by
  constructor
  · rfl
  · intro same
    have granted := congrArg (fun s : Store => s.net.opers.contains "alice") same
    exact absurd granted (by decide)

end Db

end Echo
