import Echo.Db.Log
import Echo.Lib.Stateful

/-!
The store (`mod.rs`, `Db`): the records in memory, the log they are written to
first, and the session data its mutators read. A mutator is a program over the
`Db`: it checks its guards, logs an event and edits the records by hand.

An `Env` is what a call takes from outside: the clock, the checks of the regex
and ECDSA libraries, and the order a `HashMap` happens to iterate in.
-/

namespace Echo

open Std (ExtTreeMap)
open Echo.Lib

/-- The surroundings of one call. The clock does not move within it. -/
structure Env where
  now : Nat
  /-- The normalized form of a SASL public key, if it is a valid one. -/
  validatePubkey : String → Option String
  /-- Whether a pattern compiles within the size limit. -/
  regexCompiles : String → Bool
  /-- The order in which a map's bindings are visited. -/
  iter : {α : Type} → List α → List α
  iter_perm : ∀ {α : Type} (l : List α), (iter l).Perm l

namespace Env

/-- `HashMap::iter`. -/
def entries {α : Type} (env : Env) (m : Table α) : List (String × α) := env.iter m.toList

/-- `HashMap::values`. -/
def values {α : Type} (env : Env) (m : Table α) : List α := (env.entries m).map Prod.snd

theorem mem_entries {α : Type} {env : Env} {m : Table α} {k : String} {v : α} :
    (k, v) ∈ env.entries m ↔ m[k]? = some v := by
  unfold entries
  rw [(env.iter_perm _).mem_iff, ExtTreeMap.mem_toList_iff_getElem?_eq_some]

theorem mem_values {α : Type} {env : Env} {m : Table α} {v : α} :
    v ∈ env.values m ↔ ∃ k : String, m[k]? = some v := by
  unfold values
  rw [List.mem_map]
  constructor
  · rintro ⟨⟨k, w⟩, mem, rfl⟩
    exact ⟨k, mem_entries.mp mem⟩
  · rintro ⟨k, held⟩
    exact ⟨(k, v), mem_entries.mpr held, rfl⟩

end Env

/-- When what is set for this long runs out, by the sum of 64-bit numbers. -/
def expiryAfter (now duration : Nat) : Nat := (now + duration) % 2 ^ 64

inductive RegError where
  | «exists» | internal | invalid
  deriving DecidableEq, Repr

inductive CertError where
  | invalid | inUse | noAccount | full | internal
  deriving DecidableEq, Repr

inductive ChanError where
  | «exists» | noChannel | invalidPattern | full | internal
  deriving DecidableEq, Repr

structure Db extends Store where
  log : EventLog
  /-- Whether outbound email is configured. -/
  emailEnabled : Bool := false
  /-- Invite-only: a new account waits for a member to vouch. -/
  registrationVouch : Bool := false
  /-- The last vhost request of each account. -/
  vhostReqTimes : Table Nat := ∅
  /-- The last report of each reporter, and help request under its own prefix. -/
  reportTimes : Table Nat := ∅

/-- A call that may fail; the state it leaves is kept either way. -/
abbrev DbM (ε α : Type) := ExceptT ε (StateM Db) α

namespace Db

/-- Open a store over the entries its log file holds. -/
def open' (origin : String) (file : List LogEntry) : Db :=
  { toStore := fold {} (eventsOf (EventLog.open' origin file).entries)
    log := EventLog.open' origin file }

/-! ### How a mutator writes -/

/-- Edit the records in memory. -/
def edit (write : Store → Store) : StateM Db Unit :=
  modify fun db => { db with toStore := write db.toStore }

/-- `self.log.append(event).map_err(onError)?` -/
def append {ε : Type} (event : Event) (onError : IoError → ε) : DbM ε Unit := do
  let db ← get
  let attempt := db.log.append event
  set { db with log := attempt.1 }
  match attempt.2 with
  | .ok () => pure ()
  | .error e => throw (onError e)

/-- Log an event, then edit the records; a failed write ends the call before the
edit. -/
def logged {ε : Type} (event : Event) (onError : IoError → ε) (write : Store → Store) :
    DbM ε Unit := do
  append event onError
  edit write

/-- `let _ = self.log.append(event)`: edit the records whether or not the event
reached the log. -/
def quietly (event : Event) (write : Store → Store) : StateM Db Unit := do
  let _ ← (append event id).run
  edit write

/-- Log one event for each element, ending at the first failed write. -/
def appendEach {ε α : Type} (eventOf : α → Event) (onError : IoError → ε) (l : List α) :
    DbM ε Unit :=
  l.forM fun x => append (eventOf x) onError

/-- Run a call for its effect, its answer read by the caller. -/
def effect {ε α : Type} (call : DbM ε α) : StateM Db Unit := do
  let _ ← call.run

/-! ### Reads -/

/-- Resolve a name, an account or a nick grouped to one, to the storage key of
its account. -/
def resolvedKey (db : Db) (name : String) : Option String :=
  if db.accounts.contains (key name) then some (key name)
  else (db.grouped[key name]?).map key

def «exists» (db : Db) (name : String) : Bool := (db.resolvedKey name).isSome

/-- The group named `name`, if it exists. -/
def group (db : Db) (name : String) : Option Group :=
  db.net.groups.find? fun g => key g.name == key name

/-- Whether an account has a set, unexpired suspension. -/
def isSuspended (db : Db) (env : Env) (account : String) : Bool :=
  ((db.accounts[key account]?).bind (·.suspension)).any fun s =>
    s.expires.all (· > env.now)

/-! ### Ingest -/

/-- What the engine must carry out on the local ircd after an ingest. -/
inductive IngestEffect where
  | takenOver (account : String)
  | dropped (account : String)
  | suspended (account : String)
  | banAdded (kind mask setter : String) (duration : Nat) (reason : String)
  | banLifted (kind mask : String)
  deriving DecidableEq, Repr

/-- The account an incoming entry may take over or drop, with its owner and
credential before the fold. -/
def watched (db : Db) (event : Event) : Option (String × Option (String × Option String)) :=
  let look (name : String) := (db.accounts[key name]?).map fun c => (c.home, c.scram256)
  match event with
  | .accountRegistered a => some (a.name, look a.name)
  | .accountDropped account => some (account, look account)
  | _ => none

/-- A takeover or drop, read off the account before and after the fold. A moved
home with the same verifier is the same account re-asserted. -/
def ownerEffect (before : Option (String × Option (String × Option String))) (db : Db) :
    Option IngestEffect :=
  match before with
  | some (name, some (home, verifier)) =>
      match db.accounts[key name]? with
      | some cur =>
          if cur.home ≠ home ∧ cur.scram256 ≠ verifier then some (.takenOver name) else none
      | none => some (.dropped name)
  | _ => none

/-- A ban the local ircd must add or lift. One already expired is not installed:
a zero duration would read as permanent. -/
def banEffect (env : Env) : Event → Option IngestEffect
  | .akillAdded kind mask setter reason _ expires =>
      if expires.any (· ≤ env.now) then none
      else some (.banAdded kind mask setter ((expires.map (· - env.now)).getD 0) reason)
  | .akillRemoved kind mask => some (.banLifted kind mask)
  | _ => none

def suspendEffect (env : Env) (db : Db) : Event → Option IngestEffect
  | .accountSuspended account .. =>
      if db.isSuspended env account then some (.suspended account) else none
  | _ => none

/-- Fold an entry authored by another node into the store. -/
def ingest (env : Env) (entry : LogEntry) : DbM IoError (Option IngestEffect) := do
  let db ← get
  let before := db.watched entry.event
  let attempt := db.log.ingest entry
  set { db with log := attempt.1 }
  match attempt.2 with
  | .error e => throw e
  | .ok none => return ownerEffect before db
  | .ok (some event) =>
      edit (apply · event)
      let db ← get
      return (ownerEffect before db).or ((suspendEffect env db event).or (banEffect env event))

end Db

end Echo
