import Echo.Db.Run

/-!
The directory API a website mirrors the accounts and channels of a node through
(`grpc.rs`): a snapshot of the records, and the stream of the changes that each
committed log entry is translated to. `Directory` is what a subscriber holds: it
loads a snapshot and then follows the stream, names folded to their key.
-/

namespace Echo

open Std (ExtTreeMap)
open Echo.Lib

structure AccountRecord where
  name : String
  email : String
  verified : Bool
  registeredAt : Nat
  home : String
  deriving DecidableEq, Repr

structure ChannelRecord where
  name : String
  founder : String
  registeredAt : Nat
  description : String
  deriving DecidableEq, Repr

def accountRecord (a : Account) : AccountRecord :=
  ⟨a.name, a.email.getD "", a.verified, a.ts, a.home⟩

def channelRecord (c : ChannelInfo) : ChannelRecord :=
  ⟨c.name, c.founder, c.ts, c.desc⟩

/-- What a wire event says. -/
inductive Kind where
  | accountRegistered (name email : String) (verified : Bool) (registeredAt : Nat) (home : String)
  | accountEmailSet (account email : String)
  | accountVerified (account : String)
  | accountDropped (account : String)
  | nickGrouped (nick account : String)
  | nickUngrouped (nick : String)
  | channelRegistered (name founder : String) (registeredAt : Nat)
  | channelDropped (name : String)
  | channelFounderSet (name founder : String)
  | channelDescSet (name description : String)
  deriving DecidableEq, Repr

structure ReplicationEvent where
  origin : String
  seq : Nat
  lamport : Nat
  kind : Kind
  deriving DecidableEq, Repr

/-- What the stream says of an event, if anything. -/
def Event.wireKind : Event → Option Kind
  | .accountRegistered a =>
      some (.accountRegistered a.name (a.email.getD "") a.verified a.ts a.home)
  | .accountEmailSet account email => some (.accountEmailSet account (email.getD ""))
  | .accountVerified account => some (.accountVerified account)
  | .accountDropped account => some (.accountDropped account)
  | .nickGrouped nick account => some (.nickGrouped nick account)
  | .nickUngrouped nick => some (.nickUngrouped nick)
  | .channelRegistered name founder ts => some (.channelRegistered name founder ts)
  | .channelDropped name => some (.channelDropped name)
  | .channelFounderSet channel founder => some (.channelFounderSet channel founder)
  | .channelDescSet channel desc => some (.channelDescSet channel desc)
  -- Credentials, the finer channel events and renames are not replicated.
  | _ => none

/-- Translate one committed entry to a wire event. -/
def toWire (entry : LogEntry) : Option ReplicationEvent :=
  entry.event.wireKind.map fun kind => ⟨entry.origin, entry.seq, entry.lamport, kind⟩

structure SnapshotResponse where
  accounts : List AccountRecord
  channels : List ChannelRecord

/-- A full read of the records, in whatever order the maps are visited. -/
def Store.directorySnapshot (env : Env) (s : Store) : SnapshotResponse where
  accounts := (env.values s.accounts).map accountRecord
  channels := (env.values s.channels).map channelRecord

/-- What the subscribers are sent once `sent` has gone out. -/
def EventLog.streamed (log : EventLog) (sent : List LogEntry) : List ReplicationEvent :=
  ((log.outbound.getD []).drop sent.length).filterMap toWire

/-! ### The subscriber -/

structure Directory where
  accounts : Table AccountRecord := ∅
  channels : Table ChannelRecord := ∅

namespace Directory

def load (r : SnapshotResponse) : Directory where
  accounts := insertAll ∅ (r.accounts.map fun a => (key a.name, a))
  channels := insertAll ∅ (r.channels.map fun c => (key c.name, c))

/-- Apply one change to the entry it names. -/
def take (d : Directory) : Kind → Directory
  | .accountRegistered name email verified registeredAt home =>
      { d with accounts := d.accounts.insert (key name) ⟨name, email, verified, registeredAt, home⟩ }
  | .accountEmailSet account email =>
      { d with accounts := d.accounts.modify (key account) ({ · with email }) }
  | .accountVerified account =>
      { d with accounts := d.accounts.modify (key account) ({ · with verified := true }) }
  | .accountDropped account => { d with accounts := d.accounts.erase (key account) }
  | .channelRegistered name founder registeredAt =>
      { d with channels := d.channels.insert (key name) ⟨name, founder, registeredAt, ""⟩ }
  | .channelDropped name => { d with channels := d.channels.erase (key name) }
  | .channelFounderSet name founder =>
      { d with channels := d.channels.modify (key name) ({ · with founder }) }
  | .channelDescSet name description =>
      { d with channels := d.channels.modify (key name) ({ · with description }) }
  | .nickGrouped .. | .nickUngrouped .. => d

def follow (d : Directory) (events : List ReplicationEvent) : Directory :=
  events.foldl (fun d e => d.take e.kind) d

end Directory

end Echo
