import Echo.Lib.AsciiCase
import Echo.Lib.Assoc
import Echo.Lib.Descent

/-!
The live view of the network (`engine/state.rs`): the users by uid, the channels by
lowercase name, the server tree, and what is counted of them. The map types of the
source go over their entries in any order, and so do these tables.

Of a user and of a channel, what no operation here reads is left out. A count of
sessions is of users in memory, far fewer than its type holds.
-/

namespace Echo.Net

open Echo.Lib

structure User where
  uid : String
  nick : String
  host : String
  ip : String

/-- A set of uids. -/
abbrev Uids := Assoc String Unit

structure Channel where
  members : Uids := ∅
  ops : Uids := ∅
  voices : Uids := ∅

/-- When a nick was last seen, and doing what. -/
structure Seen where
  nick : String
  ts : Nat
  what : String

structure Network where
  users : Assoc String User := ∅
  channels : Assoc String Channel := ∅
  /-- The account a uid is logged in to. -/
  accounts : Assoc String String := ∅
  seen : Assoc String Seen := ∅
  /-- The server that introduced a server. -/
  servers : Assoc String String := ∅
  serverNames : Assoc String String := ∅
  /-- Live sessions of an address. -/
  sessions : Assoc String Nat := ∅
  /-- Scores of the identities of a channel. -/
  chanfix : Assoc String (Assoc String Nat) := ∅

def seenCap : Nat := 20000
def chanfixMax : Nat := 5000
def chanfixBump : Nat := 2

/-- `lc` -/
abbrev lc (s : String) : String := toAsciiLowercase s

def Channel.without (c : Channel) (uid : String) : Channel where
  members := c.members.erase uid
  ops := c.ops.erase uid
  voices := c.voices.erase uid

namespace Network

variable (n : Network)

/-! ### Seen -/

/-- Past the cap, the stalest quarter goes. -/
def recordSeen (key : String) (entry : Seen) : Network :=
  { n with
    seen :=
      let seen := n.seen.insert key entry
      if seen.entries.length ≤ seenCap then seen
      else
        let byTs := (seen.entries.map fun e => (e.1, e.2.ts)).mergeSort fun a b => a.2 ≤ b.2
        (byTs.take (seenCap / 4)).foldl (fun seen e => seen.erase e.1) seen }

section

variable (key : String) (entry : Seen)

@[simp] theorem users_recordSeen : (n.recordSeen key entry).users = n.users := rfl
@[simp] theorem channels_recordSeen : (n.recordSeen key entry).channels = n.channels := rfl
@[simp] theorem accounts_recordSeen : (n.recordSeen key entry).accounts = n.accounts := rfl
@[simp] theorem sessions_recordSeen : (n.recordSeen key entry).sessions = n.sessions := rfl

end

/-! ### Users -/

def userConnect (uid nick host ip : String) : Network :=
  { n with
    sessions :=
      if ip = "" then n.sessions else n.sessions.insert ip ((n.sessions.lookup ip).getD 0 + 1)
    users := n.users.insert uid { uid, nick, host, ip } }

def userNickChange (uid nick : String) (now : Nat) : Network :=
  match n.users.lookup uid with
  | none => n
  | some user =>
      ({ n with users := n.users.insert uid { user with nick } } : Network).recordSeen (lc nick)
        { nick, ts := now, what := "changing nick from " ++ user.nick }

/-- Release a session slot. -/
def release (ip : String) : Network :=
  { n with
    sessions :=
      match n.sessions.lookup ip with
      | none => n.sessions
      | some count =>
          if count - 1 = 0 then n.sessions.erase ip else n.sessions.insert ip (count - 1) }

/-- A user is forgotten wherever it is looked up by its uid. -/
def drop (uid : String) : Network :=
  { n with
    users := n.users.erase uid
    accounts := n.accounts.erase uid
    channels := Assoc.mapValues (fun _ c => c.without uid) n.channels }

def userQuit (uid : String) (now : Nat) : Network :=
  match n.users.lookup uid with
  | none => n.drop uid
  | some user =>
      ((n.recordSeen (lc user.nick) { nick := user.nick, ts := now, what := "quitting" }).release
        user.ip).drop uid

section

variable (uid : String) (now : Nat)

theorem users_userQuit : (n.userQuit uid now).users = n.users.erase uid := by
  unfold userQuit
  cases n.users.lookup uid <;> rfl

theorem accounts_userQuit : (n.userQuit uid now).accounts = n.accounts.erase uid := by
  unfold userQuit
  cases n.users.lookup uid <;> rfl

theorem channels_userQuit :
    (n.userQuit uid now).channels = Assoc.mapValues (fun _ c => c.without uid) n.channels := by
  unfold userQuit
  cases n.users.lookup uid <;> rfl

end

def nickOf (uid : String) : Option String := (n.users.lookup uid).map (·.nick)

def setAccount (uid account : String) : Network :=
  { n with accounts := n.accounts.insert uid account }

def clearAccount (uid : String) : Network := { n with accounts := n.accounts.erase uid }

/-- The users behind a server: its sid begins their uids. -/
def uidsOnServer (sid : String) : List String :=
  n.users.keys.filter fun uid => sid.toList.isPrefixOf uid.toList

/-! ### Channels -/

/-- `entry(lc(channel)).or_default()`, changed. -/
def alterChannel (channel : String) (f : Channel → Channel) : Network :=
  { n with
    channels := n.channels.insert (lc channel) (f ((n.channels.lookup (lc channel)).getD {})) }

/-- A user seen in a channel. -/
def seenThere (uid what : String) (now : Nat) : Network :=
  match n.nickOf uid with
  | none => n
  | some nick => n.recordSeen (lc nick) { nick, ts := now, what }

@[simp] theorem users_seenThere (uid what : String) (now : Nat) :
    (n.seenThere uid what now).users = n.users := by
  unfold seenThere
  cases n.nickOf uid <;> rfl

@[simp] theorem sessions_seenThere (uid what : String) (now : Nat) :
    (n.seenThere uid what now).sessions = n.sessions := by
  unfold seenThere
  cases n.nickOf uid <;> rfl

def channelJoin (channel uid : String) (op : Bool) (now : Nat) : Network :=
  (n.alterChannel channel fun c =>
      { c with
        members := c.members.insert uid ()
        ops := if op then c.ops.insert uid () else c.ops }).seenThere uid ("joining " ++ channel) now

def channelPart (channel uid : String) (now : Nat) : Network :=
  let parted : Network :=
    match n.channels.lookup (lc channel) with
    | none => n
    | some c => { n with channels := n.channels.insert (lc channel) (c.without uid) }
  parted.seenThere uid ("leaving " ++ channel) now

def setOp (channel uid : String) (op : Bool) : Network :=
  n.alterChannel channel fun c =>
    { c with ops := if op then c.ops.insert uid () else c.ops.erase uid }

def setVoice (channel uid : String) (voice : Bool) : Network :=
  n.alterChannel channel fun c =>
    { c with voices := if voice then c.voices.insert uid () else c.voices.erase uid }

/-- The channels a uid is in. -/
def channelsOf (uid : String) : List String :=
  (n.channels.entries.filter fun e => uid ∈ e.2.members).map (·.1)

def channelMembers (channel : String) : List String :=
  ((n.channels.lookup (lc channel)).map (·.members.keys)).getD []

def removeChannel (channel : String) : Network :=
  { n with channels := n.channels.erase (lc channel) }

/-! ### Servers -/

def serverLink (sid parent : String) : Network :=
  { n with servers := n.servers.insert sid parent }

def setServerName (sid name : String) : Network :=
  { n with serverNames := n.serverNames.insert sid name }

/-- The server tree as links. -/
def links : Links String := n.servers.entries.map fun e => (e.1, e.2)

/-- Forget a server and all behind it; gives their sids. -/
def serverSplit (sid : String) : Network × List String :=
  let subtree := descend n.links [sid] 0
  ({ n with
      servers := subtree.foldl (fun servers s => servers.erase s) n.servers
      serverNames := subtree.foldl (fun names s => names.erase s) n.serverNames }, subtree)

/-! ### ChanFix -/

/-- Who a user is to ChanFix: its account, else its host. -/
def identity (uid : String) : Option String :=
  match n.accounts.lookup uid with
  | some account => some account
  | none => (n.users.lookup uid).map (·.host)

/-- A channel and the identity of an op of it. -/
def samples : List (String × String) :=
  n.channels.entries.flatMap fun e => e.2.ops.keys.filterMap fun uid =>
    (n.identity uid).map fun id => (e.1, id)

/-- One sample raises a score. -/
def bump (scores : Assoc String (Assoc String Nat)) (sample : String × String) :
    Assoc String (Assoc String Nat) :=
  let own := (scores.lookup sample.1).getD ∅
  scores.insert sample.1
    (own.insert sample.2 (min ((own.lookup sample.2).getD 0 + chanfixBump) chanfixMax))

def chanfixSample : Network :=
  let decayed := Assoc.mapValues (fun _ scores => Assoc.mapValues (fun _ v => v - 1) scores) n.chanfix
  let raised := n.samples.foldl bump decayed
  let positive := Assoc.mapValues (fun _ scores => Assoc.retain (fun _ v => 0 < v) scores) raised
  { n with chanfix := Assoc.retain (fun _ scores => !scores.entries.isEmpty) positive }

end Network

end Echo.Net
