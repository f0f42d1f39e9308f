import Echo.Engine.Kicker
import Echo.Net.State

/-!
What the engine keeps beside the network view, by uid, and what the events of the uplink
do to it (`engine/mod.rs`). What is sent in answer is left out, and so are the services'
own records; the logins and parts that an answer brings about are events here like those
of the uplink.
-/

namespace Echo.Net

open Echo.Lib

/-- The live bots. -/
structure Bots where
  /-- The uid of a bot, by its casefolded nick. -/
  uids : Assoc String String := ∅
  idents : Assoc String Nat := ∅
  /-- A bot and a channel it has joined. -/
  channels : Assoc (String × String) Unit := ∅
  /-- The network's own list of them. -/
  nicks : Assoc String String := ∅
  nextIndex : Nat := 0

structure PendingEnforce where
  uid : String
  nick : String
  deadline : Nat
  deriving DecidableEq

structure Engine where
  net : Network := {}
  /-- The uids of the services. -/
  services : List String := []
  bots : Bots := {}
  /-- When a client's exchange was last touched. -/
  saslSessions : Assoc String Nat := ∅
  saslSource : Assoc String (Nat × String) := ∅
  pendingEnforce : List PendingEnforce := []
  chatter : Assoc String (Assoc String ChatterState) := ∅

/-- The events that change who is known, and where. -/
inductive Event where
  | userConnect (uid nick host ip : String)
  | nickChange (uid nick : String)
  | quit (uid : String)
  | userKilled (uid : String)
  | login (uid account : String)
  | join (uid channel : String) (op : Bool)
  /-- A part or a kick. -/
  | left (uid channel : String)
  | channelOp (channel uid : String) (op : Bool)
  | channelVoice (channel uid : String) (voice : Bool)
  | serverInfo (sid name : String)
  | serverLink (sid parent : String)
  | serverSplit (server : String)

namespace Engine

variable (e : Engine)

/-- Forget a channel with no members and no resident bot. -/
def pruneChannelIfGone (channel : String) : Engine :=
  if (e.net.channelMembers channel).head?.isSome then e
  else if e.bots.channels.keys.any fun b => eqIgnoreAsciiCase b.2 channel then e
  else { e with net := e.net.removeChannel channel }

/-- Drop some counters of chatter, and the channels that have none left. -/
def forgetChatterEverywhere (uid : String) : Engine :=
  { e with
    chatter := Assoc.retain (fun _ bucket => !bucket.entries.isEmpty)
      (Assoc.mapValues (fun _ bucket => bucket.erase uid) e.chatter) }

def forgetChatter (channel uid : String) : Engine :=
  match e.chatter.lookup (lc channel) with
  | none => e
  | some bucket =>
      let bucket := bucket.erase uid
      { e with
        chatter :=
          if bucket.entries.isEmpty then e.chatter.erase (lc channel)
          else e.chatter.insert (lc channel) bucket }

/-- What is kept of a client's connection outside the network view is dropped. -/
def forgetClient (uid : String) : Engine :=
  ({ e with
    saslSessions := e.saslSessions.erase uid
    saslSource := e.saslSource.erase uid
    pendingEnforce := e.pendingEnforce.filter (·.uid ≠ uid) } : Engine).forgetChatterEverywhere uid

def forgetUser (uid : String) (now : Nat) : Engine :=
  let chans := e.net.channelsOf uid
  (chans.foldl pruneChannelIfGone { e with net := e.net.userQuit uid now }).forgetClient uid

/-- The nick under which a uid is one of the bots. -/
def botOf (uid : String) : Option String :=
  (e.bots.uids.entries.find? fun b => b.2 = uid).map (·.1)

section

-- Bring the bots in line with the registry.
variable (reconcile : Bots → Bots)

/-- Cleanup after a part or a kick. -/
def memberLeft (channel uid : String) (now : Nat) : Engine :=
  let e := ({ e with net := e.net.channelPart channel uid now } : Engine).pruneChannelIfGone channel
  let e := e.forgetChatter channel uid
  match e.botOf uid with
  | none => e
  | some bot =>
      if (bot, channel) ∈ e.bots.channels then
        { e with
          bots := reconcile { e.bots with channels := e.bots.channels.erase (bot, channel) } }
      else e

/-- A kill brings a service or a bot back; anyone else is gone. -/
def userKilled (uid : String) (now : Nat) : Engine :=
  if uid ∈ e.services then e
  else
    match e.botOf uid with
    | some bot =>
        { e with
          bots := reconcile
            { e.bots with
              uids := e.bots.uids.erase bot
              idents := e.bots.idents.erase bot
              nicks := e.bots.nicks.erase bot
              channels := Assoc.retain (fun b _ => b.1 ≠ bot) e.bots.channels } }
    | none => e.forgetUser uid now

/-- Everyone behind some servers is forgotten, server by server. -/
def forgetServers (sids : List String) (now : Nat) : Engine :=
  sids.foldl (fun e sid => (e.net.uidsOnServer sid).foldl (fun e uid => e.forgetUser uid now) e) e

def serverSplit (server : String) (now : Nat) : Engine :=
  let (net, subtree) := e.net.serverSplit server
  ({ e with net } : Engine).forgetServers subtree now

/-- `Engine::handle` -/
def handle (now : Nat) : Event → Engine
  | .userConnect uid nick host ip => { e with net := e.net.userConnect uid nick host ip }
  | .nickChange uid nick =>
      { e with
        net := e.net.userNickChange uid nick now
        pendingEnforce := e.pendingEnforce.filter (·.uid ≠ uid) }
  | .quit uid => e.forgetUser uid now
  | .userKilled uid => e.userKilled reconcile uid now
  | .login uid account =>
      if account = "" then { e with net := e.net.clearAccount uid }
      else
        { e with
          net := e.net.setAccount uid account
          pendingEnforce := e.pendingEnforce.filter (·.uid ≠ uid) }
  | .join uid channel op => { e with net := e.net.channelJoin channel uid op now }
  | .left uid channel => e.memberLeft reconcile channel uid now
  | .channelOp channel uid op => { e with net := e.net.setOp channel uid op }
  | .channelVoice channel uid voice => { e with net := e.net.setVoice channel uid voice }
  | .serverInfo sid name => { e with net := e.net.setServerName sid name }
  | .serverLink sid parent => { e with net := e.net.serverLink sid parent }
  | .serverSplit server => e.serverSplit server now

end

end Engine

/-- An event at its time. -/
def Engine.step (reconcile : Bots → Bots) (e : Engine) (timed : Nat × Event) : Engine :=
  e.handle reconcile timed.1 timed.2

end Echo.Net
