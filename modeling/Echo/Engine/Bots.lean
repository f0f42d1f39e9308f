import Echo.Db.Access
import Echo.Db.Run
import Echo.Engine.ModeLock
import Echo.Panel.Dates

/-!
The bots' clients on the network (`Engine::reconcile_bots`): three tables, of the bots that
are registered, of the clients that are introduced and of the channels these have joined,
brought in line at every burst and after every command.

A client that is killed, kicked or parted is to come back. The table of channels goes by
the letters of a channel's registration, an event by those of whoever sent it.
-/

namespace Echo

open Echo.Lib

/-- What is sent about the bots. -/
inductive BotAction where
  | introduceUser (uid nick ident host gecos : String)
  | quitUser (uid reason : String)
  | serviceJoin (uid channel modes : String)
  | servicePart (uid channel : String)
  | channelMode («from» channel modes : String)
  deriving DecidableEq, Repr

/-- A service's client, whose uid ends in a letter of its own. -/
structure Agent where
  letter : Char
  nick : String
  host : String
  gecos : String

/-- What stays as it is while the services run. -/
structure Uplink where
  sid : String
  services : List Agent
  /-- The uid of ChanServ. -/
  chanService : Option String
  /-- The hash of a bot's user, host and description. -/
  identHash : (user host gecos : String) → Nat

/-- The tables of the bots' clients, by the bots' folded nicks. -/
structure Bots where
  uids : Table String := ∅
  idents : Table Nat := ∅
  /-- The channels that each bot has joined. -/
  channels : List (String × String) := []
  nextIndex : Nat := 0

/-- The tables so far, and what is sent. -/
structure Progress extends Bots where
  out : List BotAction := []

namespace Uplink

variable (l : Uplink)

def serviceUid (a : Agent) : String := l.sid ++ "AAAAA" ++ String.ofList [a.letter]

def botUid (index : Nat) : String := l.sid ++ "B" ++ padded 5 index

def hashOf (b : Bot) : Nat := l.identHash b.user b.host b.gecos

end Uplink

namespace Progress

variable (l : Uplink) (db : Db) (p : Progress)

/-- A client whose bot has another identity by now quits. -/
def change (b : Bot) : Progress :=
  let k := key b.nick
  match p.uids[k]? with
  | none => p
  | some uid =>
      if p.idents[k]? = some (l.hashOf b) then p
      else
        { p with
          uids := p.uids.erase k
          channels := p.channels.filter (·.1 ≠ k)
          out := p.out ++ [.quitUser uid "Bot changed"] }

/-- A bot without a client is introduced. -/
def introduce (b : Bot) : Progress :=
  let k := key b.nick
  if p.uids.contains k then p
  else
    let uid := l.botUid p.nextIndex
    { p with
      nextIndex := (p.nextIndex + 1) % 2 ^ 32
      uids := p.uids.insert k uid
      idents := p.idents.insert k (l.hashOf b)
      out := p.out ++ [.introduceUser uid b.nick b.user b.host b.gecos] }

/-- The client of a bot that is no more quits. -/
def remove (k : String) : Progress :=
  { p with
    uids := p.uids.erase k
    idents := p.idents.erase k
    channels := p.channels.filter (·.1 ≠ k)
    out := p.out ++ (p.uids[k]?).toList.map (.quitUser · "Bot removed") }

/-- Who sets a channel's modes: its bot, or else ChanServ. -/
def modeSource (channel : String) : String :=
  (((db.channel channel).bind (·.assignedBot)).bind fun b => p.uids[key b]?).getD
    (l.chanService.getD "")

/-- A bot joins a channel that it is not in, and sets the channel's lock again. -/
def join (bc : String × String) : Progress :=
  if p.channels.contains bc then p
  else
    match p.uids[bc.1]? with
    | none => p
    | some uid =>
        let modes := ((db.channel bc.2).map (·.lockModes)).filter (· ≠ "")
        { p with
          channels := p.channels ++ [bc]
          out := p.out ++ .serviceJoin uid bc.2 "ao" ::
            modes.toList.map (.channelMode (p.modeSource l db bc.2) bc.2) }

def part (bc : String × String) : Progress :=
  { p with
    channels := p.channels.filter (· ≠ bc)
    out := p.out ++ (p.uids[bc.1]?).toList.map (.servicePart · bc.2) }

end Progress

namespace Bots

variable (env : Env) (l : Uplink) (db : Db) (s : Bots)

/-- The channels that the introduced bots are assigned to. -/
def desired (uids : Table String) : List (String × String) :=
  ((env.values db.channels).filterMap fun c => c.assignedBot.map fun b => (key b, c.name)).filter
    fun bc => uids.contains bc.1

/-- Introduce the bots that are registered and quit the others. -/
def roster : Progress :=
  let live := env.values db.bots
  let p : Progress := live.foldl (fun p b => (p.change l b).introduce l b) { s with }
  let removed := ((env.entries p.uids).map Prod.fst).filter fun k => !(live.map (key ·.nick)).contains k
  removed.foldl Progress.remove p

/-- Bring the bots' clients in line with the registry. -/
def reconcile : Progress :=
  let p := s.roster env l db
  let desired := env.iter (desired env db p.uids)
  let p := desired.foldl (Progress.join l db) p
  let toPart := env.iter (p.channels.filter fun bc => !desired.contains bc)
  toPart.foldl Progress.part p

/-- The bot that a client is. -/
def botOf (uid : String) : Option String := ((env.entries s.uids).find? fun e => e.2 == uid).map Prod.fst

/-- A client has left a channel or was kicked: a bot that was in it comes back. -/
def memberLeft (channel uid : String) : Progress :=
  match s.botOf env uid with
  | none => { s with }
  | some k =>
      if s.channels.contains (k, channel) then
        reconcile env l db { s with channels := s.channels.filter (· ≠ (k, channel)) }
      else { s with }

/-- A client was killed: a service or a bot comes back. -/
def userKilled (uid : String) : Progress :=
  match l.services.find? fun a => l.serviceUid a == uid with
  | some a => { s with out := [.introduceUser uid a.nick "services" a.host a.gecos] }
  | none =>
      match s.botOf env uid with
      | none => { s with }
      | some k =>
          reconcile env l db
            { s with
              uids := s.uids.erase k
              idents := s.idents.erase k
              channels := s.channels.filter (·.1 ≠ k) }

end Bots

/-! ### Runs -/

namespace Bots

/-- The registry and the clients. -/
structure World where
  db : Db
  bots : Bots := {}

/-- One thing that happens to them. -/
inductive Act where
  /-- Anything that changes the records. -/
  | store (a : Action)
  | reconcile (env : Env)
  | memberLeft (env : Env) (channel uid : String)
  | userKilled (env : Env) (uid : String)
  /-- A new link to the network, over which no bot has been introduced. -/
  | startup (env : Env)

variable (l : Uplink)

def World.step (w : World) : Act → World
  | .store a => { w with db := w.db.step a }
  | .reconcile env => { w with bots := (w.bots.reconcile env l w.db).toBots }
  | .memberLeft env channel uid => { w with bots := (w.bots.memberLeft env l w.db channel uid).toBots }
  | .userKilled env uid => { w with bots := (w.bots.userKilled env l w.db uid).toBots }
  | .startup env => { w with bots := (Bots.reconcile env l w.db {}).toBots }

end Bots

end Echo
