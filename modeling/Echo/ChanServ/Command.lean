import Echo.Engine.Lines
import Echo.Engine.LockText
import Echo.Engine.ModeCommand
import Echo.Lib.Triples

/-!
A command to ChanServ under way: who sends it, what is known of the network, and the
program it runs, which calls the store and collects what is asked of the network. The
guards of the commands are here: the founder's, the operators', and the one that a
suspended channel is frozen.
-/

namespace Echo

open Echo.Lib

open Dispatcher (NetAction)
open Engine (bold tryAgain)

namespace ChanServ

/-! ### Operators -/

inductive Priv where
  | auspex | oper | suspend | admin | root
  deriving DecidableEq, Repr

/-- The privileges a sender was granted; nobody but an operator has any. -/
structure Privs where
  granted : List Priv := []
  deriving DecidableEq, Repr

/-- The privileges that stand for this one: a higher tier implies the lower ones. -/
def Priv.implied : Priv → List Priv
  | .auspex => [.auspex, .oper, .admin, .root]
  | .oper => [.oper, .admin, .root]
  | .suspend => [.suspend, .admin, .root]
  | .admin => [.admin, .root]
  | .root => [.root]

def Privs.has (privs : Privs) (p : Priv) : Bool := p.implied.any privs.granted.contains

structure Sender where
  uid : String
  nick : String
  account : Option String
  privs : Privs := {}

/-- Not an operator: none of the privileges is granted. -/
def Sender.Plain («from» : Sender) : Prop := «from».privs.granted = []

theorem Sender.Plain.has {«from» : Sender} (plain : «from».Plain) (p : Priv) :
    «from».privs.has p = false := by
  unfold Privs.has
  rw [plain]
  simp

/-! ### The network -/

structure SeenView where
  nick : String
  ts : Nat
  what : String

/-- A nick's last message in a channel. -/
structure ChanSeenView where
  nick : String
  ts : Nat
  msg : String

/-- What else is asked of the network. -/
structure Network extends NetView where
  isOp : (channel uid : String) → Bool
  hostOf : (uid : String) → Option String
  uidsLoggedInto : (account : String) → List String
  channelKey : (channel : String) → Option String
  lastSeen : (nick : String) → Option SeenView
  channelSeen : (channel nick : String) → Option ChanSeenView

/-- What a command or the fantasy router asks of the network. -/
inductive Action where
  | net (action : NetAction)
  | privmsg («from» target text : String)
  | topic («from» channel topic setter : String)
  | invite («from» uid channel : String)
  | renameChannel («from» old new reason : String)
  | dictLookup (speakAs target database label query : String)
  | tagged (tags : List (String × String)) (inner : Action)
  deriving DecidableEq, Repr

structure HelpEntry where
  cmd : String
  summary : String
  /-- The lines of the detail. -/
  detail : List String
  deriving DecidableEq, Repr

/-- What a command is run with. -/
structure Call where
  env : Env
  unicode : Unicode
  /-- The uid of the service. -/
  me : String
  «from» : Sender
  net : Network
  policy : ModePolicy
  operPrivs : (account : String) → Bool
  /-- The id of the line that is answered, where it has one. -/
  replyTo : Option String := none
  blurb : String
  topics : List HelpEntry

/-- How far a command has come. -/
structure Ctx where
  engine : Engine
  actions : List Action := []
  /-- The counters to raise. -/
  stats : List String := []
  /-- What is told to the staff, by category. -/
  alerts : List (String × String) := []

abbrev Cmd := StateM Ctx

/-! ### What a command does -/

def engine : Cmd Engine := do return (← get).engine

/-- A call of the store. -/
def store {ε α : Type} (call : DbM ε α) : Cmd (Except ε α) := fun x =>
  ((x.engine.withDb call).2, { x with engine := (x.engine.withDb call).1 })

def push (action : Action) : Cmd Unit := modify fun x => { x with actions := x.actions ++ [action] }

def count (counter : String) : Cmd Unit := modify fun x => { x with stats := x.stats ++ [counter] }

def alert (category text : String) : Cmd Unit :=
  modify fun x => { x with alerts := x.alerts ++ [(category, text)] }

variable (c : Call)

/-- An action with its tags; one to the sender is threaded under the line it answers. -/
def pushTagged (inner : NetAction) (target : String) (tags : List (String × String)) : Cmd Unit :=
  let tags := tags ++
    if target = c.from.uid then c.replyTo.toList.map (("+draft/reply", ·)) else []
  push (if tags.isEmpty then .net inner else .tagged tags (.net inner))

def notice (text : String) : Cmd Unit := pushTagged c (.notice c.me c.from.uid text) c.from.uid []

def notices (texts : List String) : Cmd Unit := texts.forM (notice c)

def channelMode («from» channel modes : String) : Cmd Unit :=
  push (.net (.channelMode «from» channel modes))

def kick («from» channel uid reason : String) : Cmd Unit :=
  push (.net (.kick «from» channel uid reason))

/-- Send what a scene brings about. -/
def send : NetAction → Cmd Unit
  | .notice «from» target text => pushTagged c (.notice «from» target text) target []
  | action => push (.net action)

/-- Tell someone what became of their access: by notice where they are online, else by
memo. -/
def notifyOrMemo (target chan text : String) : Cmd Unit := do
  let sender := c.from.account.getD c.from.nick
  if target.toList.head? = some '!' ∨ eqIgnoreAsciiCase sender target then pure ()
  else
    match c.net.uidsLoggedInto target with
    | [] => do
        let _ ← store (Db.memoSend c.env target sender text false)
    | online =>
        online.forM fun uid =>
          pushTagged c (.notice c.me uid text) uid [("+draft/channel-context", chan)]

/-- A call of the store, and what is done with its answer. -/
def answer {α : Type} (call : DbM ChanError α) (done : α → Cmd Unit) : Cmd Unit := do
  match ← store call with
  | .ok a => done a
  | .error _ => notice c tryAgain

/-- A call whose answer is not looked at. -/
def ignore {α : Type} (call : DbM ChanError α) : Cmd Unit := do
  let _ ← store call

/-! ### Guards -/

/-- The engine as the commands see it who look at those present. -/
def scene (e : Engine) : Scene where
  db := e.db
  net := c.net.toNetView
  now := c.env.now
  unicode := c.unicode
  operPrivs := c.operPrivs

/-- A suspended channel is frozen. -/
def suspendedBlock (chan : String) : Cmd Bool := do
  if (← engine).isChannelSuspended c.env chan then
    notice c (bold chan ++ " is suspended by network staff and can't be managed right now.")
    return true
  else return false

def notRegistered (chan : String) : String := bold chan ++ " isn't registered."

/-- The sender is the channel's founder. -/
def requireFounder (chan : String) : Cmd Bool := do
  if ← suspendedBlock c chan then return false
  else
    match (← engine).db.channel chan with
    | none => do
        notice c (notRegistered chan)
        return false
    | some info =>
        if c.from.account = some info.founder then return true
        else do
          notice c ("Only " ++ bold chan ++ "'s founder can do that.")
          return false

/-- The sender is the founder or an operator by the access list. -/
def requireOp (chan : String) : Cmd Bool := do
  if ← suspendedBlock c chan then return false
  else
    match (← engine).db.channel chan with
    | none => do
        notice c (notRegistered chan)
        return false
    | some info =>
        if c.from.account.any fun a => (info.view.capsOf (some a)).op then return true
        else do
          notice c ("You need operator access to " ++ bold chan ++ ".")
          return false

/-- What may be done to a channel by those that a guard lets through. -/
def guarded (guard : Cmd Bool) (body : Cmd Unit) : Cmd Unit := do
  if ← guard then body else pure ()

/-- What is done with a registered channel. -/
def withChannel (chan : String) (body : ChannelInfo → Cmd Unit) : Cmd Unit := do
  match (← engine).db.channel chan with
  | none => notice c (notRegistered chan)
  | some info => body info

section Run

variable {c} {x : Ctx} {α β ε : Type} {chan : String}

theorem run_engine (next : Engine → Cmd β) : (engine >>= next).run x = (next x.engine).run x := rfl

theorem run_store (call : DbM ε α) (next : Except ε α → Cmd β) :
    (store call >>= next).run x =
      (next (x.engine.withDb call).2).run { x with engine := (x.engine.withDb call).1 } := rfl

theorem run_withChannel_none (absent : x.engine.db.channel chan = none) (body : ChannelInfo → Cmd Unit) :
    (withChannel c chan body).run x = (notice c (notRegistered chan)).run x := by
  rw [withChannel, run_engine, absent]

theorem run_withChannel {info : ChannelInfo} (held : x.engine.db.channel chan = some info)
    (body : ChannelInfo → Cmd Unit) : (withChannel c chan body).run x = (body info).run x := by
  rw [withChannel, run_engine, held]

end Run

/-- What only the founder may do, refused in the command's own words. -/
def foundersOnly (chan what : String) (body : ChannelInfo → Cmd Unit) : Cmd Unit :=
  withChannel c chan fun info => do
    if c.from.account ≠ some info.founder then
      notice c ("Only " ++ bold chan ++ "'s founder can " ++ what ++ ".")
    else if ← suspendedBlock c chan then pure ()
    else body info

/-- PEACE: nobody acts against those of equal or higher rank. -/
def peaceBlocks (chan targetUid : String) : Cmd Bool := do
  let e ← engine
  let rank (account : Option String) := account.elim Rank.none fun a => (e.db.channelCaps chan a).rank
  match e.db.channel chan with
  | none => return false
  | some info =>
      if !info.settings.peace then return false
      else if targetUid = c.from.uid then return false
      else if (rank c.from.account).toNat ≤ (rank (c.net.accountOf targetUid)).toNat then
        notice c (bold "PEACE" ++ " is set: you can't act against someone with equal or higher access.")
        return true
      else return false

/-- The assigned bot where it is online, else the service. -/
def modeSource (chan : String) : Cmd String := do
  return (scene c (← engine)).modeSource c.me chan

variable {c} in
theorem run_modeSource {x : Ctx} {α : Type} {chan : String} (next : String → Cmd α) :
    (modeSource c chan >>= next).run x = (next ((scene c x.engine).modeSource c.me chan)).run x := rfl

end ChanServ

end Echo
