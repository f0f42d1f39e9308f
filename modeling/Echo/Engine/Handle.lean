import Echo.Db.Account
import Echo.Engine.Kicker

/-!
The dispatcher. A call lifts the bans that are due, does what the event asks for,
and finishes: what was lifted goes out first, removals get an incident id and
standard replies are degraded where they cannot be sent. An arm that computes its
actions and falls through is a parameter; an arm that returns early is spelt out.
-/

namespace Echo

open Std (ExtTreeMap)
open Echo.Lib

open Dispatcher (NetEvent NetAction)

/-- What the dispatcher asks of the rest of the engine. -/
structure Parts (ρ : Type) extends Speakers ρ where
  env : Env
  /-- What an arm does that falls through. -/
  arm : NetEvent → Host ρ → Host ρ × List NetAction
  accountOf : ρ → (uid : String) → Option String
  nickOf : ρ → (uid : String) → Option String
  /-- Whether this is one of the services' bots. -/
  isBot : ρ → (uid : String) → Bool
  sid : ρ → String
  defcon : ρ → Nat
  /-- The uid of ChanServ or of the bot assigned to a channel. -/
  channelModeSource : Host ρ → (channel : String) → String
  chanService : ρ → Option String
  operPrivs : Host ρ → (account : String) → Bool
  setUserCert : (uid fp : String) → ρ → ρ
  certfpLogin : (uid account : String) → Host ρ → Host ρ × List NetAction
  userConnect : (uid nick host ip : String) → ρ → ρ
  sessionLimitFor : Host ρ → (ip : String) → Option Nat
  sessionCount : ρ → (ip : String) → Nat
  /-- Logon news, the nick prompt and what a login brings. -/
  welcome : (uid nick : String) → Host ρ → Host ρ × List NetAction
  /-- The join is recorded and reported to a watch. -/
  channelJoin : (uid channel : String) → (op : Bool) → Host ρ → Host ρ × List NetAction
  screenJoin : (uid channel : String) → Host ρ → Host ρ × List NetAction
  /-- Status modes, akicks, entry message and greet. -/
  received : (uid channel : String) → (mode : Option String) → Host ρ → Host ρ × List NetAction
  setOp : (channel uid : String) → (op : Bool) → ρ → ρ
  setVoice : (channel uid : String) → (voice : Bool) → ρ → ρ
  /-- A service of that uid, introduced anew. -/
  reintroduce : ρ → (uid : String) → Option NetAction
  /-- A bot is forgotten and the bots are reconciled. -/
  reviveBot : (uid : String) → Host ρ → Host ρ × List NetAction
  forgetUser : (uid : String) → Host ρ → Host ρ × List NetAction
  /-- A vote command on a channel line, if it is one. -/
  handleVote : («from» channel text : String) → Host ρ → Option (Host ρ × List NetAction)
  fantasy : («from» channel text : String) → Host ρ → Host ρ × List NetAction
  triggerResponse : («from» channel text : String) → Host ρ → Host ρ × Option NetAction
  screenMessage : («from» channel text : String) → Host ρ → Host ρ × List NetAction
  /-- A private message to a service, with everything that may be told back. -/
  command : («from» «to» text : String) → (msgid : Option String) → Host ρ → Host ρ × List NetAction
  /-- Counters, audit feed, alerts and message style, once a channel line is done. -/
  concluded : List NetAction → Host ρ → Host ρ × List NetAction
  trackAccounts : List NetAction → Host ρ → Host ρ
  /-- Put a removal into the incident log; gives its id. -/
  recordIncident : (summary : String) → (now : Nat) → ρ → ρ × String
  standardReplies : ρ → Bool

/-- The status mode of an account by its own entry. -/
def ChannelInfo.joinMode (c : ChannelInfo) (account : String) : Option String :=
  if eqIgnoreAsciiCase c.founder account then (levelCaps "founder").auto
  else (c.ownEntry account).bind fun a => (levelCaps a.level).auto

/-! ### Actions on their way out -/

/-- A standard reply as a notice. -/
def Dispatcher.NetAction.degrade : NetAction → NetAction
  | .tagged tags inner => .tagged tags inner.degrade
  | .standardReply _ «from» «to» command _ text =>
      .notice «from» «to»
        (if command = "" ∨ command = "*" then "*** " ++ text
          else "*** " ++ command ++ ": " ++ text)
  | a => a

/-- The action that lifts a ban. -/
def PendingUnban.lift (u : PendingUnban) : NetAction :=
  .channelMode u.from u.channel ("-b " ++ u.mask)

namespace Dispatcher

variable {ρ : Type} (p : Parts ρ) (now : Nat)

/-- Stamp an incident id into the reason of a removal. -/
def stampIncident (r : ρ) : NetAction → ρ × NetAction
  | .kick «from» channel uid reason =>
      let target := (p.nickOf r uid).getD uid
      let (r, id) := p.recordIncident
        ("kicked \x02" ++ target ++ "\x02 from \x02" ++ channel ++ "\x02: " ++ reason) now r
      (r, .kick «from» channel uid (reason ++ " [#" ++ id ++ "]"))
  | .killUser «from» uid reason =>
      let target := (p.nickOf r uid).getD uid
      let (r, id) := p.recordIncident ("killed \x02" ++ target ++ "\x02: " ++ reason) now r
      (r, .killUser «from» uid (reason ++ " [#" ++ id ++ "]"))
  | a => (r, a)

def stampIncidents (r : ρ) : List NetAction → ρ × List NetAction
  | [] => (r, [])
  | a :: rest =>
      let (r, a) := stampIncident p now r a
      let (r, rest) := stampIncidents r rest
      (r, a :: rest)

/-- The tail that every call is to go through. -/
def finish (e : Dispatcher ρ) (out evout : List NetAction) : Dispatcher ρ × List NetAction :=
  let h := p.trackAccounts evout e.toHost
  let (rest, out) := stampIncidents p now h.rest (out ++ evout)
  ({ e with db := h.db, rest := rest },
    if p.standardReplies rest then out else out.map NetAction.degrade)

/-- Take out the bans that are due. -/
def sweepUnbans (e : Dispatcher ρ) : Dispatcher ρ × List NetAction :=
  ({ e with pendingUnbans := e.pendingUnbans.filter fun u => !(u.at ≤ now) },
    (e.pendingUnbans.filter (·.at ≤ now)).map PendingUnban.lift)

/-! ### Arms -/

/-- Finish with what was computed on the rest of the engine. -/
def finishWith (e : Dispatcher ρ) (out : List NetAction) (done : Host ρ × List NetAction) :
    Dispatcher ρ × List NetAction :=
  finish p now { e with toHost := done.1 } out done.2

/-- A line to a channel or to a service. -/
def dispatch (e : Dispatcher ρ) («from» «to» text : String) (msgid : Option String) :
    Dispatcher ρ × List NetAction :=
  if «to».toList.head? = some '#' ∨ «to».toList.head? = some '&' then
    let (e, said) :=
      match p.handleVote «from» «to» text e.toHost with
      | some (h, voted) => ({ e with toHost := h }, voted)
      | none =>
          let (h, obeyed) := p.fantasy «from» «to» text e.toHost
          let (e, kicks) := kickerCheck p.toSpeakers now { e with toHost := h } «from» «to» text
          let kicked := kicks.any fun
            | .kick .. => true
            | _ => false
          if kicked then (e, obeyed ++ kicks)
          else
            -- A line the bot kicked for is not rewarded with a response.
            let (h, response) := p.triggerResponse «from» «to» text e.toHost
            ({ e with toHost := h }, obeyed ++ kicks ++ response.toList)
    let (h, screened) := p.screenMessage «from» «to» text e.toHost
    let (h, out) := p.concluded (said ++ screened) h
    ({ e with toHost := h }, out)
  else
    let (h, out) := p.command «from» «to» text msgid e.toHost
    ({ e with toHost := h }, out)

/-- A fingerprint logs its owner in; otherwise the arm returns at once, with
nothing. -/
def userCert (e : Dispatcher ρ) (out : List NetAction) (uid fp : String) :
    Dispatcher ρ × List NetAction :=
  let e := { e with rest := p.setUserCert uid fp e.rest }
  if fp = "" ∨ (p.accountOf e.rest uid).isSome then (e, [])
  else
    match e.db.certfpOwner p.env fp with
    | none => (e, [])
    | some account =>
        if e.db.isSuspended { p.env with now } account then (e, [])
        else e.finishWith p now out (p.certfpLogin uid account e.toHost)

def lockdown : String := "The network is in lockdown (DEFCON 1). Please try again later."

def userConnect (e : Dispatcher ρ) (out : List NetAction) (uid nick host ip : String) :
    Dispatcher ρ × List NetAction :=
  let e := { e with rest := p.userConnect uid nick host ip e.rest }
  if p.defcon e.rest = 1 ∧ p.sid e.rest ≠ "" then
    e.finish p now out [.killUser (p.sid e.rest) uid lockdown]
  else
    match (p.sessionLimitFor e.toHost ip).filter (p.sessionCount e.rest ip > ·) with
    | some limit =>
        e.finish p now out
          [.killUser (p.sid e.rest) uid
            ("Session limit exceeded (" ++ toString limit ++ " from " ++ ip ++ ")")]
    | none => e.finishWith p now out (p.welcome uid nick e.toHost)

def channelSuspended (e : Dispatcher ρ) (channel : String) : Bool :=
  ((e.db.channel channel).bind (·.suspension)).any fun s => s.expires.all (· > now)

def restricted : String := "This channel is restricted to users with access."

def join (e : Dispatcher ρ) (out : List NetAction) (uid channel : String) (op : Bool) :
    Dispatcher ρ × List NetAction :=
  let (h, watch) := p.channelJoin uid channel op e.toHost
  let e := { e with toHost := h }
  if e.channelSuspended now channel then e.finish p now out watch
  else
    let account := p.accountOf e.rest uid
    let «from» := p.channelModeSource e.toHost channel
    let mode := account.bind (e.db.channelJoinMode channel)
    let isBot := p.isBot e.rest uid
    let access (f : ChannelInfo → String → Bool) := account.any fun a => (e.db.channel channel).any (f · a)
    let hasOpAccess := access ChannelInfo.isOp
    let (h, screened) := p.screenJoin uid channel e.toHost
    let e := { e with toHost := h }
    let denied := account.any fun a => (e.db.channel channel).any (·.denied a)
    -- SECUREOPS: one who arrives opped without op access loses it.
    let deops := op && !isBot &&
      (denied || (!hasOpAccess && (e.db.channel channel).any (·.settings.secureops)))
    let acts := watch ++ screened ++
      if deops then [.channelMode «from» channel ("-o " ++ uid)] else []
    if mode.isNone && !isBot && (e.db.channel channel).any (·.settings.restricted) &&
        !account.any (p.operPrivs e.toHost) then
      e.finish p now out (acts ++ [.kick «from» channel uid restricted])
    else
      let (h, greeted) := p.received uid channel mode e.toHost
      e.finishWith p now out (h, acts ++ greeted)

/-- A status mode that a user may not have is taken back. -/
def strip (e : Dispatcher ρ) (out : List NetAction) (channel uid mode : String) (given : Bool)
    (unfit : ChannelInfo → Option String → Bool) : Dispatcher ρ × List NetAction :=
  let account := p.accountOf e.rest uid
  if given && !p.isBot e.rest uid &&
      (e.db.channel channel).any (fun c => account.any c.denied || unfit c account) then
    e.finish p now out [.channelMode ((p.chanService e.rest).getD "") channel (mode ++ " " ++ uid)]
  else e.finish p now out []

def channelOp (e : Dispatcher ρ) (out : List NetAction) (channel uid : String) (op : Bool) :
    Dispatcher ρ × List NetAction :=
  strip p now { e with rest := p.setOp channel uid op e.rest } out channel uid "-o" op
    fun c account => c.settings.secureops && !account.any c.isOp

def channelVoice (e : Dispatcher ρ) (out : List NetAction) (channel uid : String) (voice : Bool) :
    Dispatcher ρ × List NetAction :=
  strip p now { e with rest := p.setVoice channel uid voice e.rest } out channel uid "-v" voice
    fun c account => c.settings.securevoices && account.all fun a => (c.joinMode a).isNone

def userKilled (e : Dispatcher ρ) (out : List NetAction) (uid : String) :
    Dispatcher ρ × List NetAction :=
  match p.reintroduce e.rest uid with
  | some intro => e.finish p now out [intro]
  | none =>
      if p.isBot e.rest uid then e.finishWith p now out (p.reviveBot uid e.toHost)
      else e.finishWith p now out (p.forgetUser uid e.toHost)

/-! ### The call -/

def handle (e : Dispatcher ρ) (event : NetEvent) : Dispatcher ρ × List NetAction :=
  let (e, out) := e.sweepUnbans now
  match event with
  | .userCert uid fp => e.userCert p now out uid fp
  | .userConnect uid nick host ip => e.userConnect p now out uid nick host ip
  | .join uid channel op => e.join p now out uid channel op
  | .channelOp channel uid op => e.channelOp p now out channel uid op
  | .channelVoice channel uid voice => e.channelVoice p now out channel uid voice
  | .userKilled uid => e.userKilled p now out uid
  | .privmsg «from» «to» text msgid =>
      let (e, evout) := e.dispatch p now «from» «to» text msgid
      e.finish p now out evout
  | event => e.finishWith p now out (p.arm event e.toHost)

/-- A call, made when the clock says `now`. -/
structure Call where
  now : Nat
  event : NetEvent

def step (e : Dispatcher ρ) (call : Call) : Dispatcher ρ := (e.handle p call.now call.event).1

end Dispatcher

end Echo
