import Echo.Db.Access

/-!
What the engine says to the network, and BotServ's kickers: the assigned bot kicks
a line that trips a rule and, from the `ttb`-th kick on, bans its author first; with
BANEXPIRE the ban is recorded to be lifted.
-/

namespace Echo

open Std (ExtTreeMap)
open Echo.Lib

/-! ### Events and actions -/

/-- What the uplink reports. -/
inductive Dispatcher.NetEvent where
  | registered
  | endBurst
  | ping (token : String) («from» : Option String)
  | idle (requester target : String)
  | privmsg («from» «to» text : String) (msgid : Option String)
  | userConnect (uid nick host ip : String)
  | userAttrs (uid ident realhost gecos : String)
  | nickChange (uid nick : String)
  | accountLogin (uid account : String)
  | signoreSet (uid : String) (list : List String)
  | channelCreate (channel : String)
  | join (uid channel : String) (op : Bool)
  | part (uid channel reason : String)
  | kicked (channel uid «by» reason : String)
  | channelRename (old new : String)
  | userMode (uid modes : String)
  | operUp (uid operType : String)
  | channelOp (channel uid : String) (op : Bool)
  | channelVoice (channel uid : String) (voice : Bool)
  | channelModeChange (channel modes setter : String)
  | channelKey (channel : String) (key : Option String)
  | topicChange (channel setter topic setby : String)
  | quit (uid reason : String)
  | userKilled (uid : String)
  | serverLink (sid parent : String)
  | serverInfo (sid name : String)
  | userCert (uid fp : String)
  | extbanRegistry (entries : List String)
  | chanModeRegistry (modes : List Char)
  | casemapping (name : String)
  | modulesAvailable (modules : List String)
  | capabEnd
  | servProtect (letter : Char) (requested : Bool)
  | serverSplit (server : String)
  | accountRequest (reqid origin kind account p2 p3 : String)
  | sasl (client agent mode : String) (data : List String)
  | unknown (line : String)

inductive Dispatcher.ReplyKind where
  | fail | warn | note
  deriving DecidableEq, Repr

/-- What the engine has the network do; `other` is any action that the engine does
not look into again. -/
inductive Dispatcher.NetAction where
  | notice («from» «to» text : String)
  | tagged (tags : List (String × String)) (inner : NetAction)
  | standardReply (kind : ReplyKind) («from» «to» command code text : String)
  | metadata (target key value : String)
  | channelMode («from» channel modes : String)
  | kick («from» channel uid reason : String)
  | killUser («from» uid reason : String)
  | introduceUser (uid nick ident host gecos : String)
  | other (line : String)
  deriving DecidableEq, Repr

/-! ### The rest of the engine -/

/-- One user's recent chatter in one channel. -/
structure ChatterState where
  floodStart : Nat := 0
  floodLines : Nat := 0
  lastHash : Nat := 0
  repeats : Nat := 0
  kicks : Nat := 0
  warned : Bool := false
  deriving DecidableEq, Repr

/-- A kicker ban that is to be lifted. -/
structure PendingUnban where
  «at» : Nat
  «from» : String
  channel : String
  mask : String
  deriving DecidableEq, Repr

/-- The engine without the queue of unbans: the store, and whatever else there is. -/
structure Host (ρ : Type) where
  db : Db
  rest : ρ

structure Dispatcher (ρ : Type) extends Host ρ where
  pendingUnbans : List PendingUnban

/-- What the kickers ask of the rest of the engine. -/
structure Speakers (ρ : Type) where
  /-- Channel operator and voice status, nicks and hosts of who is online. -/
  isOp : ρ → (channel uid : String) → Bool
  isVoiced : ρ → (channel uid : String) → Bool
  uidByNick : ρ → (nick : String) → Option String
  hostOf : ρ → (uid : String) → Option String
  /-- The counters of a speaker, by the key of the channel. -/
  chatter : ρ → (channel uid : String) → ChatterState
  setChatter : (channel uid : String) → ChatterState → ρ → ρ
  /-- Whether a line matches one of the patterns. -/
  badword : (patterns : List String) → (text : String) → Bool
  ciHash : String → Nat
  /-- The one-time warning, in the language of the user. -/
  warning : Host ρ → (uid reason : String) → String

/-! ### Kickers -/

namespace KickerSettings

variable (k : KickerSettings)

/-- Any kicker enabled? -/
def any : Bool :=
  k.caps || k.bolds || k.colors || k.underlines || k.reverses || k.italics || k.flood ||
    k.repeat || k.badwords

def floodThresholds : Nat × Nat :=
  (if k.floodLines < 2 then 6 else k.floodLines, if k.floodSecs = 0 then 10 else k.floodSecs)

def repeatThreshold : Nat := if k.repeatTimes = 0 then 3 else k.repeatTimes

/-- Whether the capitals of a line reach the percentage. -/
def shouts (text : String) : Bool :=
  let min := if k.capsMin = 0 then 10 else k.capsMin
  let percent := if k.capsPercent = 0 then 25 else k.capsPercent
  let upper := (text.toList.filter Char.isUpper).length
  let lower := (text.toList.filter Char.isLower).length
  text.length ≥ min && upper + lower > 0 && upper * 100 / (upper + lower) ≥ percent

/-- The reason to kick a line for. -/
def violation (text : String) : Option String :=
  if k.bolds && text.toList.contains '\x02' then some "Don't use bold formatting on this channel."
  else if k.colors && text.toList.contains '\x03' then some "Don't use colour codes on this channel."
  else if k.underlines && text.toList.contains '\x1f' then
    some "Don't use underline formatting on this channel."
  else if k.reverses && text.toList.contains '\x16' then
    some "Don't use reverse formatting on this channel."
  else if k.italics && text.toList.contains '\x1d' then
    some "Don't use italic formatting on this channel."
  else if k.caps && k.shouts text then some "Turn caps lock off!"
  else none

end KickerSettings

/-- Counters are 16 bits wide and saturate. -/
def count16 (n : Nat) : Nat := min (n + 1) 65535

/-- FLOOD and REPEAT: the counters after one more line, and what it trips. -/
def ChatterState.line (k : KickerSettings) (now hash : Nat) (state : ChatterState) :
    ChatterState × Option String :=
  let (floodLines, floodSecs) := k.floodThresholds
  let state :=
    if k.flood then
      let state :=
        if now - state.floodStart > floodSecs then { state with floodStart := now, floodLines := 0 }
        else state
      { state with floodLines := count16 state.floodLines }
    else state
  if k.flood ∧ state.floodLines ≥ floodLines then (state, some "Stop flooding!")
  else if k.repeat then
    let state :=
      if hash = state.lastHash then { state with repeats := count16 state.repeats }
      else { state with repeats := 0, lastHash := hash }
    (state, if state.repeats ≥ k.repeatThreshold then some "Stop repeating yourself!" else none)
  else (state, none)

namespace Dispatcher

variable {ρ : Type} (p : Speakers ρ)

/-- Update the counters of a speaker. -/
def chatterEntry (e : Dispatcher ρ) (channel uid : String) (f : ChatterState → ChatterState) :
    Dispatcher ρ :=
  { e with rest := p.setChatter (key channel) uid (f (p.chatter e.rest (key channel) uid)) e.rest }

/-- The reason to kick a line for, if any, with the counters updated. -/
def kickReason (now : Nat) (e : Dispatcher ρ) (c : ChannelInfo) («from» channel text : String) :
    Dispatcher ρ × Option String :=
  let k := c.kickers
  match k.violation text with
  | some reason => (e, some reason)
  | none =>
      if k.badwords && !c.badwords.isEmpty && p.badword c.badwords text then
        (e, some "Watch your language!")
      else if k.flood || k.repeat then
        let line := (p.chatter e.rest (key channel) «from»).line k now (p.ciHash text)
        (e.chatterEntry p channel «from» fun _ => line.1, line.2)
      else (e, none)

/-- Ban before the kick once the author was kicked `ttb` times, and record the unban
if BANEXPIRE is set. -/
def timesToBan (now : Nat) (e : Dispatcher ρ) (k : KickerSettings) (botuid «from» channel : String) :
    Dispatcher ρ × List NetAction :=
  if k.ttb = 0 then (e, [])
  else
    let kicks := count16 (p.chatter e.rest (key channel) «from»).kicks
    if kicks < k.ttb then
      (e.chatterEntry p channel «from» fun state => { state with kicks := kicks }, [])
    else
      let e := e.chatterEntry p channel «from» fun state => { state with kicks := 0 }
      match p.hostOf e.rest «from» with
      | none => (e, [])
      | some host =>
          let mask := "*!*@" ++ host
          let ban := [.channelMode botuid channel ("+b " ++ mask)]
          if k.banExpire = 0 then (e, ban)
          else
            ({ e with pendingUnbans :=
                e.pendingUnbans ++ [⟨now + k.banExpire, botuid, channel, mask⟩] }, ban)

/-- The kickers' verdict on a channel line. -/
def kickerCheck (now : Nat) (e : Dispatcher ρ) («from» channel text : String) :
    Dispatcher ρ × List NetAction :=
  match e.db.channel channel with
  | none => (e, [])
  | some c =>
      let k := c.kickers
      if !k.any || (k.dontkickops && p.isOp e.rest channel «from») ||
          (k.dontkickvoices && p.isVoiced e.rest channel «from») then (e, [])
      else
        match c.assignedBot.bind (p.uidByNick e.rest) with
        | none => (e, [])
        | some botuid =>
            match e.kickReason p now c «from» channel text with
            | (e, none) => (e, [])
            | (e, some reason) =>
                if k.warn && !(p.chatter e.rest (key channel) «from»).warned then
                  let e := e.chatterEntry p channel «from» fun state => { state with warned := true }
                  (e, [.notice botuid «from» (p.warning e.toHost «from» reason)])
                else
                  let (e, ban) := e.timesToBan p now k botuid «from» channel
                  (e, ban ++ [.kick botuid channel «from» reason])

end Dispatcher

end Echo
