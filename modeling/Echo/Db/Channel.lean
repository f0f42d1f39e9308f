import Echo.Db.Account

/-!
The channel and bot mutators (`channel.rs`).

As on the account side, the setters are `writeChannel` and `changeChannel` at
their own event and field; the list adds that are capped, the kickers and the
badword and trigger lists share one writer each.
-/

namespace Echo

open Echo.Lib

/-- The cap on a channel's access and auto-kick lists. -/
def maxChanList : Nat := 256

/-- The ChanServ SET options. -/
inductive ChanSetting where
  | signKick | signKickLevel | «private» | peace | secureOps | secureVoices | restricted
  | autoOp | keepTopic | topicLock | botGreet | noBot
  deriving DecidableEq, Repr

/-- Turn one option on or off. `autoOp` is stored inverted. -/
def ChanSettings.set (s : ChanSettings) (setting : ChanSetting) (on : Bool) : ChanSettings :=
  match setting with
  | .signKick => { s with signkick := on }
  | .signKickLevel => { s with signkickLevel := on }
  | .private => { s with «private» := on }
  | .peace => { s with peace := on }
  | .secureOps => { s with secureops := on }
  | .secureVoices => { s with securevoices := on }
  | .restricted => { s with restricted := on }
  | .autoOp => { s with noautoop := !on }
  | .keepTopic => { s with keeptopic := on }
  | .topicLock => { s with topiclock := on }
  | .botGreet => { s with botGreet := on }
  | .noBot => { s with nobot := on }

/-- The BotServ kickers that are a single switch. -/
inductive Kicker where
  | caps | bolds | colors | underlines | reverses | italics | flood | «repeat» | badwords | warn
  | dontKickOps | dontKickVoices
  deriving DecidableEq, Repr

def KickerSettings.set (k : KickerSettings) (kicker : Kicker) (on : Bool) : KickerSettings :=
  match kicker with
  | .caps => { k with caps := on }
  | .bolds => { k with bolds := on }
  | .colors => { k with colors := on }
  | .underlines => { k with underlines := on }
  | .reverses => { k with reverses := on }
  | .italics => { k with italics := on }
  | .flood => { k with flood := on }
  | .repeat => { k with «repeat» := on }
  | .badwords => { k with badwords := on }
  | .warn => { k with warn := on }
  | .dontKickOps => { k with dontkickops := on }
  | .dontKickVoices => { k with dontkickvoices := on }

namespace Db

/-! ### Families -/

/-- Require the channel, log the event, write the channel. -/
def writeChannel (channel : String) (event : Event) (write : ChannelInfo → ChannelInfo) :
    DbM ChanError Unit := do
  let db ← get
  if db.channels.contains (key channel) then
    logged event (fun _ => .internal) (·.adjustChannel channel write)
  else throw .noChannel

/-- Require the channel; if it is `pending`, log the event and write it. -/
def changeChannel (channel : String) (pending : ChannelInfo → Bool) (event : Event)
    (write : ChannelInfo → ChannelInfo) : DbM ChanError Bool := do
  let db ← get
  match db.channels[key channel]? with
  | none => throw .noChannel
  | some c =>
      if pending c then do
        logged event (fun _ => .internal) (·.adjustChannel channel write)
        return true
      else return false

/-- Like `changeChannel`, but with the write to the log ignored. -/
def quietChannel (channel : String) (pending : ChannelInfo → Bool) (event : Event)
    (write : ChannelInfo → ChannelInfo) : StateM Db Bool := do
  let db ← get
  match db.channels[key channel]? with
  | none => return false
  | some c =>
      if pending c then do
        quietly event (·.adjustChannel channel write)
        return true
      else return false

/-- Add to a capped list of the channel; replacing an entry is exempt. -/
def cappedAdd {α : Type} (channel : String) (listOf : ChannelInfo → List α) (same : α → Bool)
    (event : Event) (write : ChannelInfo → ChannelInfo) : DbM ChanError Unit := do
  let db ← get
  match db.channels[key channel]? with
  | none => throw .noChannel
  | some c =>
      if (listOf c).length ≥ maxChanList ∧ !(listOf c).any same then throw .full
      else logged event (fun _ => .internal) (·.adjustChannel channel write)

/-! ### Registration -/

/-- Register a channel to a founder. -/
def registerChannel (env : Env) (name founder : String) : DbM ChanError Unit := do
  let db ← get
  if db.channels.contains (key name) then throw .exists
  else
    logged (.channelRegistered name founder env.now) (fun _ => .internal) fun s =>
      { s with channels := s.channels.insert (key name) (newChannel name founder env.now) }

def dropChannel (name : String) : DbM ChanError Unit := do
  let db ← get
  if db.channels.contains (key name) then
    logged (.channelDropped name) (fun _ => .internal) fun s =>
      { s with channels := s.channels.erase (key name) }
  else throw .noChannel

/-- Move `old`'s registration to `new`, keeping every setting. -/
def renameChannel (old new : String) : DbM ChanError Unit := do
  let db ← get
  match db.channels[key old]? with
  | none => throw .noChannel
  | some _ =>
      if key old ≠ key new ∧ db.channels.contains (key new) then throw .exists
      else
        logged (.channelRenamed old new) (fun _ => .internal) fun s =>
          match s.channels[key old]? with
          | some c =>
              { s with channels :=
                  (s.channels.erase (key old)).insert (key new) { c with name := new } }
          | none => s

/-- Set the mode lock and its parameters. -/
def setMlockParams (name on off : String) (params : List (Char × String)) : DbM ChanError Unit :=
  writeChannel name (.channelMlock name on off params)
    ({ · with lockParams := params, lockOn := on, lockOff := off })

/-! ### Access, auto-kicks and levels -/

def accessAdd (channel account level : String) : DbM ChanError Unit :=
  cappedAdd channel (·.access) (fun a => eqIgnoreAsciiCase a.account account)
    (.channelAccessAdd channel account level)
    fun c =>
      { c with access :=
          c.access.filter (fun a => !eqIgnoreAsciiCase a.account account) ++ [⟨account, level⟩] }

def accessDel (channel account : String) : DbM ChanError Bool :=
  changeChannel channel (fun c => c.access.any fun a => eqIgnoreAsciiCase a.account account)
    (.channelAccessDel channel account)
    fun c => { c with access := c.access.filter fun a => !eqIgnoreAsciiCase a.account account }

def akickAdd (channel mask reason : String) : DbM ChanError Unit :=
  cappedAdd channel (·.akick) (fun k => eqIgnoreAsciiCase k.mask mask)
    (.channelAkickAdd channel mask reason)
    fun c =>
      { c with akick :=
          c.akick.filter (fun k => !eqIgnoreAsciiCase k.mask mask) ++ [⟨mask, reason⟩] }

def akickDel (channel mask : String) : DbM ChanError Bool :=
  changeChannel channel (fun c => c.akick.any fun k => eqIgnoreAsciiCase k.mask mask)
    (.channelAkickDel channel mask)
    fun c => { c with akick := c.akick.filter fun k => !eqIgnoreAsciiCase k.mask mask }

/-- Grant a LEVELS capability to a role. -/
def levelSet (channel cap role : String) : DbM ChanError Unit :=
  writeChannel channel (.channelLevelSet channel cap role)
    fun c =>
      { c with levels :=
          c.levels.filter (fun l => !eqIgnoreAsciiCase l.1 cap) ++ [(cap, role)] }

def levelReset (channel cap : String) : DbM ChanError Bool :=
  changeChannel channel (fun c => c.levels.any fun l => eqIgnoreAsciiCase l.1 cap)
    (.channelLevelReset channel cap)
    fun c => { c with levels := c.levels.filter fun l => !eqIgnoreAsciiCase l.1 cap }

/-! ### Ownership -/

def setFounder (channel account : String) : DbM ChanError Unit :=
  writeChannel channel (.channelFounderSet channel account) ({ · with founder := account })

def setSuccessor (channel : String) (successor : Option String) : DbM ChanError Unit :=
  writeChannel channel (.channelSuccessorSet channel successor) ({ · with successor })

/-- The names of the channels an account founded. -/
def channelsOwnedBy (env : Env) (db : Db) (account : String) : List String :=
  ((env.values db.channels).filter fun c => eqIgnoreAsciiCase c.founder account).map (·.name)

/-- Drop a channel nobody takes over. -/
def abandonChannel (chan : String) : StateM Db (List (String × String) × List String) := do
  effect (dropChannel chan)
  return ([], [chan])

/-- Hand one channel of a departing account to its successor, or drop it. -/
def releaseChannel (account chan : String) : StateM Db (List (String × String) × List String) := do
  let db ← get
  match ((db.channels[key chan]?).bind (·.successor)).filter fun s =>
    !eqIgnoreAsciiCase s account && db.exists s with
  | none => abandonChannel chan
  | some s =>
      match ← (setFounder chan s).run with
      | .error _ => abandonChannel chan
      | .ok () =>
          effect (setSuccessor chan none)
          return ([(chan, s)], [])

/-- Release the channels of a departing account: the transfers made and the
channels dropped. -/
def releaseFoundedChannels (env : Env) (account : String) :
    StateM Db (List (String × String) × List String) := do
  let db ← get
  let released ← (channelsOwnedBy env db account).mapM (releaseChannel account)
  return ((released.map Prod.fst).flatten, (released.map Prod.snd).flatten)

/-! ### Descriptions, options and suspension -/

def setDesc (channel desc : String) : DbM ChanError Unit :=
  writeChannel channel (.channelDescSet channel desc) ({ · with desc })

def setUrl (channel url : String) : DbM ChanError Unit :=
  writeChannel channel (.channelUrlSet channel url) ({ · with url })

def setChannelEmail (channel email : String) : DbM ChanError Unit :=
  writeChannel channel (.channelEmailSet channel email) ({ · with email })

def setEntrymsg (channel msg : String) : DbM ChanError Unit :=
  writeChannel channel (.channelEntryMsgSet channel msg) ({ · with entrymsg := msg })

/-- Remember a channel's topic and who set it. -/
def setChannelTopic (channel topic setter : String) : DbM ChanError Unit :=
  writeChannel channel (.channelTopicSet channel topic setter)
    ({ · with topic, topicSetter := setter })

def setChannelSetting (channel : String) (setting : ChanSetting) (on : Bool) :
    DbM ChanError Unit := do
  let db ← get
  match db.channels[key channel]? with
  | none => throw .noChannel
  | some c =>
      let settings := c.settings.set setting on
      logged (.channelSettingsSet channel settings) (fun _ => .internal)
        (·.adjustChannel channel ({ · with settings }))

def suspendChannel (env : Env) (channel «by» reason : String) (expires : Option Nat) :
    DbM ChanError Unit :=
  writeChannel channel (.channelSuspended channel «by» reason env.now expires)
    ({ · with suspension := some ⟨«by», reason, env.now, expires⟩ })

def unsuspendChannel (channel : String) : DbM ChanError Bool :=
  changeChannel channel (·.suspension.isSome) (.channelUnsuspended channel)
    ({ · with suspension := none })

/-- Pin or unpin a channel against expiry. -/
def setChannelNoexpire (channel : String) (on : Bool) : DbM ChanError Bool :=
  changeChannel channel (·.noexpire != on) (.channelNoExpire channel on) ({ · with noexpire := on })

/-- Stamp a channel as used, at most once a day. -/
def markChannelUsed (channel : String) (now : Nat) : StateM Db Unit := do
  let _ ← quietChannel channel (fun c => now - max c.lastUsed c.ts ≥ coalesce)
    (.channelUsed channel now)
    fun c => { c with lastUsed := max c.lastUsed now, expiryWarned := false }

def markChannelWarned (channel : String) : StateM Db Unit := do
  let _ ← quietChannel channel (fun _ => true) (.channelExpiryWarned channel)
    ({ · with expiryWarned := true })

def setChannelNote (channel : String) (note : Option String) : StateM Db Bool :=
  quietChannel channel (fun _ => true) (.channelOperNoteSet channel note)
    ({ · with operNote := note })

/-! ### Kickers, badwords and triggers -/

/-- Read, modify and write the whole kicker record through one event. -/
def updateKickers (channel : String) (f : KickerSettings → KickerSettings) : DbM ChanError Unit := do
  let db ← get
  match db.channels[key channel]? with
  | none => throw .noChannel
  | some c =>
      let kickers := f c.kickers
      logged (.channelKickerSet channel kickers) (fun _ => .internal)
        (·.adjustChannel channel ({ · with kickers }))

def setKicker (channel : String) (kicker : Kicker) (on : Bool) : DbM ChanError Unit :=
  updateKickers channel (·.set kicker on)

def setCapsKicker (channel : String) (capsMin capsPercent : Nat) : DbM ChanError Unit :=
  updateKickers channel ({ · with caps := true, capsMin, capsPercent })

def setFloodKicker (channel : String) (lines secs : Nat) : DbM ChanError Unit :=
  updateKickers channel ({ · with flood := true, floodLines := lines, floodSecs := secs })

def setRepeatKicker (channel : String) (times : Nat) : DbM ChanError Unit :=
  updateKickers channel ({ · with «repeat» := true, repeatTimes := times })

def setTtb (channel : String) (ttb : Nat) : DbM ChanError Unit :=
  updateKickers channel ({ · with ttb })

def setBanExpire (channel : String) (secs : Nat) : DbM ChanError Unit :=
  updateKickers channel ({ · with banExpire := secs })

def setVotekick (channel : String) (votes : Nat) : DbM ChanError Unit :=
  updateKickers channel ({ · with votekick := votes })

/-- Persist a new badword list and apply it. -/
def writeBadwords (channel : String) (list : List String) : DbM ChanError Unit :=
  logged (.channelBadwordsSet channel list) (fun _ => .internal)
    (·.adjustChannel channel fun c =>
      { c with badwords := list, badwordsRev := c.badwordsRev + 1 })

def writeTriggers (channel : String) (list : List Trigger) : DbM ChanError Unit :=
  logged (.channelTriggersSet channel list) (fun _ => .internal)
    (·.adjustChannel channel fun c =>
      { c with triggers := list, triggersRev := c.triggersRev + 1 })

/-- Add a badword pattern. False if it is already listed. -/
def badwordAdd (env : Env) (channel pattern : String) : DbM ChanError Bool := do
  if !env.regexCompiles pattern then throw .invalidPattern
  else
    let db ← get
    match db.channels[key channel]? with
    | none => throw .noChannel
    | some c =>
        if c.badwords.any (· == pattern) then return false
        else do
          writeBadwords channel (c.badwords ++ [pattern])
          return true

def badwordDel (channel pattern : String) : DbM ChanError Bool := do
  let db ← get
  match db.channels[key channel]? with
  | none => throw .noChannel
  | some c =>
      if c.badwords.any (· == pattern) then do
        writeBadwords channel (c.badwords.filter (· != pattern))
        return true
      else return false

/-- Clear all badwords; how many there were. -/
def badwordClear (channel : String) : DbM ChanError Nat := do
  let db ← get
  match db.channels[key channel]? with
  | none => throw .noChannel
  | some c =>
      if c.badwords.length > 0 then do
        writeBadwords channel []
        return c.badwords.length
      else return c.badwords.length

/-- Add an auto-response. False if its pattern is already there. -/
def triggerAdd (env : Env) (channel pattern response : String) (cooldown : Nat) :
    DbM ChanError Bool := do
  if !env.regexCompiles pattern then throw .invalidPattern
  else
    let db ← get
    match db.channels[key channel]? with
    | none => throw .noChannel
    | some c =>
        if c.triggers.any (·.pattern == pattern) then return false
        else do
          writeTriggers channel (c.triggers ++ [⟨pattern, response, cooldown⟩])
          return true

/-- Remove the trigger at a 1-based index. False if out of range. -/
def triggerDel (channel : String) (index : Nat) : DbM ChanError Bool := do
  let db ← get
  match db.channels[key channel]? with
  | none => throw .noChannel
  | some c =>
      if index = 0 ∨ index > c.triggers.length then return false
      else do
        writeTriggers channel (c.triggers.eraseIdx (index - 1))
        return true

def triggerClear (channel : String) : DbM ChanError Nat := do
  let db ← get
  match db.channels[key channel]? with
  | none => throw .noChannel
  | some c =>
      if c.triggers.length > 0 then do
        writeTriggers channel []
        return c.triggers.length
      else return c.triggers.length

/-- Copy one channel's kickers, badwords, greet and nobot onto another. -/
def copyBotConfig (src dst : String) : DbM ChanError Unit := do
  let db ← get
  match db.channels[key src]? with
  | none => throw .noChannel
  | some s =>
      if db.channels.contains (key dst) then do
        logged (.channelKickerSet dst s.kickers) (fun _ => .internal)
          (·.adjustChannel dst ({ · with kickers := s.kickers }))
        writeBadwords dst s.badwords
        setChannelSetting dst .botGreet s.settings.botGreet
        setChannelSetting dst .noBot s.settings.nobot
      else throw .noChannel

/-! ### Bots -/

/-- Log a bot and hold it under its nick. -/
def putBot (bot : Bot) : DbM ChanError Unit :=
  logged (.botAdded bot) (fun _ => .internal) fun s =>
    { s with bots := s.bots.insert (key bot.nick) bot }

def botAdd (nick user host gecos : String) : DbM ChanError Unit := do
  let db ← get
  if db.bots.contains (key nick) then throw .exists
  else putBot ⟨nick, user, host, gecos, false⟩

/-- Mark a bot private or public. False if there is no such bot. -/
def botSetPrivate (nick : String) («private» : Bool) : DbM ChanError Bool := do
  let db ← get
  match db.bots[key nick]? with
  | none => return false
  | some bot =>
      let bot := { bot with «private» }
      logged (.botAdded bot) (fun _ => .internal) fun s =>
        { s with bots := s.bots.insert (key nick) bot }
      return true

/-- Delete every bot at once: all the events, then all the bots. -/
def botDelAll (env : Env) : DbM ChanError Nat := do
  let db ← get
  let nicks := (env.values db.bots).map (·.nick)
  appendEach .botRemoved (fun _ => .internal) nicks
  edit fun s => { s with bots := ∅ }
  return nicks.length

def botDel (nick : String) : DbM ChanError Bool := do
  let db ← get
  if db.bots.contains (key nick) then do
    logged (.botRemoved nick) (fun _ => .internal) fun s =>
      { s with bots := s.bots.erase (key nick) }
    return true
  else return false

/-- Change a bot's nick or identity. A rename moves every channel the old bot
was assigned to. -/
def botChange (env : Env) (old newNick user host gecos : String) : DbM ChanError Unit := do
  let db ← get
  match db.bots[key old]? with
  | none => throw .noChannel
  | some held =>
      let bot : Bot := ⟨newNick, user, host, gecos, held.private⟩
      if key old = key newNick then putBot bot
      else if db.bots.contains (key newNick) then throw .exists
      else do
        let chans := ((env.values db.channels).filter fun c =>
          c.assignedBot.any fun b => key b == key old).map (·.name)
        logged (.botRemoved old) (fun _ => .internal) fun s =>
          { s with bots := s.bots.erase (key old) }
        putBot bot
        chans.forM fun chan =>
          logged (.channelBotAssigned chan newNick) (fun _ => .internal)
            (·.adjustChannel chan ({ · with assignedBot := some newNick }))

/-- Set or clear the bot assigned to new channels. -/
def setDefaultBot (bot : Option String) : DbM ChanError Unit :=
  logged (.defaultBotSet bot) (fun _ => .internal)
    (·.adjustNet ({ · with defaultBot := bot.map key }))

def assignBot (channel bot : String) : DbM ChanError Unit :=
  writeChannel channel (.channelBotAssigned channel bot) ({ · with assignedBot := some bot })

def unassignBot (channel : String) : DbM ChanError Bool :=
  changeChannel channel (·.assignedBot.isSome) (.channelBotUnassigned channel)
    ({ · with assignedBot := none })

end Db

end Echo
