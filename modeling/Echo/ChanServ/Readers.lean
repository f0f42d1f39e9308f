import Echo.ChanServ.Command

/-!
The commands that only tell: INFO, LIST, STATUS, GETKEY, SEEN and HELP.
-/

namespace Echo

open Echo.Lib

open Engine (bold)

/-- How the role reads. -/
def AccessRole.label : AccessRole → String
  | .founder => "founder"
  | .sop => "sop"
  | .aop => "op"
  | .hop => "halfop"
  | .vop => "voice"
  | .custom => "access"

/-- The word of the list that the role is the exact tier of. -/
def AccessRole.xopWord : AccessRole → Option String
  | .sop => some "SOP"
  | .aop => some "AOP"
  | .hop => some "HOP"
  | .vop => some "VOP"
  | .founder | .custom => none

namespace ChanServ

/-! ### Times -/

/-- A number with zeros in front, up to a width. -/
def padded (width n : Nat) : String :=
  let digits := (toString n).toList
  String.ofList (List.replicate (width - digits.length) '0' ++ digits)

/-- A time in seconds as a date, by days of the civil calendar. -/
def humanTime (ts : Nat) : String :=
  let rem := ts % 86400
  let z := ts / 86400 + 719468
  let era := z / 146097
  let doe := z - era * 146097
  let yoe := (doe - doe / 1460 + doe / 36524 - doe / 146096) / 365
  let doy := doe - (365 * yoe + yoe / 4 - yoe / 100)
  let mp := (5 * doy + 2) / 153
  let day := doy - (153 * mp + 2) / 5 + 1
  let month := if mp < 10 then mp + 3 else mp - 9
  let year := yoe + era * 400 + if month ≤ 2 then 1 else 0
  padded 4 year ++ "-" ++ padded 2 month ++ "-" ++ padded 2 day ++ " " ++ padded 2 (rem / 3600) ++
    ":" ++ padded 2 (rem % 3600 / 60) ++ ":" ++ padded 2 (rem % 60) ++ " UTC"

example : humanTime 1709210096 = "2024-02-29 12:34:56 UTC" := by decide +kernel

/-! ### INFO and LIST -/

/-- A part of a lock under its sign. -/
def signed (sign modes : String) : String := if modes = "" then "" else sign ++ modes

/-- The lock as INFO shows it. -/
def infoLock (info : ChannelInfo) : String :=
  let params := " ".intercalate (info.lockParams.map (·.2))
  " ".intercalate ([signed "+" info.lockOn, params, signed "-" info.lockOff].filter (· ≠ ""))

def infoOptions (s : ChanSettings) : List String :=
  (if s.signkick then [if s.signkickLevel then "SIGNKICK (level)" else "SIGNKICK"] else [])
    ++ (([(s.private, "PRIVATE"), (s.peace, "PEACE"), (s.secureops, "SECUREOPS"),
      (s.securevoices, "SECUREVOICES"), (s.keeptopic, "KEEPTOPIC"), (s.topiclock, "TOPICLOCK"),
      (s.botGreet, "GREET"), (s.nobot, "NOBOT")].filter (·.1)).map (·.2))

/-- A line under its heading, where there is something to say. -/
def headed (heading text : String) : List String := if text = "" then [] else [heading ++ text]

def infoLines (info : ChannelInfo) (auspex : Bool) : List String :=
  let setter := info.topicSetter
  let options := infoOptions info.settings
  ["Information for " ++ bold info.name ++ ":", "  Founder    : " ++ bold info.founder]
    ++ (info.successor.toList.map ("  Successor  : " ++ bold ·))
    ++ headed "  Description: " info.desc
    ++ headed "  URL        : " info.url
    ++ headed "  Email      : " info.email
    ++ ["  Registered : " ++ humanTime info.ts, "  Last used  : " ++ humanTime info.lastUsed]
    ++ headed "  Topic      : " info.topic
    ++ (if setter ≠ "" ∧ !setter.toList.head?.any Char.isDigit then ["  Topic by   : " ++ bold setter] else [])
    ++ headed "  Mode lock  : " (infoLock info)
    ++ headed "  Entry msg  : " info.entrymsg
    ++ (info.assignedBot.toList.map ("  Bot        : " ++ bold ·))
    ++ ["  Access     : " ++ bold (toString info.access.length) ++ " entries · Akick: " ++
      bold (toString info.akick.length)]
    ++ (info.suspension.toList.map fun s => "  Suspended  : by " ++ bold s.by ++ " — " ++ s.reason)
    ++ (if options.isEmpty then [] else ["  Options    : " ++ ", ".intercalate options])
    ++ (if auspex then info.operNote.toList.map ("  Staff note : " ++ ·) else [])

variable (c : Call)

def handleInfo (args : List String) : Cmd Unit := do
  match args[1]? with
  | none => notice c "Syntax: INFO <#channel>"
  | some chan => withChannel c chan fun info => notices c (infoLines info (c.from.privs.has .auspex))

/-- The cap on the channels that LIST shows. -/
def maxShown : Nat := 100

/-- What LIST says of a channel; more to an operator. -/
def listLine (isOper : Bool) (info : ChannelInfo) : String :=
  let members := (c.net.channelMembers info.name).length
  if isOper then
    let lock := signed "+" info.lockOn ++ signed "-" info.lockOff
    "  " ++ bold info.name ++ " — founder " ++ bold info.founder ++ " · " ++ toString members ++
      " users · used " ++ humanTime info.lastUsed ++ signed " · " lock ++
      if info.suspension.isSome then "  " ++ bold "[SUSPENDED]" else ""
  else "  " ++ bold info.name ++ " (" ++ toString members ++ " users)"

def handleList (args : List String) : Cmd Unit := do
  let pattern := args[1]?.getD "*"
  let isOper := c.from.privs.has .auspex
  let chans := (c.env.values (← engine).db.channels).filter fun info =>
    (isOper || !info.settings.private) && globMatch c.unicode pattern info.name
  if chans.isEmpty then notice c ("No channels match " ++ bold pattern ++ ".")
  else
    let sorted := chans.mergeSort fun a b => toAsciiLowercase a.name ≤ toAsciiLowercase b.name
    let more := if maxShown < chans.length then ", showing the first " ++ toString maxShown else ""
    notices c
      (("Channels matching " ++ bold pattern ++ ":") :: (sorted.take maxShown).map (listLine c isOper)
        ++ ["End of list — " ++ toString chans.length ++
          (if chans.length = 1 then " channel" else " channels") ++ more ++ "."])

/-! ### STATUS, GETKEY and SEEN -/

/-- The access of an account by its own entry. -/
def statusLevel (info : ChannelInfo) : Option String → String
  | none => "none (not logged in)"
  | some a =>
      if eqIgnoreAsciiCase info.founder a then "founder"
      else (info.ownEntry a).elim "none" fun entry => (accessRole entry.level).label

def handleStatus (args : List String) : Cmd Unit := do
  match args[1]? with
  | none => notice c "Syntax: STATUS <#channel> [nick]"
  | some chan =>
      withChannel c chan fun info =>
        let (label, account) :=
          match args[2]? with
          | some nick => (nick, (c.net.uidByNick nick).bind c.net.accountOf)
          | none => (c.from.nick, c.from.account)
        notice c (bold label ++ " access on " ++ bold chan ++ ": " ++ bold (statusLevel info account))

def handleGetkey (args : List String) : Cmd Unit := do
  match args[1]? with
  | none => notice c "Syntax: GETKEY <#channel>"
  | some chan =>
      guarded (requireOp c chan)
        (match c.net.channelKey chan with
          | some key => notice c ("Key for " ++ bold chan ++ " is " ++ bold key ++ ".")
          | none => notice c (bold chan ++ " has no key set."))

/-- SEEN in a channel. -/
def seenIn (chan nick : String) : String :=
  let who := c.from.nick
  if (c.net.uidByNick nick).any (c.net.channelMembers chan).contains then
    who ++ ": " ++ bold nick ++ " is here right now."
  else
    match c.net.channelSeen chan nick with
    | some s =>
        who ++ ": " ++ bold s.nick ++ " was last seen on " ++ bold chan ++ " " ++ humanTime s.ts ++
          ", last saying: " ++ s.msg
    | none => who ++ ": I have no record of " ++ bold nick ++ " talking in " ++ bold chan ++ "."

/-- SEEN on the network. -/
def seenAnywhere (nick : String) : String :=
  if (c.net.uidByNick nick).isSome then bold nick ++ " is currently online."
  else
    match c.net.lastSeen nick with
    | some s => bold s.nick ++ " was last seen " ++ humanTime s.ts ++ " (" ++ s.what ++ ")."
    | none => "I have no record of " ++ bold nick ++ "."

def handleSeen (args : List String) : Cmd Unit :=
  match args[1]? with
  | none => notice c "Syntax: SEEN <nick>  |  SEEN <#channel> <nick>"
  | some first =>
      if first.toList.head? = some '#' then
        match args[2]? with
        | none => notice c "Syntax: SEEN <#channel> <nick>"
        | some nick => notice c (seenIn c first nick)
      else notice c (seenAnywhere c first)

/-! ### HELP -/

/-- The words that a help topic stands for. -/
def HelpEntry.words (e : HelpEntry) : List String :=
  (e.cmd.toList.splitOn '/').map String.ofList

def handleHelp (topic : Option String) : Cmd Unit :=
  match topic with
  | none =>
      notices c (c.blurb :: c.topics.map (fun e => "  " ++ bold e.cmd ++ "  " ++ e.summary)
        ++ ["Type " ++ bold "HELP <command>" ++ " for detail on one command."])
  | some t =>
      match c.topics.find? fun e => e.words.any (eqIgnoreAsciiCase · t) with
      | some e => notices c e.detail
      | none =>
          notice c ("No help for " ++ bold (toAsciiUppercase t) ++ ". Type " ++ bold "HELP" ++
            " for the command list.")

end ChanServ

end Echo
