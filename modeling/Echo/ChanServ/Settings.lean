import Echo.ChanServ.Readers

/-!
The commands that write what is kept of a channel: its registration, its lists and its
settings.
-/

namespace Echo

open Echo.Lib

open Engine (bold tryAgain flagsList)

/-- The tier that holds the capability by default. -/
def LevelCap.defaultRole : LevelCap → AccessRole
  | .access => .sop
  | .op | .topic | .invite => .aop

/-- The SET keyword of an option. -/
def ChanSetting.label : ChanSetting → String
  | .signKick | .signKickLevel => "SIGNKICK"
  | .private => "PRIVATE"
  | .peace => "PEACE"
  | .secureOps => "SECUREOPS"
  | .secureVoices => "SECUREVOICES"
  | .restricted => "RESTRICTED"
  | .autoOp => "AUTOOP"
  | .keepTopic => "KEEPTOPIC"
  | .topicLock => "TOPICLOCK"
  | .botGreet => "GREET"
  | .noBot => "NOBOT"

namespace ChanServ

variable (c : Call)

/-! ### Registration -/

/-- A new channel is given the default bot, if there is one. -/
def assignDefaultBot (chan : String) : Cmd Unit := do
  match (← engine).defaultBot with
  | none => pure ()
  | some bot => do
      match ← store (Db.assignBot chan bot) with
      | .ok () =>
          notice c ("Assigned " ++ bold bot ++ " to " ++ bold chan ++ ". Change it with " ++
            bold ("/" ++ "msg BotServ ASSIGN") ++ ".")
      | .error _ => pure ()

def handleRegister (args : List String) : Cmd Unit := do
  match args[1]? with
  | none => notice c "Syntax: REGISTER <#channel>"
  | some chan =>
      let e ← engine
      if chan.toList.head? ≠ some '#' then notice c ("Channel names start with " ++ bold "#" ++ ".")
      else if e.channelRegsFrozen then
        notice c ("Channel registrations are temporarily frozen by network staff. " ++
          "Please try again later.")
      else
        match c.from.account with
        | none =>
            notice c ("You need to be logged in to register a channel. " ++
              "Identify to NickServ first.")
        | some account =>
            if !c.net.isOp chan c.from.uid then
              notice c ("You must be a channel operator (" ++ bold "@" ++ ") in " ++ bold chan ++
                " to register it.")
            else
              match e.policy.isForbidden c.unicode .chan chan with
              | some reason => notice c (bold chan ++ " can't be registered: " ++ reason)
              | none =>
                  match e.policy.lookalike c.unicode chan with
                  | some reason => do
                      alert "REGISTER"
                        ("tried to register the look-alike channel " ++ bold chan ++ " (blocked)")
                      notice c reason
                  | none => do
                      match ← store (Db.registerChannel c.env chan account) with
                      | .ok () => do
                          channelMode c.me chan "+r"
                          count "chanserv.register"
                          notice c (bold chan ++
                            " is now registered and you are its founder. Enjoy!")
                          assignDefaultBot c chan
                      | .error .exists =>
                          notice c (bold chan ++ " is already registered. Try " ++
                            bold ("INFO " ++ chan) ++ " to see who owns it.")
                      | .error _ => notice c tryAgain

def handleDrop (args : List String) : Cmd Unit :=
  match args[1]? with
  | none => notice c "Syntax: DROP <#channel>"
  | some chan =>
      foundersOnly c chan "drop it" fun _ =>
        answer c (Db.dropChannel chan) fun _ => do
          channelMode c.me chan "-r"
          count "chanserv.drop"
          notice c (bold chan ++ " has been dropped and is no longer registered.")

/-- What RENAME says where the new name is not free. -/
def renameTaken (new : String) : String := bold new ++ " is already registered."

/-- `RENAME <#channel> <#newname>`, past the founder's guard. -/
def renameTo (old new : String) : Cmd Unit := do
  let e ← engine
  let caseOnly := eqIgnoreAsciiCase old new
  if !caseOnly && (e.db.channel new).isSome then notice c (renameTaken new)
  else if !caseOnly && !(c.net.channelMembers new).isEmpty then
    notice c (bold new ++ " is already in use. Pick another name.")
  else
    match e.policy.isForbidden c.unicode .chan new with
    | some reason => notice c (bold new ++ " can't be registered: " ++ reason)
    | none =>
        match e.policy.lookalike c.unicode new with
        | some reason => do
            alert "RENAME"
              ("tried to rename " ++ bold old ++ " to the look-alike " ++ bold new ++ " (blocked)")
            notice c reason
        | none => do
            match ← store (Db.renameChannel old new) with
            | .ok () => do
                push (.renameChannel c.me old new "Channel renamed by founder")
                count "chanserv.rename"
                notice c (bold old ++ " has been renamed to " ++ bold new ++ ".")
            | .error .exists => notice c (renameTaken new)
            | .error _ => notice c tryAgain

def handleRename (args : List String) : Cmd Unit :=
  match args[1]?, args[2]? with
  | some old, some new =>
      if new.toList.head? ≠ some '#' then notice c ("Channel names start with " ++ bold "#" ++ ".")
      else guarded (requireFounder c old) (renameTo c old new)
  | _, _ => notice c "Syntax: RENAME <#channel> <#newname>"

/-- A mask that is left to the ircd has a ban of its own while it is listed. -/
def standingBan (chan sign mask : String) : Cmd Unit :=
  if ircdEnforced mask then channelMode c.me chan (sign ++ "b " ++ mask) else pure ()

/-- The lock of a channel takes effect. -/
def applyLock (chan : String) : Cmd Unit := do
  match (← engine).db.channel chan with
  | some info => channelMode c.me chan info.lockModes
  | none => pure ()

/-- What CLONE copies: the mode lock, the lists, the description and the entry message. -/
def copySettings (sinfo : ChannelInfo) (dest : String) : Cmd Unit := do
  ignore (Db.setMlockParams dest sinfo.lockOn sinfo.lockOff sinfo.lockParams)
  sinfo.access.forM fun a => ignore (Db.accessAdd dest a.account a.level)
  sinfo.akick.forM fun entry => do
    ignore (Db.akickAdd dest entry.mask entry.reason)
    standingBan c dest "+" entry.mask
  ignore (Db.setDesc dest sinfo.desc)
  ignore (Db.setEntrymsg dest sinfo.entrymsg)

/-- `CLONE <source> <target>`, between channels of one founder. -/
def handleClone (args : List String) : Cmd Unit := do
  match args[1]?, args[2]? with
  | some src, some dest =>
      let e ← engine
      match e.db.channel src, e.db.channel dest with
      | some sinfo, some dinfo =>
          if c.from.account ≠ some sinfo.founder ∨ c.from.account ≠ some dinfo.founder then
            notice c "You must be the founder of both channels."
          else do
            copySettings c sinfo dest
            applyLock c dest
            notice c ("Copied " ++ bold src ++ "'s settings to " ++ bold dest ++ ".")
      | _, _ => notice c "Both channels must be registered."
  | _, _ => notice c "Syntax: CLONE <source> <target>"

/-! ### Operators -/

def accessDenied : String := "Access denied — that command is for services operators."

/-- `SUSPEND` and `UNSUSPEND`, for those who may suspend. -/
def handleSuspend (suspending : Bool) (args : List String) : Cmd Unit :=
  if !c.from.privs.has .suspend then notice c accessDenied
  else
    match args[1]? with
    | none =>
        notice c (if suspending then "Syntax: SUSPEND <#channel> [+expiry] [reason]"
          else "Syntax: UNSUSPEND <#channel>")
    | some chan =>
        withChannel c chan fun _ =>
          if suspending then
            let rest := args.drop 2
            let expires := (rest.head?.bind fun t =>
              if t.toList.head? = some '+' then parseDuration (String.ofList t.toList.tail)
              else none).map (expiryAfter c.env.now)
            let words := if expires.isSome then rest.tail else rest
            let reason :=
              if words.isEmpty then "This channel has been suspended." else joinWords words
            answer c (Db.suspendChannel c.env chan (c.from.account.getD c.from.nick) reason expires)
              fun _ => do
                (c.net.channelMembers chan).forM fun uid => kick c.me chan uid reason
                notice c (bold chan ++ " is now suspended" ++
                  (if expires.isSome then " (with expiry)" else "") ++ ".")
          else
            answer c (Db.unsuspendChannel chan) fun lifted =>
              notice c (if lifted then bold chan ++ " is no longer suspended."
                else bold chan ++ " isn't suspended.")

def parseToggle (s : String) : Option Bool :=
  let s := toAsciiUppercase s
  if s = "ON" ∨ s = "TRUE" ∨ s = "YES" then some true
  else if s = "OFF" ∨ s = "FALSE" ∨ s = "NO" then some false
  else none

def handleNoexpire (args : List String) : Cmd Unit :=
  if !c.from.privs.has .admin then notice c accessDenied
  else
    match args[1]?, args[2]?.bind parseToggle with
    | some chan, some on =>
        withChannel c chan fun _ =>
          answer c (Db.setChannelNoexpire chan on) fun changed =>
            notice c
              (if !changed then bold chan ++ " was already set that way."
                else if on then bold chan ++ " will no longer expire."
                else bold chan ++ " can expire from inactivity again.")
    | _, _ => notice c ("Syntax: NOEXPIRE <#channel> " ++ "\x7bON|OFF\x7d")

/-! ### The mode lock and the entry message -/

def handleMlock (args : List String) : Cmd Unit :=
  match args[1]? with
  | none => notice c "Syntax: MLOCK <#channel> [modes], e.g. MLOCK #chan +nt-s"
  | some chan =>
      if args.length ≤ 2 then
        withChannel c chan fun info =>
          if info.lockOn = "" ∧ info.lockOff = "" then
            notice c (bold info.name ++ " has no mode lock set.")
          else notice c ("Mode lock for " ++ bold info.name ++ ": " ++ bold info.showMlock)
      else
        foundersOnly c chan "set its mode lock" fun _ =>
          let lock := parseMlock (args.drop 2)
          answer c (Db.setMlockParams chan lock.1 lock.2.1 lock.2.2) fun _ => do
            applyLock c chan
            notice c ("Mode lock for " ++ bold chan ++ " updated.")

def handleEntrymsg (args : List String) : Cmd Unit :=
  match args[1]? with
  | none => notice c "Syntax: ENTRYMSG <#channel> [CLEAR | <text>]"
  | some chan =>
      match args[2]? with
      | none =>
          withChannel c chan fun info =>
            if info.entrymsg = "" then notice c (bold chan ++ " has no entry message.")
            else notice c ("Entry message for " ++ bold chan ++ ": " ++ info.entrymsg)
      | some kw =>
          let clears := eqIgnoreAsciiCase kw "CLEAR"
          guarded (requireOp c chan) <|
            answer c (Db.setEntrymsg chan (if clears then "" else joinWords (args.drop 2))) fun _ =>
              notice c ("Entry message for " ++ bold chan ++
                if clears then " cleared." else " updated.")

/-! ### The access list -/

/-- The tiers that ACCESS ADD takes. -/
def tiers : List String := ["sop", "op", "halfop", "voice"]

def accessSyntax : String :=
  "Syntax: ACCESS <#channel> LIST | ADD <account|!group> <sop|op|halfop|voice> | DEL <account|!group>"

/-- Who sends a command, for those it is about. -/
def Call.by : String := c.from.account.getD c.from.nick

/-- What ACCESS and the tiers' own lists take off the access list. -/
def accessRemove (chan account done told : String) : Cmd Unit :=
  answer c (Db.accessDel chan account) fun removed =>
    if removed then do
      notice c done
      notifyOrMemo c account chan told
    else notice c (bold account ++ " has no access to " ++ bold chan ++ ".")

/-- What they put there. -/
def accessInsert (chan account level done told : String) : Cmd Unit :=
  answer c (Db.accessAdd chan account level) fun _ => do
    notice c done
    notifyOrMemo c account chan told

def handleAccess (args : List String) : Cmd Unit :=
  match args[1]? with
  | none => notice c accessSyntax
  | some chan =>
      match args[2]?.map toAsciiUppercase with
      | none | some "LIST" =>
          withChannel c chan fun info =>
            notices c (["Access list for " ++ bold info.name ++ ":",
              "  " ++ bold info.founder ++ " (founder)"]
              ++ info.access.map fun a => "  " ++ bold a.account ++ " (" ++ a.level ++ ")")
      | some "ADD" =>
          match args[3]?, args[4]?.map toAsciiLowercase with
          | some account, some level =>
              if !tiers.contains level then
                notice c ("Level must be " ++ bold "sop" ++ ", " ++ bold "op" ++ ", " ++
                  bold "halfop" ++ " or " ++ bold "voice" ++ ".")
              else
                foundersOnly c chan "change access" fun _ =>
                  accessInsert c chan account level
                    ("Added " ++ bold account ++ " to " ++ bold chan ++ " as " ++ bold level ++ ".")
                    (bold c.by ++ " added you to " ++ bold chan ++ " as " ++ bold level ++ ".")
          | _, _ => notice c "Syntax: ACCESS <#channel> ADD <account> <sop|op|halfop|voice>"
      | some "DEL" =>
          match args[3]? with
          | none => notice c "Syntax: ACCESS <#channel> DEL <account>"
          | some account =>
              foundersOnly c chan "change access" fun _ =>
                accessRemove c chan account
                  ("Removed " ++ bold account ++ " from " ++ bold chan ++ ".")
                  (bold c.by ++ " removed your access to " ++ bold chan ++ ".")
      | _ => notice c accessSyntax

/-- `SOP`, `AOP`, `HOP` and `VOP`: the access list by one tier, `level` under its `word`. -/
def handleXop (word level : String) (args : List String) : Cmd Unit :=
  let usage := word ++ " <#channel> ADD <account> | DEL <account> | LIST"
  match args[1]? with
  | none => notice c ("Syntax: " ++ usage)
  | some chan =>
      match args[2]?.map toAsciiUppercase with
      | none | some "LIST" =>
          withChannel c chan fun info =>
            notices c ((word ++ " list for " ++ bold info.name ++ ":") ::
              (info.access.filter fun a => (accessRole a.level).xopWord == some word).map
                fun a => "  " ++ bold a.account)
      | some "ADD" =>
          match args[3]? with
          | none => notice c ("Syntax: " ++ word ++ " <#channel> ADD <account>")
          | some account =>
              guarded (requireFounder c chan) <|
                accessInsert c chan account level
                  ("Added " ++ bold account ++ " to " ++ bold chan ++ "'s " ++ word ++ " list.")
                  (bold c.by ++ " added you to " ++ bold chan ++ "'s " ++ word ++ " list.")
      | some "DEL" =>
          match args[3]? with
          | none => notice c ("Syntax: " ++ word ++ " <#channel> DEL <account>")
          | some account =>
              guarded (requireFounder c chan) <|
                accessRemove c chan account
                  ("Removed " ++ bold account ++ " from " ++ bold chan ++ "'s " ++ word ++ " list.")
                  (bold c.by ++ " removed you from " ++ bold chan ++ "'s " ++ word ++ " list.")
      | _ => notice c ("Syntax: " ++ usage)

/-- Write the flags of an account. -/
def flagsWrite (chan target : String) (updated : Flags) : Cmd Unit :=
  if updated.isEmpty then do
    match ← store (Db.accessDel chan target) with
    | .ok true => notice c ("Cleared " ++ bold target ++ "'s access to " ++ bold chan ++ ".")
    | _ => notice c (bold target ++ " had no access to " ++ bold chan ++ ".")
  else
    let letters := updated.toLetters
    accessInsert c chan target letters
      (bold target ++ " on " ++ bold chan ++ " now holds " ++ bold letters ++ ".")
      (bold c.by ++ " set your access on " ++ bold chan ++ " to " ++ bold letters ++ ".")

/-- FLAGS with a change: who may make it, and what of. -/
def flagsChange (info : ChannelInfo) (chan target delta : String) : Cmd Unit := do
  let isFounder := c.from.account == some info.founder
  if !isFounder && !(info.view.capsOf c.from.account).access then
    notice c ("You need the founder or the " ++ bold "a" ++ " flag to change access on " ++
      bold chan ++ ".")
  else if ← suspendedBlock c chan then pure ()
  else if eqIgnoreAsciiCase info.founder target then
    notice c ("The founder's access is set with " ++ bold "SET FOUNDER" ++ ", not flags.")
  else
    let entry := (info.ownEntry target).map (·.level)
    match (Flags.fromLevel (entry.getD "")).applyDelta true delta.toList with
    | .error bad =>
        notice c (bold (toString bad) ++ " isn't a valid flag. Valid flags: " ++
          bold "foOhvtiasgd" ++ ".")
    | .ok updated =>
        if !isFounder && updated.has .founder then
          notice c ("Only the founder can grant the " ++ bold "f" ++ " flag on " ++ bold chan ++ ".")
        else flagsWrite c chan target updated

def handleFlags (args : List String) : Cmd Unit :=
  match args[1]? with
  | none => notice c ("Syntax: FLAGS <#channel> [account [+/" ++ "-flags]]")
  | some chan =>
      withChannel c chan fun info =>
        match args[2]? with
        | none =>
            if c.from.account ≠ some info.founder ∧ !(info.view.capsOf c.from.account).op then
              notice c ("You need access to " ++ bold chan ++ " to view its flags.")
            else notices c (flagsList info chan)
        | some target =>
            match args[3]? with
            | none =>
                let letters := (info.ownEntry target).map fun a => (Flags.fromLevel a.level).toLetters
                match letters.filter (· ≠ "") with
                | some f => notice c (bold target ++ " on " ++ bold chan ++ ": " ++ bold f)
                | none => notice c (bold target ++ " has no access to " ++ bold chan ++ ".")
            | some delta => flagsChange c info chan target delta

/-! ### Auto-kicks and levels -/

def akickSyntax : String :=
  "Syntax: AKICK <#channel> ADD <mask> [reason] | DEL <mask> | LIST"

def akickAdd (args : List String) (chan mask : String) : Cmd Unit :=
  match c.policy.akickPolicy mask with
  | .error reason => notice c reason
  | .ok () =>
      let reason := if args.length > 4 then joinWords (args.drop 4) else "Auto-kicked"
      guarded (requireOp c chan) <|
        answer c (Db.akickAdd chan mask reason) fun _ => do
          standingBan c chan "+" mask
          notice c ("Added " ++ bold mask ++ " to " ++ bold chan ++ "'s auto-kick list.")

def akickDel (chan mask : String) : Cmd Unit :=
  guarded (requireOp c chan) <|
    answer c (Db.akickDel chan mask) fun removed =>
      if removed then do
        standingBan c chan "-" mask
        notice c ("Removed " ++ bold mask ++ " from " ++ bold chan ++ "'s auto-kick list.")
      else notice c (bold mask ++ " isn't on " ++ bold chan ++ "'s auto-kick list.")

def akickClear (chan : String) : Cmd Unit :=
  guarded (requireOp c chan) do
    let masks := ((← engine).db.channel chan).elim [] fun info => info.akick.map (·.mask)
    masks.forM fun mask => do
      ignore (Db.akickDel chan mask)
      standingBan c chan "-" mask
    notice c ("Cleared " ++ bold (toString masks.length) ++
      (if masks.length = 1 then " entry" else " entries") ++ " from " ++ bold chan ++
      "'s auto-kick list.")

def handleAkick (args : List String) : Cmd Unit :=
  match args[1]? with
  | none => notice c akickSyntax
  | some chan =>
      match args[2]?.map toAsciiUppercase with
      | none | some "LIST" =>
          withChannel c chan fun info =>
            if info.akick.isEmpty then notice c (bold chan ++ " has an empty auto-kick list.")
            else
              notices c (("Auto-kick list for " ++ bold info.name ++ ":") ::
                info.akick.map fun k => "  " ++ bold k.mask ++ " (" ++ k.reason ++ ")")
      | some "ADD" =>
          match args[3]? with
          | none => notice c "Syntax: AKICK <#channel> ADD <mask> [reason]"
          | some mask => akickAdd c args chan mask
      | some "DEL" =>
          match args[3]? with
          | none => notice c "Syntax: AKICK <#channel> DEL <mask>"
          | some mask => akickDel c chan mask
      | some "CLEAR" => akickClear c chan
      | _ => notice c (akickSyntax ++ " | CLEAR")

def levelsSyntax : String :=
  "Syntax: LEVELS <#channel> [SET <capability> <tier> | RESET <capability>]"

/-- The word of a tier. -/
def tierWord (role : AccessRole) : String := role.xopWord.getD "FOUNDER"

def unknownCapability : String :=
  "Unknown capability. One of: " ++ bold "OP" ++ ", " ++ bold "TOPIC" ++ ", " ++ bold "INVITE" ++
    ", " ++ bold "ACCESS" ++ "."

def fourTiers (last : String) : String :=
  bold "VOP" ++ ", " ++ bold "HOP" ++ ", " ++ bold "AOP" ++ last ++ bold "SOP" ++ "."

def levelsList (chan : String) : Cmd Unit :=
  withChannel c chan fun info =>
    let line (cap : LevelCap) :=
      let (tier, tag) :=
        match info.view.levels.find? (·.1 == cap) with
        | some (_, role) => (role, "  (custom)")
        | none => (cap.defaultRole, "")
      "  " ++ bold cap.name ++ " — " ++ tierWord tier ++ tag
    notices c (("Access levels for " ++ bold info.name ++ " (capability → minimum tier):") ::
      LevelCap.all.map line ++ ["Founder: " ++ bold "LEVELS <#chan> SET <capability> <tier>" ++
        " grants it to that tier and above; " ++ bold "RESET" ++ " restores the default."])

def levelsSet (chan : String) (rest : List String) : Cmd Unit :=
  guarded (requireFounder c chan)
    (match rest[0]?, rest[1]? with
      | some capWord, some word =>
          match LevelCap.parse capWord with
          | none => notice c unknownCapability
          | some cap =>
              match AccessRole.parse word with
              | some .founder =>
                  notice c ("Granting to " ++ bold "FOUNDER" ++ " is redundant. Pick " ++
                    fourTiers ", or ")
              | none => notice c ("Unknown tier. One of: " ++ fourTiers ", ")
              | some role =>
                  answer c (Db.levelSet chan cap.name (tierWord role)) fun _ =>
                    notice c (bold cap.name ++ " on " ++ bold chan ++ " is now held by " ++
                      bold (tierWord role) ++ " and above.")
      | _, _ => notice c "Syntax: LEVELS <#channel> SET <capability> <tier>")

def levelsReset (chan : String) (capWord : Option String) : Cmd Unit :=
  guarded (requireFounder c chan)
    (match capWord with
      | none => notice c "Syntax: LEVELS <#channel> RESET <capability>"
      | some capWord =>
          match LevelCap.parse capWord with
          | none => notice c unknownCapability
          | some cap =>
              answer c (Db.levelReset chan cap.name) fun reset =>
                notice c (bold cap.name ++ " on " ++ bold chan ++
                  if reset then " is back to its default tier (" ++ bold (tierWord cap.defaultRole) ++ ")."
                  else " has no custom level."))

def handleLevels (args : List String) : Cmd Unit :=
  match args[1]? with
  | none => notice c levelsSyntax
  | some chan =>
      match args[2]?.map toAsciiUppercase with
      | none | some "LIST" | some "VIEW" => levelsList c chan
      | some "SET" => levelsSet c chan (args.drop 3)
      | some "RESET" | some "DEL" => levelsReset c chan args[3]?
      | _ => notice c levelsSyntax

/-! ### SET -/

def setSyntax : String :=
  "Syntax: SET <#channel> FOUNDER <account> | SUCCESSOR <account>|OFF | DESC <text> | " ++
    "URL [address] | EMAIL [address] | SIGNKICK \x7bON|OFF|LEVEL\x7d | PRIVATE \x7bON|OFF\x7d | " ++
    "PEACE \x7bON|OFF\x7d | SECUREOPS \x7bON|OFF\x7d | SECUREVOICES \x7bON|OFF\x7d | " ++
    "RESTRICTED \x7bON|OFF\x7d | AUTOOP \x7bON|OFF\x7d | KEEPTOPIC \x7bON|OFF\x7d | " ++
    "TOPICLOCK \x7bON|OFF\x7d"

def noAccount (account : String) : String := bold account ++ " isn't a registered account."

def setFounder (chan : String) (heir : Option String) : Cmd Unit := do
  match heir with
  | none => notice c "Syntax: SET <#channel> FOUNDER <account>"
  | some account =>
      if !(← engine).db.exists account then notice c (noAccount account)
      else
        answer c (Db.setFounder chan account) fun _ => do
          notice c ("Founder of " ++ bold chan ++ " transferred to " ++ bold account ++ ".")
          notifyOrMemo c account chan
            (bold c.by ++ " transferred the " ++ bold chan ++ " founder to you.")

def setSuccessor (info : ChannelInfo) (chan : String) (heir : Option String) : Cmd Unit := do
  match heir.filter (!eqIgnoreAsciiCase · "OFF") with
  | some account =>
      if !(← engine).db.exists account then notice c (noAccount account)
      else if eqIgnoreAsciiCase account info.founder then
        notice c "The successor must be someone other than the founder."
      else
        answer c (Db.setSuccessor chan (some account)) fun _ => do
          notice c ("Successor of " ++ bold chan ++ " set to " ++ bold account ++
            ". They inherit it if your account is dropped or expires.")
          notifyOrMemo c account chan (bold c.by ++ " set you as successor of " ++ bold chan ++ ".")
  | none =>
      answer c (Db.setSuccessor chan none) fun _ =>
        notice c ("Successor of " ++ bold chan ++ " cleared.")

/-- SIGNKICK has three states, kept as a pair. -/
def signkickSet (chan : String) (arg : Option String) : Cmd Unit := do
  let settle (on level : Bool) (state : String) : Cmd Unit := do
    ignore (Db.setChannelSetting chan .signKick on)
    answer c (Db.setChannelSetting chan .signKickLevel level) fun _ =>
      notice c (bold "SIGNKICK" ++ " for " ++ bold chan ++ " is now " ++ bold state ++ ".")
  match arg.map toAsciiUppercase with
  | some "ON" => settle true false "on"
  | some "LEVEL" => settle true true "level"
  | some "OFF" => settle false false "off"
  | _ => notice c ("Syntax: SET <#channel> SIGNKICK " ++ "\x7bON|OFF|LEVEL\x7d")

/-- Turn one option on or off. -/
def toggle (chan : String) (setting : ChanSetting) (arg : Option String) : Cmd Unit :=
  let settle (on : Bool) (state : String) : Cmd Unit :=
    answer c (Db.setChannelSetting chan setting on) fun _ =>
      notice c (bold setting.label ++ " for " ++ bold chan ++ " is now " ++ bold state ++ ".")
  match arg.map toAsciiUppercase with
  | some "ON" => settle true "on"
  | some "OFF" => settle false "off"
  | _ => notice c ("Syntax: SET <#channel> " ++ setting.label ++ " \x7bON|OFF\x7d")

/-- A text of the channel that may be taken away. -/
def setText (call : DbM ChanError Unit) (name chan text : String) : Cmd Unit :=
  answer c call fun _ =>
    notice c (name ++ " for " ++ bold chan ++ if text = "" then " cleared." else " updated.")

/-- The options that SET turns on and off, by their keywords. -/
def toggled : String → Option ChanSetting
  | "PRIVATE" => some .private
  | "PEACE" => some .peace
  | "SECUREOPS" => some .secureOps
  | "SECUREVOICES" => some .secureVoices
  | "RESTRICTED" => some .restricted
  | "AUTOOP" => some .autoOp
  | "KEEPTOPIC" => some .keepTopic
  | "TOPICLOCK" => some .topicLock
  | _ => none

def setWord (info : ChannelInfo) (args : List String) (chan word : String) : Cmd Unit :=
  let text := joinWords (args.drop 3)
  match word with
  | "FOUNDER" => setFounder c chan args[3]?
  | "SUCCESSOR" => setSuccessor c info chan args[3]?
  | "DESC" =>
      answer c (Db.setDesc chan text) fun _ =>
        notice c ("Description for " ++ bold chan ++ " updated.")
  | "URL" => setText c (Db.setUrl chan text) "URL" chan text
  | "EMAIL" =>
      let email := args[3]?.getD ""
      setText c (Db.setChannelEmail chan email) "Contact email" chan email
  | "SIGNKICK" => signkickSet c chan args[3]?
  | word =>
      match toggled word with
      | some setting => toggle c chan setting args[3]?
      | none => notice c setSyntax

def handleSet (args : List String) : Cmd Unit :=
  match args[1]? with
  | none => notice c "Syntax: SET <#channel> FOUNDER <account> | DESC <text>"
  | some chan =>
      foundersOnly c chan "change its settings" fun info =>
        match args[2]?.map toAsciiUppercase with
        | some word => setWord c info args chan word
        | none => notice c setSyntax

end ChanServ

end Echo
