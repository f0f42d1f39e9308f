import Echo.ChanServ.Command

/-!
The commands that act on those in a channel and on its modes and topic.
-/

namespace Echo.ChanServ

open Echo.Lib

open Engine (bold tryAgain)

variable (c : Call)

def notHere (nick : String) : String := bold nick ++ " isn't here."

/-- The user that a nick names, or the sender where none is given. -/
def withTarget (nick : Option String) (body : (uid : String) → Cmd Unit) : Cmd Unit :=
  match nick with
  | none => body c.from.uid
  | some nick =>
      match c.net.uidByNick nick with
      | none => notice c (notHere nick)
      | some uid => body uid

/-- The rest of a command as a reason. -/
def reasonOr (default : String) (args : List String) : String :=
  if args.length > 3 then joinWords (args.drop 3) else default

/-! ### Status modes -/

/-- `OP`, `DEOP` and their like: `mode` on a user. The founder alone grants owner. -/
def handleOp (mode : String) (args : List String) : Cmd Unit :=
  match args[1]? with
  | none => notice c "Syntax: OP/DEOP/VOICE/DEVOICE <#channel> [nick]"
  | some chan =>
      guarded (if mode.toList.contains 'q' then requireFounder c chan else requireOp c chan) <|
        withTarget c args[2]? fun target => do
          -- PEACE guards against losing a status only.
          if ← (if mode.toList.head? = some '-' then peaceBlocks c chan target else pure false) then
            pure ()
          else
            let src ← modeSource c chan
            channelMode src chan (mode ++ " " ++ target)

/-- `UP` gives the status mode the sender's access entitles to, `DOWN` takes all away. -/
def handleUpdown (up : Bool) (args : List String) : Cmd Unit :=
  match args[1]? with
  | none => notice c (if up then "Syntax: UP <#channel>" else "Syntax: DOWN <#channel>")
  | some chan =>
      match c.from.account with
      | none => notice c "You need to be logged in. Identify to NickServ first."
      | some account =>
          withChannel c chan fun info => do
            if !(c.net.channelMembers chan).contains c.from.uid then
              notice c ("You're not in " ++ bold chan ++ ".")
            else
              let src ← modeSource c chan
              if up then
                match info.view.joinMode account with
                | some mode => do
                    channelMode src chan (statusMode mode c.from.uid)
                    notice c ("Your status in " ++ bold chan ++ " has been applied.")
                | none => notice c ("You have no status access in " ++ bold chan ++ ".")
              else
                channelMode src chan (statusMode "-qaohv" c.from.uid)
                notice c ("Your status in " ++ bold chan ++ " has been removed.")

/-! ### Kicks, bans and invites -/

/-- The reason of a kick, signed where SIGNKICK asks for it. -/
def signedReason (info : Option ChannelInfo) (reason : String) : String :=
  let signs := info.any fun info =>
    let kickerOp := c.from.account.any fun a => (info.view.capsOf (some a)).op
    info.settings.signkick && (!info.settings.signkickLevel || !kickerOp)
  if signs then reason ++ " (requested by " ++ c.from.nick ++ ")" else reason

def handleKick (args : List String) : Cmd Unit :=
  match args[1]?, args[2]? with
  | some chan, some nick =>
      guarded (requireOp c chan)
        (match c.net.uidByNick nick with
          | none => notice c (notHere nick)
          | some target => do
              if ← peaceBlocks c chan target then pure ()
              else
                let info := (← engine).db.channel chan
                kick c.me chan target (signedReason c info (reasonOr "Kicked" args)))
  | _, _ => notice c "Syntax: KICK <#channel> <nick> [reason]"

/-- The ban of a user's host. -/
def hostBan (uid : String) : String := "*!*@" ++ (c.net.hostOf uid).getD "*"

def handleBan (args : List String) : Cmd Unit :=
  match args[1]?, args[2]? with
  | some chan, some nick =>
      guarded (requireOp c chan)
        (match c.net.uidByNick nick with
          | none => notice c (notHere nick)
          | some target => do
              if ← peaceBlocks c chan target then pure ()
              else
                let src ← modeSource c chan
                channelMode src chan ("+b " ++ hostBan c target)
                kick src chan target (reasonOr "Banned" args))
  | _, _ => notice c "Syntax: BAN <#channel> <nick> [reason]"

def handleUnban (args : List String) : Cmd Unit :=
  match args[1]? with
  | none => notice c "Syntax: UNBAN <#channel> [nick]"
  | some chan =>
      guarded (requireOp c chan) do
        let target := (args[2]?.bind c.net.uidByNick).getD c.from.uid
        let src ← modeSource c chan
        channelMode src chan ("-b " ++ hostBan c target)
        notice c ("Cleared the " ++ hostBan c target ++ " ban on " ++ bold chan ++ ".")

def handleInvite (args : List String) : Cmd Unit :=
  match args[1]? with
  | none => notice c "Syntax: INVITE <#channel> [nick]"
  | some chan =>
      guarded (requireOp c chan) <|
        withTarget c args[2]? fun target => do
          push (.invite c.me target chan)
          notice c ("Invited to " ++ bold chan ++ ".")

/-! ### The channel as a whole -/

def handleTopic (args : List String) : Cmd Unit :=
  match args[1]? with
  | none => notice c "Syntax: TOPIC <#channel> <text>"
  | some chan =>
      guarded (requireOp c chan) do
        let text := joinWords (args.drop 2)
        push (.topic c.me chan text c.from.nick)
        ignore (Db.setChannelTopic chan text c.from.nick)
        notice c ("Topic for " ++ bold chan ++ " updated.")

/-- `ENFORCE` and `SYNC`: what is in force of the channel, on everyone present. -/
def handleEnforce (args : List String) : Cmd Unit :=
  match args[1]? with
  | none => notice c "Syntax: ENFORCE <#channel>"
  | some chan => do
      let s := scene c (← engine)
      (s.enforce c.me c.from.uid c.from.account chan).forM (send c)

def handleMode (args : List String) : Cmd Unit := do
  match (← engine).chanservMode c.env c.policy c.me c.from.account args with
  | .error text => notice c text
  | .ok (action, text) => do
      push (.net action)
      notice c text

end Echo.ChanServ
