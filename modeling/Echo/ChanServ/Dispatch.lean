import Echo.ChanServ.Members
import Echo.ChanServ.Settings

/-!
Where a command goes: what is sent to ChanServ, and the fantasy commands said in a channel,
which the router passes on with the channel put in as their first argument and answers
through the channel's bot.
-/

namespace Echo.ChanServ

open Echo.Lib

open Dispatcher (NetAction)
open Engine (bold)

section Command

variable (c : Call)

/-- A line to ChanServ: its verb in any case, then its arguments. -/
def onCommand (args : List String) : Cmd Unit :=
  match args[0]?.map toAsciiUppercase with
  | some "REGISTER" => handleRegister c args
  | some "INFO" => handleInfo c args
  | some "DROP" => handleDrop c args
  | some "MLOCK" => handleMlock c args
  | some "MODE" => handleMode c args
  | some "ACCESS" => handleAccess c args
  | some "FLAGS" => handleFlags c args
  | some "OP" => handleOp c "+o" args
  | some "DEOP" => handleOp c "-o" args
  | some "VOICE" => handleOp c "+v" args
  | some "DEVOICE" => handleOp c "-v" args
  | some "UP" => handleUpdown c true args
  | some "DOWN" => handleUpdown c false args
  | some "OWNER" => handleOp c "+q" args
  | some "DEOWNER" => handleOp c "-q" args
  | some "PROTECT" | some "ADMIN" => handleOp c "+a" args
  | some "DEPROTECT" | some "DEADMIN" => handleOp c "-a" args
  | some "HALFOP" => handleOp c "+h" args
  | some "DEHALFOP" => handleOp c "-h" args
  | some "KICK" => handleKick c args
  | some "BAN" => handleBan c args
  | some "UNBAN" => handleUnban c args
  | some "TOPIC" => handleTopic c args
  | some "INVITE" => handleInvite c args
  | some "AKICK" => handleAkick c args
  | some "LEVELS" => handleLevels c args
  | some "STATUS" => handleStatus c args
  | some "SUSPEND" => handleSuspend c true args
  | some "UNSUSPEND" => handleSuspend c false args
  | some "NOEXPIRE" => handleNoexpire c args
  | some "LIST" => handleList c args
  | some "SET" => handleSet c args
  | some "ENTRYMSG" => handleEntrymsg c args
  | some "GETKEY" => handleGetkey c args
  | some "SEEN" => handleSeen c args
  | some "ENFORCE" | some "SYNC" => handleEnforce c args
  | some "CLONE" => handleClone c args
  | some "RENAME" => handleRename c args
  | some "SOP" => handleXop c "SOP" "sop" args
  | some "AOP" => handleXop c "AOP" "op" args
  | some "HOP" => handleXop c "HOP" "halfop" args
  | some "VOP" => handleXop c "VOP" "voice" args
  | some "HELP" => handleHelp c args[1]?
  | some other =>
      notice c ("I don't know the command " ++ bold other ++ ". Try " ++ bold "HELP" ++ ".")
  | none => pure ()

end Command

/-- The verbs of ChanServ. -/
def commands : List String :=
  ["REGISTER", "INFO", "DROP", "MLOCK", "MODE", "ACCESS", "FLAGS", "OP", "DEOP", "VOICE", "DEVOICE",
    "UP", "DOWN", "OWNER", "DEOWNER", "PROTECT", "ADMIN", "DEPROTECT", "DEADMIN", "HALFOP",
    "DEHALFOP", "KICK", "BAN", "UNBAN", "TOPIC", "INVITE", "AKICK", "LEVELS", "STATUS", "SUSPEND",
    "UNSUSPEND", "NOEXPIRE", "LIST", "SET", "ENTRYMSG", "GETKEY", "SEEN", "ENFORCE", "SYNC", "CLONE",
    "RENAME", "SOP", "AOP", "HOP", "VOP", "HELP"]

def isCommand (cmd : String) : Bool := commands.any fun name => eqIgnoreAsciiCase cmd name

/-! ### Fantasy -/

/-- A dictionary that a command looks up. -/
structure Lookup where
  cmd : String
  database : String
  label : String
  deriving DecidableEq, Repr

def lookups : List Lookup :=
  [⟨"dict", "wn", "WordNet"⟩, ⟨"define", "gcide", "GCIDE"⟩, ⟨"definitions", "*", "all dictionaries"⟩,
    ⟨"thes", "moby-thesaurus", "Thesaurus"⟩, ⟨"element", "elements", "Elements"⟩,
    ⟨"acronym", "vera", "Acronyms"⟩, ⟨"jargon", "jargon", "Jargon File"⟩,
    ⟨"term", "foldoc", "Computing"⟩, ⟨"bible", "easton", "Easton's Bible"⟩,
    ⟨"biblename", "hitchcock", "Bible Names"⟩, ⟨"law", "bouvier", "Bouvier's Law"⟩,
    ⟨"ciainfo", "world02", "CIA Factbook"⟩, ⟨"counties", "gaz2k-counties", "US Counties"⟩,
    ⟨"places", "gaz2k-places", "US Places"⟩, ⟨"zipcodes", "gaz2k-zips", "US ZIP codes"⟩]

def lookupFor (cmd : String) : Option Lookup := lookups.find? fun l => eqIgnoreAsciiCase l.cmd cmd

/-- The dictionary of a user's own language. -/
def dictDbFor : (lang : String) → Option (String × String)
  | "fr" => some ("wikt-fr", "Wiktionnaire")
  | "es" | "es-ar" => some ("fd-spa-eng", "español")
  | "pt" | "pt-br" => some ("fd-por-eng", "português")
  | "de" => some ("fd-deu-eng", "Deutsch")
  | _ => none

/-- The database of a lookup; `dict` alone follows the language. -/
def databaseFor (l : Lookup) (lang : String) : String × String :=
  (if l.cmd = "dict" then dictDbFor lang else none).getD (l.database, l.label)

/-- What else the fantasy router is run with: the services that are loaded, by their nicks,
the language of the sender, and what DiceServ answers, which rolls its dice. -/
structure Router where
  serviceUid : (nick : String) → Option String
  lang : String
  dice : (args : List String) → List String

namespace Action

/-- An answer in public: the bot says it in the channel. -/
def spoken (bot chan : String) : Action → Action
  | .net (.notice _ _ text) => .privmsg bot chan text
  | .tagged tags inner => .tagged tags (inner.spoken bot chan)
  | action => action

/-- What a service does is done by the bot. -/
def resourced (old new : String) : Action → Action
  | .net (.channelMode «from» channel modes) =>
      .net (.channelMode (if «from» = old then new else «from») channel modes)
  | .net (.kick «from» channel uid reason) =>
      .net (.kick (if «from» = old then new else «from») channel uid reason)
  | .privmsg «from» target text => .privmsg (if «from» = old then new else «from») target text
  | .topic «from» channel text setter =>
      .topic (if «from» = old then new else «from») channel text setter
  | .invite «from» uid channel => .invite (if «from» = old then new else «from») uid channel
  | .tagged tags inner => .tagged tags (inner.resourced old new)
  | action => action

end Action

/-- What is done by a line in a channel, once it is known to be a fantasy command. -/
inductive Fantasy where
  | dice (botUid diceUid : String) (args : List String)
  | dict (botUid : String) (l : Lookup) (query : String)
  | command (botUid me : String) (args : List String)

/-- The fantasy command that a line in a channel is, if it is one: it takes the channel's
bot and the service in question. -/
def readFantasy (c : Call) (r : Router) (e : Engine) (chan text : String) : Option Fantasy := do
  let rest ← if text.toList.head? = some '!' then some (String.ofList text.toList.tail) else none
  let cmd ← (arguments rest)[0]?
  let words := (arguments rest).drop 1
  let botNick ← (e.db.channel chan).bind (·.assignedBot)
  let botUid ← c.net.uidByNick botNick
  if ["ROLL", "CALC", "EXROLL", "EXCALC"].contains (toAsciiUppercase cmd) then
    (r.serviceUid "DiceServ").map fun diceUid => .dice botUid diceUid (cmd :: words)
  else
    match lookupFor cmd with
    | some l =>
        (r.serviceUid "DictServ").bind fun _ =>
          -- A query of blanks alone asks for nothing.
          if words.isEmpty then none else some (.dict botUid l (joinWords words))
    | none =>
        if !isCommand cmd then none
        else (r.serviceUid "ChanServ").map fun me => .command botUid me (cmd :: chan :: words)

/-- What a fantasy command does. -/
def runFantasy (c : Call) (r : Router) (chan : String) : Fantasy → Cmd Unit
  | .dice botUid diceUid args => do
      (r.dice args).forM fun text => pushTagged c (.notice diceUid c.from.uid text) c.from.uid []
      modify fun x => { x with actions := x.actions.map (·.spoken botUid chan) }
  | .dict botUid l query =>
      push (.dictLookup botUid chan (databaseFor l r.lang).1 (databaseFor l r.lang).2 query)
  | .command botUid me args => do
      onCommand { c with me } args
      modify fun x =>
        { x with actions := x.actions.map fun a => (a.spoken botUid chan).resourced me botUid }

/-- What a user says that may be for ChanServ: the words of a message to it, or a line in a
channel. -/
inductive Said where
  | direct (args : List String)
  | fantasy (chan text : String)

/-- What ChanServ and the fantasy router make of it. -/
def run (c : Call) (r : Router) (said : Said) : Cmd Unit := do
  match said with
  | .direct args => onCommand c args
  | .fantasy chan text =>
      match readFantasy c r (← engine) chan text with
      | none => pure ()
      | some f => runFantasy c r chan f

/-- The line that ChanServ gets to see of it, if any. -/
def line (c : Call) (r : Router) (e : Engine) : Said → Option (List String)
  | .direct args => some args
  | .fantasy chan text =>
      (readFantasy c r e chan text).bind fun f =>
        match f with
        | .command _ _ args => some args
        | _ => none

end Echo.ChanServ
