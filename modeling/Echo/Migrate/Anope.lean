import Echo.Db.Base
import Echo.Db.File
import Echo.Engine.Lines
import Echo.Lib.Splitting

/-!
The importer of an Anope database (`migrate.rs`): from the JSON document that Anope
writes to the events of a new log, which the daemon replays when it next starts.

`Value` is a document as `serde_json` reads it. The summary and the notes on what was
skipped are left out: nothing reads them but the operator.
-/

namespace Echo.Migrate

open Echo.Lib

/-! ### JSON -/

inductive Number where
  | int (n : Int)
  /-- A fraction, as it prints. -/
  | float (text : String)

def Number.toString : Number → String
  | .int n => ToString.toString n
  | .float text => text

def Number.asU64 : Number → Option Nat
  | .int (.ofNat n) => some n
  | _ => none

inductive Value where
  | null
  | bool (b : Bool)
  | number (n : Number)
  | string (s : String)
  | array (items : List Value)
  /-- The members of an object in the order of their keys, which are distinct. -/
  | object (members : List (String × Value))

namespace Value

def get (v : Value) (k : String) : Option Value :=
  match v with
  | .object members => (members.find? fun m => m.1 == k).map (·.2)
  | _ => none

def asStr : Value → Option String
  | .string s => some s
  | _ => none

/-- Anope writes `None` for a text that is not there. -/
def isText (s : String) : Bool := s != "" && s != "None"

/-- A text field. -/
def field (v : Value) (k : String) : Option String := ((v.get k).bind asStr).filter isText

/-- An id or text field as a text: Anope stores ids as numbers. -/
def idField (v : Value) (k : String) : Option String :=
  match v.get k with
  | some (.string s) => if isText s then some s else none
  | some (.number n) => some n.toString
  | _ => none

/-- A number, or a text that is one. -/
def num (v : Value) (k : String) : Nat :=
  match v.get k with
  | some (.number n) => n.asU64.getD 0
  | some (.string s) => (parseUnsigned s.toList).getD 0
  | _ => 0

/-- A flag, or the text of one. -/
def flag (v : Value) (k : String) : Bool :=
  match v.get k with
  | some (.bool b) => b
  | some (.string s) => s == "True" || s == "1"
  | _ => false

/-- The records of a kind. -/
def records (data : Value) (kind : String) : List Value :=
  match data.get kind with
  | some (.array a) => a
  | some (.object o) => o.map (·.2)
  | _ => []

end Value

/-! ### What maps to what -/

/-- The nicks of the services' own agents, never imported as bots. -/
def serviceNicks : List String :=
  ["nickserv", "chanserv", "botserv", "operserv", "hostserv", "memoserv", "helpserv",
    "groupserv", "statserv", "infoserv", "global", "chanfix", "diceserv", "reportserv"]

def isService (nick : String) : Bool := serviceNicks.contains (toAsciiLowercase nick)

/-- The mode of a lock without a value. -/
def modeChar (name : String) : Option Char :=
  match name with
  | "NOEXTERNAL" => some 'n'
  | "TOPIC" | "TOPICLOCK" => some 't'
  | "NOCTCP" => some 'C'
  | "NONOTICE" => some 'T'
  | "SECRET" => some 's'
  | "PRIVATE" => some 'p'
  | "MODERATED" => some 'm'
  | "INVITEONLY" | "INVITE" => some 'i'
  | "BLOCKCOLOR" => some 'c'
  | "REGISTEREDONLY" | "REGONLY" | "REGISTERED" => some 'R'
  | "SSLONLY" | "SSL" => some 'z'
  | "PERMANENT" | "PERM" => some 'P'
  | "NOKICK" => some 'Q'
  | "STRIPCOLOR" => some 'S'
  | _ => none

/-- The mode of a lock with a value. -/
def paramModeChar (name : String) : Option Char :=
  match name with
  | "FLOOD" => some 'f'
  | "JOINFLOOD" => some 'j'
  | _ => none

/-- `str::parse` of a 64-bit signed number. -/
def parseSigned (s : List Char) : Option Int :=
  let negative := s.head? = some '-'
  let digits := if negative ∨ s.head? = some '+' then s.tail else s
  if digits ≠ [] ∧ digits.all Char.isDigit then
    let n := digits.foldl (fun n c => n * 10 + (c.toNat - '0'.toNat)) 0
    if negative then (if n ≤ 2 ^ 63 then some (-(n : Int)) else none)
    else if n < 2 ^ 63 then some n
    else none
  else none

/-- `str::trim` -/
def trim (s : List Char) : List Char :=
  ((s.dropWhile isWhitespace).reverse.dropWhile isWhitespace).reverse

/-- The role of an access entry, whatever provider stored it: a level against the
thresholds of the channel, an XOP word or privilege letters. -/
def accessRole (data : String) (opAt voiceAt : Int) : Option String :=
  let d := trim data.toList
  match parseSigned d with
  | some level =>
      if level ≥ opAt then some "op" else if level ≥ voiceAt then some "voice" else none
  | none =>
      match toAsciiUppercase (String.ofList d) with
      | "QOP" | "OWNER" | "FOUNDER" | "COFOUNDER" | "SOP" | "AOP" => some "op"
      | "HOP" | "VOP" => some "voice"
      | _ =>
          let has (set : List Char) : Bool := d.any fun c => set.contains c.toLower
          if has ['q', 'a', 'o', 'f'] then some "op"
          else if has ['h', 'v'] then some "voice"
          else none

/-- The word after the first `name` among these words. -/
def wordAfter (name : List Char) : List (List Char) → Option (List Char)
  | a :: b :: rest => if a = name then some b else wordAfter name (b :: rest)
  | _ => none

/-- The levels that op and voice, from the `levels` of a channel. A level that is
disabled is stored as a negative one. -/
def thresholds (levels : String) : Int × Int :=
  let toks := words isWhitespace levels.toList
  let find (name : String) (dflt : Int) : Int :=
    (((wordAfter name.toList toks).bind parseSigned).filter (· > 0)).getD dflt
  (find "AUTOOP" 5, find "AUTOVOICE" 3)

/-! ### Accounts -/

section Cores

variable (data : Value)

/-- The display name of each core, by its id. -/
def idToDisplay : Table String :=
  (data.records "NickCore").foldl
    (fun m nc =>
      match nc.idField "uniqueid", nc.field "display" with
      | some id, some disp => m.insert id disp
      | _, _ => m) ∅

/-- The core an id field refers to, by its display name. -/
def displayOf (v : Value) (k : String) : Option String :=
  (v.idField k).bind fun id => (idToDisplay data)[id]?

/-- When an account was last seen under one of its nicks. -/
def lastSeenOf : Table Nat :=
  (data.records "NickAlias").foldl
    (fun m na =>
      match displayOf data na "ncid" with
      | some disp => m.insert disp (max (m[disp]?.getD 0) (na.num "last_seen"))
      | none => m) ∅

/-- The vhost of an account, from its nicks: the last that has one. -/
def vhostOf : Table Vhost :=
  (data.records "NickAlias").foldl
    (fun m na =>
      match displayOf data na "ncid", na.field "vhost_host" with
      | some disp, some host =>
          let full :=
            match na.field "vhost_ident" with
            | some ident => ident ++ "@" ++ host
            | none => host
          m.insert disp
            ⟨full, (na.field "vhost_creator").getD "import", na.num "vhost_time", none⟩
      | _, _ => m) ∅

/-- The account of a core. Its password stays behind: it is a one-way hash. -/
def accountOf (node name : String) (nc : Value) : Account where
  name
  email := nc.field "email"
  ts := nc.num "registered"
  home := node
  scram256 := none
  scram512 := none
  certfps := []
  pubkey := none
  verified := true
  ajoin := []
  suspension := none
  memos := []
  memoIgnore := []
  memoNotify := nc.flag "MEMO_SIGNON"
  memoLimit :=
    match nc.num "memomax" with
    | 0 => none
    | n => some (n % 2 ^ 32)
  greet := ""
  noAutoop := !nc.flag "AUTOOP"
  noProtect := !nc.flag "PROTECT"
  hideStatus := nc.flag "HIDE_MASK"
  snotice := false
  language := none
  profile := {}
  vhost := (vhostOf data)[name]?
  vhostRequest := none
  lastSeen := (lastSeenOf data)[name]?.getD (nc.num "registered")
  noexpire := false
  expiryWarned := false
  operNote := none
  swhois := none
  signore := []

def coreEvent (node : String) (nc : Value) : Option Event :=
  (nc.field "display").map fun name => .accountRegistered (accountOf data node name nc)

/-- A nick that is not the display name of its core is grouped to it. -/
def aliasEvent (na : Value) : Option Event :=
  match na.field "nick", displayOf data na "ncid" with
  | some nick, some disp =>
      if eqIgnoreAsciiCase nick disp then none else some (.nickGrouped nick disp)
  | _, _ => none

def certEvent (cert : Value) : Option Event :=
  match cert.field "fingerprint", displayOf data cert "account" with
  | some fp, some disp => some (.certAdded disp (toAsciiLowercase fp))
  | _, _ => none

end Cores

/-! ### Channels -/

def settingsOf (ci : Value) : ChanSettings :=
  let any (names : List String) : Bool := names.any ci.flag
  { signkick := any ["SIGNKICK", "SIGNKICK_LEVEL"]
    signkickLevel := any ["SIGNKICK_LEVEL"]
    «private» := any ["PRIVATE", "CS_PRIVATE"]
    peace := any ["PEACE"]
    secureops := any ["SECUREOPS", "CS_SECUREOPS"]
    securevoices := false
    restricted := any ["RESTRICTED", "CS_RESTRICTED"]
    noautoop := any ["NOAUTOOP", "CS_NOAUTOOP"]
    keeptopic := any ["KEEPTOPIC"]
    topiclock := any ["TOPICLOCK", "CS_TOPICLOCK"]
    botGreet := any ["BS_GREET"]
    nobot := any ["BS_NOBOT", "NOBOT"] }

section Channels

variable (data : Value)

/-- The channel of a record and its founder, if the founder is known. -/
def founded (ci : Value) : Option (String × String) :=
  match ci.field "name", displayOf data ci "founderid" with
  | some name, some founder => some (name, founder)
  | _, _ => none

/-- What is logged of a channel after its registration. -/
def detailEvents (name : String) (ci : Value) : List Event :=
  ((ci.field "description").map fun desc => .channelDescSet name desc).toList ++
  ((ci.field "last_topic").map fun topic =>
    .channelTopicSet name topic ((ci.field "last_topic_setter").getD "")).toList ++
  (((ci.field "bi").filter (!isService ·)).map fun bot => .channelBotAssigned name bot).toList ++
  (if settingsOf ci ≠ {} then [.channelSettingsSet name (settingsOf ci)] else []) ++
  (if ci.flag "CS_NO_EXPIRE" then [.channelNoExpire name true] else [])

def channelEvents (ci : Value) : List Event :=
  match founded data ci with
  | some (name, founder) =>
      .channelRegistered name founder (ci.num "registered") :: detailEvents name ci
  | none => []

/-- The thresholds of the channels that are imported, by their names as they stand. -/
def chanLevels : Table (Int × Int) :=
  (data.records "ChannelInfo").foldl
    (fun m ci =>
      match founded data ci with
      | some (name, _) => m.insert name (thresholds ((ci.field "levels").getD ""))
      | none => m) ∅

/-- The channel, mask and role of an access record, if the role can be represented. -/
def accessOf (ca : Value) : Option (String × ChanAccess) :=
  match ca.field "ci", ca.field "mask" with
  | some chan, some mask =>
      let (opAt, voiceAt) := (chanLevels data)[chan]?.getD (5, 3)
      (accessRole ((ca.field "data").getD "") opAt voiceAt).map fun role => (chan, ⟨mask, role⟩)
  | _, _ => none

def accessEvent (ca : Value) : Option Event :=
  (accessOf data ca).map fun (chan, entry) => .channelAccessAdd chan entry.account entry.level

end Channels

/-- The locks of a channel: the modes on and off, and the values of those on. -/
structure Mlock where
  on : List Char := []
  off : List Char := []
  params : List (Char × String) := []

/-- Add the lock of one record to those of its channel. -/
def lockStep (locks : Table Mlock) (ml : Value) : Table Mlock :=
  match ml.field "ci", ml.field "name" with
  | some chan, some name =>
      let entry : Mlock := locks[chan]?.getD {}
      match modeChar name, paramModeChar name with
      | some ch, _ =>
          locks.insert chan
            (if ml.flag "set" then { entry with on := entry.on ++ [ch] }
            else { entry with off := entry.off ++ [ch] })
      | none, some ch =>
          if ml.flag "set" then
            match ml.field "param" with
            | some param =>
                locks.insert chan
                  { entry with on := entry.on ++ [ch], params := entry.params ++ [(ch, param)] }
            | none => locks
          else locks.insert chan { entry with off := entry.off ++ [ch] }
      | none, none => locks
  | _, _ => locks

/-- The locks of the channels, by their names as they stand. -/
def locksOf (data : Value) : Table Mlock := (data.records "ModeLock").foldl lockStep ∅

def lockEvent (lock : String × Mlock) : Event :=
  .channelMlock lock.1 (String.ofList lock.2.on) (String.ofList lock.2.off) lock.2.params

/-! ### Bots and memos -/

def botEvent (bi : Value) : Option Event :=
  ((bi.field "nick").filter (!isService ·)).map fun nick =>
    .botAdded ⟨nick, (bi.field "user").getD "bot", (bi.field "host").getD "services.",
      (bi.field "realname").getD "Bot", bi.flag "oper_only"⟩

/-- The memos, and which of them is read: a memo is known by its place among those of
its owner, whose name is taken as it stands. -/
def memoEvents (memoIndex : Table Nat) : List Value → List Event
  | [] => []
  | m :: rest =>
      match m.field "owner", m.field "text" with
      | some owner, some text =>
          let idx := memoIndex[owner]?.getD 0
          .memoSent owner ((m.field "sender").getD "unknown") text (m.num "time")
              (m.flag "receipt") ::
            ((if !m.flag "unread" then [.memoRead owner idx] else []) ++
              memoEvents (memoIndex.insert owner (idx + 1)) rest)
      | _, _ => memoEvents memoIndex rest

/-! ### The import -/

/-- What an import logs, in order. -/
def importEvents (env : Env) (data : Value) (node : String) : List Event :=
  (data.records "NickCore").filterMap (coreEvent data node) ++
  (data.records "NickAlias").filterMap (aliasEvent data) ++
  (data.records "NSCert").filterMap (certEvent data) ++
  (data.records "ChannelInfo").flatMap (channelEvents data) ++
  (data.records "ChanAccess").filterMap (accessEvent data) ++
  (env.entries (locksOf data)).map lockEvent ++
  (data.records "BotInfo").filterMap botEvent ++
  memoEvents ∅ (data.records "Memo")

/-- `import_anope`: log a document into a new file, which answers the writes as
given; what the file then holds. -/
def importAnope (env : Env) (root : Value) (node : String) (outcomes : List Bool) :
    Except IoError (List LogEntry) :=
  let data := (root.get "data").getD .null
  let empty := Db.open' node []
  let db : Db := { empty with log := { empty.log with faults := outcomes } }
  let (result, db) := (Db.appendEach id id (importEvents env data node)).run.run db
  result.map fun _ => db.log.entries

end Echo.Migrate
