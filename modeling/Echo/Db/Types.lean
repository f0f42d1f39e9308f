import Mathlib.Algebra.Ring.Nat
import Std.Data.ExtTreeMap
import Echo.Lib.AsciiCase

/-!
The records the services store keeps: accounts, channels, bots and the
network-wide lists, with the fields and defaults of `src/engine/db/mod.rs`.

A `HashMap` of the source is an extensional map from the stored key; a `Vec` is
a list in the source's order. Timestamps, counters and limits are naturals:
none of the store's arithmetic on them reaches the width of its machine type.
-/

namespace Echo

open Std (ExtTreeMap)
open Echo.Lib

/-- The storage key of a name: its ASCII-lowercased text. -/
def key (name : String) : String := toAsciiLowercase name

@[simp] theorem key_key (name : String) : key (key name) = key name :=
  toAsciiLowercase_idem name

theorem eqIgnoreAsciiCase_iff_key {a b : String} :
    eqIgnoreAsciiCase a b = true ↔ key a = key b := eqIgnoreAsciiCase_iff

/-- A map keyed by text, the source's `HashMap<String, _>`. -/
abbrev Table (α : Type) := ExtTreeMap String α

theorem Table.contains_of_some {α : Type} {t : Table α} {k : String} {x : α} (held : t[k]? = some x) :
    t.contains k = true := by
  rw [ExtTreeMap.contains_eq_isSome_getElem?, held]
  rfl

theorem Table.contains_of_none {α : Type} {t : Table α} {k : String} (held : t[k]? = none) :
    t.contains k = false := by
  rw [ExtTreeMap.contains_eq_isSome_getElem?, held]
  rfl

/-- An auto-join entry: a channel joined on identify, with an optional key. -/
structure AjoinEntry where
  channel : String
  key : String
  deriving DecidableEq, Repr

/-- A services suspension. `expires = none` lasts until it is lifted. -/
structure Suspension where
  «by» : String
  reason : String
  ts : Nat
  expires : Option Nat
  deriving DecidableEq, Repr

/-- A memo left for an account. `receipt` asks to be told when it is read. -/
structure Memo where
  sender : String
  text : String
  ts : Nat
  read : Bool
  receipt : Bool
  deriving DecidableEq, Repr

/-- The displayed host an account was given, by whom and until when. -/
structure Vhost where
  host : String
  setter : String
  ts : Nat
  expires : Option Nat
  deriving DecidableEq, Repr

/-- A requested vhost awaiting approval. -/
structure PendingVhost where
  host : String
  ts : Nat
  deriving DecidableEq, Repr

/-- The fields of an account's public profile. -/
inductive ProfileField where
  | avatar | bio | pronouns | timezone | url
  deriving DecidableEq, Repr

/-- Parse a NickServ SET sub-option into a field. -/
def ProfileField.parse (s : String) : Option ProfileField :=
  match toAsciiUppercase s with
  | "AVATAR" => some .avatar
  | "BIO" => some .bio
  | "PRONOUNS" => some .pronouns
  | "TIMEZONE" | "TZ" => some .timezone
  | "URL" | "WEBSITE" => some .url
  | _ => none

/-- The metadata key a field is published under. -/
def ProfileField.metaKey : ProfileField → String
  | .avatar => "avatar"
  | .bio => "bio"
  | .pronouns => "pronouns"
  | .timezone => "timezone"
  | .url => "url"

/-- Every metadata key parses back to its field, so a logged profile change
reaches the field it was made for. -/
@[simp] theorem ProfileField.parse_metaKey (f : ProfileField) :
    ProfileField.parse f.metaKey = some f := by
  cases f <;> decide

/-- An account's public profile. -/
structure Profile where
  avatar : Option String := none
  bio : Option String := none
  pronouns : Option String := none
  timezone : Option String := none
  url : Option String := none
  deriving DecidableEq, Repr

def Profile.set (p : Profile) (field : ProfileField) (value : Option String) : Profile :=
  match field with
  | .avatar => { p with avatar := value }
  | .bio => { p with bio := value }
  | .pronouns => { p with pronouns := value }
  | .timezone => { p with timezone := value }
  | .url => { p with url := value }

/-- A registered account. `home` is the node that first registered it; with
`ts` it decides which of two rival registrations of a name stands. -/
structure Account where
  name : String
  email : Option String
  ts : Nat
  home : String
  scram256 : Option String
  scram512 : Option String
  certfps : List String
  pubkey : Option String
  verified : Bool
  ajoin : List AjoinEntry
  suspension : Option Suspension
  memos : List Memo
  memoIgnore : List String
  memoNotify : Bool
  memoLimit : Option Nat
  greet : String
  noAutoop : Bool
  noProtect : Bool
  hideStatus : Bool
  snotice : Bool
  language : Option String
  profile : Profile
  vhost : Option Vhost
  vhostRequest : Option PendingVhost
  lastSeen : Nat
  noexpire : Bool
  expiryWarned : Bool
  operNote : Option String
  swhois : Option String
  signore : List String
  deriving DecidableEq, Repr

/-- A channel access entry: an account and its level. -/
structure ChanAccess where
  account : String
  level : String
  deriving DecidableEq, Repr

/-- An auto-kick entry: a mask and why it was added. -/
structure ChanAkick where
  mask : String
  reason : String
  deriving DecidableEq, Repr

/-- A bot auto-response. `cooldown` is the least number of seconds between
firings. -/
structure Trigger where
  pattern : String
  response : String
  cooldown : Nat
  deriving DecidableEq, Repr

/-- A channel's on/off options (ChanServ SET). -/
structure ChanSettings where
  signkick : Bool := false
  signkickLevel : Bool := false
  «private» : Bool := false
  peace : Bool := false
  secureops : Bool := false
  securevoices : Bool := false
  restricted : Bool := false
  noautoop : Bool := false
  keeptopic : Bool := false
  topiclock : Bool := false
  botGreet : Bool := false
  nobot : Bool := false
  deriving DecidableEq, Repr

/-- BotServ's per-channel kickers. -/
structure KickerSettings where
  caps : Bool := false
  capsMin : Nat := 0
  capsPercent : Nat := 0
  bolds : Bool := false
  colors : Bool := false
  underlines : Bool := false
  reverses : Bool := false
  italics : Bool := false
  flood : Bool := false
  floodLines : Nat := 0
  floodSecs : Nat := 0
  «repeat» : Bool := false
  repeatTimes : Nat := 0
  badwords : Bool := false
  ttb : Nat := 0
  banExpire : Nat := 0
  warn : Bool := false
  votekick : Nat := 0
  dontkickops : Bool := false
  dontkickvoices : Bool := false
  deriving DecidableEq, Repr

/-- A registered channel. `badwordsRev` and `triggersRev` count the edits of
this session and are never serialized. -/
structure ChannelInfo where
  name : String
  founder : String
  ts : Nat
  lockOn : String := ""
  lockOff : String := ""
  lockParams : List (Char × String) := []
  access : List ChanAccess := []
  akick : List ChanAkick := []
  levels : List (String × String) := []
  successor : Option String := none
  desc : String := ""
  entrymsg : String := ""
  url : String := ""
  email : String := ""
  settings : ChanSettings := {}
  topic : String := ""
  topicSetter : String := ""
  suspension : Option Suspension := none
  assignedBot : Option String := none
  kickers : KickerSettings := {}
  badwords : List String := []
  badwordsRev : Nat := 0
  triggers : List Trigger := []
  triggersRev : Nat := 0
  lastUsed : Nat
  noexpire : Bool := false
  expiryWarned : Bool := false
  operNote : Option String := none
  deriving DecidableEq, Repr

/-- A service bot. -/
structure Bot where
  nick : String
  user : String
  host : String
  gecos : String
  «private» : Bool
  deriving DecidableEq, Repr

/-- Network-wide HostServ configuration. -/
structure HostConfig where
  offers : List String := []
  forbidden : List String := []
  template : Option String := none
  deriving DecidableEq, Repr

/-- A network ban, `kind` being the ircd's line token. -/
structure Akill where
  kind : String
  mask : String
  setter : String
  reason : String
  ts : Nat
  expires : Option Nat
  deriving DecidableEq, Repr

/-- A spam filter. -/
structure Filter where
  pattern : String
  action : String
  flags : String
  reason : String
  setter : String
  ts : Nat
  expires : Option Nat
  deriving DecidableEq, Repr

/-- A registration ban. -/
structure Forbid where
  kind : String
  mask : String
  setter : String
  reason : String
  ts : Nat
  deriving DecidableEq, Repr

/-- An operator watch entry. -/
structure Notify where
  mask : String
  flags : String
  reason : String
  setter : String
  ts : Nat
  expires : Option Nat
  deriving DecidableEq, Repr

/-- A news item; `id` is stable. -/
structure News where
  id : Nat
  kind : String
  text : String
  setter : String
  ts : Nat
  deriving DecidableEq, Repr

/-- An abuse report. -/
structure Report where
  id : Nat
  reporter : String
  target : String
  reason : String
  ts : Nat
  «open» : Bool
  deriving DecidableEq, Repr

/-- A help-desk ticket. -/
structure HelpTicket where
  id : Nat
  requester : String
  message : String
  ts : Nat
  handler : Option String
  «open» : Bool
  deriving DecidableEq, Repr

structure GroupMember where
  account : String
  flags : String
  deriving DecidableEq, Repr

/-- A user group. `ts` and `home` resolve rival registrations, as for an
account. -/
structure Group where
  name : String
  founder : String
  ts : Nat
  home : String
  members : List GroupMember
  deriving DecidableEq, Repr

/-- A runtime operator grant. -/
structure OperGrant where
  privs : List String
  expires : Option Nat
  deriving DecidableEq, Repr

/-- A session-limit exception; `limit = 0` is unlimited. -/
structure SessionException where
  mask : String
  limit : Nat
  reason : String
  deriving DecidableEq, Repr

/-- A juped server and the fake server id held for it. -/
structure Jupe where
  name : String
  sid : String
  reason : String
  deriving DecidableEq, Repr

/-- Per-channel activity: channel, line count, top talkers. -/
abbrev ChanStats := List (String × Nat × List (String × Nat))

/-- The network-wide lists that are neither accounts, channels, aliases nor
bots. -/
structure NetData where
  akills : List Akill := []
  filters : List Filter := []
  forbids : List Forbid := []
  notifies : List Notify := []
  news : List News := []
  newsSeq : Nat := 0
  reports : List Report := []
  reportSeq : Nat := 0
  groups : List Group := []
  help : List HelpTicket := []
  helpSeq : Nat := 0
  opers : Table OperGrant := ∅
  sessExceptions : List SessionException := []
  jupes : List Jupe := []
  jupeSeq : Nat := 0
  defaultBot : Option String := none
  stats : Table Nat := ∅
  chanStats : ChanStats := []
  incidents : List (String × Nat × String) := []
  incidentSeq : Nat := 0
  deriving DecidableEq

/-- Everything the event log rebuilds: the persisted part of a `Db`. -/
structure Store where
  accounts : Table Account := ∅
  channels : Table ChannelInfo := ∅
  grouped : Table String := ∅
  bots : Table Bot := ∅
  hostCfg : HostConfig := {}
  net : NetData := {}
  deriving DecidableEq

end Echo
