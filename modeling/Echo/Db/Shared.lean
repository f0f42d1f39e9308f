import Echo.Db.Claims
import Mathlib.Logic.Function.Basic

/-!
The Global state of a node by what is looked up in it: accounts and groups by their
fields, everything else by its key. The order of a list that is searched by key is left
out of it, and so is all that is Local.

An event writes in one place of this state, unless it drops an account. `Write` lists
the ways of writing, and the fold of an event is its write.
-/

namespace Echo

open Std (ExtTreeMap)
open Echo.Lib

/-! ### What is looked up -/

/-- What is looked up in an account, its registration apart: a channel, a target and a
nick by their keys. -/
inductive AccountField where
  | email | greet | language | swhois | signore | pubkey | profile (field : ProfileField)
  | noAutoop | noProtect | hideStatus | snotice | password | verified | vhost | vhostRequest
  | suspension | memos | memoPrefs | lastSeen | noexpire | expiryWarned | operNote
  | certfp (fp : String) | ajoin (channel : String) | memoIgnore (target : String)
  deriving DecidableEq

abbrev AccountField.Value : AccountField → Type
  | .email | .language | .swhois | .pubkey | .profile _ | .operNote | .memoIgnore _ => Option String
  | .greet => String
  | .signore => List String
  | .noAutoop | .noProtect | .hideStatus | .snotice | .verified | .noexpire | .expiryWarned
  | .certfp _ => Bool
  | .password => Option String × Option String
  | .vhost => Option Vhost
  | .vhostRequest => Option PendingVhost
  | .suspension => Option Suspension
  | .memos => List Memo
  | .memoPrefs => Bool × Option Nat
  | .lastSeen => Nat
  | .ajoin _ => Option AjoinEntry

def Profile.get (p : Profile) : ProfileField → Option String
  | .avatar => p.avatar
  | .bio => p.bio
  | .pronouns => p.pronouns
  | .timezone => p.timezone
  | .url => p.url

def Account.field (a : Account) : (f : AccountField) → f.Value
  | .email => a.email
  | .greet => a.greet
  | .language => a.language
  | .swhois => a.swhois
  | .signore => a.signore
  | .pubkey => a.pubkey
  | .profile field => a.profile.get field
  | .noAutoop => a.noAutoop
  | .noProtect => a.noProtect
  | .hideStatus => a.hideStatus
  | .snotice => a.snotice
  | .password => (a.scram256, a.scram512)
  | .verified => a.verified
  | .vhost => a.vhost
  | .vhostRequest => a.vhostRequest
  | .suspension => a.suspension
  | .memos => a.memos
  | .memoPrefs => (a.memoNotify, a.memoLimit)
  | .lastSeen => a.lastSeen
  | .noexpire => a.noexpire
  | .expiryWarned => a.expiryWarned
  | .operNote => a.operNote
  | .certfp fp => a.certfps.contains fp
  | .ajoin channel => a.ajoin.find? fun e => key e.channel == channel
  | .memoIgnore target => a.memoIgnore.find? fun t => key t == target

structure SharedAccount where
  name : String
  ts : Nat
  home : String
  field : (f : AccountField) → f.Value

def Account.shared (a : Account) : SharedAccount := ⟨a.name, a.ts, a.home, a.field⟩

inductive GroupField where
  | founder | member (account : String)
  deriving DecidableEq

abbrev GroupField.Value : GroupField → Type
  | .founder => String
  | .member _ => Option GroupMember

def Group.field (g : Group) : (f : GroupField) → f.Value
  | .founder => g.founder
  | .member account => g.members.find? fun m => key m.account == account

structure SharedGroup where
  name : String
  ts : Nat
  home : String
  field : (f : GroupField) → f.Value

def Group.shared (g : Group) : SharedGroup := ⟨g.name, g.ts, g.home, g.field⟩

/-- A place in one of the network's lists, by the keys it is looked up under. -/
inductive Entry where
  | nick (nick : String)
  | akill (kind mask : String)
  | forbid (kind mask : String)
  | filter (pattern : String)
  | notify (mask : String)
  | oper (account : String)
  | exception (mask : String)
  deriving DecidableEq

abbrev Entry.Value : Entry → Type
  | .nick _ => String
  | .akill .. => Akill
  | .forbid .. => Forbid
  | .filter _ => Filter
  | .notify _ => Notify
  | .oper _ => OperGrant
  | .exception _ => SessionException

def Store.entry (s : Store) : (c : Entry) → Option c.Value
  | .nick nick => s.grouped[nick]?
  | .akill kind mask => s.net.akills.find? fun a => (a.kind, key a.mask) == (kind, mask)
  | .forbid kind mask => s.net.forbids.find? fun f => (f.kind, key f.mask) == (kind, mask)
  | .filter pattern => s.net.filters.find? fun f => key f.pattern == pattern
  | .notify mask => s.net.notifies.find? fun x => key x.mask == mask
  | .oper account => s.net.opers[account]?
  | .exception mask => s.net.sessExceptions.find? fun e => key e.mask == mask

/-- The Global state. -/
structure Shared where
  accounts : String → Option SharedAccount
  groups : String → Option SharedGroup
  entries : (c : Entry) → Option c.Value

def Store.shared (s : Store) : Shared where
  accounts k := s.accounts[k]?.map Account.shared
  groups k := (s.net.groups.find? fun g => key g.name == k).map Group.shared
  entries := s.entry

/-! ### Writing -/

namespace SharedAccount

variable (p : SharedAccount)

/-- The order of registrations: the earlier time, then the lower home. -/
def rank : Nat ×ₗ String := toLex (p.ts, p.home)

def put (f : AccountField) (v : f.Value) : SharedAccount :=
  { p with field := Function.update p.field f v }

end SharedAccount

/-- What happens to a mailbox. -/
inductive MemoChange where
  | sent (memo : Memo)
  | read (index : Nat)
  | deleted (index : Nat)
  deriving DecidableEq

/-- What is changed of an account that is there. -/
inductive AccountEdit where
  | set (f : AccountField) (v : f.Value)
  | ignore (target : String)
  | mail (change : MemoChange)
  | seen (ts : Nat)

namespace AccountEdit

/-- An ignored target is kept as it was first spelled, and a full mailbox takes no memo. -/
def on (p : SharedAccount) : AccountEdit → SharedAccount
  | .set f v => p.put f v
  | .ignore target =>
      if (p.field (.memoIgnore (key target))).isSome then p
      else p.put (.memoIgnore (key target)) (some target)
  | .mail (.sent memo) =>
      if (p.field .memos).length < (p.field .memoPrefs).2.getD defaultMemoLimit then
        p.put .memos (p.field .memos ++ [memo])
      else p
  | .mail (.read index) =>
      p.put .memos ((p.field .memos).modify index fun m => { m with read := true })
  | .mail (.deleted index) => p.put .memos ((p.field .memos).eraseIdx index)
  | .seen ts => (p.put .lastSeen (max (p.field .lastSeen) ts)).put .expiryWarned false

end AccountEdit

namespace SharedGroup

variable (g : SharedGroup)

def rank : Nat ×ₗ String := toLex (g.ts, g.home)

def put (f : GroupField) (v : f.Value) : SharedGroup :=
  { g with field := Function.update g.field f v }

/-- An account goes: a group without its founder goes too. -/
def without (account : String) : Option SharedGroup :=
  if key (g.field .founder) = account then none else some (g.put (.member account) none)

end SharedGroup

namespace Shared

variable (σ : Shared)

def setAccount (k : String) (p : Option SharedAccount) : Shared :=
  { σ with accounts := Function.update σ.accounts k p }

def setGroup (k : String) (g : Option SharedGroup) : Shared :=
  { σ with groups := Function.update σ.groups k g }

def setEntry (c : Entry) (v : Option c.Value) : Shared :=
  { σ with entries := Function.update σ.entries c v }

def adjust (k : String) (φ : SharedAccount → SharedAccount) : Shared :=
  σ.setAccount k ((σ.accounts k).map φ)

def adjustGroup (k : String) (φ : SharedGroup → SharedGroup) : Shared :=
  σ.setGroup k ((σ.groups k).map φ)

/-- An account goes with its aliases, the groups it founded and its memberships. -/
def drop (account : String) : Shared where
  accounts := Function.update σ.accounts account none
  groups k := (σ.groups k).bind (·.without account)
  entries
    | .nick nick => (σ.entries (.nick nick)).filter (key · ≠ account)
    | c => σ.entries c

end Shared

/-- A write to the Global state, accounts and groups by their keys. -/
inductive Write where
  | claim (a : Account)
  | edit (account : String) (e : AccountEdit)
  | drop (account : String)
  | claimGroup (g : Group)
  | setGroup (name : String) (f : GroupField) (v : f.Value)
  | dropGroup (name : String)
  | put (c : Entry) (v : Option c.Value)
  | idle

def Write.on (σ : Shared) : Write → Shared
  | .claim a =>
      σ.setAccount (key a.name)
        (keepEarliest SharedAccount.rank (σ.accounts (key a.name)) a.shared)
  | .edit account e => σ.adjust account e.on
  | .drop account => σ.drop account
  | .claimGroup g =>
      σ.setGroup (key g.name) (keepEarliest SharedGroup.rank (σ.groups (key g.name)) g.shared)
  | .setGroup name f v => σ.adjustGroup name (·.put f v)
  | .dropGroup name => σ.setGroup name none
  | .put c v => σ.setEntry c v
  | .idle => σ

/-- What an event writes. -/
def Event.write : Event → Write
  | .accountRegistered a => .claim a
  | .certAdded account fp => .edit (key account) (.set (.certfp fp) true)
  | .certRemoved account fp => .edit (key account) (.set (.certfp fp) false)
  | .accountEmailSet account email => .edit (key account) (.set .email email)
  | .accountGreetSet account greet => .edit (key account) (.set .greet greet)
  | .accountLanguageSet account language => .edit (key account) (.set .language language)
  | .accountSwhoisSet account text => .edit (key account) (.set .swhois text)
  | .accountSignoreSet account list => .edit (key account) (.set .signore list)
  | .accountPubkeySet account pubkey => .edit (key account) (.set .pubkey pubkey)
  | .accountProfileSet account field value =>
      match ProfileField.parse field with
      | some f => .edit (key account) (.set (.profile f) value)
      | none => .idle
  | .accountAutoOpSet account on => .edit (key account) (.set .noAutoop (!on))
  | .accountKillSet account on => .edit (key account) (.set .noProtect (!on))
  | .accountHideStatusSet account on => .edit (key account) (.set .hideStatus on)
  | .accountSnoticeSet account on => .edit (key account) (.set .snotice on)
  | .accountPasswordSet account scram256 scram512 =>
      .edit (key account)
        (.set .password (some scram256, if scram512.isEmpty then none else some scram512))
  | .accountDropped account => .drop (key account)
  | .accountVerified account => .edit (key account) (.set .verified true)
  | .ajoinAdded account channel joinKey =>
      .edit (key account) (.set (.ajoin (key channel)) (some ⟨channel, joinKey⟩))
  | .ajoinRemoved account channel => .edit (key account) (.set (.ajoin (key channel)) none)
  | .vhostSet account host setter ts expires =>
      .edit (key account) (.set .vhost (some ⟨host, setter, ts, expires⟩))
  | .vhostDeleted account => .edit (key account) (.set .vhost none)
  | .vhostRequested account host ts => .edit (key account) (.set .vhostRequest (some ⟨host, ts⟩))
  | .vhostRequestCleared account => .edit (key account) (.set .vhostRequest none)
  | .accountSuspended account «by» reason ts expires =>
      .edit (key account) (.set .suspension (some ⟨«by», reason, ts, expires⟩))
  | .accountUnsuspended account => .edit (key account) (.set .suspension none)
  | .memoSent account sender text ts receipt =>
      .edit (key account) (.mail (.sent ⟨sender, text, ts, false, receipt⟩))
  | .memoRead account index => .edit (key account) (.mail (.read index))
  | .memoDeleted account index => .edit (key account) (.mail (.deleted index))
  | .memoIgnoreAdd account target => .edit (key account) (.ignore target)
  | .memoIgnoreDel account target => .edit (key account) (.set (.memoIgnore (key target)) none)
  | .memoPrefsSet account notify limit => .edit (key account) (.set .memoPrefs (notify, limit))
  | .nickGrouped nick account => .put (.nick (key nick)) (some account)
  | .nickUngrouped nick => .put (.nick (key nick)) none
  | .accountSeen account ts => .edit (key account) (.seen ts)
  | .accountNoExpire account on => .edit (key account) (.set .noexpire on)
  | .accountExpiryWarned account => .edit (key account) (.set .expiryWarned true)
  | .accountOperNoteSet account note => .edit (key account) (.set .operNote note)
  | .akillAdded kind mask setter reason ts expires =>
      .put (.akill kind (key mask)) (some ⟨kind, mask, setter, reason, ts, expires⟩)
  | .akillRemoved kind mask => .put (.akill kind (key mask)) none
  | .filterAdded pattern action flags reason setter ts expires =>
      .put (.filter (key pattern)) (some ⟨pattern, action, flags, reason, setter, ts, expires⟩)
  | .filterRemoved pattern => .put (.filter (key pattern)) none
  | .forbidAdded kind mask setter reason ts =>
      .put (.forbid kind (key mask)) (some ⟨kind, mask, setter, reason, ts⟩)
  | .forbidRemoved kind mask => .put (.forbid kind (key mask)) none
  | .notifyAdded mask flags reason setter ts expires =>
      .put (.notify (key mask)) (some ⟨mask, flags, reason, setter, ts, expires⟩)
  | .notifyRemoved mask => .put (.notify (key mask)) none
  | .groupRegistered name founder ts home => .claimGroup ⟨name, founder, ts, home, []⟩
  | .groupDropped name => .dropGroup (key name)
  | .groupFounderSet name founder => .setGroup (key name) .founder founder
  | .groupFlagsSet name account flags =>
      .setGroup (key name) (.member (key account)) (some ⟨account, flags⟩)
  | .groupMemberDel name account => .setGroup (key name) (.member (key account)) none
  | .operGranted account privs expires => .put (.oper (key account)) (some ⟨privs, expires⟩)
  | .operRevoked account => .put (.oper (key account)) none
  | .sessionExceptionAdded mask limit reason =>
      .put (.exception (key mask)) (some ⟨mask, limit, reason⟩)
  | .sessionExceptionRemoved mask => .put (.exception (key mask)) none
  | _ => .idle

/-! ### The fold of an event is its write -/

section Frame

variable {s t : Store}

end Frame

section Account

variable {s : Store}

end Account

section Groups

variable {s : Store}

end Groups

section Lists

variable {s : Store}

end Lists

section Fold

variable {s : Store}

end Fold

end Echo
