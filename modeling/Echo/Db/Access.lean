import Echo.Db.Base

/-!
Channel access (`api/src/lib.rs`): the flags an access level stands for, the
capabilities they confer, and the deciders of operator access. `ChannelInfo.isOp`
answers SECUREOPS and TOPICLOCK, `Db.channelCaps` the join of a member and
`ChannelView.capsOf` the ChanServ commands.
-/

namespace Echo

open Echo.Lib

/-- A channel access rank, lowest first: the ircd's own prefix ranks. -/
inductive Rank where
  | none | voice | halfop | op | admin | founder
  deriving DecidableEq, Repr

def Rank.toNat : Rank → Nat
  | .none => 0
  | .voice => 1
  | .halfop => 2
  | .op => 3
  | .admin => 4
  | .founder => 5

def Rank.max (a b : Rank) : Rank := if a.toNat ≤ b.toNat then b else a

/-- The capabilities an access level confers. `auto` is the status mode given on
join. -/
structure Caps where
  auto : Option String := none
  op : Bool := false
  topic : Bool := false
  invite : Bool := false
  access : Bool := false
  set : Bool := false
  greet : Bool := false
  rank : Rank := .none
  deriving DecidableEq, Repr

/-- The strength of a status mode, whatever the order of its letters. -/
def Caps.strength (mode : Option String) : Nat :=
  match mode with
  | none => 0
  | some m =>
      let letters := m.toList
      if letters.contains 'q' then 5
      else if letters.contains 'a' then 4
      else if letters.contains 'o' then 3
      else if letters.contains 'h' then 2
      else if letters.contains 'v' then 1
      else 0

/-- Two capability sets together: the union of the privileges, the higher rank
and the stronger join mode. -/
def Caps.union (a b : Caps) : Caps where
  auto := if Caps.strength a.auto ≥ Caps.strength b.auto then a.auto else b.auto
  op := a.op || b.op
  topic := a.topic || b.topic
  invite := a.invite || b.invite
  access := a.access || b.access
  set := a.set || b.set
  greet := a.greet || b.greet
  rank := a.rank.max b.rank

/-! ### Flag sets -/

/-- An enumeration whose members are written as letters, each with its bit. -/
class Lettered (F : Type) where
  all : List F
  letter : F → Char
  bit : F → Nat

/-- A set of lettered flags, one bit each (`flag_set!`). -/
structure FlagSet (F : Type) (w : Nat) where
  bits : BitVec w := 0
  deriving DecidableEq, Repr

namespace FlagSet

variable {F : Type} [Lettered F] {w : Nat}

def fromLetter (c : Char) : Option F := Lettered.all.find? fun f => Lettered.letter f == c

def add (set : FlagSet F w) (f : F) : FlagSet F w := ⟨set.bits ||| (1 <<< Lettered.bit f)⟩

def has (set : FlagSet F w) (f : F) : Bool := set.bits &&& (1 <<< Lettered.bit f) != 0

def isEmpty (set : FlagSet F w) : Bool := set.bits == 0

/-- The set a string of letters stands for; unknown letters are skipped. -/
def parse (s : String) : FlagSet F w := (s.toList.filterMap fromLetter).foldl add {}

end FlagSet

/-- A channel access flag. -/
inductive Flag where
  | founder | autoOp | op | halfop | voice | topic | invite | access | set | greet | noStatus
  deriving DecidableEq, Repr

def Flag.letter : Flag → Char
  | .founder => 'f'
  | .autoOp => 'o'
  | .op => 'O'
  | .halfop => 'h'
  | .voice => 'v'
  | .topic => 't'
  | .invite => 'i'
  | .access => 'a'
  | .set => 's'
  | .greet => 'g'
  | .noStatus => 'd'

def Flag.all : List Flag :=
  [.founder, .autoOp, .op, .halfop, .voice, .topic, .invite, .access, .set, .greet, .noStatus]

instance : Lettered Flag where
  all := Flag.all
  letter := Flag.letter
  bit := Flag.ctorIdx

abbrev Flags := FlagSet Flag 16

/-- A group membership flag; `channel` lets a member inherit the group's channel
access. -/
inductive GroupFlag where
  | founder | manage | invite | channel | set | memo
  deriving DecidableEq, Repr

def GroupFlag.letter : GroupFlag → Char
  | .founder => 'F'
  | .manage => 'f'
  | .invite => 'i'
  | .channel => 'c'
  | .set => 's'
  | .memo => 'm'

def GroupFlag.all : List GroupFlag := [.founder, .manage, .invite, .channel, .set, .memo]

instance : Lettered GroupFlag where
  all := GroupFlag.all
  letter := GroupFlag.letter
  bit := GroupFlag.ctorIdx

abbrev GroupFlags := FlagSet GroupFlag 8

/-- The flags a stored level stands for: those of its tier, or its letters. -/
def Flags.fromLevel (level : String) : Flags :=
  let base : Flags := {}
  match level with
  | "sop" => (((base.add .autoOp).add .topic).add .invite).add .access
  | "op" => ((base.add .autoOp).add .topic).add .invite
  | "halfop" => base.add .halfop
  | "voice" => base.add .voice
  | "founder" => base.add .founder
  | flags => FlagSet.parse flags

/-- The capabilities a set of flags confers. -/
def Flags.caps (flags : Flags) : Caps :=
  let founderish := flags.has .founder
  let autoop := flags.has .autoOp
  let op := autoop || flags.has .op
  let access := flags.has .access
  { auto :=
      -- The deny flag overrides every status flag.
      if flags.has .noStatus then none
      else if autoop then if access then some "+ao" else some "+o"
      else if flags.has .halfop then some "+h"
      else if flags.has .voice then some "+v"
      else none
    op := founderish || op
    topic := founderish || flags.has .topic
    invite := founderish || flags.has .invite
    access := founderish || access
    set := founderish || flags.has .set
    greet := founderish || flags.has .greet
    rank :=
      if founderish then .founder
      else if op && access then .admin
      else if op then .op
      else if flags.has .halfop then .halfop
      else if !flags.isEmpty then .voice
      else .none }

/-- The capabilities of a stored level. The owner's level is the one that flags
cannot express. -/
def levelCaps (level : String) : Caps :=
  if level == "founder" then
    { auto := some "+qo", op := true, topic := true, invite := true, access := true, set := true
      greet := true, rank := .founder }
  else (Flags.fromLevel level).caps

/-! ### Tiers and LEVELS -/

/-- The tier a stored level resolves to. -/
inductive AccessRole where
  | founder | sop | aop | hop | vop | custom
  deriving DecidableEq, Repr

def AccessRole.parse (s : String) : Option AccessRole :=
  match toAsciiUppercase s with
  | "SOP" => some .sop
  | "AOP" => some .aop
  | "HOP" => some .hop
  | "VOP" => some .vop
  | "FOUNDER" => some .founder
  | _ => none

def AccessRole.rank : AccessRole → Nat
  | .custom => 0
  | .vop => 1
  | .hop => 2
  | .aop => 3
  | .sop => 4
  | .founder => 5

/-- A capability that LEVELS can grant to a lower tier. -/
inductive LevelCap where
  | op | topic | invite | access
  deriving DecidableEq, Repr

def LevelCap.all : List LevelCap := [.op, .topic, .invite, .access]

def LevelCap.name : LevelCap → String
  | .op => "OP"
  | .topic => "TOPIC"
  | .invite => "INVITE"
  | .access => "ACCESS"

def LevelCap.parse (s : String) : Option LevelCap :=
  LevelCap.all.find? fun c => eqIgnoreAsciiCase c.name s

def LevelCap.grant (cap : LevelCap) (c : Caps) : Caps :=
  match cap with
  | .op => { c with op := true }
  | .topic => { c with topic := true }
  | .invite => { c with invite := true }
  | .access => { c with access := true }

/-- The tier of a stored level, by what it confers. -/
def accessRole (level : String) : AccessRole :=
  let c := levelCaps level
  if c.set && c.access && c.op then .founder
  else if c.op && c.access then .sop
  else if c.op then .aop
  else if c.auto == some "+h" then .hop
  else if c.auto == some "+v" then .vop
  else .custom

/-! ### The deciders -/

/-- Whether an access entry is for a group rather than for an account. -/
def ChanAccess.forGroup (a : ChanAccess) : Bool := a.account.toList.head? == some '!'

/-- What the modules see of a channel's access. -/
structure ChannelView where
  founder : String
  access : List ChanAccess
  levels : List (LevelCap × AccessRole)

namespace ChannelInfo

/-- An override whose words do not parse is not shown. -/
def view (c : ChannelInfo) : ChannelView where
  founder := c.founder
  access := c.access
  levels := c.levels.filterMap fun l =>
    (LevelCap.parse l.1).bind fun cap => (AccessRole.parse l.2).map fun role => (cap, role)

/-- The access entry under the account's own name. -/
def ownEntry (c : ChannelInfo) (account : String) : Option ChanAccess :=
  c.access.find? fun a => eqIgnoreAsciiCase a.account account

/-- Whether the account holds op-level access. -/
def isOp (c : ChannelInfo) (account : String) : Bool :=
  eqIgnoreAsciiCase c.founder account ||
    (c.ownEntry account).any fun a => (levelCaps a.level).op

/-- Whether the account is barred from any status. -/
def denied (c : ChannelInfo) (account : String) : Bool :=
  (c.ownEntry account).any fun a => (Flags.fromLevel a.level).has .noStatus

end ChannelInfo

/-- Layer the LEVELS grants that reach an entry's tier on top of what it
confers. -/
def grantLevels (levels : List (LevelCap × AccessRole)) (role : AccessRole) (caps : Caps) : Caps :=
  levels.foldl (fun caps l => if role.rank ≥ l.2.rank then l.1.grant caps else caps) caps

/-- The account's resolved capabilities, as the ChanServ commands see them. -/
def ChannelView.capsOf (v : ChannelView) (account : Option String) : Caps :=
  match account with
  | none => {}
  | some acc =>
      if eqIgnoreAsciiCase v.founder acc then levelCaps "founder"
      else
        match v.access.find? fun a => eqIgnoreAsciiCase a.account acc with
        | none => {}
        | some entry => grantLevels v.levels (accessRole entry.level) (levelCaps entry.level)

namespace Db

def channel (db : Db) (name : String) : Option ChannelInfo := db.channels[key name]?

/-- Whether an account inherits a group's channel access: its founder, or a
member holding the channel flag. -/
def groupGrantsChannelAccess (db : Db) (name account : String) : Bool :=
  (db.group name).any fun g =>
    eqIgnoreAsciiCase g.founder account ||
      g.members.any fun m =>
        eqIgnoreAsciiCase m.account account &&
          (FlagSet.parse m.flags : GroupFlags).has .channel

/-- Whether an access entry applies to an account: one for a group to those who
inherit its access, any other to the account it names. -/
def entryApplies (db : Db) (account : String) (a : ChanAccess) : Bool :=
  if a.forGroup then db.groupGrantsChannelAccess a.account account
  else eqIgnoreAsciiCase a.account account

/-- An account's effective capabilities, its own entry joined with those of its
groups. -/
def channelCaps (db : Db) (channel account : String) : Caps :=
  match db.channel channel with
  | none => {}
  | some c =>
      if eqIgnoreAsciiCase c.founder account then levelCaps "founder"
      else
        c.access.foldl
          (fun caps a =>
            if db.entryApplies account a then caps.union (levelCaps a.level) else caps) {}

/-- The status mode a member is given on join. -/
def channelJoinMode (db : Db) (channel account : String) : Option String :=
  (db.channelCaps channel account).auto

/-- Whether SECUREOPS takes a newly given op away for want of op access. -/
def secureopsStrips (db : Db) (channel : String) (account : Option String) : Bool :=
  (db.channel channel).any fun c => c.settings.secureops && !account.any c.isOp

end Db

end Echo
