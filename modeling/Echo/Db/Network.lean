import Echo.Db.Channel

/-!
The mutators of the network-wide lists (`network.rs`): bans, filters, forbids,
watches, session exceptions, operator grants, news, the moderation queues,
jupes, groups and the persisted statistics.

The lines with an expiry or a mask share `lineAdd` and `lineDel`; the stable-id
queues share `quietEdit`, whose write to the log is ignored.
-/

namespace Echo

open Echo.Lib

inductive XlineKind where
  | gline | qline | rline | shun | cban
  deriving DecidableEq, Repr

/-- The ircd's line token. -/
def XlineKind.wire : XlineKind → String
  | .gline => "G"
  | .qline => "Q"
  | .rline => "R"
  | .shun => "SHUN"
  | .cban => "CBAN"

inductive ForbidKind where
  | nick | chan | email
  deriving DecidableEq, Repr

def ForbidKind.wire : ForbidKind → String
  | .nick => "NICK"
  | .chan => "CHAN"
  | .email => "EMAIL"

inductive NewsKind where
  | logon | oper
  deriving DecidableEq, Repr

def NewsKind.wire : NewsKind → String
  | .logon => "logon"
  | .oper => "oper"

/-- The size at which a moderation queue drops an entry before taking one. -/
def maxQueue : Nat := 2000

/-- Bound a moderation queue: at the cap, drop the oldest resolved entry, or the
oldest if all are open. -/
def pruneQueue {α : Type} (isOpen : α → Bool) (q : List α) : List α :=
  if q.length < maxQueue then q
  else q.eraseIdx ((q.findIdx? fun e => !isOpen e).getD 0)

/-- The seconds between two reports, or two help requests, of one person. -/
def queueCooldown : Nat := 30

/-- The digit of a server id. -/
def sidDigit (n : Nat) : Char :=
  "0123456789ABCDEFGHIJKLMNOPQRSTUVWXYZ".toList.getD n '0'

/-- The fake server id of a jupe from its counter. -/
def jupeSid (seq : Nat) : String :=
  String.ofList ['9', sidDigit (seq / 36 % 36), sidDigit (seq % 36)]

namespace Db

/-! ### Families -/

/-- Log a line and hold it in place of the entries it replaces. True unless a
live entry stood there. -/
def lineAdd (live : NetData → Bool) (event : Event) (write : NetData → NetData) :
    DbM RegError Bool := do
  let db ← get
  let fresh := !live db.net
  logged event (fun _ => .internal) (·.adjustNet write)
  return fresh

/-- Lift a line if a live entry stands there. -/
def lineDel (live : NetData → Bool) (event : Event) (write : NetData → NetData) :
    DbM RegError Bool := do
  let db ← get
  if live db.net then do
    logged event (fun _ => .internal) (·.adjustNet write)
    return true
  else return false

/-- If the entry is `present`, edit it, ignoring whether the event is logged. -/
def quietEdit (present : NetData → Bool) (event : Event) (write : NetData → NetData) :
    StateM Db Bool := do
  let db ← get
  if present db.net then do
    quietly event (·.adjustNet write)
    return true
  else return false

/-! ### Bans, filters, forbids and watches -/

/-- Add or refresh a network ban. True if no live one stood. -/
def akillAdd (env : Env) (kind : XlineKind) (mask setter reason : String)
    (expires : Option Nat) : DbM RegError Bool :=
  lineAdd
    (fun n => n.akills.any fun a =>
      sameLine a.kind a.mask kind.wire mask && a.expires.all (· > env.now))
    (.akillAdded kind.wire mask setter reason env.now expires)
    fun n =>
      { n with akills :=
          n.akills.filter (fun a => !sameLine a.kind a.mask kind.wire mask) ++
            [⟨kind.wire, mask, setter, reason, env.now, expires⟩] }

/-- Lift a network ban. True if a live one was removed. -/
def akillDel (env : Env) (kind : XlineKind) (mask : String) : DbM RegError Bool :=
  lineDel
    (fun n => n.akills.any fun a =>
      sameLine a.kind a.mask kind.wire mask && a.expires.all (· > env.now))
    (.akillRemoved kind.wire mask)
    fun n => { n with akills := n.akills.filter fun a => !sameLine a.kind a.mask kind.wire mask }

def filterAdd (env : Env) (pattern action flags setter reason : String)
    (expires : Option Nat) : DbM RegError Bool :=
  lineAdd
    (fun n => n.filters.any fun f =>
      eqIgnoreAsciiCase f.pattern pattern && f.expires.all (· > env.now))
    (.filterAdded pattern action flags reason setter env.now expires)
    fun n =>
      { n with filters :=
          n.filters.filter (fun f => !eqIgnoreAsciiCase f.pattern pattern) ++
            [⟨pattern, action, flags, reason, setter, env.now, expires⟩] }

def filterDel (env : Env) (pattern : String) : DbM RegError Bool :=
  lineDel
    (fun n => n.filters.any fun f =>
      eqIgnoreAsciiCase f.pattern pattern && f.expires.all (· > env.now))
    (.filterRemoved pattern)
    fun n => { n with filters := n.filters.filter fun f => !eqIgnoreAsciiCase f.pattern pattern }

def forbidAdd (env : Env) (kind : ForbidKind) (mask setter reason : String) :
    DbM RegError Bool :=
  lineAdd (fun n => n.forbids.any fun f => sameLine f.kind f.mask kind.wire mask)
    (.forbidAdded kind.wire mask setter reason env.now)
    fun n =>
      { n with forbids :=
          n.forbids.filter (fun f => !sameLine f.kind f.mask kind.wire mask) ++
            [⟨kind.wire, mask, setter, reason, env.now⟩] }

def forbidDel (kind : ForbidKind) (mask : String) : DbM RegError Bool :=
  lineDel (fun n => n.forbids.any fun f => sameLine f.kind f.mask kind.wire mask)
    (.forbidRemoved kind.wire mask)
    fun n => { n with forbids := n.forbids.filter fun f => !sameLine f.kind f.mask kind.wire mask }

def notifyAdd (env : Env) (mask flags reason setter : String) (expires : Option Nat) :
    DbM RegError Bool :=
  lineAdd (fun n => n.notifies.any fun x => eqIgnoreAsciiCase x.mask mask)
    (.notifyAdded mask flags reason setter env.now expires)
    fun n =>
      { n with notifies :=
          n.notifies.filter (fun x => !eqIgnoreAsciiCase x.mask mask) ++
            [⟨mask, flags, reason, setter, env.now, expires⟩] }

def notifyDel (mask : String) : DbM RegError Bool :=
  lineDel (fun n => n.notifies.any fun x => eqIgnoreAsciiCase x.mask mask)
    (.notifyRemoved mask)
    fun n => { n with notifies := n.notifies.filter fun x => !eqIgnoreAsciiCase x.mask mask }

/-- Drop every watch: all the events, then all the watches. -/
def notifyClear : DbM RegError Nat := do
  let db ← get
  let masks := db.net.notifies.map (·.mask)
  appendEach .notifyRemoved (fun _ => .internal) masks
  edit (·.adjustNet ({ · with notifies := [] }))
  return masks.length

/-! ### Session exceptions, grants and news -/

def sessionExceptAdd (mask : String) (limit : Nat) (reason : String) : StateM Db Unit :=
  quietly (.sessionExceptionAdded mask limit reason) (·.adjustNet fun n =>
    { n with sessExceptions :=
        n.sessExceptions.filter (fun e => !eqIgnoreAsciiCase e.mask mask) ++
          [⟨mask, limit, reason⟩] })

def sessionExceptDel (mask : String) : StateM Db Bool :=
  quietEdit (fun n => n.sessExceptions.any fun e => eqIgnoreAsciiCase e.mask mask)
    (.sessionExceptionRemoved mask)
    fun n =>
      { n with sessExceptions := n.sessExceptions.filter fun e => !eqIgnoreAsciiCase e.mask mask }

/-- Grant runtime operator privileges, replacing any the account has. -/
def operGrant (account : String) (privs : List String) (expires : Option Nat) : StateM Db Unit :=
  quietly (.operGranted account privs expires) (·.adjustNet fun n =>
    { n with opers := n.opers.insert (key account) ⟨privs, expires⟩ })

def operRevoke (account : String) : StateM Db Bool :=
  quietEdit (·.opers.contains (key account)) (.operRevoked account)
    fun n => { n with opers := n.opers.erase (key account) }

/-- Add a news item; its stable id. -/
def newsAdd (env : Env) (kind : NewsKind) (text setter : String) : StateM Db Nat := do
  let db ← get
  let id := db.net.newsSeq
  quietly (.newsAdded id kind.wire text setter env.now) (·.adjustNet fun n =>
    { n with newsSeq := id + 1, news := n.news ++ [⟨id, kind.wire, text, setter, env.now⟩] })
  return id

def newsDel (id : Nat) : StateM Db Bool :=
  quietEdit (fun n => n.news.any fun x => x.id == id) (.newsDeleted id)
    fun n => { n with news := n.news.filter fun x => x.id != id }

/-! ### Jupes and statistics -/

/-- Jupe a server name: the id to introduce, or the one it already has. -/
def jupeAdd (name reason : String) : StateM Db String := do
  let db ← get
  match db.net.jupes.find? fun j => eqIgnoreAsciiCase j.name name with
  | some j => return j.sid
  | none =>
      let sid := jupeSid db.net.jupeSeq
      quietly (.jupeAdded name sid reason) (·.adjustNet fun n =>
        { n with jupeSeq := n.jupeSeq + 1, jupes := n.jupes ++ [⟨name, sid, reason⟩] })
      return sid

/-- Lift a jupe; the id to squit if it existed. -/
def jupeDel (name : String) : StateM Db (Option String) := do
  let db ← get
  let sid := (db.net.jupes.find? fun j => eqIgnoreAsciiCase j.name name).map (·.sid)
  let _ ← quietEdit (fun n => n.jupes.any fun j => eqIgnoreAsciiCase j.name name)
    (.jupeRemoved name)
    fun n => { n with jupes := n.jupes.filter fun j => !eqIgnoreAsciiCase j.name name }
  return sid

/-- Snapshot the live statistics. -/
def persistStats (counters : Table Nat) (chanStats : ChanStats) : DbM IoError Unit :=
  logged (.statsSet counters.toList chanStats) id
    (·.adjustNet ({ · with stats := counters, chanStats }))

/-- Snapshot the recent-incident ring and its id counter. -/
def persistIncidents (seq : Nat) (incidents : List (String × Nat × String)) :
    DbM IoError Unit :=
  logged (.incidentsSet seq incidents) id (·.adjustNet ({ · with incidentSeq := seq, incidents }))

/-! ### Reports and help tickets -/

/-- Whether `who` filed within the cooldown. -/
def filedRecently (env : Env) (db : Db) (who : String) : Bool :=
  (db.reportTimes[who]?).any fun t => env.now - t < queueCooldown

/-- File unless `who` did so within the cooldown, noting that they file now. -/
def unlessThrottled (env : Env) (who : String) (file : StateM Db Nat) :
    StateM Db (Option Nat) := do
  let db ← get
  if db.filedRecently env who then return none
  else do
    set { db with reportTimes := db.reportTimes.insert who env.now }
    return some (← file)

/-- Make room in the queue and put a report there under the next id. -/
def fileReport (env : Env) (reporter target reason : String) : StateM Db Nat := do
  edit (·.adjustNet fun n => { n with reports := pruneQueue (·.open) n.reports })
  let db ← get
  let id := db.net.reportSeq
  quietly (.reportFiled id reporter target reason env.now) (·.adjustNet fun n =>
    { n with
      reportSeq := id + 1
      reports := n.reports ++ [⟨id, reporter, target, reason, env.now, true⟩] })
  return id

/-- File an abuse report; its id unless the reporter filed one too recently. -/
def reportFile (env : Env) (reporter cooldownKey target reason : String) :
    StateM Db (Option Nat) :=
  unlessThrottled env (toAsciiLowercase cooldownKey) (fileReport env reporter target reason)

/-- Close a report. True if an open one was closed. -/
def reportClose (id : Nat) : StateM Db Bool :=
  quietEdit (fun n => n.reports.any fun r => r.id == id && r.open) (.reportClosed id)
    fun n =>
      { n with reports :=
          modifyFirst (fun r => r.id == id) (fun r => { r with «open» := false }) n.reports }

def reportDel (id : Nat) : StateM Db Bool :=
  quietEdit (fun n => n.reports.any fun r => r.id == id) (.reportDeleted id)
    fun n => { n with reports := n.reports.filter fun r => r.id != id }

/-- Make room in the queue and put a ticket there under the next id. -/
def fileHelp (env : Env) (requester message : String) : StateM Db Nat := do
  edit (·.adjustNet fun n => { n with help := pruneQueue (·.open) n.help })
  let db ← get
  let id := db.net.helpSeq
  quietly (.helpRequested id requester message env.now) (·.adjustNet fun n =>
    { n with
      helpSeq := id + 1
      help := n.help ++ [⟨id, requester, message, env.now, none, true⟩] })
  return id

/-- Where help requests are throttled: apart from reports, in the same map. -/
def helpThrottle (cooldownKey : String) : String := "help:" ++ toAsciiLowercase cooldownKey

/-- Open a help ticket; its id unless the requester asked too recently. -/
def helpRequest (env : Env) (requester cooldownKey message : String) :
    StateM Db (Option Nat) :=
  unlessThrottled env (helpThrottle cooldownKey) (fileHelp env requester message)

/-- Assign an open ticket to a handler. -/
def helpTake (id : Nat) (handler : String) : StateM Db Bool :=
  quietEdit (fun n => n.help.any fun t => t.id == id && t.open) (.helpTaken id handler)
    fun n =>
      { n with help :=
          modifyFirst (fun t => t.id == id) (fun t => { t with handler := some handler }) n.help }

def helpClose (id : Nat) : StateM Db Bool :=
  quietEdit (fun n => n.help.any fun t => t.id == id && t.open) (.helpClosed id)
    fun n =>
      { n with help :=
          modifyFirst (fun t => t.id == id) (fun t => { t with «open» := false }) n.help }

/-! ### Groups -/

/-- Require the group, log the event, write the first group of that name. -/
def writeGroup (name : String) (event : Event) (write : Group → Group) : DbM ChanError Unit := do
  let db ← get
  if (db.group name).isSome then
    logged event (fun _ => .internal) (·.adjustGroup name write)
  else throw .noChannel

/-- Register a group, whose name starts with `!`. -/
def groupRegister (env : Env) (name founder : String) : DbM ChanError Unit := do
  let db ← get
  if name.toList.head? ≠ some '!' ∨ name.utf8ByteSize < 2 then throw .invalidPattern
  else if (db.group name).isSome then throw .exists
  else
    let home := db.log.origin
    logged (.groupRegistered name founder env.now home) (fun _ => .internal)
      (·.adjustNet fun n => { n with groups := n.groups ++ [⟨name, founder, env.now, home, []⟩] })

def groupDrop (name : String) : DbM ChanError Unit := do
  let db ← get
  if (db.group name).isSome then
    logged (.groupDropped name) (fun _ => .internal)
      (·.adjustNet fun n => { n with groups := n.groups.filter fun g => key g.name != key name })
  else throw .noChannel

/-- Put a member with its flags, replacing the entry it had. -/
def groupSetFlags (name account flags : String) : DbM ChanError Unit :=
  writeGroup name (.groupFlagsSet name account flags) fun g =>
    { g with members :=
        g.members.filter (fun m => !eqIgnoreAsciiCase m.account account) ++ [⟨account, flags⟩] }

/-- Remove a member. True if one was present. -/
def groupDelMember (name account : String) : DbM ChanError Bool := do
  let db ← get
  match db.group name with
  | none => throw .noChannel
  | some g =>
      if g.members.any fun m => eqIgnoreAsciiCase m.account account then do
        logged (.groupMemberDel name account) (fun _ => .internal)
          (·.adjustGroup name fun g =>
            { g with members := g.members.filter fun m => !eqIgnoreAsciiCase m.account account })
        return true
      else return false

def groupSetFounder (name founder : String) : DbM ChanError Unit :=
  writeGroup name (.groupFounderSet name founder) ({ · with founder })

/-! ### Session settings -/

/-- Enter or leave read-only lockdown. -/
def setReadonly (on : Bool) : StateM Db Unit :=
  modify fun db => { db with log := { db.log with readonly := on } }

def setEmailEnabled (on : Bool) : StateM Db Unit := modify ({ · with emailEnabled := on })

def setRegistrationVouch (on : Bool) : StateM Db Unit :=
  modify ({ · with registrationVouch := on })

end Db

end Echo
