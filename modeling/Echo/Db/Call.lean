import Echo.Db.Families

/-!
Every mutator of the store as one call, so that a run of the services is a list
of calls, and the two conditions under which a call keeps the records in step
with the log: `inStep`, which is about what the call writes, and `safe`, which
also asks that no write it depends on is refused.
-/

namespace Echo

open Echo.Lib

/-- A call of one mutator. -/
inductive Call where
  | registerPrepared (name : String) (creds : Credentials) (email : Option String)
  | provisionAccount (name scram256 scram512 : String) (email : Option String)
  | dropAccount (account : String)
  | setPubkey (account : String) (pubkey : Option String)
  | verifyAccount (account : String)
  | setEmail (account : String) (email : Option String)
  | setCredentials (account : String) (creds : Credentials)
  | certfpAdd (account fp : String)
  | certfpDel (account fp : String)
  | setGreet (account greet : String)
  | setLanguage (account : String) (language : Option String)
  | setSwhois (account : String) (text : Option String)
  | setSignore (account : String) (list : List String)
  | setProfile (account : String) (field : ProfileField) (value : Option String)
  | setAccountAutoop (account : String) (on : Bool)
  | setAccountKill (account : String) (on : Bool)
  | setAccountHideStatus (account : String) (on : Bool)
  | setAccountSnotice (account : String) (on : Bool)
  | ajoinAdd (account channel joinKey : String)
  | ajoinDel (account channel : String)
  | setVhost (account host setter : String) (ttl : Option Nat)
  | delVhost (account : String)
  | requestVhost (account host : String)
  | takeVhostRequest (account : String)
  | vhostOfferAdd (host : String)
  | vhostOfferDel (index : Nat)
  | vhostForbidAdd (pattern : String)
  | vhostForbidDel (index : Nat)
  | setVhostTemplate (template : Option String)
  | suspendAccount (account «by» reason : String) (expires : Option Nat)
  | unsuspendAccount (account : String)
  | setAccountNoexpire (account : String) (on : Bool)
  | markAccountSeen (account : String) (now : Nat)
  | markAccountWarned (account : String)
  | setAccountNote (account : String) (note : Option String)
  | memoSend (account sender text : String) (receipt : Bool)
  | memoRead (account : String) (index : Nat)
  | memoDel (account : String) (index : Nat)
  | memoCancel (account sender : String)
  | memoIgnoreAdd (account target : String)
  | memoIgnoreDel (account target : String)
  | setMemoNotify (account : String) (on : Bool)
  | setMemoLimit (account : String) (limit : Option Nat)
  | groupNick (nick account : String)
  | ungroupNick (nick : String)
  | registerChannel (name founder : String)
  | dropChannel (name : String)
  | renameChannel (old new : String)
  | setMlockParams (name on off : String) (params : List (Char × String))
  | accessAdd (channel account level : String)
  | accessDel (channel account : String)
  | akickAdd (channel mask reason : String)
  | akickDel (channel mask : String)
  | levelSet (channel cap role : String)
  | levelReset (channel cap : String)
  | setFounder (channel account : String)
  | setSuccessor (channel : String) (successor : Option String)
  | releaseFoundedChannels (account : String)
  | setDesc (channel desc : String)
  | setUrl (channel url : String)
  | setChannelEmail (channel email : String)
  | setEntrymsg (channel msg : String)
  | setChannelTopic (channel topic setter : String)
  | setChannelSetting (channel : String) (setting : ChanSetting) (on : Bool)
  | suspendChannel (channel «by» reason : String) (expires : Option Nat)
  | unsuspendChannel (channel : String)
  | setChannelNoexpire (channel : String) (on : Bool)
  | markChannelUsed (channel : String) (now : Nat)
  | markChannelWarned (channel : String)
  | setChannelNote (channel : String) (note : Option String)
  | setKicker (channel : String) (kicker : Kicker) (on : Bool)
  | setCapsKicker (channel : String) (capsMin capsPercent : Nat)
  | setFloodKicker (channel : String) (lines secs : Nat)
  | setRepeatKicker (channel : String) (times : Nat)
  | setTtb (channel : String) (ttb : Nat)
  | setBanExpire (channel : String) (secs : Nat)
  | setVotekick (channel : String) (votes : Nat)
  | badwordAdd (channel pattern : String)
  | badwordDel (channel pattern : String)
  | badwordClear (channel : String)
  | triggerAdd (channel pattern response : String) (cooldown : Nat)
  | triggerDel (channel : String) (index : Nat)
  | triggerClear (channel : String)
  | copyBotConfig (src dst : String)
  | botAdd (nick user host gecos : String)
  | botSetPrivate (nick : String) («private» : Bool)
  | botDelAll
  | botDel (nick : String)
  | botChange (old newNick user host gecos : String)
  | setDefaultBot (bot : Option String)
  | assignBot (channel bot : String)
  | unassignBot (channel : String)
  | akillAdd (kind : XlineKind) (mask setter reason : String) (expires : Option Nat)
  | akillDel (kind : XlineKind) (mask : String)
  | filterAdd (pattern action flags setter reason : String) (expires : Option Nat)
  | filterDel (pattern : String)
  | forbidAdd (kind : ForbidKind) (mask setter reason : String)
  | forbidDel (kind : ForbidKind) (mask : String)
  | notifyAdd (mask flags reason setter : String) (expires : Option Nat)
  | notifyDel (mask : String)
  | notifyClear
  | sessionExceptAdd (mask : String) (limit : Nat) (reason : String)
  | sessionExceptDel (mask : String)
  | operGrant (account : String) (privs : List String) (expires : Option Nat)
  | operRevoke (account : String)
  | newsAdd (kind : NewsKind) (text setter : String)
  | newsDel (id : Nat)
  | jupeAdd (name reason : String)
  | jupeDel (name : String)
  | persistStats (counters : Table Nat) (chanStats : ChanStats)
  | persistIncidents (seq : Nat) (incidents : List (String × Nat × String))
  | reportFile (reporter cooldownKey target reason : String)
  | reportClose (id : Nat)
  | reportDel (id : Nat)
  | helpRequest (requester cooldownKey message : String)
  | helpTake (id : Nat) (handler : String)
  | helpClose (id : Nat)
  | groupRegister (name founder : String)
  | groupDrop (name : String)
  | groupSetFlags (name account flags : String)
  | groupDelMember (name account : String)
  | groupSetFounder (name founder : String)
  | setReadonly (on : Bool)
  | setEmailEnabled (on : Bool)
  | setRegistrationVouch (on : Bool)

/-- Whether a name is taken: an account's, or a nick grouped to one. -/
def Store.Named (s : Store) (name : String) : Prop :=
  s.accounts.contains (key name) = true ∨ s.grouped.contains (key name) = true

theorem Store.getElem?_eq_none_of_not_named {s : Store} {name : String} (free : ¬ s.Named name) :
    s.accounts[key name]? = none := by
  by_cases held : s.accounts.contains (key name) = true
  · exact absurd (.inl held) free
  · rwa [Std.ExtTreeMap.contains_eq_isSome_getElem?, Bool.not_eq_true, Option.isSome_eq_false_iff,
      Option.isNone_iff_eq_none] at held

namespace Call

/-- Run a call for its effect on the store. -/
def run (env : Env) : Call → StateM Db Unit
  | .registerPrepared name creds email => Db.effect (Db.registerPrepared env name creds email)
  | .provisionAccount name scram256 scram512 email =>
      Db.effect (Db.provisionAccount env name scram256 scram512 email)
  | .dropAccount account => Db.effect (Db.dropAccount account)
  | .setPubkey account pubkey => Db.effect (Db.setPubkey env account pubkey)
  | .verifyAccount account => Db.effect (Db.verifyAccount account)
  | .setEmail account email => Db.effect (Db.setEmail account email)
  | .setCredentials account creds => Db.effect (Db.setCredentials account creds)
  | .certfpAdd account fp => Db.effect (Db.certfpAdd env account fp)
  | .certfpDel account fp => Db.effect (Db.certfpDel account fp)
  | .setGreet account greet => Db.effect (Db.setGreet account greet)
  | .setLanguage account language => Db.effect (Db.setLanguage account language)
  | .setSwhois account text => Db.effect (Db.setSwhois account text)
  | .setSignore account list => Db.effect (Db.setSignore account list)
  | .setProfile account field value => Db.effect (Db.setProfile account field value)
  | .setAccountAutoop account on => Db.effect (Db.setAccountAutoop account on)
  | .setAccountKill account on => Db.effect (Db.setAccountKill account on)
  | .setAccountHideStatus account on => Db.effect (Db.setAccountHideStatus account on)
  | .setAccountSnotice account on => Db.effect (Db.setAccountSnotice account on)
  | .ajoinAdd account channel joinKey => Db.effect (Db.ajoinAdd account channel joinKey)
  | .ajoinDel account channel => Db.effect (Db.ajoinDel account channel)
  | .setVhost account host setter ttl => Db.effect (Db.setVhost env account host setter ttl)
  | .delVhost account => Db.effect (Db.delVhost account)
  | .requestVhost account host => Db.effect (Db.requestVhost env account host)
  | .takeVhostRequest account => Db.effect (Db.takeVhostRequest account)
  | .vhostOfferAdd host => Db.effect (Db.vhostOfferAdd host)
  | .vhostOfferDel index => Db.effect (Db.vhostOfferDel index)
  | .vhostForbidAdd pattern => Db.effect (Db.vhostForbidAdd env pattern)
  | .vhostForbidDel index => Db.effect (Db.vhostForbidDel index)
  | .setVhostTemplate template => Db.effect (Db.setVhostTemplate template)
  | .suspendAccount account «by» reason expires =>
      Db.effect (Db.suspendAccount env account «by» reason expires)
  | .unsuspendAccount account => Db.effect (Db.unsuspendAccount account)
  | .setAccountNoexpire account on => Db.effect (Db.setAccountNoexpire account on)
  | .markAccountSeen account now => Db.markAccountSeen account now
  | .markAccountWarned account => Db.markAccountWarned account
  | .setAccountNote account note => do let _ ← Db.setAccountNote account note
  | .memoSend account sender text receipt => Db.effect (Db.memoSend env account sender text receipt)
  | .memoRead account index => do let _ ← Db.memoRead account index
  | .memoDel account index => do let _ ← Db.memoDel account index
  | .memoCancel account sender => do let _ ← Db.memoCancel account sender
  | .memoIgnoreAdd account target => do let _ ← Db.memoIgnoreAdd account target
  | .memoIgnoreDel account target => do let _ ← Db.memoIgnoreDel account target
  | .setMemoNotify account on => do let _ ← Db.setMemoNotify account on
  | .setMemoLimit account limit => do let _ ← Db.setMemoLimit account limit
  | .groupNick nick account => Db.effect (Db.groupNick nick account)
  | .ungroupNick nick => Db.effect (Db.ungroupNick nick)
  | .registerChannel name founder => Db.effect (Db.registerChannel env name founder)
  | .dropChannel name => Db.effect (Db.dropChannel name)
  | .renameChannel old new => Db.effect (Db.renameChannel old new)
  | .setMlockParams name on off params => Db.effect (Db.setMlockParams name on off params)
  | .accessAdd channel account level => Db.effect (Db.accessAdd channel account level)
  | .accessDel channel account => Db.effect (Db.accessDel channel account)
  | .akickAdd channel mask reason => Db.effect (Db.akickAdd channel mask reason)
  | .akickDel channel mask => Db.effect (Db.akickDel channel mask)
  | .levelSet channel cap role => Db.effect (Db.levelSet channel cap role)
  | .levelReset channel cap => Db.effect (Db.levelReset channel cap)
  | .setFounder channel account => Db.effect (Db.setFounder channel account)
  | .setSuccessor channel successor => Db.effect (Db.setSuccessor channel successor)
  | .releaseFoundedChannels account => do let _ ← Db.releaseFoundedChannels env account
  | .setDesc channel desc => Db.effect (Db.setDesc channel desc)
  | .setUrl channel url => Db.effect (Db.setUrl channel url)
  | .setChannelEmail channel email => Db.effect (Db.setChannelEmail channel email)
  | .setEntrymsg channel msg => Db.effect (Db.setEntrymsg channel msg)
  | .setChannelTopic channel topic setter => Db.effect (Db.setChannelTopic channel topic setter)
  | .setChannelSetting channel setting on => Db.effect (Db.setChannelSetting channel setting on)
  | .suspendChannel channel «by» reason expires =>
      Db.effect (Db.suspendChannel env channel «by» reason expires)
  | .unsuspendChannel channel => Db.effect (Db.unsuspendChannel channel)
  | .setChannelNoexpire channel on => Db.effect (Db.setChannelNoexpire channel on)
  | .markChannelUsed channel now => Db.markChannelUsed channel now
  | .markChannelWarned channel => Db.markChannelWarned channel
  | .setChannelNote channel note => do let _ ← Db.setChannelNote channel note
  | .setKicker channel kicker on => Db.effect (Db.setKicker channel kicker on)
  | .setCapsKicker channel capsMin capsPercent =>
      Db.effect (Db.setCapsKicker channel capsMin capsPercent)
  | .setFloodKicker channel lines secs => Db.effect (Db.setFloodKicker channel lines secs)
  | .setRepeatKicker channel times => Db.effect (Db.setRepeatKicker channel times)
  | .setTtb channel ttb => Db.effect (Db.setTtb channel ttb)
  | .setBanExpire channel secs => Db.effect (Db.setBanExpire channel secs)
  | .setVotekick channel votes => Db.effect (Db.setVotekick channel votes)
  | .badwordAdd channel pattern => Db.effect (Db.badwordAdd env channel pattern)
  | .badwordDel channel pattern => Db.effect (Db.badwordDel channel pattern)
  | .badwordClear channel => Db.effect (Db.badwordClear channel)
  | .triggerAdd channel pattern response cooldown =>
      Db.effect (Db.triggerAdd env channel pattern response cooldown)
  | .triggerDel channel index => Db.effect (Db.triggerDel channel index)
  | .triggerClear channel => Db.effect (Db.triggerClear channel)
  | .copyBotConfig src dst => Db.effect (Db.copyBotConfig src dst)
  | .botAdd nick user host gecos => Db.effect (Db.botAdd nick user host gecos)
  | .botSetPrivate nick «private» => Db.effect (Db.botSetPrivate nick «private»)
  | .botDelAll => Db.effect (Db.botDelAll env)
  | .botDel nick => Db.effect (Db.botDel nick)
  | .botChange old newNick user host gecos =>
      Db.effect (Db.botChange env old newNick user host gecos)
  | .setDefaultBot bot => Db.effect (Db.setDefaultBot bot)
  | .assignBot channel bot => Db.effect (Db.assignBot channel bot)
  | .unassignBot channel => Db.effect (Db.unassignBot channel)
  | .akillAdd kind mask setter reason expires =>
      Db.effect (Db.akillAdd env kind mask setter reason expires)
  | .akillDel kind mask => Db.effect (Db.akillDel env kind mask)
  | .filterAdd pattern action flags setter reason expires =>
      Db.effect (Db.filterAdd env pattern action flags setter reason expires)
  | .filterDel pattern => Db.effect (Db.filterDel env pattern)
  | .forbidAdd kind mask setter reason => Db.effect (Db.forbidAdd env kind mask setter reason)
  | .forbidDel kind mask => Db.effect (Db.forbidDel kind mask)
  | .notifyAdd mask flags reason setter expires =>
      Db.effect (Db.notifyAdd env mask flags reason setter expires)
  | .notifyDel mask => Db.effect (Db.notifyDel mask)
  | .notifyClear => Db.effect Db.notifyClear
  | .sessionExceptAdd mask limit reason => Db.sessionExceptAdd mask limit reason
  | .sessionExceptDel mask => do let _ ← Db.sessionExceptDel mask
  | .operGrant account privs expires => Db.operGrant account privs expires
  | .operRevoke account => do let _ ← Db.operRevoke account
  | .newsAdd kind text setter => do let _ ← Db.newsAdd env kind text setter
  | .newsDel id => do let _ ← Db.newsDel id
  | .jupeAdd name reason => do let _ ← Db.jupeAdd name reason
  | .jupeDel name => do let _ ← Db.jupeDel name
  | .persistStats counters chanStats => Db.effect (Db.persistStats counters chanStats)
  | .persistIncidents seq incidents => Db.effect (Db.persistIncidents seq incidents)
  | .reportFile reporter cooldownKey target reason => do
      let _ ← Db.reportFile env reporter cooldownKey target reason
  | .reportClose id => do let _ ← Db.reportClose id
  | .reportDel id => do let _ ← Db.reportDel id
  | .helpRequest requester cooldownKey message => do
      let _ ← Db.helpRequest env requester cooldownKey message
  | .helpTake id handler => do let _ ← Db.helpTake id handler
  | .helpClose id => do let _ ← Db.helpClose id
  | .groupRegister name founder => Db.effect (Db.groupRegister env name founder)
  | .groupDrop name => Db.effect (Db.groupDrop name)
  | .groupSetFlags name account flags => Db.effect (Db.groupSetFlags name account flags)
  | .groupDelMember name account => Db.effect (Db.groupDelMember name account)
  | .groupSetFounder name founder => Db.effect (Db.groupSetFounder name founder)
  | .setReadonly on => Db.setReadonly on
  | .setEmailEnabled on => Db.setEmailEnabled on
  | .setRegistrationVouch on => Db.setRegistrationVouch on

/-- The event a call is about to write whose failure it would ignore, if its
guards let it get that far. -/
def offers (env : Env) (db : Db) : Call → Option Event
  | .markAccountSeen account now =>
      (db.accounts[key account]?.filter fun a => now - max a.lastSeen a.ts ≥ coalesce).map
        fun _ => .accountSeen account now
  | .markAccountWarned account =>
      db.accounts[key account]?.map fun _ => .accountExpiryWarned account
  | .setAccountNote account note =>
      db.accounts[key account]?.map fun _ => .accountOperNoteSet account note
  | .memoRead account index =>
      (db.accounts[key account]?.filter fun a => (a.memos[index]?).any (!·.read)).map
        fun _ => .memoRead account index
  | .memoDel account index =>
      (db.accounts[key account]?.filter fun a => index < a.memos.length).map
        fun _ => .memoDeleted account index
  | .memoCancel account sender =>
      ((db.accounts[key account]?).bind fun a => Db.lastUnread sender a.memos).map
        fun i => .memoDeleted account i
  | .memoIgnoreAdd account target =>
      (db.accounts[key account]?.filter fun a =>
        !a.memoIgnore.any fun t => eqIgnoreAsciiCase t target).map
        fun _ => .memoIgnoreAdd account target
  | .memoIgnoreDel account target =>
      (db.accounts[key account]?.filter fun a =>
        a.memoIgnore.any fun t => eqIgnoreAsciiCase t target).map
        fun _ => .memoIgnoreDel account target
  | .setMemoNotify account on =>
      db.accounts[key account]?.map fun a => .memoPrefsSet account on a.memoLimit
  | .setMemoLimit account limit =>
      db.accounts[key account]?.map fun a => .memoPrefsSet account a.memoNotify limit
  | .markChannelUsed channel now =>
      (db.channels[key channel]?.filter fun c => now - max c.lastUsed c.ts ≥ coalesce).map
        fun _ => .channelUsed channel now
  | .markChannelWarned channel =>
      db.channels[key channel]?.map fun _ => .channelExpiryWarned channel
  | .setChannelNote channel note =>
      db.channels[key channel]?.map fun _ => .channelOperNoteSet channel note
  | .sessionExceptAdd mask limit reason => some (.sessionExceptionAdded mask limit reason)
  | .sessionExceptDel mask =>
      if db.net.sessExceptions.any fun e => eqIgnoreAsciiCase e.mask mask then
        some (.sessionExceptionRemoved mask)
      else none
  | .operGrant account privs expires => some (.operGranted account privs expires)
  | .operRevoke account =>
      if db.net.opers.contains (key account) then some (.operRevoked account) else none
  | .newsAdd kind text setter => some (.newsAdded db.net.newsSeq kind.wire text setter env.now)
  | .newsDel id => if db.net.news.any fun x => x.id == id then some (.newsDeleted id) else none
  | .jupeAdd name reason =>
      if db.net.jupes.any fun j => eqIgnoreAsciiCase j.name name then none
      else some (.jupeAdded name (jupeSid db.net.jupeSeq) reason)
  | .jupeDel name =>
      if db.net.jupes.any fun j => eqIgnoreAsciiCase j.name name then some (.jupeRemoved name)
      else none
  | .reportFile reporter cooldownKey target reason =>
      if db.filedRecently env (toAsciiLowercase cooldownKey) then none
      else some (.reportFiled db.net.reportSeq reporter target reason env.now)
  | .reportClose id =>
      if db.net.reports.any fun r => r.id == id && r.open then some (.reportClosed id) else none
  | .reportDel id =>
      if db.net.reports.any fun r => r.id == id then some (.reportDeleted id) else none
  | .helpRequest requester cooldownKey message =>
      if db.filedRecently env (Db.helpThrottle cooldownKey) then none
      else some (.helpRequested db.net.helpSeq requester message env.now)
  | .helpTake id handler =>
      if db.net.help.any fun t => t.id == id && t.open then some (.helpTaken id handler) else none
  | .helpClose id =>
      if db.net.help.any fun t => t.id == id && t.open then some (.helpClosed id) else none
  | _ => none

/-- Whether the fold of what a call logs is what the call writes: the mailbox it
sends to has room, the bot it removes is not the default one, the queue it files
to need not drop an entry. -/
def inStep (env : Env) (db : Db) (c : Call) : Prop :=
  match c with
  | .memoSend account .. => ∀ a ∈ db.accounts[key account]?, a.memos.length < a.memoCap
  | .botDel nick => db.bots.contains (key nick) → db.net.defaultBot ≠ some (key nick)
  | .botDelAll => ∀ k ∈ db.net.defaultBot, db.bots.contains k = false
  | .botChange old newNick .. =>
      db.bots.contains (key old) → key old ≠ key newNick →
        db.bots.contains (key newNick) = false → db.net.defaultBot ≠ some (key old)
  | .reportFile .. => (c.offers env db).isSome → db.net.reports.length < maxQueue
  | .helpRequest .. => (c.offers env db).isSome → db.net.help.length < maxQueue
  | _ => True

/-- Whether a call stays in step although writes may be refused. One whose only
append may end it is safe as far as `inStep`; one that ignores a refusal needs
its write to succeed or to change nothing; `botDelAll` and `notifyClear` need
all their writes, or to be refused at the first. -/
def safe (env : Env) (db : Db) (c : Call) : Prop :=
  match c with
  | .memoSend .. | .botDel .. | .botChange .. => db.log.writable = true → c.inStep env db
  | .botDelAll =>
      db.log.writable = true → db.bots ≠ ∅ →
        db.log.writableFor db.bots.toList.length = true ∧ c.inStep env db
  | .notifyClear =>
      db.log.writable = true → db.net.notifies ≠ [] →
        db.log.writableFor db.net.notifies.length = true
  | .reportFile .. | .helpRequest .. =>
      c.inStep env db ∧ ((c.offers env db).isSome → db.log.writable = true)
  | c =>
      ∀ event ∈ c.offers env db,
        db.log.writable = true ∨ apply db.toStore event = db.toStore

/-- A call that registers an account under a name, with an e-mail address. -/
def registers (c : Call) (name : String) (email : Option String) : Prop :=
  (∃ creds, c = .registerPrepared name creds email) ∨
    ∃ scram256 scram512, c = .provisionAccount name scram256 scram512 email

/-- The account whose password a call sets. -/
def rekeys : Call → Option String
  | .setCredentials account _ | .provisionAccount account .. => some account
  | _ => none

/-- What the guards of a call have checked of the records when it logs an event
of one of these kinds. Of any other event they say nothing. -/
def permits (c : Call) (s : Store) : Event → Prop
  | .accountRegistered a =>
      ¬ s.Named a.name ∧ ∃ email, c.registers a.name email ∧
        ∃ ts home scram256 scram512 verified,
          a = freshAccount a.name email ts home scram256 scram512 verified
  | .accountDropped account => c = .dropAccount account
  | .accountPasswordSet account .. => c.rekeys = some account
  | .accountPubkeySet account _ => ∃ pubkey, c = .setPubkey account pubkey
  | .accountSuspended account .. => ∃ setter reason expires, c = .suspendAccount account setter reason expires
  | .certAdded account fp =>
      (∃ given, c = .certfpAdd account given ∧ fp = toAsciiLowercase given) ∧
        ∀ (k : String) a, s.accounts[k]? = some a → fp ∉ a.certfps
  | .nickGrouped nick account =>
      c = .groupNick nick account ∧ s.accounts.contains (key account) = true
  | .nickUngrouped nick => c = .ungroupNick nick
  | .channelRegistered name founder _ => c = .registerChannel name founder
  | .channelRenamed old new => c = .renameChannel old new
  | .channelFounderSet channel founder =>
      c = .setFounder channel founder ∨
        ∃ account, c = .releaseFoundedChannels account ∧
          (s.channels[key channel]?).bind (·.successor) = some founder ∧
          eqIgnoreAsciiCase founder account = false ∧ s.Named founder
  | .channelSuccessorSet channel successor =>
      c = .setSuccessor channel successor ∨ successor = none
  | .channelAccessAdd channel account level => c = .accessAdd channel account level
  | .groupRegistered name founder .. => c = .groupRegister name founder
  | .groupFounderSet name founder => c = .groupSetFounder name founder
  | .groupFlagsSet name account flags => c = .groupSetFlags name account flags
  | .operGranted account privs expires => c = .operGrant account privs expires
  | _ => True

end Call

end Echo
