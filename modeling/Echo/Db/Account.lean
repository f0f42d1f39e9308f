import Echo.Db.Base

/-!
The account mutators (`account.rs`, the memo half of `channel.rs` and the alias
half of `mod.rs`).

Most of them require the account, log one event and write one field; they are
`writeAccount` or `changeAccount` at their own event and field. The ones that
ignore a failed write are `quietAccount` at theirs.
-/

namespace Echo

open Echo.Lib

/-- The password-derived half of an account. Derivation never yields an empty
verifier, unlike a backfill from an external authority. -/
structure Credentials where
  scram256 : String
  scram512 : String
  derived : scram512.isEmpty = false

/-- The account a registration commits: every other field at its default. -/
def freshAccount (name : String) (email : Option String) (ts : Nat) (home : String)
    (scram256 : String) (scram512 : Option String) (verified : Bool) : Account where
  name
  email
  ts
  home
  scram256 := some scram256
  scram512
  certfps := []
  pubkey := none
  verified
  ajoin := []
  suspension := none
  memos := []
  memoIgnore := []
  memoNotify := true
  memoLimit := none
  greet := ""
  noAutoop := false
  noProtect := false
  hideStatus := false
  snotice := false
  language := none
  profile := {}
  vhost := none
  vhostRequest := none
  lastSeen := ts
  noexpire := false
  expiryWarned := false
  operNote := none
  swhois := none
  signore := []

/-- A fingerprint is hex, optionally colon-separated, of a bounded length. -/
def validFp (fp : String) : Bool :=
  let hex := (fp.toList.filter (· != ':')).length
  decide (32 ≤ hex ∧ hex ≤ 128) &&
    fp.toList.all fun c => c.isDigit || ('a' ≤ c && c ≤ 'f') || ('A' ≤ c && c ≤ 'F') || c == ':'

/-- The most fingerprints one account may list. -/
def maxCertfp : Nat := 25

/-- Activity stamps are logged at most once in this many seconds. -/
def coalesce : Nat := 86400

namespace Db

/-! ### Families -/

/-- Require the account, log the event, write the account. -/
def writeAccount (account : String) (event : Event) (write : Account → Account) :
    DbM RegError Unit := do
  let db ← get
  if db.accounts.contains (key account) then
    logged event (fun _ => .internal) (·.adjustAccount account write)
  else throw .internal

/-- Require the account; if it is `pending`, log the event and write it. -/
def changeAccount {ε : Type} (missing internal : ε) (account : String) (pending : Account → Bool)
    (event : Event) (write : Account → Account) : DbM ε Bool := do
  let db ← get
  match db.accounts[key account]? with
  | none => throw missing
  | some a =>
      if pending a then do
        logged event (fun _ => internal) (·.adjustAccount account write)
        return true
      else return false

/-- Like `changeAccount`, but with the write to the log ignored. -/
def quietAccount (account : String) (pending : Account → Bool) (event : Account → Event)
    (write : Account → Account) : StateM Db Bool := do
  let db ← get
  match db.accounts[key account]? with
  | none => return false
  | some a =>
      if pending a then do
        quietly (event a) (·.adjustAccount account write)
        return true
      else return false

/-! ### Registration -/

/-- Commit an account under a name nobody holds. -/
def commitAccount (account : Account) : DbM RegError Unit :=
  logged (.accountRegistered account) (fun _ => .internal) fun s =>
    { s with accounts := s.accounts.insert (key account.name) account }

/-- Commit pre-derived credentials as a new account. -/
def registerPrepared (env : Env) (name : String) (creds : Credentials) (email : Option String) :
    DbM RegError Unit := do
  let db ← get
  if db.exists name then throw .exists
  else
    let verified := !(db.registrationVouch || (db.emailEnabled && email.isSome))
    commitAccount
      (freshAccount name email env.now db.log.origin creds.scram256 (some creds.scram512) verified)

/-- A verifier's text, where empty means "not provided". -/
def provided (scram512 : String) : Option String :=
  if scram512.isEmpty then none else some scram512

/-- Provision an account from verifiers an external authority asserts. One that
exists has its verifiers set in place. -/
def provisionAccount (env : Env) (name scram256 scram512 : String) (email : Option String) :
    DbM RegError Unit := do
  if name.isEmpty || scram256.isEmpty then throw .internal
  else
    let db ← get
    if db.exists name then
      logged (.accountPasswordSet name scram256 scram512) (fun _ => .internal)
        (·.adjustAccount name fun a =>
          { a with scram256 := some scram256, scram512 := provided scram512 })
    else
      commitAccount
        (freshAccount name email env.now db.log.origin scram256 (provided scram512) true)

/-- Delete an account and every reference to it. False if it was not registered. -/
def dropAccount (account : String) : DbM RegError Bool := do
  let db ← get
  if db.accounts.contains (key account) then do
    logged (.accountDropped account) (fun _ => .internal) fun s =>
      Store.purgeAccountRefs { s with accounts := s.accounts.erase (key account) } account
    return true
  else return false

/-! ### Credentials and identity -/

def setPubkey (env : Env) (account : String) (pubkey : Option String) : DbM RegError Unit := do
  let db ← get
  if db.accounts.contains (key account) then
    match pubkey with
    | none => writeAccount account (.accountPubkeySet account none) ({ · with pubkey := none })
    | some raw =>
        match env.validatePubkey raw with
        | none => throw .invalid
        | some valid =>
            writeAccount account (.accountPubkeySet account (some valid))
              ({ · with pubkey := some valid })
  else throw .internal

/-- Mark the account's email confirmed. -/
def verifyAccount (account : String) : DbM RegError Unit :=
  writeAccount account (.accountVerified account) ({ · with verified := true })

def setEmail (account : String) (email : Option String) : DbM RegError Unit :=
  writeAccount account (.accountEmailSet account email) ({ · with email })

/-- Replace the account's password with freshly derived credentials. -/
def setCredentials (account : String) (creds : Credentials) : DbM RegError Unit :=
  writeAccount account (.accountPasswordSet account creds.scram256 creds.scram512)
    ({ · with scram256 := some creds.scram256, scram512 := some creds.scram512 })

/-- The canonical name of an account owning a fingerprint, if any. -/
def certfpOwner (env : Env) (db : Db) (fp : String) : Option String :=
  ((env.values db.accounts).find? fun a => a.certfps.contains (toAsciiLowercase fp)).map (·.name)

/-- Register a fingerprint to the account. -/
def certfpAdd (env : Env) (account fp : String) : DbM CertError Unit := do
  let fp := toAsciiLowercase fp
  let db ← get
  if !validFp fp then throw .invalid
  else if (db.certfpOwner env fp).isSome then throw .inUse
  else
    match db.accounts[key account]? with
    | none => throw .noAccount
    | some acct =>
        if acct.certfps.length ≥ maxCertfp then throw .full
        else
          logged (.certAdded account fp) (fun _ => .internal)
            (·.adjustAccount account fun a => { a with certfps := a.certfps ++ [fp] })

/-- Remove a fingerprint. False if the account had no such one. -/
def certfpDel (account fp : String) : DbM CertError Bool :=
  let fp := toAsciiLowercase fp
  changeAccount .noAccount .internal account (·.certfps.contains fp) (.certRemoved account fp)
    fun a => { a with certfps := a.certfps.filter (· != fp) }

/-! ### Preferences -/

def setGreet (account greet : String) : DbM RegError Unit :=
  writeAccount account (.accountGreetSet account greet) ({ · with greet })

def setLanguage (account : String) (language : Option String) : DbM RegError Unit :=
  writeAccount account (.accountLanguageSet account language) ({ · with language })

def setSwhois (account : String) (text : Option String) : DbM RegError Unit :=
  writeAccount account (.accountSwhoisSet account text) ({ · with swhois := text })

def setSignore (account : String) (list : List String) : DbM RegError Unit :=
  writeAccount account (.accountSignoreSet account list) ({ · with signore := list })

def setProfile (account : String) (field : ProfileField) (value : Option String) :
    DbM RegError Unit :=
  writeAccount account (.accountProfileSet account field.metaKey value)
    fun a => { a with profile := a.profile.set field value }

def setAccountAutoop (account : String) (on : Bool) : DbM RegError Unit :=
  writeAccount account (.accountAutoOpSet account on) ({ · with noAutoop := !on })

def setAccountKill (account : String) (on : Bool) : DbM RegError Unit :=
  writeAccount account (.accountKillSet account on) ({ · with noProtect := !on })

def setAccountHideStatus (account : String) (on : Bool) : DbM RegError Unit :=
  writeAccount account (.accountHideStatusSet account on) ({ · with hideStatus := on })

def setAccountSnotice (account : String) (on : Bool) : DbM RegError Unit :=
  writeAccount account (.accountSnoticeSet account on) ({ · with snotice := on })

/-- Add a channel to the auto-join list, or update its key. True if it is new. -/
def ajoinAdd (account channel joinKey : String) : DbM RegError Bool := do
  let db ← get
  match db.accounts[key account]? with
  | none => throw .internal
  | some a =>
      let existed := a.ajoin.any fun e => eqIgnoreAsciiCase e.channel channel
      logged (.ajoinAdded account channel joinKey) (fun _ => .internal)
        (·.adjustAccount account fun a =>
          { a with ajoin :=
              a.ajoin.filter (fun e => !eqIgnoreAsciiCase e.channel channel) ++
                [⟨channel, joinKey⟩] })
      return !existed

def ajoinDel (account channel : String) : DbM RegError Bool :=
  changeAccount .internal .internal account
    (fun a => a.ajoin.any fun e => eqIgnoreAsciiCase e.channel channel)
    (.ajoinRemoved account channel)
    fun a => { a with ajoin := a.ajoin.filter fun e => !eqIgnoreAsciiCase e.channel channel }

/-! ### Vhosts -/

/-- Assign a vhost, for `ttl` seconds or for good. -/
def setVhost (env : Env) (account host setter : String) (ttl : Option Nat) : DbM RegError Unit :=
  let ts := env.now
  let expires := ttl.map (expiryAfter ts)
  writeAccount account (.vhostSet account host setter ts expires)
    ({ · with vhost := some ⟨host, setter, ts, expires⟩ })

def delVhost (account : String) : DbM RegError Bool :=
  changeAccount .internal .internal account (·.vhost.isSome) (.vhostDeleted account)
    ({ · with vhost := none })

/-- Record a pending vhost request and when it was made. -/
def requestVhost (env : Env) (account host : String) : DbM RegError Unit := do
  writeAccount account (.vhostRequested account host env.now)
    ({ · with vhostRequest := some ⟨host, env.now⟩ })
  modify fun db =>
    { db with vhostReqTimes := db.vhostReqTimes.insert (key account) env.now }

/-- Clear a pending vhost request; the host it asked for, if there was one. -/
def takeVhostRequest (account : String) : DbM RegError (Option String) := do
  let db ← get
  match db.accounts[key account]? with
  | none => throw .internal
  | some a =>
      match a.vhostRequest with
      | none => return none
      | some r =>
          logged (.vhostRequestCleared account) (fun _ => .internal)
            (·.adjustAccount account ({ · with vhostRequest := none }))
          return some r.host

/-- Add to one of HostServ's lists unless the entry is already there. -/
def hostListAdd (listOf : HostConfig → List String) (entry : String) (event : Event)
    (write : HostConfig → HostConfig) : DbM RegError Bool := do
  let db ← get
  if (listOf db.hostCfg).any (· == entry) then return false
  else do
    logged event (fun _ => .internal) (·.adjustHost write)
    return true

/-- Remove the entry at a 1-based index of one of HostServ's lists. -/
def hostListDel (listOf : HostConfig → List String) (index : Nat) (event : String → Event)
    (write : String → HostConfig → HostConfig) : DbM RegError (Option String) := do
  let db ← get
  match index with
  | 0 => return none
  | i + 1 =>
      match (listOf db.hostCfg)[i]? with
      | none => return none
      | some entry =>
          logged (event entry) (fun _ => .internal) (·.adjustHost (write entry))
          return some entry

def vhostOfferAdd (host : String) : DbM RegError Bool :=
  hostListAdd (·.offers) host (.vhostOfferAdded host) fun h => { h with offers := h.offers ++ [host] }

def vhostOfferDel (index : Nat) : DbM RegError (Option String) :=
  hostListDel (·.offers) index .vhostOfferRemoved
    fun host h => { h with offers := h.offers.filter (· != host) }

/-- Add a forbidden vhost pattern, if it compiles. -/
def vhostForbidAdd (env : Env) (pattern : String) : DbM RegError Bool := do
  if !env.regexCompiles pattern then throw .internal
  else
    hostListAdd (·.forbidden) pattern (.vhostForbidAdded pattern)
      fun h => { h with forbidden := h.forbidden ++ [pattern] }

def vhostForbidDel (index : Nat) : DbM RegError (Option String) :=
  hostListDel (·.forbidden) index .vhostForbidRemoved
    fun pattern h => { h with forbidden := h.forbidden.filter (· != pattern) }

def setVhostTemplate (template : Option String) : DbM RegError Unit :=
  logged (.vhostTemplateSet template) (fun _ => .internal) (·.adjustHost ({ · with template }))

/-! ### Suspension, expiry and staff notes -/

/-- Suspend an account, until `expires` or until lifted. -/
def suspendAccount (env : Env) (account «by» reason : String) (expires : Option Nat) :
    DbM RegError Unit :=
  writeAccount account (.accountSuspended account «by» reason env.now expires)
    ({ · with suspension := some ⟨«by», reason, env.now, expires⟩ })

def unsuspendAccount (account : String) : DbM RegError Bool :=
  changeAccount .internal .internal account (·.suspension.isSome) (.accountUnsuspended account)
    ({ · with suspension := none })

/-- Pin or unpin an account against expiry. True if the flag changed. -/
def setAccountNoexpire (account : String) (on : Bool) : DbM RegError Bool :=
  changeAccount .internal .internal account (·.noexpire != on) (.accountNoExpire account on)
    ({ · with noexpire := on })

/-- Stamp an account as active, at most once a day. -/
def markAccountSeen (account : String) (now : Nat) : StateM Db Unit := do
  let _ ← quietAccount account (fun a => now - max a.lastSeen a.ts ≥ coalesce)
    (fun _ => .accountSeen account now)
    fun a => { a with lastSeen := max a.lastSeen now, expiryWarned := false }

/-- Record that an account has been warned about expiry. -/
def markAccountWarned (account : String) : StateM Db Unit := do
  let _ ← quietAccount account (fun _ => true) (fun _ => .accountExpiryWarned account)
    ({ · with expiryWarned := true })

def setAccountNote (account : String) (note : Option String) : StateM Db Bool :=
  quietAccount account (fun _ => true) (fun _ => .accountOperNoteSet account note)
    ({ · with operNote := note })

/-! ### Memos -/

/-- Append a memo to an account's mailbox. The mailbox's limit is the caller's
to check. -/
def memoSend (env : Env) (account sender text : String) (receipt : Bool) : DbM RegError Unit :=
  writeAccount account (.memoSent account sender text env.now receipt)
    fun a => { a with memos := a.memos ++ [⟨sender, text, env.now, false, receipt⟩] }

/-- Read one memo, marking it read. -/
def memoRead (account : String) (index : Nat) : StateM Db (Option Memo) := do
  let db ← get
  let view := (db.accounts[key account]?).bind (·.memos[index]?)
  let _ ← quietAccount account (fun a => (a.memos[index]?).any (!·.read))
    (fun _ => .memoRead account index)
    fun a => { a with memos := a.memos.modify index fun m => { m with read := true } }
  return view

/-- Delete one memo. True if it existed. -/
def memoDel (account : String) (index : Nat) : StateM Db Bool :=
  quietAccount account (fun a => index < a.memos.length) (fun _ => .memoDeleted account index)
    fun a => { a with memos := a.memos.eraseIdx index }

/-- The position of the last unread memo a sender left. -/
def lastUnread (sender : String) (memos : List Memo) : Option Nat :=
  ((memos.zipIdx.reverse).find? fun (m, _) => !m.read && eqIgnoreAsciiCase m.sender sender).map
    Prod.snd

/-- Recall the most recent unread memo `sender` left. True if there was one. -/
def memoCancel (account sender : String) : StateM Db Bool := do
  let db ← get
  match (db.accounts[key account]?).bind fun a => lastUnread sender a.memos with
  | some i => memoDel account i
  | none => return false

def memoIgnoreAdd (account target : String) : StateM Db Bool :=
  quietAccount account (fun a => !a.memoIgnore.any fun t => eqIgnoreAsciiCase t target)
    (fun _ => .memoIgnoreAdd account target)
    fun a => { a with memoIgnore := a.memoIgnore ++ [target] }

def memoIgnoreDel (account target : String) : StateM Db Bool :=
  quietAccount account (fun a => a.memoIgnore.any fun t => eqIgnoreAsciiCase t target)
    (fun _ => .memoIgnoreDel account target)
    fun a => { a with memoIgnore := a.memoIgnore.filter fun t => !eqIgnoreAsciiCase t target }

def setMemoNotify (account : String) (on : Bool) : StateM Db Bool :=
  quietAccount account (fun _ => true) (fun a => .memoPrefsSet account on a.memoLimit)
    ({ · with memoNotify := on })

def setMemoLimit (account : String) (limit : Option Nat) : StateM Db Bool :=
  quietAccount account (fun _ => true) (fun a => .memoPrefsSet account a.memoNotify limit)
    ({ · with memoLimit := limit })

/-! ### Aliases -/

/-- Group a nick to an existing account. -/
def groupNick (nick account : String) : DbM RegError Unit := do
  let db ← get
  if db.accounts.contains (key account) then
    logged (.nickGrouped nick account) (fun _ => .internal) fun s =>
      { s with grouped := s.grouped.insert (key nick) account }
  else throw .internal

/-- Remove a grouped nick. False if it was not grouped. -/
def ungroupNick (nick : String) : DbM RegError Bool := do
  let db ← get
  if db.grouped.contains (key nick) then do
    logged (.nickUngrouped nick) (fun _ => .internal) fun s =>
      { s with grouped := s.grouped.erase (key nick) }
    return true
  else return false

end Db

end Echo
