import Echo.Db.Codes
import Echo.Engine.Text

/-!
How an account comes to be registered. NickServ's REGISTER and SAREGISTER and the
account-registration relay hand a request to the link layer, which runs a
pre-check, derives the password off the engine's lock and then completes the
registration; the provider API does the same in two calls of its own, and
provisions accounts in one. Anything may happen to the engine in between.
-/

namespace Echo

open Std (ExtTreeMap)
open Echo.Lib

/-! ### The engine -/

/-- Who asked for a registration, and where the answer goes. -/
inductive RegReply where
  | relay (reqid kind origin : String)
  | nickServ (agent uid nick : String)
  | admin (agent uid : String)

/-- A registration handed to the link layer. -/
structure DeferRegister where
  account : String
  password : String
  email : Option String
  reply : RegReply

/-- The policy a registration is checked against. -/
structure Policy where
  frozen : Bool
  forbids : List Forbid
  confusableCheck : Bool

/-- A request, with the policy at the time it was made. -/
structure Asked extends DeferRegister where
  asked : Policy

/-- A request that passed the pre-check, with the policy at that time. -/
structure Checked extends Asked where
  checked : Policy

/-- A registration by the provider that passed its pre-check, with the policy at
that time. -/
structure ProviderChecked where
  name : String
  email : Option String
  checked : Policy

/-- What of the engine has a part in registrations. -/
structure Engine extends Session where
  defcon : Nat := 5
  externalAccounts : Bool := false
  confusableCheck : Bool := true
  asked : List Asked := []
  checked : List Checked := []
  providerChecked : List ProviderChecked := []

inductive RegOutcome where
  | ok | verifyRequired | forbidden | forbiddenEmail | «exists» | rateLimited | frozen | external
  | internal
  deriving DecidableEq, Repr

inductive AuthorityStatus where
  | ok | alreadyExists | notFound | rateLimited | invalid | internal
  deriving DecidableEq, Repr

namespace Policy

variable (u : Unicode) (p : Policy)

/-- The reason a name is forbidden for a kind of registration, if it is. -/
def isForbidden (kind : ForbidKind) (name : String) : Option String :=
  (p.forbids.find? fun f => f.kind == kind.wire && globMatch u f.mask name).map (·.reason)

/-- Why a name is refused as a look-alike, while that guard is on. -/
def lookalike (name : String) : Option String :=
  if p.confusableCheck then confusableReason u name else none

end Policy

namespace Engine

variable (u : Unicode)

def fresh (origin : String) : Engine := { toSession := .fresh origin }

/-- Whether new registrations are frozen. -/
def registrationsFrozen (e : Engine) : Bool := decide (e.defcon ≤ 3)

def policy (e : Engine) : Policy where
  frozen := e.registrationsFrozen
  forbids := e.db.net.forbids
  confusableCheck := e.confusableCheck

/-- Run a call of the store. -/
def withDb {ε α : Type} (e : Engine) (call : DbM ε α) : Engine × Except ε α :=
  ({ e with db := (call.run.run e.db).2 }, (call.run.run e.db).1)

/-- Whether an account is verified. One that does not exist needs no verifying. -/
def isVerified (e : Engine) (account : String) : Bool :=
  (e.db.accounts[key account]?).all (·.verified)

/-! ### NickServ -/

/-- Why a password is refused for the account it would protect, if it is. -/
def validatePassword (password owner : String) : Option String :=
  if password.length < 8 then
    some "That password is too short — please use at least 8 characters."
  else if password.utf8ByteSize > 300 then some "That password is too long."
  else if eqIgnoreAsciiCase password owner then
    some "Your password can't be the same as your nick. Please choose another."
  else none

/-- What NickServ says to a command that the website answers for. -/
def managedElsewhere : String :=
  "Your account is managed on the website — register or change it there. " ++
    "From IRC you can only \x02IDENTIFY\x02."

/-- What REGISTER and SAREGISTER check alike: the password, the look-alike guard
and the shape of the address. -/
def vetRequest (e : Engine) (request : DeferRegister) : Except String DeferRegister :=
  match validatePassword request.password request.account with
  | some reason => .error reason
  | none =>
      match e.policy.lookalike u request.account with
      | some reason => .error reason
      | none =>
          if request.email.any (!validEmail ·) then
            .error "That doesn't look like a valid email address."
          else .ok request

/-- `REGISTER <password> [email]`: register the sender's nick. -/
def nickservRegister (e : Engine) (me uid nick : String) (args : List String) :
    Except String DeferRegister :=
  if e.externalAccounts then .error managedElsewhere
  else
    match args[1]? with
    | none => .error "Syntax: REGISTER <password> [email]"
    | some password => e.vetRequest u ⟨nick, password, args[2]?, .nickServ me uid nick⟩

/-- `SAREGISTER <account> <password> [email]`: an operator registers an account. -/
def nickservSaregister (e : Engine) (me uid : String) (admin : Bool) (args : List String) :
    Except String DeferRegister :=
  if !admin then .error "Access denied — that command is for services operators."
  else if e.externalAccounts then .error "Accounts are managed on the website — create it there."
  else
    match args[1]?, args[2]? with
    | some account, some password => e.vetRequest u ⟨account, password, args[3]?, .admin me uid⟩
    | _, _ => .error "Syntax: SAREGISTER <account> <password> [email]"

/-! ### The relay -/

/-- The REGISTER request of the account-registration relay, which checks nothing
itself. -/
def accountRequest (reqid origin kind account p2 p3 : String) : DeferRegister where
  account
  password := p3
  email := if p2.isEmpty || p2 == "*" then none else some p2
  reply := .relay reqid kind origin

/-! ### Pre-check and completion -/

/-- The gate before the derivation. `allows` is what the rate limiter answers,
`flood` what the per-address flood check of NickServ's registrations does. -/
def preRegisterCheck (e : Engine) (request : DeferRegister) (allows flood : Bool) :
    Option RegOutcome :=
  if e.externalAccounts then some .external
  else if e.policy.frozen || e.db.log.readonly then some .frozen
  else if e.db.exists request.account then some .exists
  else if (e.policy.isForbidden u .nick request.account).isSome then some .forbidden
  else if !allows then some .rateLimited
  else
    match request.reply with
    | .nickServ .. => if flood then some .rateLimited else none
    | _ => none

/-- E-mail a confirmation code to an account that waits for one. -/
def awaitConfirmation (e : Engine) (env : Env) (account : String) (email : Option String)
    (code : String) : Engine :=
  if email.isSome then
    { e with toSession := e.toSession.issueCode env.now account .confirm code }
  else e

/-- Commit credentials that were derived off the lock. `code` is what is drawn
should one be e-mailed. -/
def completeRegister (e : Engine) (env : Env) (request : DeferRegister)
    (creds : Option Credentials) (code : String) : Engine × RegOutcome :=
  match creds with
  | none => (e, .internal)
  | some creds =>
      if request.email.any fun addr => (e.policy.isForbidden u .email addr).isSome then
        (e, .forbiddenEmail)
      else
        match e.withDb (Db.registerPrepared env request.account creds request.email) with
        | (e, .error .exists) => (e, .exists)
        | (e, .error _) => (e, .internal)
        | (e, .ok ()) =>
            if e.isVerified request.account then (e, .ok)
            else
              match request.reply with
              | .admin .. => ((e.withDb (Db.verifyAccount request.account)).1, .ok)
              | _ =>
                  if e.db.registrationVouch then (e, .verifyRequired)
                  else (e.awaitConfirmation env request.account request.email code, .verifyRequired)

/-! ### The provider -/

/-- The namespace guards of every write the provider makes. -/
def authorityNameOk (e : Engine) (name : String) : Bool :=
  !(name.isEmpty || name.toList.any isControl) &&
    (e.policy.isForbidden u .nick name).isNone && (e.policy.lookalike u name).isNone

def authorityPreCheck (e : Engine) (name : String) (allows : Bool) : Option AuthorityStatus :=
  if e.db.exists name then some .alreadyExists
  else if e.policy.frozen || e.db.log.readonly then some .invalid
  else if !e.authorityNameOk u name then some .invalid
  else if !allows then some .rateLimited
  else none

def authorityRegister (e : Engine) (env : Env) (name : String) (creds : Option Credentials)
    (email : Option String) (code : String) : Engine × AuthorityStatus :=
  match creds with
  | none => (e, .internal)
  | some creds =>
      -- The freeze the pre-check saw may have changed since.
      if e.policy.frozen || e.db.log.readonly then (e, .invalid)
      else if email.any fun addr =>
          !validEmail addr || (e.policy.isForbidden u .email addr).isSome then (e, .invalid)
      else
        match e.withDb (Db.registerPrepared env name creds email) with
        | (e, .error .exists) => (e, .alreadyExists)
        | (e, .error _) => (e, .internal)
        | (e, .ok ()) =>
            if e.isVerified name then (e, .ok)
            else (e.awaitConfirmation env name email code, .ok)

/-- Provision an account from verifiers. `verifierOk` is what the parse of a
verifier answers. -/
def authorityProvision (e : Engine) (env : Env) (verifierOk : String → Bool)
    (name scram256 scram512 : String) (email : Option String) : Engine × AuthorityStatus :=
  if !e.db.exists name && !e.authorityNameOk u name then (e, .invalid)
  else if email.any (!validEmail ·) then (e, .invalid)
  else if !verifierOk scram256 || (!scram512.isEmpty && !verifierOk scram512) then (e, .invalid)
  else
    match e.withDb (Db.provisionAccount env name scram256 scram512 email) with
    | (e, .ok ()) => (e, .ok)
    | (e, .error .exists) => (e, .alreadyExists)
    | (e, .error _) => (e, .internal)

/-! ### Grouping -/

/-- The most nicks one account may group. -/
def maxGrouped : Nat := 25

/-- The nicks grouped to an account. -/
def groupedNicks (e : Engine) (account : String) : List String :=
  (e.db.grouped.toList.filter fun b => eqIgnoreAsciiCase b.2 account).map Prod.fst

/-- The canonical name of the account a name resolves to. -/
def resolveAccount (e : Engine) (name : String) : Option String :=
  (e.db.resolvedKey name).bind fun k => (e.db.accounts[k]?).map (·.name)

/-- Check a password against the account a name resolves to. `verifies` is what
the derivation answers for its verifier. -/
def authenticate (e : Engine) (verifies : String → Bool) (name : String) : Option String :=
  ((e.db.resolvedKey name).bind fun k => e.db.accounts[k]?).bind fun a =>
    if a.scram256.any verifies then some a.name else none

/-- Text in bold. -/
def bold (text : String) : String := "\x02" ++ text ++ "\x02"

/-- What GROUP does once the password was right. -/
def groupFor (e : Engine) (nick canonical : String) : Engine × Except String String :=
  if e.db.accounts.contains (key nick) then
    (e, .error (bold nick ++ " is itself a registered account."))
  else
    match e.policy.lookalike u nick with
    | some reason => (e, .error reason)
    | none =>
        if (e.policy.isForbidden u .nick nick).isSome then
          (e, .error ("The nick " ++ bold nick ++ " is reserved and can't be grouped."))
        else if (e.groupedNicks canonical).length ≥ maxGrouped then
          (e, .error (bold canonical ++ " already has the maximum of " ++ toString maxGrouped ++
            " grouped nicks."))
        else
          match e.withDb (Db.groupNick nick canonical) with
          | (e, .ok ()) =>
              (e, .ok ("Your nick " ++ bold nick ++ " is now grouped to " ++ bold canonical ++ "."))
          | (e, .error _) => (e, .error "Sorry, that didn't work. Please try again in a moment.")

/-- `GROUP <account> <password>`: link the sender's nick to an account. `lockout` is
the wait that the throttle of password guesses asks for, if any. -/
def nickservGroup (e : Engine) (nick : String) (args : List String) (lockout : Option Nat)
    (verifies : String → String → Bool) : Engine × Except String String :=
  if e.externalAccounts then (e, .error managedElsewhere)
  else
    match args[1]?, args[2]? with
    | some account, some password =>
        match lockout with
        | some secs =>
            (e, .error ("Too many failed attempts. Please wait " ++ toString secs ++
              "s and try again."))
        | none =>
            match e.authenticate (verifies password) account with
            | none => (e, .error "Invalid account or password.")
            | some canonical => e.groupFor u nick canonical
    | _, _ => (e, .error "Syntax: GROUP <account> <password>")

def authorityGroupNick (e : Engine) (nick account : String) : Engine × AuthorityStatus :=
  if e.db.accounts.contains (key nick) then (e, .invalid)
  else if !e.authorityNameOk u nick then (e, .invalid)
  else if (e.groupedNicks account).length ≥ maxGrouped then (e, .invalid)
  else
    match e.withDb (Db.groupNick nick account) with
    | (e, .ok ()) => (e, .ok)
    | (e, .error _) => (e, .notFound)

end Engine

/-! ### Steps -/

/-- Whether a step of the store is one of the writes that only the engine's own
commands make. -/
def Session.Action.commanded : Session.Action → Bool
  | .store (.call _ (.registerPrepared ..)) | .store (.call _ (.provisionAccount ..))
  | .store (.call _ (.groupNick ..)) => true
  | _ => false

/-- One thing that happens to the engine. An index picks the request that a
pre-check or a completion is for. -/
inductive EngineStep where
  | session (a : Session.Action) (outside : a.commanded = false)
  | nickservRegister (me uid nick : String) (args : List String)
  | nickservSaregister (me uid : String) (admin : Bool) (args : List String)
  | relayRegister (reqid origin kind account p2 p3 : String)
  | preRegisterCheck (i : Nat) (allows flood : Bool)
  | completeRegister (i : Nat) (env : Env) (creds : Option Credentials) (code : String)
  /-- The mail servers of the address turned out to be blocklisted. -/
  | rejectRegisterEmail (i : Nat)
  | authorityPreCheck (name : String) (email : Option String) (allows : Bool)
  | authorityRegister (i : Nat) (env : Env) (creds : Option Credentials) (code : String)
  | authorityProvision (env : Env) (verifierOk : String → Bool) (name scram256 scram512 : String)
      (email : Option String)
  | nickservGroup (nick : String) (args : List String) (lockout : Option Nat)
      (verifies : String → String → Bool)
  | authorityGroupNick (nick account : String)
  | setDefcon (level : Nat)
  | setConfusableCheck (on : Bool)
  | setExternalAccounts (on : Bool)

namespace Engine

variable (u : Unicode)

/-- Hand a request to the link layer, if the command let it through. -/
def defer (e : Engine) : Except String DeferRegister → Engine
  | .ok request => { e with asked := e.asked ++ [{ request with asked := e.policy }] }
  | .error _ => e

def step (e : Engine) : EngineStep → Engine
  -- A restart keeps nothing of the session.
  | .session (.store .reopen) _ => { toSession := e.toSession.step (.store .reopen) }
  | .session a _ => { e with toSession := e.toSession.step a }
  | .nickservRegister me uid nick args => e.defer (e.nickservRegister u me uid nick args)
  | .nickservSaregister me uid admin args => e.defer (e.nickservSaregister u me uid admin args)
  | .relayRegister reqid origin kind account p2 p3 =>
      e.defer (.ok (accountRequest reqid origin kind account p2 p3))
  | .preRegisterCheck i allows flood =>
      match e.asked[i]? with
      | none => e
      | some request =>
          let e' := { e with asked := e.asked.eraseIdx i }
          if (e.preRegisterCheck u request.toDeferRegister allows flood).isNone then
            { e' with checked := e.checked ++ [{ request with checked := e.policy }] }
          else e'
  | .completeRegister i env creds code =>
      match e.checked[i]? with
      | none => e
      | some request =>
          { (e.completeRegister u env request.toDeferRegister creds code).1 with
            checked := e.checked.eraseIdx i }
  | .rejectRegisterEmail i => { e with checked := e.checked.eraseIdx i }
  | .authorityPreCheck name email allows =>
      if (e.authorityPreCheck u name allows).isNone then
        { e with providerChecked := e.providerChecked ++ [⟨name, email, e.policy⟩] }
      else e
  | .authorityRegister i env creds code =>
      match e.providerChecked[i]? with
      | none => e
      | some request =>
          { (e.authorityRegister u env request.name creds request.email code).1 with
            providerChecked := e.providerChecked.eraseIdx i }
  | .authorityProvision env verifierOk name scram256 scram512 email =>
      (e.authorityProvision u env verifierOk name scram256 scram512 email).1
  | .nickservGroup nick args lockout verifies => (e.nickservGroup u nick args lockout verifies).1
  | .authorityGroupNick nick account => (e.authorityGroupNick u nick account).1
  | .setDefcon level => { e with defcon := min (max level 1) 5 }
  | .setConfusableCheck on => { e with confusableCheck := on }
  | .setExternalAccounts on => { e with externalAccounts := on }

end Engine

end Echo
