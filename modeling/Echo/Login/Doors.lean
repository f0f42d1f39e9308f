import Echo.Db.CoreRun
import Echo.Db.File

/-!
How a session is logged in: NickServ's IDENTIFY and LOGIN, the SASL mechanisms,
the provider's Authenticate, the panel's login form and the website's auth.login.

A password is checked off the engine's lock: a door looks the account up, hands
its verifier and the password over, and is finished with the answer when that
comes. SCRAM and ECDSA take several messages of the client. Anything may happen
to the engine in between.
-/

namespace Echo

open Std (ExtTreeMap)
open Echo.Lib

/-! ### What is checked -/

inductive Hash where
  | sha256 | sha512
  deriving DecidableEq, Repr

/-- The hash of a SCRAM mechanism (`Hash::from_mech`). -/
def Hash.fromMech : String → Option Hash
  | "SCRAM-SHA-256" => some .sha256
  | "SCRAM-SHA-512" => some .sha512
  | _ => none

/-- The stored verifier for a hash. -/
def Account.verifier (a : Account) : Hash → Option String
  | .sha256 => a.scram256
  | .sha512 => a.scram512

/-- A client's opening SCRAM message. -/
structure ClientFirst where
  username : String
  gs2Header : String
  clientFirstBare : String
  cnonce : String

/-- What a SCRAM proof is computed over. -/
structure Transcript where
  clientFirstBare : String
  serverFirst : String
  gs2Header : String
  nonce : String
  deriving DecidableEq

/-- What a login is checked with from outside: the decoders of SASL messages, the
SCRAM and ECDSA primitives, the operators of the configuration and the order in
which a map is visited. -/
structure Checks where
  decodePlain : String → Option (String × String)
  /-- Base64 and UTF-8. -/
  decode : String → Option String
  parseClientFirst : String → Option ClientFirst
  /-- Whether a stored verifier is well formed. -/
  parseVerifier : String → Bool
  /-- The server's first message and the full nonce, given what was drawn. -/
  serverFirst : (cnonce verifier drawn : String) → String × String
  /-- What an unknown account is verified against. -/
  dummyVerifier : String
  /-- Whether a password has this SHA-256 verifier. -/
  verifyPlain : (verifier password : String) → Bool
  verifyFinal : Hash → (verifier : String) → Transcript → (msg : String) → Bool
  verifySignature : (pubkey challenge signature : String) → Bool
  /-- Whether the configuration grants an account any privilege. -/
  configOper : String → Bool
  env : Env

/-- What a login was checked against. -/
inductive Credential where
  | verifier (hash : Hash) (encoded : String)
  | pubkey (pubkey : String)
  | certfp (fp : String)
  /-- A one-time card that the website redeemed. -/
  | keycard
  deriving DecidableEq

/-- Whether the credential is the one an account stores. -/
def Account.Holds (a : Account) : Credential → Prop
  | .verifier hash encoded => a.verifier hash = some encoded
  | .pubkey pubkey => a.pubkey = some pubkey
  | .certfp fp => toAsciiLowercase fp ∈ a.certfps
  | .keycard => True

/-! ### The engine -/

/-- What is done once a password has been verified (`AuthThen`, and the rest of
each web handler). -/
inductive AuthThen where
  | identify (uid name account : String)
  | login (uid name account nick : String)
  /-- `password` is whether a password was verified rather than a card redeemed. -/
  | sasl (client account : String) (password : Bool)
  | authenticate (name account : String)
  | panel (name account : String)
  /-- `canon = none` verifies against a dummy, for an unknown account. -/
  | website (canon : Option String)
  deriving DecidableEq

/-- What is verified off the lock. -/
inductive Check where
  | password (verifier password : String)
  | keycard (account token : String)
  deriving DecidableEq

structure Deferred where
  check : Check
  next : AuthThen
  deriving DecidableEq

inductive ScramStep where
  | clientFirst
  | clientFinal (account verifier : String) (transcript : Transcript)
  /-- `proved` is the verifier that the proof was checked against. -/
  | ack (account proved : String)
  deriving DecidableEq

inductive EcdsaStep where
  | accountName
  | signature (account pubkey challenge : String)
  deriving DecidableEq

inductive SaslSession where
  | plain (response : String)
  | scram (hash : Hash) (step : ScramStep)
  | external (fingerprints : List String)
  | ecdsa (step : EcdsaStep)
  deriving DecidableEq

structure TimedSession where
  touched : Nat
  session : SaslSession
  deriving DecidableEq

/-- The failed password attempts on an account. -/
structure AuthThrottle where
  fails : Nat
  lockedUntil : Option Nat
  deriving DecidableEq, Repr

/-- What of the engine has a part in logins. Time is in seconds. -/
structure Logins where
  db : Db
  now : Nat := 0
  authFails : Table AuthThrottle := ∅
  saslSessions : Table TimedSession := ∅
  deferred : List Deferred := []

def maxAuthenticate : Nat := 400
def maxSaslResponse : Nat := 8 * 1024
def maxSaslSessions : Nat := 4096
def saslSessionTtl : Nat := 60
def authFreeTries : Nat := 3
def authMaxBackoffSecs : Nat := 300

/-- Who is logged in. -/
inductive Visitor where
  | user (uid : String)
  | provider
  | panel
  | website
  deriving DecidableEq

/-- What a step answers. -/
inductive Outcome where
  | refused
  | challenge
  | alreadyIdentified
  /-- The check was handed over. -/
  | deferred
  /-- A guess at the password of an account was judged. -/
  | judged (account : String) (ok : Bool)
  | login (visitor : Visitor) (account : String) (credential : Credential)
  deriving DecidableEq

def Outcome.isLogin : Outcome → Bool
  | .login .. => true
  | _ => false

/-! ### Reads -/

/-- The canonical name that a name resolves to. -/
def Db.resolveAccount (db : Db) (name : String) : Option String :=
  (db.resolvedKey name).bind fun k => (db.accounts[k]?).map (·.name)

/-- The account a name resolves to, with its verifier for a mechanism. -/
def Db.scramLookup (db : Db) (name : String) (hash : Hash) : Option (String × String) :=
  (db.resolvedKey name).bind fun k =>
    (db.accounts[k]?).bind fun a => (a.verifier hash).map fun v => (a.name, v)

def Db.pubkeyLookup (db : Db) (name : String) : Option (String × String) :=
  (db.resolvedKey name).bind fun k =>
    (db.accounts[k]?).bind fun a => a.pubkey.map fun p => (a.name, p)

/-- The names of privileges (`Priv::from_name`). -/
def isPriv (name : String) : Bool :=
  ["auspex", "oper", "operator", "suspend", "admin", "administrator", "root"].contains
    (toAsciiLowercase name)

/-- The white space around a text, cut off. -/
def trim (s : String) : String :=
  String.ofList (((s.toList.dropWhile isWhitespace).reverse.dropWhile isWhitespace).reverse)

namespace Logins

variable (c : Checks) (l : Logins)

/-- A suspension that is set and has not run out. -/
def inForce (s : Suspension) : Bool := s.expires.all (· > l.now)

def isSuspended (account : String) : Bool :=
  ((l.db.accounts[key account]?).bind (·.suspension)).any l.inForce

/-- Where the failed attempts on a name are counted: with the account it resolves
to. -/
def throttleKey (account : String) : String := (l.db.resolvedKey account).getD (key account)

/-- Seconds to wait before another attempt, if it is throttled. -/
def authLockout (account : String) : Option Nat :=
  ((l.authFails[l.throttleKey account]?).bind (·.lockedUntil)).bind fun «until» =>
    if «until» > l.now then some («until» - l.now + 1) else none

/-- Whether an account holds any operator privilege, by configuration or grant. -/
def isOper (account : String) : Bool :=
  c.configOper (toAsciiLowercase account) ||
    ((l.db.net.opers[key account]?).filter fun g => g.expires.all (· > l.now)).any
      fun g => g.privs.any isPriv

/-- What the website may log in to: an account that is verified, was never
suspended and has a verifier. -/
def webAuthLookup (name : String) : Option (String × String) :=
  (l.db.accounts[key name]?).bind fun a =>
    if !a.verified || a.suspension.isSome then none
    else a.scram256.map fun v => (a.name, v)

/-! ### The throttle -/

/-- Count the outcome of an attempt. Past the free tries each failure doubles the
wait. -/
def noteAuth (account : String) (success : Bool) : Logins :=
  let k := l.throttleKey account
  if success then { l with authFails := l.authFails.erase k }
  else
    let t := (l.authFails[k]?).getD ⟨0, none⟩
    let fails := t.fails + 1
    let lockedUntil :=
      if fails > authFreeTries then
        some (l.now + min (2 ^ min (fails - authFreeTries - 1) 9) authMaxBackoffSecs)
      else t.lockedUntil
    { l with authFails := l.authFails.insert k ⟨fails, lockedUntil⟩ }

/-! ### NickServ -/

def «defer» (check : Check) (next : AuthThen) : Logins × List Outcome :=
  ({ l with deferred := l.deferred ++ [⟨check, next⟩] }, [.deferred])

/-- The checks that IDENTIFY and LOGIN share; an account without a verifier
counts as a wrong guess. -/
def precheck (name : String) : Logins × Option (String × String) :=
  if !l.db.exists name then (l, none)
  else if (l.db.resolveAccount name).any l.isSuspended then (l, none)
  else if (l.authLockout name).isSome then (l, none)
  else
    match l.db.scramLookup name .sha256 with
    | none => (l.noteAuth name false, none)
    | some found => (l, some found)

/-- NickServ IDENTIFY, from a session that may be logged in already. -/
def identify (uid : String) (account : Option String) (name password : String) :
    Logins × List Outcome :=
  match l.precheck name with
  | (l, none) => (l, [.refused])
  | (l, some (found, verifier)) =>
      if account = some found then (l, [.alreadyIdentified])
      else l.defer (.password verifier password) (.identify uid name found)

/-- NickServ LOGIN: IDENTIFY, and take the nick back. -/
def login (uid : String) (account : Option String) (nick password : String) :
    Logins × List Outcome :=
  if account.isSome ∧ l.db.resolveAccount nick = account then (l, [.alreadyIdentified])
  else
    match l.precheck nick with
    | (l, none) => (l, [.refused])
    | (l, some (found, verifier)) =>
        l.defer (.password verifier password) (.login uid nick found nick)

/-! ### SASL -/

def stashSasl (client : String) (session : SaslSession) : Logins :=
  { l with saslSessions := l.saslSessions.insert client ⟨l.now, session⟩ }

def saslLogin (client account : String) (credential : Credential) : Outcome :=
  if l.isSuspended account then .refused else .login (.user client) account credential

/-- The mechanism a client asks for. -/
def saslStart (client mech : String) (fingerprints : List String) : Logins × List Outcome :=
  let l := { l with
    saslSessions := l.saslSessions.filter fun _ t => l.now - t.touched < saslSessionTtl }
  if l.saslSessions.size ≥ maxSaslSessions then (l, [.refused])
  else if mech = "PLAIN" then (l.stashSasl client (.plain ""), [.challenge])
  else if mech = "EXTERNAL" then
    (l.stashSasl client (.external (fingerprints.map toAsciiLowercase)), [.challenge])
  else
    match Hash.fromMech mech with
    | some hash => (l.stashSasl client (.scram hash .clientFirst), [.challenge])
    | none =>
        if mech = "ECDSA-NIST256P-CHALLENGE" then
          (l.stashSasl client (.ecdsa .accountName), [.challenge])
        else (l, [.refused])

/-- A complete PLAIN response. A password that begins like a keycard is one. -/
def saslPlain (client response : String) : Logins × List Outcome :=
  match c.decodePlain response with
  | none => (l, [.refused])
  | some (authcid, passwd) =>
      if passwd.startsWith "kc_" then
        let account := (l.db.resolveAccount authcid).getD authcid
        l.defer (.keycard account passwd) (.sasl client account false)
      else
        match l.db.scramLookup authcid .sha256 with
        | none => (l, [.refused])
        | some (account, verifier) =>
            if (l.authLockout account).isSome then (l, [.refused])
            else l.defer (.password verifier passwd) (.sasl client account true)

def saslScram (client : String) (hash : Hash) (chunk drawn : String) :
    ScramStep → Logins × List Outcome
  | .clientFirst =>
      match (c.decode chunk).bind c.parseClientFirst with
      | none => (l, [.refused])
      | some cf =>
          match l.db.scramLookup cf.username hash with
          | none => (l, [.refused])
          | some (account, verifier) =>
              if !c.parseVerifier verifier then (l, [.refused])
              else if (l.authLockout account).isSome then (l, [.refused])
              else
                let sf := c.serverFirst cf.cnonce verifier drawn
                let transcript := ⟨cf.clientFirstBare, sf.1, cf.gs2Header, sf.2⟩
                (l.stashSasl client (.scram hash (.clientFinal account verifier transcript)),
                  [.challenge])
  | .clientFinal account verifier transcript =>
      match c.decode chunk with
      | none => (l, [.refused])
      | some msg =>
          if c.verifyFinal hash verifier transcript msg then
            ((l.noteAuth account true).stashSasl client (.scram hash (.ack account verifier)),
              [.judged account true, .challenge])
          else (l.noteAuth account false, [.judged account false, .refused])
  | .ack account proved => (l, [l.saslLogin client account (.verifier hash proved)])

def saslEcdsa (client chunk drawn : String) : EcdsaStep → Logins × List Outcome
  | .accountName =>
      match c.decode chunk with
      | none => (l, [.refused])
      | some text =>
          -- An authorization identity may stand before the name, a NUL between.
          let name := String.ofList
            ((text.toList.reverse.takeWhile (· ≠ Char.ofNat 0)).reverse)
          match l.db.pubkeyLookup name with
          | none => (l, [.refused])
          | some (account, pubkey) =>
              (l.stashSasl client (.ecdsa (.signature account pubkey drawn)), [.challenge])
  | .signature account pubkey challenge =>
      if c.verifySignature pubkey challenge chunk then
        (l, [l.saslLogin client account (.pubkey pubkey)])
      else (l, [.refused])

def saslExternal (client : String) (fingerprints : List String) (chunk : String) : Outcome :=
  match if chunk = "+" ∨ chunk = "" then some "" else c.decode chunk with
  | none => .refused
  | some authzid =>
      match fingerprints.findSome? fun fp => (l.db.certfpOwner c.env fp).map fun a => (fp, a) with
      | none => .refused
      | some (fp, account) =>
          if authzid = "" ∨ eqIgnoreAsciiCase authzid account ∨
              (l.db.resolveAccount authzid).any fun a => eqIgnoreAsciiCase a account then
            l.saslLogin client account (.certfp fp)
          else .refused

/-- The response so far with one more chunk; a lone "+" is an empty one. -/
def gather (response chunk : String) : String := if chunk = "+" then response else response ++ chunk

/-- A message of the client in its exchange; it takes the session out and puts the
next one in. -/
def saslData (client chunk drawn : String) : Logins × List Outcome :=
  let taken := { l with saslSessions := l.saslSessions.erase client }
  match (l.saslSessions[client]?).map TimedSession.session with
  | none => (l, [.refused])
  | some (.plain response) =>
      let response := gather response chunk
      if response.utf8ByteSize > maxSaslResponse then (taken, [.refused])
      else if chunk.utf8ByteSize ≥ maxAuthenticate then (taken.stashSasl client (.plain response), [])
      else taken.saslPlain c client response
  | some (.scram hash step) => taken.saslScram c client hash chunk drawn step
  | some (.external fingerprints) => (taken, [taken.saslExternal c client fingerprints chunk])
  | some (.ecdsa step) => taken.saslEcdsa c client chunk drawn step

/-! ### The web -/

/-- The provider's and the panel's pre-check. -/
def authorityAuthBegin (name : String) : Option (String × String) :=
  if (l.db.resolveAccount name).any l.isSuspended then none
  else if (l.authLockout name).isSome then none
  else l.db.scramLookup name .sha256

def authenticate (name password : String) : Logins × List Outcome :=
  match l.authorityAuthBegin name with
  | none => (l, [.refused])
  | some (account, verifier) => l.defer (.password verifier password) (.authenticate name account)

def panelLogin (name password : String) : Logins × List Outcome :=
  match l.authorityAuthBegin name with
  | none => (l, [.refused])
  | some (account, verifier) => l.defer (.password verifier password) (.panel name account)

/-- JSON-RPC auth.login. An unknown account is verified against a dummy, for
constant timing. -/
def authLogin (dummy account password : String) : Logins × List Outcome :=
  let account := trim account
  if account = "" ∨ password = "" then (l, [.refused])
  else
    match l.webAuthLookup account with
    | none => l.defer (.password dummy password) (.website none)
    | some (canon, verifier) => l.defer (.password verifier password) (.website (some canon))

/-! ### Finishing -/

/-- Count an attempt under a name and let a visitor in if it was right. -/
def judge (name account : String) (ok : Bool) (entered : Logins → Outcome) : Logins × List Outcome :=
  let l := l.noteAuth name ok
  (l, [.judged account ok, if ok then entered l else .refused])

/-- Finish a login once its check came out. -/
def complete (ok : Bool) (credential : Credential) : AuthThen → Logins × List Outcome
  | .identify uid name account | .login uid name account _ =>
      l.judge name account ok fun _ => .login (.user uid) account credential
  | .sasl client account password =>
      if password then l.judge account account ok (·.saslLogin client account credential)
      else (l, [if ok then l.saslLogin client account credential else .refused])
  | .authenticate name account =>
      l.judge name account ok fun _ => .login .provider account credential
  | .panel name account =>
      l.judge name account ok fun l =>
        if l.isOper c account then .login .panel account credential else .refused
  | .website none => (l, [.refused])
  | .website (some canon) =>
      -- Neither throttled nor counted.
      (l, [.judged canon ok, if ok then .login .website canon credential else .refused])

/-- A check comes out; whether a keycard is redeemed is the website's to say. -/
def finish (i : Nat) (redeemed : Bool) : Logins × List Outcome :=
  match l.deferred[i]? with
  | none => (l, [])
  | some d =>
      let taken := { l with deferred := l.deferred.eraseIdx i }
      match d.check with
      | .password verifier password =>
          taken.complete c (c.verifyPlain verifier password) (.verifier .sha256 verifier) d.next
      | .keycard .. => taken.complete c redeemed .keycard d.next

/-! ### Steps -/

/-- One thing that happens to the engine. `drawn` is what a server message is
drawn at random; what a login does to the store besides, and everything else that
happens to it, is a step of the store. -/
inductive Step where
  | identify (uid : String) (account : Option String) (name password : String)
  | login (uid : String) (account : Option String) (nick password : String)
  | saslStart (client mech : String) (fingerprints : List String)
  | saslData (client chunk drawn : String)
  | saslEnd (client : String)
  | authenticate (name password : String)
  | panelLogin (name password : String)
  | authLogin (account password : String)
  | finish (i : Nat) (redeemed : Bool)
  | store (a : Service)
  | wait (seconds : Nat)

def take : Step → Logins × List Outcome
  | .identify uid account name password => l.identify uid account name password
  | .login uid account nick password => l.login uid account nick password
  | .saslStart client mech fingerprints => l.saslStart client mech fingerprints
  | .saslData client chunk drawn => l.saslData c client chunk drawn
  | .saslEnd client => ({ l with saslSessions := l.saslSessions.erase client }, [])
  | .authenticate name password => l.authenticate name password
  | .panelLogin name password => l.panelLogin name password
  | .authLogin account password => l.authLogin c.dummyVerifier account password
  | .finish i redeemed => l.finish c i redeemed
  | .store a => ({ l with db := l.db.serve a }, [])
  | .wait seconds => ({ l with now := l.now + seconds }, [])

def step (s : Step) : Logins := (l.take c s).1

end Logins

end Echo
