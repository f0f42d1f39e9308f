import Echo.ChanServ.Command
import Echo.Engine.PatternSets
import Echo.Lib.Substitution

/-!
HostServ (`modules/hostserv`): who is given which vhost. Operators assign one with SET or
approve a request with ACTIVATE; users take one from the menu, or the one the network's
template makes of their name.

A command is read up to the vhost it comes to assign, if it does; what else it changes is
changed by then. Notices are left out, as are the sessions it is shown on.
-/

namespace Echo

open Echo.Lib

namespace Db

/-- Whether a host matches a forbidden pattern. -/
def vhostIsForbidden (r : RegexCrate) (db : Db) (host : String) : Bool :=
  !db.hostCfg.forbidden.isEmpty && r.buildBadwordSet db.hostCfg.forbidden host

/-- The account whose vhost, not yet run out, is this one. -/
def vhostOwner (env : Env) (db : Db) (host : String) : Option String :=
  ((env.values db.accounts).find? fun a =>
    a.vhost.any fun v => eqIgnoreAsciiCase v.host host && live env.now v.expires).map (·.name)

/-- The seconds an account has to wait before its next request. -/
def vhostRequestWait (env : Env) (db : Db) (account : String) : Nat :=
  match db.vhostReqTimes[key account]? with
  | some last => 60 - (env.now - last)
  | none => 0

end Db

namespace HostServ

/-! ### Specs -/

/-- The ident of a vhost, if it has one, and its host. -/
def specParts (spec : List Char) : Option (List Char) × List Char :=
  match splitOnce ['@'] spec with
  | some (ident, host) => (some ident, host)
  | none => (none, spec)

/-- A vhost as the ircd shows it. -/
def normalizeVhost (spec : String) : String :=
  let (ident, host) := specParts spec.toList
  let normHost := host.map fun c => if c = '_' then '-' else c
  match ident with
  | some i => String.ofList (i ++ '@' :: normHost)
  | none => String.ofList normHost

/-- An ident, if any, and a hostname of labels. -/
def validVhost (spec : String) : Bool :=
  let (ident, host) := specParts spec.toList
  let size (l : List Char) := (String.ofList l).utf8ByteSize
  let identOk := ident.all fun i =>
    !(i.isEmpty || decide (12 < size i)) &&
      i.all fun c => c.isAlphanum || c == '-' || c == '_' || c == '.'
  let hostOk := !(host.isEmpty || decide (64 < size host) || !host.contains '.')
  identOk && hostOk && (host.splitOn '.').all fun label =>
    !label.isEmpty && decide (size label ≤ 63) && label.head? != some '-' &&
      label.getLast? != some '-' && label.all fun c => c.isAlphanum || c == '-'

/-- The vhost to store for an account, if it is valid and no other account's. -/
def prepareVhost (env : Env) (db : Db) (spec account : String) : Option String :=
  let host := normalizeVhost spec
  if !validVhost host then none
  else if (db.vhostOwner env host).any fun owner => !eqIgnoreAsciiCase owner account then none
  else some host

/-! ### Commands -/

/-- A vhost to be assigned. -/
structure Grant where
  account : String
  host : String
  setter : String
  ttl : Option Nat
  /-- The user asked for it or took it; an operator's SET is a deliberate override. -/
  userInitiated : Bool
  deriving DecidableEq, Repr

def Grant.call (g : Grant) : Call := .setVhost g.account g.host g.setter g.ttl

section Commands

variable (r : RegexCrate) (env : Env) («from» : ChanServ.Sender) (args : List String) (db : Db)

/-- Every path but SET asks the forbidden patterns too. -/
def prepareAllowed (spec account : String) : Option String :=
  (prepareVhost env db spec account).filter fun host => !db.vhostIsForbidden r host

/-- What SET assigns a vhost by, but for the duration: the account and the vhost. -/
def readSet : Option (String × String) :=
  if !«from».privs.has .admin then none
  else
    match args[1]?, args[2]? with
    | some account, some host =>
        if (db.accounts[key account]?).isNone then none
        else (prepareVhost env db host account).map fun host => (account, host)
    | _, _ => none

/-- `SET <account> <host> [duration]` -/
def set : Option Grant :=
  (readSet env «from» args db).map fun (account, host) =>
    ⟨account, host, «from».nick, args[3]?.bind parseDuration, false⟩

/-- `REQUEST <host>` -/
def request : Option Call :=
  match «from».account, args[1]? with
  | some account, some host =>
      match prepareAllowed r env db host account with
      | none => none
      | some host =>
          if 0 < db.vhostRequestWait env account then none else some (.requestVhost account host)
  | _, _ => none

/-- `ACTIVATE <account>` and `REJECT <account>`: the request is gone either way. -/
def approve (activate : Bool) : Db × Option Grant :=
  if !«from».privs.has .admin then (db, none)
  else
    match args[1]? with
    | none => (db, none)
    | some account =>
        match (Db.takeVhostRequest account).run.run db with
        | (.ok (some host), db) =>
            (db, if activate then
              (prepareAllowed r env db host account).map fun host =>
                ⟨account, host, «from».nick, none, true⟩
            else none)
        | (_, db) => (db, none)

/-- `TAKE <number>` -/
def take : Option Grant :=
  match «from».account, args[1]?.bind fun s => parseUnsigned s.toList with
  | some account, some n =>
      let offer := if n = 0 then none else db.hostCfg.offers[n - 1]?
      offer.bind fun offer =>
        (prepareAllowed r env db offer account).map fun host => ⟨account, host, "offer", none, true⟩
  | _, _ => none

/-- `DEFAULT`: the template with the account's letters and digits put in. -/
def default : Option Grant :=
  match «from».account, db.hostCfg.template with
  | some account, some template =>
      let label := (toAsciiLowercase account).toList.filter Char.isAlphanum
      if label.isEmpty then none
      else
        let generated :=
          String.ofList (Substitution.replace id id template.toList ⟨"$account".toList, label⟩)
        (prepareAllowed r env db generated account).map fun host =>
          ⟨account, host, "template", none, true⟩
  | _, _ => none

/-- `DEL <account>` -/
def del : Option Call :=
  if !«from».privs.has .admin then none else args[1]?.map .delVhost

/-- `OFFER <host>` -/
def offer : Option Call :=
  if !«from».privs.has .admin then none
  else (args[1]?.filter (validVhost ·)).map .vhostOfferAdd

/-- What a command with a number does. -/
def numbered (call : Nat → Call) : Option Call :=
  if !«from».privs.has .admin then none
  else (args[1]?.bind fun s => parseUnsigned s.toList).map call

/-- `FORBID <regex>` -/
def forbid : Option Call :=
  if !«from».privs.has .admin then none
  else if args.length < 2 then none
  else some (.vhostForbidAdd (joinWords (args.drop 1)))

/-- `TEMPLATE [<pattern>]` -/
def template : Option Call :=
  match args[1]? with
  | none => none
  | some arg =>
      if !«from».privs.has .admin then none
      else if eqIgnoreAsciiCase arg "OFF" then some (.setVhostTemplate none)
      else
        let template := joinWords (args.drop 1)
        let sample := Substitution.replace id id template.toList ⟨"$account".toList, ['x']⟩
        if ¬ "$account".toList <:+: template.toList ∨ !validVhost (String.ofList sample) then none
        else some (.setVhostTemplate (some template))

/-- A call, if there is one. -/
def perform (call : Option Call) : Db := call.elim db fun call => db.step (.call env call)

/-- A command up to the vhost it comes to assign. -/
def read : Db × Option Grant :=
  match args.head?.map toAsciiUppercase with
  | some "SET" | some "SETALL" => (db, set env «from» args db)
  | some "DEL" | some "DELALL" => (perform env db (del «from» args), none)
  | some "REQUEST" => (perform env db (request r env «from» args db), none)
  | some "ACTIVATE" | some "APPROVE" => approve r env «from» args db true
  | some "REJECT" => approve r env «from» args db false
  | some "OFFER" => (perform env db (offer «from» args), none)
  | some "OFFERDEL" => (perform env db (numbered «from» args .vhostOfferDel), none)
  | some "TAKE" => (db, take r env «from» args db)
  | some "FORBID" => (perform env db (forbid «from» args), none)
  | some "FORBIDDEL" => (perform env db (numbered «from» args .vhostForbidDel), none)
  | some "TEMPLATE" => (perform env db (template «from» args), none)
  | some "DEFAULT" => (db, default r env «from» db)
  | _ => (db, none)

def onCommand : Db :=
  let (db, grant) := read r env «from» args db
  perform env db (grant.map Grant.call)

end Commands

end HostServ

end Echo
