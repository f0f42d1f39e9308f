import Echo.Engine.Addresses
import Echo.Engine.Text

/-!
The anti-abuse screening (`security/mod.rs`, `security/counter.rs`): what it does
with a connect, a join and a login. A detector counts in a sliding window; over
its permit it trips, and the offender is announced and, when the subsystem is
armed, killed and banned by address or by the range of the address.

What the network says of a client comes with the event. Statistics are left out,
and so are the detectors of the other events, which ban by address.
-/

namespace Echo

open Echo.Lib

/-! ### Counters -/

/-- Named sliding windows, each with the times of its events, oldest first. -/
structure Counters where
  windows : Table (List Nat) := ∅
  /-- Counts to the next cleaning. -/
  ops : Nat := 0

/-- Now and then, drop the windows with no event in the last hour. -/
def Counters.maybeGc (c : Counters) (now : Nat) : Counters :=
  let ops := (c.ops + 1) % 2 ^ 32
  if ops % 1024 ≠ 0 then { c with ops }
  else { windows := c.windows.filter fun _ times => times.getLast?.any (· ≥ now - 3600), ops }

/-- Record an event, and count those of the last `life` seconds. -/
def Counters.hit (c : Counters) (name : String) (now life : Nat) : Counters × Nat :=
  let times := (c.windows[name]?.getD []).dropWhile (· < now - life) ++ [now]
  (({ c with windows := c.windows.insert name times } : Counters).maybeGc now,
    times.length % 2 ^ 32)

/-! ### Configuration -/

structure ConnectRules where
  enabled : Bool := true
  floodPermit : Nat := 6
  floodLife : Nat := 10
  rangePermit : Nat := 12
  rangeLife : Nat := 20
  /-- Zero: the connection is killed and nothing banned. -/
  banDuration : Nat := 3600

/-- The rules about joins. -/
structure BehaviorRules where
  enabled : Bool := true
  joinpartGrace : Nat := 10
  massjoinPermit : Nat := 8
  massjoinLife : Nat := 8
  crawlPermit : Nat := 12
  crawlLife : Nat := 15
  banDuration : Nat := 3600

/-- The rules about logins: how long an account is remembered, and banned for. -/
structure AuthRules where
  evadeTtl : Nat := 172800
  banDuration : Nat := 3600

structure SecurityConfig where
  enabled : Bool := false
  reportOnly : Bool := true
  connect : ConnectRules := {}
  /-- Addresses and ranges never screened or banned. -/
  exemptIps : List String := ["127.0.0.0/8", "::1"]
  behavior : BehaviorRules := {}
  exemptOpers : Bool := true
  exemptAccounts : Bool := false
  announcePermit : Nat := 8
  announceLife : Nat := 10
  cascadePermit : Nat := 15
  cascadeLife : Nat := 30
  netsplitGrace : Nat := 60
  auth : AuthRules := {}

/-- The part of an identity that a pattern is tested on. -/
inductive PatField where
  | mask | full | nick | ident | host | gecos
  deriving DecidableEq

inductive Matcher where
  | glob (pattern : String)
  /-- A compiled regex, by what it matches. -/
  | regex (isMatch : String → Bool)

structure CompiledPattern where
  field : PatField
  matcher : Matcher
  reason : String
  ban : Nat

structure Security where
  cfg : Option SecurityConfig
  counters : Counters := {}
  patterns : List CompiledPattern := []
  /-- Nothing is screened before this time. -/
  quietUntil : Nat := 0
  /-- The accounts banned of late, and when each is forgotten. -/
  evaded : Table Nat := ∅

/-- What the network says of a client. Its address, once known, is one. -/
structure Client where
  nick : String
  ident : String
  host : String
  ip : String
  gecos : String
  oper : Bool
  account : Option String
  isAddress : ip = "" ∨ (IpAddr.parse ip).isSome = true

def Client.mask (c : Client) : String := c.nick ++ "!" ++ c.ident ++ "@" ++ c.host

/-- `u64::saturating_add` -/
def saturatingAdd (a b : Nat) : Nat := min (a + b) (2 ^ 64 - 1)

namespace Security

variable (s : Security)

def on : Bool := s.cfg.any (·.enabled)

/-- Detections are enforced, not only reported. -/
def enforcing : Bool := s.cfg.any fun c => c.enabled && !c.reportOnly

def markNetsplit (now : Nat) : Security :=
  match s.cfg with
  | some c => { s with quietUntil := max s.quietUntil (saturatingAdd now c.netsplitGrace) }
  | none => s

def inNetsplit (now : Nat) : Bool := decide (now < s.quietUntil)

def rememberBan (account : String) (now ttl : Nat) : Security :=
  { s with
    evaded := (s.evaded.filter fun _ expires => expires > now).insert account
      (saturatingAdd now ttl) }

def isEvader (account : String) (now : Nat) : Bool := (s.evaded[account]?).any (now < ·)

/-- Trusted infrastructure, never to be screened or banned. -/
def isExempt (ip : String) : Bool := s.cfg.any fun c => c.exemptIps.any (ipInCidr ip)

/-- The reason and the ban of the first pattern that matches. -/
def matchPattern (u : Unicode) (c : Client) : Option (String × Nat) :=
  let target : PatField → String
    | .mask => c.mask
    | .full => c.mask ++ "#" ++ c.gecos
    | .nick => c.nick
    | .ident => c.ident
    | .host => c.host
    | .gecos => c.gecos
  (s.patterns.find? fun p =>
    match p.matcher with
    | .glob g => globMatch u g (target p.field)
    | .regex isMatch => isMatch (target p.field)).map fun p => (p.reason, p.ban)

/-- Operators are trusted, and accounts if the configuration says so. -/
def trustedIdentity (c : Client) : Bool :=
  s.cfg.any fun cfg => (cfg.exemptOpers && c.oper) || (cfg.exemptAccounts && c.account.isSome)

/-- The gate before every detector. -/
def screens (now : Nat) (c : Client) : Bool :=
  !s.inNetsplit now && c.ip != "" && !s.isExempt c.ip && !s.trustedIdentity c

def behaviorRules : Option BehaviorRules :=
  (s.cfg.filter fun c => c.enabled && c.behavior.enabled).map (·.behavior)

/-- Count an event, by the windows of the subsystem. -/
def hit (name : String) (now life : Nat) : Security × Nat :=
  let (counters, n) := s.counters.hit name now life
  ({ s with counters }, n)

end Security

/-! ### Detectors -/

/-- What a detector has found. -/
inductive Trip where
  | pattern (reason : String) (ban : Nat)
  /-- So many events of one address, or of one client. -/
  | address (n : Nat)
  /-- So many events of one range. -/
  | range (n : Nat)
  deriving DecidableEq

namespace Security

variable (s : Security) (now : Nat)

/-- A connection: a pattern is acted on at once; then the floods of its address and of
its range are counted. -/
def connectTrip (u : Unicode) (c : Client) : Security × Option Trip :=
  match s.matchPattern u c with
  | some (reason, ban) => (s, some (.pattern reason ban))
  | none =>
      match s.cfg with
      | none => (s, none)
      | some cfg =>
          let rules := cfg.connect
          if rules.enabled then
            let (s, nIp) := s.hit ("cf|" ++ c.ip) now rules.floodLife
            let (s, nRange) := s.hit ("cr|" ++ cidrOf c.ip) now rules.rangeLife
            (s,
              if nIp > rules.floodPermit then some (.address nIp)
              else if nRange > rules.rangePermit then some (.range nRange)
              else none)
          else (s, none)

/-- A join: it is noted, the joins of its range to the channel are counted, and then
those of the client. -/
def joinTrip (rules : BehaviorRules) (uid channel : String) (c : Client) :
    Security × Option Trip :=
  let (s, _) := s.hit ("jj|" ++ uid ++ "|" ++ channel) now rules.joinpartGrace
  let (s, n) := s.hit ("mj|" ++ channel ++ "|" ++ cidrOf c.ip) now rules.massjoinLife
  if n > rules.massjoinPermit then (s, some (.range n))
  else
    let (s, joins) := s.hit ("cw|" ++ uid) now rules.crawlLife
    (s, if joins > rules.crawlPermit then some (.address joins) else none)

end Security

/-! ### Enforcement -/

inductive SecurityAction where
  | privmsg («from» «to» text : String)
  | killUser («from» uid reason : String)
  | line (action : LineAction)
  deriving DecidableEq, Repr

/-- The part of the engine the screening works on. -/
structure Screener where
  security : Security
  db : Db
  now : Nat
  /-- Our server id, empty while not linked. -/
  sid : String
  debugservUid : String
  logChannel : Option String

namespace Screener

variable (e : Screener)

def env : Env := { Env.still with now := e.now }

/-- A line for the staff, if there is a channel for it and someone to speak. -/
def feed (text : String) : List SecurityAction :=
  match e.logChannel with
  | none => []
  | some channel =>
      if e.debugservUid = "" ∨ e.sid = "" then []
      else [.privmsg e.debugservUid channel ("\x02[SECURITY]\x02 " ++ text)]

/-- Whether what trips is killed and banned. -/
def armed : Bool := e.security.enforcing && e.sid != ""

/-- The announcement of one detection, muted beyond its permit, and the alarm at the
one with which detections become many. -/
def announce (c : Client) (kind why : String) : Screener × List SecurityAction :=
  let (annPermit, annLife, cascPermit, cascLife) :=
    match e.security.cfg with
    | some cfg => (cfg.announcePermit, cfg.announceLife, cfg.cascadePermit, cfg.cascadeLife)
    | none => (0, 1, 2 ^ 32 - 1, 1)
  let (security, shown) := e.security.hit "sec|announce" e.now annLife
  let verb := if e.security.enforcing then "\x02acting on\x02" else "would act on (report-only)"
  let alert :=
    if shown ≤ annPermit then
      e.feed (kind ++ ": " ++ verb ++ " \x02" ++ c.mask ++ "\x02 · " ++ why)
    else if shown = annPermit + 1 then
      e.feed ("further \x02SECURITY\x02 alerts muted for " ++ toString annLife ++ "s (over " ++
        toString annPermit ++ " in the window)")
    else []
  let (security, trips) := security.hit "sec|cascade" e.now cascLife
  let cascade :=
    if trips = min (cascPermit + 1) (2 ^ 32 - 1) then
      e.feed ("\x02ABUSE CASCADE\x02: " ++ toString trips ++ " triggers in " ++
        toString cascLife ++ "s — consider raising DEFCON")
    else []
  ({ e with security }, alert ++ cascade)

/-- Ban a mask: it is recorded, and set at the ircd whether or not the log took it. -/
def ban (mask reason : String) (banSecs : Nat) : Screener × List SecurityAction :=
  if banSecs > 0 then
    let expires := expiryAfter e.now banSecs
    let recorded := (Db.akillAdd e.env .gline mask "Security" reason (some expires)).run.run e.db
    ({ e with db := recorded.2 }, [.line (.addLine "G" mask "Security" banSecs reason)])
  else (e, [])

/-- Remember the account of an offender, if there is one. -/
def remember (account : Option String) : Screener :=
  match e.security.cfg, account with
  | some cfg, some account =>
      { e with security := e.security.rememberBan account e.now cfg.auth.evadeTtl }
  | _, _ => e

/-- `security_act`: announce, and when armed kill the client and ban the mask. -/
def act (c : Client) (uid mask kind why : String) (banSecs : Nat) :
    Screener × List SecurityAction :=
  let (e, announced) := e.announce c kind why
  if e.armed then
    let reason := "Security: " ++ kind ++ " (" ++ why ++ ")"
    let (e, lines) := e.ban mask reason banSecs
    (e.remember c.account, announced ++ .killUser e.sid uid reason :: lines)
  else (e, announced)

/-- `security_screen_connect` -/
def screenConnect (u : Unicode) (uid : String) (client : Option Client) :
    Screener × List SecurityAction :=
  match client with
  | none => (e, [])
  | some c =>
      if e.security.on && e.security.screens e.now c then
        let (security, trip) := e.security.connectTrip e.now u c
        let e : Screener := { e with security }
        let rules := (e.security.cfg.map (·.connect)).getD {}
        match trip with
        | none => (e, [])
        | some (.pattern reason ban) => e.act c uid ("*@" ++ c.ip) "connection pattern" reason ban
        | some (.address n) =>
            e.act c uid ("*@" ++ c.ip) "connection flood"
              (toString n ++ " connections in " ++ toString rules.floodLife ++ "s from " ++ c.ip)
              rules.banDuration
        | some (.range n) =>
            e.act c uid ("*@" ++ cidrOf c.ip) "connection flood"
              (toString n ++ " connections in " ++ toString rules.rangeLife ++ "s from range " ++
                cidrOf c.ip) rules.banDuration
      else (e, [])

/-- `security_screen_join` -/
def screenJoin (uid channel : String) (client : Option Client) : Screener × List SecurityAction :=
  match e.security.behaviorRules, client with
  | some rules, some c =>
      if e.security.screens e.now c then
        let (security, trip) := e.security.joinTrip e.now rules uid channel c
        let e : Screener := { e with security }
        match trip with
        | some (.range n) =>
            e.act c uid ("*@" ++ cidrOf c.ip) "mass-join flood"
              (toString n ++ " joins to " ++ channel ++ " from range " ++ cidrOf c.ip ++ " in " ++
                toString rules.massjoinLife ++ "s") rules.banDuration
        | some _ =>
            e.act c uid ("*@" ++ c.ip) "channel crawl"
              ("joined too many channels in " ++ toString rules.crawlLife ++ "s") rules.banDuration
        | none => (e, [])
      else (e, [])
  | _, _ => (e, [])

/-- `security_screen_login`: an account that was banned logs in again. -/
def screenLogin (uid account : String) (client : Option Client) :
    Screener × List SecurityAction :=
  match client with
  | none => (e, [])
  | some c =>
      if e.security.enforcing && e.security.isEvader account e.now && e.security.screens e.now c then
        let e := e.remember (some account)
        let ban := (e.security.cfg.map (·.auth.banDuration)).getD 0
        e.act c uid ("*@" ++ c.ip) "ban evasion"
          ("banned account " ++ account ++ " logged back in") ban
      else (e, [])

end Screener

/-! ### Runs -/

inductive SecurityStep where
  | wait (seconds : Nat)
  | netsplit
  /-- What the file will answer to the next writes. -/
  | disk (outcomes : List Bool)
  | connect (uid : String) (client : Option Client)
  | join (uid channel : String) (client : Option Client)
  | login (uid account : String) (client : Option Client)

/-- The screening, with all it has sent. -/
structure Screened where
  engine : Screener
  sent : List SecurityAction

def Screened.step (u : Unicode) (s : Screened) (a : SecurityStep) : Screened :=
  let (engine, actions) := match a with
    | .wait seconds => ({ s.engine with now := s.engine.now + seconds }, [])
    | .netsplit =>
        ({ s.engine with security := s.engine.security.markNetsplit s.engine.now }, [])
    | .disk outcomes => ({ s.engine with db := s.engine.db.step (.faults outcomes) }, [])
    | .connect uid client => s.engine.screenConnect u uid client
    | .join uid channel client => s.engine.screenJoin uid channel client
    | .login uid account client => s.engine.screenLogin uid account client
  { engine, sent := s.sent ++ actions }

/-- Whether a `user@host` ban reaches the clients at an address. -/
def maskCovers (mask ip : String) : Bool :=
  match splitOnce ['@'] mask.toList with
  | some (_, host) => ipInCidr ip (String.ofList host)
  | none => false

/-- No ban that was sent or recorded since the start covers an exempt address. -/
def Screened.Spares (start : Screener) (s : Screened) : Prop :=
  ∀ ip, start.security.isExempt ip = true →
    (∀ kind mask setter duration reason,
      .line (.addLine kind mask setter duration reason) ∈ s.sent → maskCovers mask ip = false) ∧
    ∀ a ∈ s.engine.db.net.akills, a ∈ start.db.net.akills ∨ maskCovers a.mask ip = false

end Echo
