import Echo.Engine.Handle
import Echo.Engine.ModeLock
import Echo.Engine.Text

/-!
What services do to those present in a channel: the status modes, bans and kicks of a
join and of a nick change, and ChanServ's UP and ENFORCE. A join asks for the access of
an account and of its groups, the commands for its own entry alone.
-/

namespace Echo

open Echo.Lib

open Dispatcher (NetAction)

/-! ### Auto-kick masks -/

/-- A user as the auto-kick masks see it. -/
structure BanTarget where
  nick : String
  ident : String
  /-- The displayed host. -/
  host : String
  realhost : String
  ip : String
  gecos : String
  account : Option String
  server : String
  fingerprint : Option String
  channels : List String

/-- How services match a user against an extban; they have no data for a passive one. -/
inductive ExtKind where
  | account | unauthed | realname | realmask | server | fingerprint | channel | passive
  deriving DecidableEq, Repr

/-- A matching extban that services know. -/
structure ExtBan where
  name : String
  letter : Char
  kind : ExtKind
  deriving DecidableEq, Repr

def extbans : List ExtBan :=
  [⟨"account", 'R', .account⟩, ⟨"unauthed", 'U', .unauthed⟩, ⟨"realname", 'r', .realname⟩,
    ⟨"realmask", 'a', .realmask⟩, ⟨"server", 's', .server⟩, ⟨"fingerprint", 'z', .fingerprint⟩,
    ⟨"channel", 'j', .channel⟩, ⟨"country", 'G', .passive⟩, ⟨"asn", 'b', .passive⟩,
    ⟨"class", 'n', .passive⟩, ⟨"gateway", 'w', .passive⟩, ⟨"bot", 'B', .passive⟩,
    ⟨"oper", 'o', .passive⟩, ⟨"opertype", 'O', .passive⟩, ⟨"securitygroup", 'g', .passive⟩,
    ⟨"score", 'y', .passive⟩, ⟨"team", 't', .passive⟩, ⟨"redirect", 'd', .passive⟩]

/-- An extban by its letter or by its name in any case. -/
def ExtBan.lookup (token : String) : Option ExtBan :=
  match token.toList with
  | [c] => extbans.find? (·.letter == c)
  | _ => extbans.find? fun e => eqIgnoreAsciiCase e.name token

/-- What an auto-kick mask is: a hostmask, a known extban with its value, or neither. -/
inductive AkickMask where
  | host (glob : String)
  | ext (ban : ExtBan) (value : String)
  | unknown (token : String)
  deriving DecidableEq, Repr

def AkickMask.parse (mask : String) : AkickMask :=
  let named := (splitOnce [':'] mask.toList).filter fun (name, _) =>
    !name.isEmpty && !name.contains '!' && !name.contains '@'
  match named with
  | none => .host mask
  | some (name, value) =>
      match ExtBan.lookup (String.ofList name) with
      | some ban => .ext ban (String.ofList value)
      | none => .unknown (String.ofList name)

/-- Whether the ircd is left to enforce a mask. -/
def ircdEnforced (mask : String) : Bool :=
  match AkickMask.parse mask with
  | .host _ => false
  | .ext ban _ => ban.kind == .passive
  | .unknown _ => true

/-- Whether a mask matches a user. -/
def akickMatches (u : Unicode) (mask : String) (t : BanTarget) : Bool :=
  let hostHit (glob : String) :=
    [t.host, t.realhost, t.ip].any fun host =>
      globMatch u glob (t.nick ++ "!" ++ t.ident ++ "@" ++ host)
  match AkickMask.parse mask with
  | .host glob => hostHit glob
  | .ext ban v =>
      match ban.kind with
      | .account => t.account.any (globMatch u v)
      | .unauthed => t.account.isNone && hostHit v
      | .realname => globMatch u v t.gecos
      | .realmask =>
          (splitOnce ['+'] v.toList).any fun (host, real) =>
            hostHit (String.ofList host) && globMatch u (String.ofList real) t.gecos
      | .server => t.server != "" && globMatch u v t.server
      | .fingerprint => t.fingerprint.any (globMatch u v)
      | .channel => t.channels.any (globMatch u v)
      | .passive => false
  | .unknown _ => false

def ChannelInfo.akickMatch (u : Unicode) (c : ChannelInfo) (t : BanTarget) : Option ChanAkick :=
  c.akick.find? fun k => akickMatches u k.mask t

/-! ### The engine at a call -/

/-- What the network says of who is online and where. -/
structure NetView where
  accountOf : (uid : String) → Option String
  banTarget : (uid : String) → Option BanTarget
  channelsOf : (uid : String) → List String
  channelMembers : (channel : String) → List String
  uidByNick : (nick : String) → Option String

/-- The engine at the time of a call. -/
structure Scene where
  db : Db
  net : NetView
  now : Nat
  unicode : Unicode
  /-- The uids of the services' bots, by the key of their nicks. -/
  botUids : Table String := ∅
  chanService : Option String := none
  /-- The accounts with any operator privilege. -/
  operPrivs : (account : String) → Bool

/-- The argument of a mode change that sets status modes on one user: it is named once
for each letter. -/
def statusMode (modes target : String) : String :=
  modes ++ String.join ((modes.toList.filter Char.isAlpha).map fun _ => " " ++ target)

/-- The status mode of an account as the commands see it. -/
def ChannelView.joinMode (v : ChannelView) (account : String) : Option String :=
  (v.capsOf (some account)).auto

def Db.accountWantsAutoop (db : Db) (account : String) : Bool :=
  db.accounts[key account]?.all fun a => !a.noAutoop

namespace Scene

variable (s : Scene)

def suspended (channel : String) : Bool :=
  ((s.db.channel channel).bind (·.suspension)).any fun p => p.expires.all (· > s.now)

/-- The bot assigned to a channel where it is known, else ChanServ. -/
def channelModeSource (channel : String) : String :=
  (((s.db.channel channel).bind (·.assignedBot)).bind fun bot => s.botUids[key bot]?).getD
    (s.chanService.getD "")

def isBot (uid : String) : Bool := s.botUids.toList.any fun b => b.2 == uid

/-- The status mode a user is entitled to on join, groups and all. -/
def joinMode (uid channel : String) : Option String :=
  (s.net.accountOf uid).bind (s.db.channelJoinMode channel)

/-! ### Joins -/

/-- RESTRICTED: only users with access, or operators, may be in the channel. -/
def restricts (uid channel : String) : Bool :=
  (s.joinMode uid channel).isNone && !s.isBot uid &&
    (s.db.channel channel).any (·.settings.restricted) &&
    !(s.net.accountOf uid).any s.operPrivs

/-- The channel gives status on join, and the user wants it. -/
def autoop (uid channel : String) : Bool :=
  (s.db.channel channel).all (!·.settings.noautoop) &&
    (s.net.accountOf uid).all s.db.accountWantsAutoop

/-- The auto-kick entry of a channel that a user matches. -/
def akicked (uid channel : String) : Option ChanAkick :=
  (s.net.banTarget uid).bind fun t =>
    (s.db.channel channel).bind fun c => c.akickMatch s.unicode t

def akickReason (k : ChanAkick) : String :=
  if k.reason = "" then "You are banned from this channel." else k.reason

/-- A user who matches an auto-kick entry is banned and kicked. -/
def akickHit (uid channel : String) : List NetAction :=
  match s.akicked uid channel with
  | none => []
  | some k =>
      let «from» := s.channelModeSource channel
      [.channelMode «from» channel ("+b " ++ k.mask), .kick «from» channel uid (akickReason k)]

/-- The assigned bot shows the greet of a member with status. -/
def greetOnJoin (uid channel : String) : List NetAction :=
  let said : Option NetAction := do
    let account ← s.net.accountOf uid
    let c ← s.db.channel channel
    if c.settings.botGreet && (c.joinMode account).isSome then
      let bot ← c.assignedBot
      let a ← s.db.accounts[key account]?
      let botUid ← s.net.uidByNick bot
      if a.greet = "" then none
      else
        some (.other
          (":" ++ botUid ++ " PRIVMSG " ++ channel ++ " :[" ++ account ++ "] " ++ a.greet))
    else none
  said.toList

/-- The entry message of a channel that has one. -/
def entryNotice (uid channel : String) : List NetAction :=
  (((s.db.channel channel).map (·.entrymsg)).filter (· ≠ "")).toList.map
    (.notice (s.channelModeSource channel) uid)

/-- A user with a status mode gets it with the entry message; any other is kicked for an
auto-kick entry, or gets the message. -/
def received (uid channel : String) (mode : Option String) : List NetAction :=
  let «from» := s.channelModeSource channel
  let met :=
    match mode with
    | some m =>
        s.entryNotice uid channel ++
          if s.autoop uid channel then [.channelMode «from» channel (statusMode m uid)] else []
    | none =>
        let hit := s.akickHit uid channel
        if hit.isEmpty then s.entryNotice uid channel else hit
  met ++ s.greetOnJoin uid channel

/-- What a join brings about by the channel's settings; `op` is whether the user arrives
opped. -/
def onJoin (uid channel : String) (op : Bool) : List NetAction :=
  if s.suspended channel then []
  else
    let «from» := s.channelModeSource channel
    let account := s.net.accountOf uid
    let access (f : ChannelInfo → String → Bool) :=
      account.any fun a => (s.db.channel channel).any (f · a)
    let deops := op && !s.isBot uid &&
      (access ChannelInfo.denied ||
        (!access ChannelInfo.isOp && (s.db.channel channel).any (·.settings.secureops)))
    (if deops then [.channelMode «from» channel ("-o " ++ uid)] else []) ++
      if s.restricts uid channel then [.kick «from» channel uid Dispatcher.restricted]
      else s.received uid channel (s.joinMode uid channel)

/-- A restricted channel turns away only those no entry confers a status mode on. -/
theorem joinMode_of_restricts {uid channel : String} (turned : s.restricts uid channel = true) :
    s.joinMode uid channel = none := by
  unfold restricts at turned
  simp only [Bool.and_eq_true, Option.isNone_iff_eq_none] at turned
  exact turned.1.1.1

/-- What a join brings about, the deop apart: a restricted channel's kick, or what a user
who may stay receives. -/
theorem exists_onJoin {P : NetAction → Prop} {uid channel : String}
    (other : ∀ source, ¬ P (.channelMode source channel ("-o " ++ uid))) (op : Bool) :
    (∃ a ∈ s.onJoin uid channel op, P a) ↔
      s.suspended channel = false ∧
        if s.restricts uid channel = true then
          P (.kick (s.channelModeSource channel) channel uid Dispatcher.restricted)
        else ∃ a ∈ s.received uid channel (s.joinMode uid channel), P a := by
  unfold onJoin
  by_cases suspended : s.suspended channel = true
  · rw [if_pos suspended, suspended]
    simp
  · rw [Bool.not_eq_true] at suspended
    rw [suspended, if_neg Bool.false_ne_true]
    dsimp only
    have deops : ∀ (deop : Prop) [Decidable deop],
        ∀ a ∈ (if deop then [NetAction.channelMode (s.channelModeSource channel) channel ("-o " ++ uid)]
          else []), ¬ P a := by
      intro deop _ a mem
      split at mem
      · cases List.mem_singleton.mp mem
        exact other _
      · cases mem
    constructor
    · rintro ⟨a, mem, holds⟩
      rcases List.mem_append.mp mem with deop | met
      · exact absurd holds (deops _ a deop)
      · refine ⟨rfl, ?_⟩
        by_cases turned : s.restricts uid channel = true
        · rw [if_pos turned] at met ⊢
          cases List.mem_singleton.mp met
          exact holds
        · rw [if_neg turned] at met ⊢
          exact ⟨a, met, holds⟩
    · rintro ⟨-, met⟩
      by_cases turned : s.restricts uid channel = true
      · rw [if_pos turned] at met ⊢
        exact ⟨_, List.mem_append_right _ (List.mem_singleton_self _), met⟩
      · rw [if_neg turned] at met ⊢
        obtain ⟨a, mem, holds⟩ := met
        exact ⟨a, List.mem_append_right _ mem, holds⟩

/-! ### Nick changes -/

/-- A user who was kicked is no longer in the channel. -/
def part (uid channel : String) : Scene :=
  { s with net := { s.net with
      banTarget := fun x =>
        if x = uid then
          (s.net.banTarget x).map fun t => { t with channels := t.channels.filter (· ≠ key channel) }
        else s.net.banTarget x
      channelsOf := fun x =>
        if x = uid then (s.net.channelsOf x).filter (· ≠ key channel) else s.net.channelsOf x
      channelMembers := fun x =>
        if key x = key channel then (s.net.channelMembers x).filter (· ≠ uid)
        else s.net.channelMembers x } }

/-- The akick check in each of the channels. -/
def akickSweep (s : Scene) (uid : String) : List String → List NetAction
  | [] => []
  | channel :: rest =>
      if s.suspended channel || (s.joinMode uid channel).isSome then s.akickSweep uid rest
      else
        let hit := s.akickHit uid channel
        hit ++ (if hit.isEmpty then s else s.part uid channel).akickSweep uid rest

/-- A user under a new nick is held against the auto-kick lists again. -/
def onNick (uid : String) : List NetAction := s.akickSweep uid (s.net.channelsOf uid)

/-! ### ChanServ -/

/-- The bot assigned to a channel where it is online, else the service itself. -/
def modeSource (me channel : String) : String :=
  (((s.db.channel channel).bind (·.assignedBot)).bind s.net.uidByNick).getD me

/-- UP: the status mode the sender's access entitles to. -/
def up (me uid channel : String) : List NetAction :=
  match s.net.accountOf uid with
  | none => [.notice me uid "You need to be logged in. Identify to NickServ first."]
  | some account =>
      match s.db.channel channel with
      | none => [.notice me uid ("\x02" ++ channel ++ "\x02 isn't registered.")]
      | some c =>
          if !(s.net.channelMembers channel).contains uid then
            [.notice me uid ("You're not in \x02" ++ channel ++ "\x02.")]
          else
            match c.view.joinMode account with
            | some mode =>
                [.channelMode (s.modeSource me channel) channel (statusMode mode uid),
                  .notice me uid ("Your status in \x02" ++ channel ++ "\x02 has been applied.")]
            | none => [.notice me uid ("You have no status access in \x02" ++ channel ++ "\x02.")]

/-- Whether the sender's account holds op access, or what is said where it does not. -/
def requireOp (account : Option String) (channel : String) : Except String Unit :=
  if s.suspended channel then
    .error ("\x02" ++ channel ++ "\x02 is suspended by network staff and can't be managed right now.")
  else
    match s.db.channel channel with
    | none => .error ("\x02" ++ channel ++ "\x02 isn't registered.")
    | some c =>
        if account.any fun a => (c.view.capsOf (some a)).op then .ok ()
        else .error ("You need operator access to \x02" ++ channel ++ "\x02.")

/-- What ENFORCE does to one who is present. -/
def enforceMember (me channel : String) (c : ChannelInfo) (uid : String) : List NetAction :=
  let src := s.modeSource me channel
  match (s.net.accountOf uid).bind c.view.joinMode with
  | some m => [.channelMode src channel (statusMode m uid)]
  | none =>
      match (s.net.banTarget uid).bind (c.akickMatch s.unicode) with
      | none => []
      | some k =>
          [.channelMode src channel ("+b " ++ k.mask), .kick src channel uid (akickReason k)]

/-- ENFORCE: the lock, the bans left to the ircd, and the access of everyone present. -/
def enforce (me sender : String) (account : Option String) (channel : String) : List NetAction :=
  match s.requireOp account channel, s.db.channel channel with
  | .error text, _ => [.notice me sender text]
  | .ok _, none => []
  | .ok _, some c =>
      let src := s.modeSource me channel
      .channelMode src channel c.lockModes ::
        ((c.akick.filter (ircdEnforced ·.mask)).map fun k => .channelMode src channel ("+b " ++ k.mask)) ++
        (s.net.channelMembers channel).flatMap (s.enforceMember me channel c) ++
        [.notice me sender ("Re-applied \x02" ++ channel ++ "\x02's settings to everyone present.")]

end Scene

/-! ### The join of the dispatcher -/

/-- The scene is what the host holds. -/
structure Parts.Shows {ρ : Type} (p : Parts ρ) (h : Host ρ) (s : Scene) : Prop where
  db : h.db = s.db
  accountOf : p.accountOf h.rest = s.net.accountOf
  isBot : p.isBot h.rest = s.isBot
  channelModeSource : p.channelModeSource h = s.channelModeSource
  operPrivs : p.operPrivs h = s.operPrivs

namespace Dispatcher

variable {ρ : Type} {p : Parts ρ} {e : Dispatcher ρ} {h h' : Host ρ} {s : Scene}
  {uid channel : String} {op : Bool} {out watch screened : List NetAction}

/-- What a join brings about in a scene is what the dispatcher sends for it, after what a
watch and the screening have said. -/
theorem join_eq_onJoin (joined : p.channelJoin uid channel op e.toHost = (h, watch))
    (screens : p.screenJoin uid channel h = (h', screened)) (before : p.Shows h s)
    (after : p.Shows h' s) (running : s.suspended channel = false)
    (received : p.received uid channel (s.joinMode uid channel) h' =
      (h', s.received uid channel (s.joinMode uid channel))) :
    e.join p s.now out uid channel op =
      finish p s.now { e with toHost := h' } out (watch ++ screened ++ s.onJoin uid channel op) := by
  have mode : (s.net.accountOf uid).bind (s.db.channelJoinMode channel) = s.joinMode uid channel :=
    rfl
  have open' : ({ e with toHost := h } : Dispatcher ρ).channelSuspended s.now channel = false := by
    unfold channelSuspended
    rw [before.db]
    exact running
  unfold join
  simp only [joined, open', screens, before.accountOf, before.isBot, before.channelModeSource,
    before.db, after.operPrivs, after.db, mode, received, if_neg Bool.false_ne_true]
  unfold Scene.onJoin
  rw [running, if_neg Bool.false_ne_true]
  dsimp only
  by_cases bites : s.restricts uid channel = true
  · have bites' := bites
    unfold Scene.restricts at bites'
    rw [if_pos bites', if_pos bites]
    simp only [List.append_assoc]
  · have bites' := bites
    unfold Scene.restricts at bites'
    rw [if_neg bites', if_neg bites]
    unfold finishWith
    simp only [List.append_assoc]

end Dispatcher

end Echo
