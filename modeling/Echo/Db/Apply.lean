import Echo.Db.Event
import Echo.Lib.Keyed

/-!
The fold of the log (`event.rs`, `apply`): one event into the store. Replay at
start-up, compaction and gossip all rebuild state through this function.
-/

namespace Echo

open Echo.Lib

/-- Whether `held` is the rightful owner over a rival `claim` to the same name:
the earlier registration, ties broken by the lower home. -/
def precedes (held claim : Nat × String) : Bool :=
  decide (held.1 < claim.1 ∨ held.1 = claim.1 ∧ held.2 < claim.2)

def ownsOver (held claim : Account) : Bool :=
  precedes (held.ts, held.home) (claim.ts, claim.home)

namespace Store

/-- `accounts.get_mut(&key(account))`, when there is one. -/
def adjustAccount (s : Store) (account : String) (f : Account → Account) : Store :=
  { s with accounts := s.accounts.modify (key account) f }

/-- `channels.get_mut(&key(channel))`, when there is one. -/
def adjustChannel (s : Store) (channel : String) (f : ChannelInfo → ChannelInfo) : Store :=
  { s with channels := s.channels.modify (key channel) f }

def adjustNet (s : Store) (f : NetData → NetData) : Store :=
  { s with net := f s.net }

def adjustHost (s : Store) (f : HostConfig → HostConfig) : Store :=
  { s with hostCfg := f s.hostCfg }

/-- Edit the group named `name`, the first with its key. -/
def adjustGroup (s : Store) (name : String) (f : Group → Group) : Store :=
  s.adjustNet fun n =>
    { n with groups := modifyFirst (fun g => key g.name == key name) f n.groups }

/-- The part of `purge_account_refs` that reaches into one channel. -/
def purgeChannel (account : String) (c : ChannelInfo) : ChannelInfo :=
  { c with
    access := c.access.filter fun a => !eqIgnoreAsciiCase a.account account
    successor :=
      if c.successor.any fun s => eqIgnoreAsciiCase s account then none else c.successor }

def purgeMembers (account : String) (g : Group) : Group :=
  { g with members := g.members.filter fun m => !eqIgnoreAsciiCase m.account account }

/-- Erase every remaining reference to a gone account: its aliases, its channel
access and successorships, its group memberships and the groups it founded. -/
def purgeAccountRefs (s : Store) (account : String) : Store :=
  { s with
    grouped := s.grouped.filter fun _ a => !eqIgnoreAsciiCase a account
    channels := s.channels.map fun _ c => purgeChannel account c
    net := { s.net with
      groups := (s.net.groups.map (purgeMembers account)).filter fun g =>
        !eqIgnoreAsciiCase g.founder account } }

end Store

/-- The channel a registration creates: every setting at its default. -/
def newChannel (name founder : String) (ts : Nat) : ChannelInfo :=
  { name, founder, ts, lastUsed := ts }

/-- The fold of a registration over the groups held so far. -/
def registerGroup (claim : Group) (groups : List Group) : List Group :=
  if groups.any (fun g => key g.name == key claim.name) then
    modifyFirst (fun g => key g.name == key claim.name)
      (fun held =>
        if precedes (held.ts, held.home) (claim.ts, claim.home) then held else claim) groups
  else groups ++ [claim]

/-- The mailbox cap an account that set none has. -/
def defaultMemoLimit : Nat := 30

def Account.memoCap (a : Account) : Nat := a.memoLimit.getD defaultMemoLimit

/-- Whether two network-ban or forbid entries are the same one: the kind as
stored, the mask in any case. -/
def sameLine (kind mask kind' mask' : String) : Bool :=
  kind == kind' && eqIgnoreAsciiCase mask mask'

/-- Fold one event into the store. -/
def apply (s : Store) : Event → Store
  | .accountRegistered a =>
      if (s.accounts[key a.name]?).any fun cur => ownsOver cur a then s
      else { s with accounts := s.accounts.insert (key a.name) a }
  | .certAdded account fp =>
      s.adjustAccount account fun a =>
        if a.certfps.contains fp then a else { a with certfps := a.certfps ++ [fp] }
  | .certRemoved account fp =>
      s.adjustAccount account fun a => { a with certfps := a.certfps.filter (· != fp) }
  | .accountEmailSet account email =>
      s.adjustAccount account fun a => { a with email }
  | .accountPubkeySet account pubkey =>
      s.adjustAccount account fun a => { a with pubkey }
  | .accountGreetSet account greet =>
      s.adjustAccount account fun a => { a with greet }
  | .accountLanguageSet account language =>
      s.adjustAccount account fun a => { a with language }
  | .accountSwhoisSet account text =>
      s.adjustAccount account fun a => { a with swhois := text }
  | .accountSignoreSet account list =>
      s.adjustAccount account fun a => { a with signore := list }
  | .accountProfileSet account field value =>
      match ProfileField.parse field with
      | some f => s.adjustAccount account fun a => { a with profile := a.profile.set f value }
      | none => s
  | .accountAutoOpSet account on =>
      s.adjustAccount account fun a => { a with noAutoop := !on }
  | .accountKillSet account on =>
      s.adjustAccount account fun a => { a with noProtect := !on }
  | .accountHideStatusSet account on =>
      s.adjustAccount account fun a => { a with hideStatus := on }
  | .accountSnoticeSet account on =>
      s.adjustAccount account fun a => { a with snotice := on }
  | .accountPasswordSet account scram256 scram512 =>
      s.adjustAccount account fun a =>
        { a with
          scram256 := some scram256
          -- Empty is "not provided": a verifier-only backfill sets SHA-256 alone.
          scram512 := if scram512.isEmpty then none else some scram512 }
  | .accountDropped account =>
      Store.purgeAccountRefs { s with accounts := s.accounts.erase (key account) } account
  | .accountVerified account =>
      s.adjustAccount account fun a => { a with verified := true }
  | .ajoinAdded account channel joinKey =>
      s.adjustAccount account fun a =>
        { a with ajoin :=
            a.ajoin.filter (fun e => !eqIgnoreAsciiCase e.channel channel) ++ [⟨channel, joinKey⟩] }
  | .ajoinRemoved account channel =>
      s.adjustAccount account fun a =>
        { a with ajoin := a.ajoin.filter fun e => !eqIgnoreAsciiCase e.channel channel }
  | .vhostSet account host setter ts expires =>
      s.adjustAccount account fun a => { a with vhost := some ⟨host, setter, ts, expires⟩ }
  | .vhostDeleted account =>
      s.adjustAccount account fun a => { a with vhost := none }
  | .vhostRequested account host ts =>
      s.adjustAccount account fun a => { a with vhostRequest := some ⟨host, ts⟩ }
  | .vhostRequestCleared account =>
      s.adjustAccount account fun a => { a with vhostRequest := none }
  | .accountSuspended account «by» reason ts expires =>
      s.adjustAccount account fun a => { a with suspension := some ⟨«by», reason, ts, expires⟩ }
  | .accountUnsuspended account =>
      s.adjustAccount account fun a => { a with suspension := none }
  | .memoSent account sender text ts receipt =>
      -- The fold enforces the mailbox cap, so a peer cannot flood past it.
      s.adjustAccount account fun a =>
        if a.memos.length < a.memoCap then
          { a with memos := a.memos ++ [⟨sender, text, ts, false, receipt⟩] }
        else a
  | .memoRead account index =>
      s.adjustAccount account fun a =>
        { a with memos := a.memos.modify index fun m => { m with read := true } }
  | .memoDeleted account index =>
      s.adjustAccount account fun a => { a with memos := a.memos.eraseIdx index }
  | .memoIgnoreAdd account target =>
      s.adjustAccount account fun a =>
        if a.memoIgnore.any fun t => eqIgnoreAsciiCase t target then a
        else { a with memoIgnore := a.memoIgnore ++ [target] }
  | .memoIgnoreDel account target =>
      s.adjustAccount account fun a =>
        { a with memoIgnore := a.memoIgnore.filter fun t => !eqIgnoreAsciiCase t target }
  | .memoPrefsSet account notify limit =>
      s.adjustAccount account fun a => { a with memoNotify := notify, memoLimit := limit }
  | .nickGrouped nick account =>
      { s with grouped := s.grouped.insert (key nick) account }
  | .nickUngrouped nick =>
      { s with grouped := s.grouped.erase (key nick) }
  | .channelRegistered name founder ts =>
      { s with channels := s.channels.insert (key name) (newChannel name founder ts) }
  | .channelDropped name =>
      { s with channels := s.channels.erase (key name) }
  | .channelRenamed old new =>
      match s.channels[key old]? with
      | some c =>
          { s with channels := (s.channels.erase (key old)).insert (key new) { c with name := new } }
      | none => s
  | .channelMlock name on off params =>
      s.adjustChannel name fun c => { c with lockOn := on, lockOff := off, lockParams := params }
  | .channelAccessAdd channel account level =>
      s.adjustChannel channel fun c =>
        { c with access :=
            c.access.filter (fun a => !eqIgnoreAsciiCase a.account account) ++ [⟨account, level⟩] }
  | .channelAccessDel channel account =>
      s.adjustChannel channel fun c =>
        { c with access := c.access.filter fun a => !eqIgnoreAsciiCase a.account account }
  | .channelAkickAdd channel mask reason =>
      s.adjustChannel channel fun c =>
        { c with akick :=
            c.akick.filter (fun k => !eqIgnoreAsciiCase k.mask mask) ++ [⟨mask, reason⟩] }
  | .channelAkickDel channel mask =>
      s.adjustChannel channel fun c =>
        { c with akick := c.akick.filter fun k => !eqIgnoreAsciiCase k.mask mask }
  | .channelLevelSet channel cap role =>
      s.adjustChannel channel fun c =>
        { c with levels :=
            c.levels.filter (fun l => !eqIgnoreAsciiCase l.1 cap) ++ [(cap, role)] }
  | .channelLevelReset channel cap =>
      s.adjustChannel channel fun c =>
        { c with levels := c.levels.filter fun l => !eqIgnoreAsciiCase l.1 cap }
  | .channelFounderSet channel founder =>
      s.adjustChannel channel fun c => { c with founder }
  | .channelSuccessorSet channel successor =>
      s.adjustChannel channel fun c => { c with successor }
  | .channelDescSet channel desc =>
      s.adjustChannel channel fun c => { c with desc }
  | .channelUrlSet channel url =>
      s.adjustChannel channel fun c => { c with url }
  | .channelEmailSet channel email =>
      s.adjustChannel channel fun c => { c with email }
  | .channelSettingsSet channel settings =>
      s.adjustChannel channel fun c => { c with settings }
  | .channelKickerSet channel kickers =>
      s.adjustChannel channel fun c => { c with kickers }
  | .channelBadwordsSet channel badwords =>
      s.adjustChannel channel fun c => { c with badwords, badwordsRev := c.badwordsRev + 1 }
  | .channelTriggersSet channel triggers =>
      s.adjustChannel channel fun c => { c with triggers, triggersRev := c.triggersRev + 1 }
  | .channelTopicSet channel topic setter =>
      s.adjustChannel channel fun c => { c with topic, topicSetter := setter }
  | .channelSuspended channel «by» reason ts expires =>
      s.adjustChannel channel fun c => { c with suspension := some ⟨«by», reason, ts, expires⟩ }
  | .channelUnsuspended channel =>
      s.adjustChannel channel fun c => { c with suspension := none }
  | .channelBotAssigned channel bot =>
      s.adjustChannel channel fun c => { c with assignedBot := some bot }
  | .channelBotUnassigned channel =>
      s.adjustChannel channel fun c => { c with assignedBot := none }
  | .botAdded b =>
      { s with bots := s.bots.insert (key b.nick) b }
  | .botRemoved nick =>
      -- A default bot that was just removed cannot stay the default.
      { s with
        bots := s.bots.erase (key nick)
        net := if s.net.defaultBot = some (key nick) then { s.net with defaultBot := none }
          else s.net }
  | .defaultBotSet bot =>
      s.adjustNet fun n => { n with defaultBot := bot.map key }
  | .vhostOfferAdded host =>
      s.adjustHost fun h =>
        if h.offers.any (· == host) then h else { h with offers := h.offers ++ [host] }
  | .vhostOfferRemoved host =>
      s.adjustHost fun h => { h with offers := h.offers.filter (· != host) }
  | .vhostForbidAdded pattern =>
      s.adjustHost fun h =>
        if h.forbidden.any (· == pattern) then h
        else { h with forbidden := h.forbidden ++ [pattern] }
  | .vhostForbidRemoved pattern =>
      s.adjustHost fun h => { h with forbidden := h.forbidden.filter (· != pattern) }
  | .vhostTemplateSet template =>
      s.adjustHost fun h => { h with template }
  | .channelEntryMsgSet channel msg =>
      s.adjustChannel channel fun c => { c with entrymsg := msg }
  | .accountSeen account ts =>
      -- Monotonic, and activity clears the warning so a later idle spell warns afresh.
      s.adjustAccount account fun a =>
        { a with lastSeen := max a.lastSeen ts, expiryWarned := false }
  | .channelUsed channel ts =>
      s.adjustChannel channel fun c =>
        { c with lastUsed := max c.lastUsed ts, expiryWarned := false }
  | .accountNoExpire account on =>
      s.adjustAccount account fun a => { a with noexpire := on }
  | .channelNoExpire channel on =>
      s.adjustChannel channel fun c => { c with noexpire := on }
  | .akillAdded kind mask setter reason ts expires =>
      s.adjustNet fun n =>
        { n with akills :=
            n.akills.filter (fun a => !sameLine a.kind a.mask kind mask) ++
              [⟨kind, mask, setter, reason, ts, expires⟩] }
  | .akillRemoved kind mask =>
      s.adjustNet fun n =>
        { n with akills := n.akills.filter fun a => !sameLine a.kind a.mask kind mask }
  | .filterAdded pattern action flags reason setter ts expires =>
      s.adjustNet fun n =>
        { n with filters :=
            n.filters.filter (fun f => !eqIgnoreAsciiCase f.pattern pattern) ++
              [⟨pattern, action, flags, reason, setter, ts, expires⟩] }
  | .filterRemoved pattern =>
      s.adjustNet fun n =>
        { n with filters := n.filters.filter fun f => !eqIgnoreAsciiCase f.pattern pattern }
  | .forbidAdded kind mask setter reason ts =>
      s.adjustNet fun n =>
        { n with forbids :=
            n.forbids.filter (fun f => !sameLine f.kind f.mask kind mask) ++
              [⟨kind, mask, setter, reason, ts⟩] }
  | .forbidRemoved kind mask =>
      s.adjustNet fun n =>
        { n with forbids := n.forbids.filter fun f => !sameLine f.kind f.mask kind mask }
  | .notifyAdded mask flags reason setter ts expires =>
      s.adjustNet fun n =>
        { n with notifies :=
            n.notifies.filter (fun x => !eqIgnoreAsciiCase x.mask mask) ++
              [⟨mask, flags, reason, setter, ts, expires⟩] }
  | .notifyRemoved mask =>
      s.adjustNet fun n =>
        { n with notifies := n.notifies.filter fun x => !eqIgnoreAsciiCase x.mask mask }
  | .jupeAdded name sid reason =>
      -- Idempotent; the counter stays ahead so a fresh add cannot reuse a sid.
      s.adjustNet fun n =>
        if n.jupes.any fun j => eqIgnoreAsciiCase j.name name then n
        else { n with jupes := n.jupes ++ [⟨name, sid, reason⟩], jupeSeq := n.jupeSeq + 1 }
  | .jupeRemoved name =>
      s.adjustNet fun n =>
        { n with jupes := n.jupes.filter fun j => !eqIgnoreAsciiCase j.name name }
  | .statsSet counters channels =>
      s.adjustNet fun n =>
        { n with
          stats := counters.foldl (fun m c => m.insert c.1 c.2) ∅
          chanStats := channels }
  | .incidentsSet incidentSeq incidents =>
      s.adjustNet fun n => { n with incidentSeq, incidents }
  | .accountExpiryWarned account =>
      s.adjustAccount account fun a => { a with expiryWarned := true }
  | .channelExpiryWarned channel =>
      s.adjustChannel channel fun c => { c with expiryWarned := true }
  | .accountOperNoteSet account note =>
      s.adjustAccount account fun a => { a with operNote := note }
  | .channelOperNoteSet channel note =>
      s.adjustChannel channel fun c => { c with operNote := note }
  | .newsAdded id kind text setter ts =>
      s.adjustNet fun n =>
        { n with
          newsSeq := max n.newsSeq (id + 1)
          news := if n.news.any fun x => x.id == id then n.news
            else n.news ++ [⟨id, kind, text, setter, ts⟩] }
  | .newsDeleted id =>
      s.adjustNet fun n => { n with news := n.news.filter fun x => x.id != id }
  | .reportFiled id reporter target reason ts =>
      s.adjustNet fun n =>
        { n with
          reportSeq := max n.reportSeq (id + 1)
          reports := if n.reports.any fun r => r.id == id then n.reports
            else n.reports ++ [⟨id, reporter, target, reason, ts, true⟩] }
  | .reportClosed id =>
      s.adjustNet fun n =>
        { n with reports :=
            modifyFirst (fun r => r.id == id) (fun r => { r with «open» := false }) n.reports }
  | .reportDeleted id =>
      s.adjustNet fun n => { n with reports := n.reports.filter fun r => r.id != id }
  | .groupRegistered name founder ts home =>
      s.adjustNet fun n =>
        { n with groups := registerGroup ⟨name, founder, ts, home, []⟩ n.groups }
  | .groupDropped name =>
      s.adjustNet fun n => { n with groups := n.groups.filter fun g => key g.name != key name }
  | .groupFounderSet name founder =>
      s.adjustGroup name fun g => { g with founder }
  | .groupFlagsSet name account flags =>
      s.adjustGroup name fun g =>
        { g with members :=
            g.members.filter (fun m => !eqIgnoreAsciiCase m.account account) ++
              [⟨account, flags⟩] }
  | .groupMemberDel name account =>
      s.adjustGroup name fun g =>
        { g with members := g.members.filter fun m => !eqIgnoreAsciiCase m.account account }
  | .helpRequested id requester message ts =>
      s.adjustNet fun n =>
        { n with
          helpSeq := max n.helpSeq (id + 1)
          help := if n.help.any fun t => t.id == id then n.help
            else n.help ++ [⟨id, requester, message, ts, none, true⟩] }
  | .helpTaken id handler =>
      s.adjustNet fun n =>
        { n with help :=
            modifyFirst (fun t => t.id == id) (fun t => { t with handler := some handler }) n.help }
  | .helpClosed id =>
      s.adjustNet fun n =>
        { n with help :=
            modifyFirst (fun t => t.id == id) (fun t => { t with «open» := false }) n.help }
  | .operGranted account privs expires =>
      s.adjustNet fun n => { n with opers := n.opers.insert (key account) ⟨privs, expires⟩ }
  | .operRevoked account =>
      s.adjustNet fun n => { n with opers := n.opers.erase (key account) }
  | .sessionExceptionAdded mask limit reason =>
      s.adjustNet fun n =>
        { n with sessExceptions :=
            n.sessExceptions.filter (fun e => !eqIgnoreAsciiCase e.mask mask) ++
              [⟨mask, limit, reason⟩] }
  | .sessionExceptionRemoved mask =>
      s.adjustNet fun n =>
        { n with sessExceptions :=
            n.sessExceptions.filter fun e => !eqIgnoreAsciiCase e.mask mask }

/-- Fold a sequence of events, oldest first. -/
def fold (s : Store) (events : List Event) : Store := events.foldl apply s

@[simp] theorem fold_nil (s : Store) : fold s [] = s := rfl

@[simp] theorem fold_cons (s : Store) (e : Event) (es : List Event) :
    fold s (e :: es) = fold (apply s e) es := rfl

theorem fold_append (s : Store) (es es' : List Event) :
    fold s (es ++ es') = fold (fold s es) es' := List.foldl_append

theorem fold_concat (s : Store) (es : List Event) (e : Event) :
    fold s (es ++ [e]) = apply (fold s es) e := by
  rw [fold_append]
  rfl

end Echo
