import Echo.Db.Base
import Echo.Db.Wf

/-!
Compaction (`mod.rs`, `Db::compact`): the store rewritten as the events that
rebuild it, one group of events for each thing it holds.
-/

namespace Echo

open Echo.Lib

/-- One event if the condition holds, none if not. -/
def oneIf (p : Prop) [Decidable p] (event : Event) : List Event := if p then [event] else []

/-- One event if there is something to say. -/
def oneFor {α : Type} (value : Option α) (event : α → Event) : List Event :=
  (value.map event).toList

/-- Whether an entry with this expiry still stands. -/
def live (now : Nat) (expires : Option Nat) : Bool := expires.all (· > now)

namespace ChannelInfo

/-- The registration, the last use, which a registration puts back at its own
time, and the mode lock. -/
def snapshotBase (c : ChannelInfo) : List Event :=
  [.channelRegistered c.name c.founder c.ts] ++
  oneIf (c.lastUsed > c.ts) (.channelUsed c.name c.lastUsed) ++
  oneIf (c.lockOn ≠ "" ∨ c.lockOff ≠ "")
    (.channelMlock c.name c.lockOn c.lockOff c.lockParams)

def snapshotLists (c : ChannelInfo) : List Event :=
  c.access.map (fun a => .channelAccessAdd c.name a.account a.level) ++
  c.levels.map (fun l => .channelLevelSet c.name l.1 l.2) ++
  c.akick.map (fun k => .channelAkickAdd c.name k.mask k.reason)

def snapshotTexts (c : ChannelInfo) : List Event :=
  oneIf (c.desc ≠ "") (.channelDescSet c.name c.desc) ++
  oneIf (c.entrymsg ≠ "") (.channelEntryMsgSet c.name c.entrymsg) ++
  oneIf (c.url ≠ "") (.channelUrlSet c.name c.url) ++
  oneIf (c.email ≠ "") (.channelEmailSet c.name c.email) ++
  oneFor c.successor (fun s => .channelSuccessorSet c.name (some s))

def snapshotFlags (c : ChannelInfo) : List Event :=
  oneIf (c.noexpire = true) (.channelNoExpire c.name true) ++
  oneIf (c.expiryWarned = true) (.channelExpiryWarned c.name) ++
  oneIf (c.settings ≠ {}) (.channelSettingsSet c.name c.settings) ++
  oneIf (c.topic ≠ "") (.channelTopicSet c.name c.topic c.topicSetter) ++
  oneFor c.suspension (fun s => .channelSuspended c.name s.by s.reason s.ts s.expires)

def snapshotBot (c : ChannelInfo) : List Event :=
  oneFor c.assignedBot (fun bot => .channelBotAssigned c.name bot) ++
  oneIf (c.kickers ≠ {}) (.channelKickerSet c.name c.kickers) ++
  oneIf (c.badwords ≠ []) (.channelBadwordsSet c.name c.badwords) ++
  oneIf (c.triggers ≠ []) (.channelTriggersSet c.name c.triggers) ++
  oneFor c.operNote (fun note => .channelOperNoteSet c.name (some note))

/-- The events that rebuild one channel. -/
def snapshot (c : ChannelInfo) : List Event :=
  c.snapshotBase ++ c.snapshotLists ++ c.snapshotTexts ++ c.snapshotFlags ++ c.snapshotBot

end ChannelInfo

def Report.snapshot (r : Report) : List Event :=
  [.reportFiled r.id r.reporter r.target r.reason r.ts] ++
  oneIf (r.open = false) (.reportClosed r.id)

def HelpTicket.snapshot (t : HelpTicket) : List Event :=
  [.helpRequested t.id t.requester t.message t.ts] ++
  oneFor t.handler (.helpTaken t.id) ++
  oneIf (t.open = false) (.helpClosed t.id)

def Group.snapshot (g : Group) : List Event :=
  [.groupRegistered g.name g.founder g.ts g.home] ++
  g.members.map fun m => .groupFlagsSet g.name m.account m.flags

namespace NetData

/-- The default bot, the statistics and the incidents. -/
def snapshotHead (n : NetData) : List Event :=
  oneFor n.defaultBot (fun k => .defaultBotSet (some k)) ++
  oneIf (n.stats ≠ ∅ ∨ n.chanStats ≠ []) (.statsSet n.stats.toList n.chanStats) ++
  oneIf (n.incidents ≠ []) (.incidentsSet n.incidentSeq n.incidents)

/-- The bans and watches, those with an expiry without what has expired. -/
def snapshotBans (now : Nat) (n : NetData) : List Event :=
  n.forbids.map (fun f => .forbidAdded f.kind f.mask f.setter f.reason f.ts) ++
  (n.notifies.filter (live now ·.expires)).map
    (fun x => .notifyAdded x.mask x.flags x.reason x.setter x.ts x.expires) ++
  (n.akills.filter (live now ·.expires)).map
    (fun a => .akillAdded a.kind a.mask a.setter a.reason a.ts a.expires) ++
  (n.filters.filter (live now ·.expires)).map
    (fun f => .filterAdded f.pattern f.action f.flags f.reason f.setter f.ts f.expires)

def snapshotDesk (n : NetData) : List Event :=
  n.news.map (fun x => .newsAdded x.id x.kind x.text x.setter x.ts) ++
  n.reports.flatMap Report.snapshot ++
  n.groups.flatMap Group.snapshot ++
  n.help.flatMap HelpTicket.snapshot

def snapshotOpers (env : Env) (n : NetData) : List Event :=
  (env.entries n.opers).map (fun (account, grant) =>
    .operGranted account grant.privs grant.expires) ++
  n.sessExceptions.map (fun e => .sessionExceptionAdded e.mask e.limit e.reason) ++
  n.jupes.map (fun j => .jupeAdded j.name j.sid j.reason)

end NetData

def HostConfig.snapshot (h : HostConfig) : List Event :=
  h.offers.map .vhostOfferAdded ++
  h.forbidden.map .vhostForbidAdded ++
  oneFor h.template (fun t => .vhostTemplateSet (some t))

/-- The events a compaction writes. -/
def Store.snapshot (env : Env) (s : Store) : List Event :=
  (env.values s.accounts).map .accountRegistered ++
  (env.values s.channels).flatMap ChannelInfo.snapshot ++
  (env.entries s.grouped).map (fun (nick, account) => .nickGrouped nick account) ++
  (env.values s.bots).map .botAdded ++
  s.net.snapshotHead ++
  s.hostCfg.snapshot ++
  s.net.snapshotBans env.now ++
  s.net.snapshotDesk ++
  s.net.snapshotOpers env

namespace Db

/-- Rewrite the log to the snapshot of the store. -/
def compact (env : Env) : DbM IoError Unit := do
  let db ← get
  let attempt := db.log.compact (db.toStore.snapshot env)
  set { db with log := attempt.1 }
  match attempt.2 with
  | .ok () => pure ()
  | .error e => throw e

end Db

end Echo
