import Echo.Db.Types

/-!
The events of the log and the side each of them falls on: `Global` events are
account identity and network policy and replicate to every node, `Local` events
stay on the node that authored them.
-/

namespace Echo

/-- One logged change (`event.rs`, `Event`). -/
inductive Event where
  | accountRegistered (account : Account)
  | certAdded (account fp : String)
  | certRemoved (account fp : String)
  | accountEmailSet (account : String) (email : Option String)
  | accountGreetSet (account greet : String)
  | accountLanguageSet (account : String) (language : Option String)
  | accountSwhoisSet (account : String) (text : Option String)
  | accountSignoreSet (account : String) (list : List String)
  | accountPubkeySet (account : String) (pubkey : Option String)
  | accountProfileSet (account field : String) (value : Option String)
  | accountAutoOpSet (account : String) (on : Bool)
  | accountKillSet (account : String) (on : Bool)
  | accountHideStatusSet (account : String) (on : Bool)
  | accountSnoticeSet (account : String) (on : Bool)
  | accountPasswordSet (account scram256 scram512 : String)
  | accountDropped (account : String)
  | accountVerified (account : String)
  | ajoinAdded (account channel joinKey : String)
  | ajoinRemoved (account channel : String)
  | vhostSet (account host setter : String) (ts : Nat) (expires : Option Nat)
  | vhostDeleted (account : String)
  | vhostRequested (account host : String) (ts : Nat)
  | vhostRequestCleared (account : String)
  | accountSuspended (account «by» reason : String) (ts : Nat) (expires : Option Nat)
  | accountUnsuspended (account : String)
  | memoSent (account sender text : String) (ts : Nat) (receipt : Bool)
  | memoRead (account : String) (index : Nat)
  | memoDeleted (account : String) (index : Nat)
  | memoIgnoreAdd (account target : String)
  | memoIgnoreDel (account target : String)
  | memoPrefsSet (account : String) (notify : Bool) (limit : Option Nat)
  | nickGrouped (nick account : String)
  | nickUngrouped (nick : String)
  | channelRegistered (name founder : String) (ts : Nat)
  | channelDropped (name : String)
  | channelRenamed (old new : String)
  | channelMlock (name on off : String) (params : List (Char × String))
  | channelAccessAdd (channel account level : String)
  | channelAccessDel (channel account : String)
  | channelAkickAdd (channel mask reason : String)
  | channelAkickDel (channel mask : String)
  | channelLevelSet (channel cap role : String)
  | channelLevelReset (channel cap : String)
  | channelFounderSet (channel founder : String)
  | channelSuccessorSet (channel : String) (successor : Option String)
  | channelDescSet (channel desc : String)
  | channelEntryMsgSet (channel msg : String)
  | channelUrlSet (channel url : String)
  | channelEmailSet (channel email : String)
  | channelSettingsSet (channel : String) (settings : ChanSettings)
  | channelKickerSet (channel : String) (kickers : KickerSettings)
  | channelBadwordsSet (channel : String) (badwords : List String)
  | channelTriggersSet (channel : String) (triggers : List Trigger)
  | channelTopicSet (channel topic setter : String)
  | channelSuspended (channel «by» reason : String) (ts : Nat) (expires : Option Nat)
  | channelUnsuspended (channel : String)
  | channelBotAssigned (channel bot : String)
  | channelBotUnassigned (channel : String)
  | botAdded (bot : Bot)
  | botRemoved (nick : String)
  | defaultBotSet (bot : Option String)
  | vhostOfferAdded (host : String)
  | vhostOfferRemoved (host : String)
  | vhostForbidAdded (pattern : String)
  | vhostForbidRemoved (pattern : String)
  | vhostTemplateSet (template : Option String)
  | accountSeen (account : String) (ts : Nat)
  | channelUsed (channel : String) (ts : Nat)
  | accountNoExpire (account : String) (on : Bool)
  | channelNoExpire (channel : String) (on : Bool)
  | accountExpiryWarned (account : String)
  | channelExpiryWarned (channel : String)
  | accountOperNoteSet (account : String) (note : Option String)
  | channelOperNoteSet (channel : String) (note : Option String)
  | newsAdded (id : Nat) (kind text setter : String) (ts : Nat)
  | newsDeleted (id : Nat)
  | reportFiled (id : Nat) (reporter target reason : String) (ts : Nat)
  | reportClosed (id : Nat)
  | reportDeleted (id : Nat)
  | groupRegistered (name founder : String) (ts : Nat) (home : String)
  | groupDropped (name : String)
  | groupFounderSet (name founder : String)
  | groupFlagsSet (name account flags : String)
  | groupMemberDel (name account : String)
  | helpRequested (id : Nat) (requester message : String) (ts : Nat)
  | helpTaken (id : Nat) (handler : String)
  | helpClosed (id : Nat)
  | operGranted (account : String) (privs : List String) (expires : Option Nat)
  | operRevoked (account : String)
  | sessionExceptionAdded (mask : String) (limit : Nat) (reason : String)
  | sessionExceptionRemoved (mask : String)
  | akillAdded (kind mask setter reason : String) (ts : Nat) (expires : Option Nat)
  | akillRemoved (kind mask : String)
  | filterAdded (pattern action flags reason setter : String) (ts : Nat) (expires : Option Nat)
  | filterRemoved (pattern : String)
  | forbidAdded (kind mask setter reason : String) (ts : Nat)
  | forbidRemoved (kind mask : String)
  | notifyAdded (mask flags reason setter : String) (ts : Nat) (expires : Option Nat)
  | notifyRemoved (mask : String)
  | jupeAdded (name sid reason : String)
  | jupeRemoved (name : String)
  | statsSet (counters : List (String × Nat)) (channels : ChanStats)
  | incidentsSet (incidentSeq : Nat) (incidents : List (String × Nat × String))
  deriving DecidableEq, Repr

/-- Whether an event replicates across the federation. -/
inductive Scope where
  | global | «local»
  deriving DecidableEq, Repr

/-- The side an event falls on (`Event::scope`). -/
def Event.scope : Event → Scope
  | .accountRegistered ..
  | .certAdded ..
  | .certRemoved ..
  | .accountEmailSet ..
  | .accountGreetSet ..
  | .accountLanguageSet ..
  | .accountSwhoisSet ..
  | .accountSignoreSet ..
  | .accountPubkeySet ..
  | .accountProfileSet ..
  | .accountAutoOpSet ..
  | .accountKillSet ..
  | .accountHideStatusSet ..
  | .accountSnoticeSet ..
  | .accountPasswordSet ..
  | .accountDropped ..
  | .accountVerified ..
  | .ajoinAdded ..
  | .ajoinRemoved ..
  | .vhostSet ..
  | .vhostDeleted ..
  | .vhostRequested ..
  | .vhostRequestCleared ..
  | .accountSuspended ..
  | .accountUnsuspended ..
  | .memoSent ..
  | .memoRead ..
  | .memoDeleted ..
  | .memoIgnoreAdd ..
  | .memoIgnoreDel ..
  | .memoPrefsSet ..
  | .nickGrouped ..
  | .nickUngrouped ..
  | .accountSeen ..
  | .accountNoExpire ..
  | .accountExpiryWarned ..
  | .accountOperNoteSet ..
  | .akillAdded ..
  | .akillRemoved ..
  | .filterAdded ..
  | .filterRemoved ..
  | .forbidAdded ..
  | .forbidRemoved ..
  | .notifyAdded ..
  | .notifyRemoved ..
  | .groupRegistered ..
  | .groupDropped ..
  | .groupFounderSet ..
  | .groupFlagsSet ..
  | .groupMemberDel ..
  | .operGranted ..
  | .operRevoked ..
  | .sessionExceptionAdded ..
  | .sessionExceptionRemoved .. => .global
  | .channelRegistered ..
  | .channelDropped ..
  | .channelRenamed ..
  | .channelMlock ..
  | .channelAccessAdd ..
  | .channelAccessDel ..
  | .channelAkickAdd ..
  | .channelAkickDel ..
  | .channelLevelSet ..
  | .channelLevelReset ..
  | .channelFounderSet ..
  | .channelSuccessorSet ..
  | .channelDescSet ..
  | .channelEntryMsgSet ..
  | .channelUrlSet ..
  | .channelEmailSet ..
  | .channelSettingsSet ..
  | .channelKickerSet ..
  | .channelBadwordsSet ..
  | .channelTriggersSet ..
  | .channelTopicSet ..
  | .channelSuspended ..
  | .channelUnsuspended ..
  | .channelBotAssigned ..
  | .channelBotUnassigned ..
  | .botAdded ..
  | .botRemoved ..
  | .defaultBotSet ..
  | .vhostOfferAdded ..
  | .vhostOfferRemoved ..
  | .vhostForbidAdded ..
  | .vhostForbidRemoved ..
  | .vhostTemplateSet ..
  | .channelUsed ..
  | .channelNoExpire ..
  | .channelExpiryWarned ..
  | .channelOperNoteSet ..
  | .jupeAdded ..
  | .jupeRemoved ..
  | .statsSet ..
  | .incidentsSet ..
  | .newsAdded ..
  | .newsDeleted ..
  | .reportFiled ..
  | .reportClosed ..
  | .reportDeleted ..
  | .helpRequested ..
  | .helpTaken ..
  | .helpClosed .. => .«local»

/-- A Global event, as a test. -/
def Event.isGlobal (e : Event) : Bool := e.scope == .global

theorem Event.isGlobal_iff {e : Event} : e.isGlobal = true ↔ e.scope = .global := by
  simp [Event.isGlobal]

end Echo
