import Echo.Db.Persisted
import Echo.Db.Run

/-!
The core of a store: who holds which account, alias, channel and group, and who
is named where. A call that ignores a refused write lets the records in memory
run ahead of the log; it does so only outside the core, so the core in memory is
always the one a restart rebuilds, and each call moves it by events that its
guards permit.

Operator grants are written the same careless way. `opers` says whether the core
has them: with them, a call still moves the core by permitted events, but not
only by those it logged.
-/

namespace Echo

open Std (ExtTreeMap)
open Echo.Lib
open EventLog (Appends)

/-! ### The core -/

/-- An account without its mailbox, its activity and its staff note. -/
def Account.core (a : Account) : Account :=
  { a with
    memos := [], memoIgnore := [], memoNotify := true, memoLimit := none
    lastSeen := 0, expiryWarned := false, operNote := none }

/-- A channel without its activity, its staff note, its bot and what a
compaction may forget. -/
def ChannelInfo.core (c : ChannelInfo) : ChannelInfo :=
  { c with
    lockParams := [], topicSetter := "", badwordsRev := 0, triggersRev := 0
    lastUsed := 0, expiryWarned := false, operNote := none, assignedBot := none }

def NetData.core (opers : Bool) (n : NetData) : NetData :=
  { groups := n.groups, opers := if opers then n.opers else ∅ }

def Store.core (opers : Bool) (s : Store) : Store where
  accounts := s.accounts.map fun _ a => a.core
  channels := s.channels.map fun _ c => c.core
  grouped := s.grouped
  net := s.net.core opers

section Core

variable {opers : Bool} {s t : Store}

@[simp] theorem NetData.core_core (n : NetData) : (n.core opers).core opers = n.core opers := by
  unfold core
  cases opers <;> rfl

@[simp] theorem Store.core_core (s : Store) : (s.core opers).core opers = s.core opers := by
  unfold core
  simp only [map_map, NetData.core_core]
  rfl

theorem Store.core_getElem?_accounts (k : String) :
    (s.core opers).accounts[k]? = s.accounts[k]?.map Account.core := ExtTreeMap.getElem?_map

theorem Store.core_getElem?_channels (k : String) :
    (s.core opers).channels[k]? = s.channels[k]?.map ChannelInfo.core := ExtTreeMap.getElem?_map

theorem Store.core_channel (opers : Bool) {k : String} {c : ChannelInfo}
    (held : s.channels[k]? = some c) : (s.core opers).channels[k]? = some c.core := by
  rw [core_getElem?_channels, held]
  rfl

theorem Store.core_contains (k : String) :
    (s.core opers).accounts.contains k = s.accounts.contains k := by
  rw [← ExtTreeMap.isSome_getElem?_eq_contains, ← ExtTreeMap.isSome_getElem?_eq_contains,
    core_getElem?_accounts, Option.isSome_map]

/-- Two stores have one core when they agree part by part. -/
theorem Store.core_congr
    (accounts : s.accounts.map (fun _ a => a.core) = t.accounts.map fun _ a => a.core)
    (channels : s.channels.map (fun _ c => c.core) = t.channels.map fun _ c => c.core)
    (grouped : s.grouped = t.grouped) (net : s.net.core opers = t.net.core opers) :
    s.core opers = t.core opers := by
  unfold core
  rw [accounts, channels, grouped, net]

theorem map_core_accounts (m : Table Account) :
    (m.map fun _ a => a.core).map (fun _ a => a.core) = m.map fun _ a => a.core := by
  rw [map_map]
  rfl

theorem map_core_channels (m : Table ChannelInfo) :
    (m.map fun _ c => c.core).map (fun _ c => c.core) = m.map fun _ c => c.core := by
  rw [map_map]
  rfl

theorem Store.core_adjustAccount {account : String} {f : Account → Account}
    (blind : ∀ a, (f a.core).core = (f a).core) :
    ((s.core opers).adjustAccount account f).core opers =
      (s.adjustAccount account f).core opers :=
  core_congr (map_modify_map (fun _ => rfl) blind) (map_core_channels _) rfl (NetData.core_core _)

theorem Store.core_adjustChannel {channel : String} {f : ChannelInfo → ChannelInfo}
    (blind : ∀ c, (f c.core).core = (f c).core) :
    ((s.core opers).adjustChannel channel f).core opers =
      (s.adjustChannel channel f).core opers :=
  core_congr (map_core_accounts _) (map_modify_map (fun _ => rfl) blind) rfl (NetData.core_core _)

theorem Store.core_adjustNet {f : NetData → NetData}
    (blind : (f (s.net.core opers)).core opers = (f s.net).core opers) :
    ((s.core opers).adjustNet f).core opers = (s.adjustNet f).core opers :=
  core_congr (map_core_accounts _) (map_core_channels _) rfl blind

/-- The fold does not see what is outside the core. -/
theorem apply_core (s : Store) (e : Event) :
    (apply (s.core opers) e).core opers = (apply s e).core opers := by
  cases e with
  | accountRegistered a =>
      have same : ((s.core opers).accounts[key a.name]?).any (ownsOver · a) =
          (s.accounts[key a.name]?).any (ownsOver · a) := by
        rw [Store.core_getElem?_accounts, Option.any_map]
        rfl
      simp only [apply, same]
      split
      · exact s.core_core
      · refine Store.core_congr ?_ (map_core_channels _) rfl (NetData.core_core _)
        change ((s.accounts.map fun _ a => a.core).insert (key a.name) a).map _ = _
        rw [map_insert, map_insert, map_core_accounts]
  | accountDropped account =>
      refine Store.core_congr ?_ ?_ rfl ?_
      · change ((s.accounts.map fun _ a => a.core).erase (key account)).map _ = _
        rw [map_erase, map_core_accounts, ← map_erase]
        rfl
      · change ((s.channels.map fun _ c => c.core).map
          fun _ c => Store.purgeChannel account c).map _ = _
        change _ = (s.channels.map fun _ c => Store.purgeChannel account c).map _
        simp only [map_map]
        rfl
      · cases opers <;> rfl
  | accountProfileSet account field value =>
      simp only [apply]
      split
      · exact Store.core_adjustAccount fun _ => rfl
      · exact s.core_core
  | memoSent account sender text ts receipt =>
      refine Store.core_adjustAccount fun a => ?_
      split <;> split <;> rfl
  | memoIgnoreAdd account target =>
      refine Store.core_adjustAccount fun a => ?_
      split <;> split <;> rfl
  | certAdded account fp =>
      refine Store.core_adjustAccount fun a => ?_
      change Account.core (if a.certfps.contains fp then _ else _) = _
      split <;> rfl
  | channelRegistered name founder ts =>
      refine Store.core_congr (map_core_accounts _) ?_ rfl (NetData.core_core _)
      change ((s.channels.map fun _ c => c.core).insert (key name) _).map _ = _
      rw [map_insert, map_core_channels, ← map_insert]
      rfl
  | channelDropped name =>
      refine Store.core_congr (map_core_accounts _) ?_ rfl (NetData.core_core _)
      change ((s.channels.map fun _ c => c.core).erase (key name)).map _ = _
      rw [map_erase, map_core_channels, ← map_erase]
      rfl
  | channelRenamed old new =>
      simp only [apply, Store.core_getElem?_channels]
      cases s.channels[key old]? with
      | none => exact s.core_core
      | some c =>
          refine Store.core_congr (map_core_accounts _) ?_ rfl (NetData.core_core _)
          change (((s.channels.map fun _ c => c.core).erase (key old)).insert (key new) _).map _ = _
          rw [map_insert, map_erase, map_core_channels]
          change _ = ((s.channels.erase (key old)).insert (key new) { c with name := new }).map _
          rw [map_insert, map_erase]
          rfl
  | channelMlock | channelAccessAdd | channelAccessDel | channelAkickAdd | channelAkickDel
  | channelLevelSet | channelLevelReset | channelFounderSet | channelSuccessorSet | channelDescSet
  | channelEntryMsgSet | channelUrlSet | channelEmailSet | channelSettingsSet | channelKickerSet
  | channelBadwordsSet | channelTriggersSet | channelTopicSet | channelSuspended
  | channelUnsuspended | channelBotAssigned | channelBotUnassigned | channelUsed | channelNoExpire
  | channelExpiryWarned | channelOperNoteSet => exact Store.core_adjustChannel fun _ => rfl
  | certRemoved | accountEmailSet | accountGreetSet | accountLanguageSet | accountSwhoisSet
  | accountSignoreSet | accountPubkeySet | accountAutoOpSet | accountKillSet | accountHideStatusSet
  | accountSnoticeSet | accountPasswordSet | accountVerified | ajoinAdded | ajoinRemoved | vhostSet
  | vhostDeleted | vhostRequested | vhostRequestCleared | accountSuspended | accountUnsuspended
  | memoRead | memoDeleted | memoIgnoreDel | memoPrefsSet | accountSeen | accountNoExpire
  | accountExpiryWarned | accountOperNoteSet => exact Store.core_adjustAccount fun _ => rfl
  | nickGrouped | nickUngrouped | botAdded =>
      exact Store.core_congr (map_core_accounts _) (map_core_channels _) rfl (NetData.core_core _)
  | botRemoved nick =>
      refine Store.core_congr (map_core_accounts _) (map_core_channels _) rfl ?_
      simp only [apply]
      split <;> split <;> cases opers <;> rfl
  | vhostOfferAdded | vhostOfferRemoved | vhostForbidAdded | vhostForbidRemoved | vhostTemplateSet =>
      exact Store.core_congr (map_core_accounts _) (map_core_channels _) rfl (NetData.core_core _)
  | jupeAdded name sid reason =>
      refine Store.core_adjustNet ?_
      split <;> split <;> cases opers <;> rfl
  | _ =>
      refine Store.core_adjustNet ?_
      cases opers <;> rfl

/-- Stores with one core keep one core under the same events. -/
theorem fold_core (same : s.core opers = t.core opers) (events : List Event) :
    (fold s events).core opers = (fold t events).core opers := by
  induction events generalizing s t with
  | nil => exact same
  | cons e events ih =>
      rw [fold_cons, fold_cons]
      refine ih ?_
      rw [← apply_core s, same, apply_core]

theorem Store.core_named {name : String} : (s.core opers).Named name ↔ s.Named name := by
  unfold Named
  rw [core_contains]
  rfl

/-- What a call is permitted does not depend on what is outside the core. -/
theorem Call.permits_core {c : Call} {e : Event} : c.permits (s.core opers) e ↔ c.permits s e := by
  cases e with
  | accountRegistered a =>
      change (¬ (s.core opers).Named a.name ∧ _) ↔ (¬ s.Named a.name ∧ _)
      rw [Store.core_named]
  | certAdded account fp =>
      refine and_congr_right fun _ => ?_
      constructor
      · intro absent k a held
        refine absent k a.core ?_
        rw [Store.core_getElem?_accounts, held]
        rfl
      · intro absent k a held
        rw [Store.core_getElem?_accounts] at held
        obtain ⟨b, stored, rfl⟩ := Option.map_eq_some_iff.mp held
        exact absent k b stored
  | nickGrouped nick account =>
      refine and_congr_right fun _ => ?_
      rw [Store.core_contains]
  | channelFounderSet channel founder =>
      have successor : ((s.core opers).channels[key channel]?).bind (·.successor) =
          (s.channels[key channel]?).bind (·.successor) := by
        rw [Store.core_getElem?_channels, Option.bind_map]
        rfl
      change (_ ∨ ∃ account, _ ∧ ((s.core opers).channels[key channel]?).bind (·.successor) = _ ∧
        _ ∧ (s.core opers).Named founder) ↔ _
      rw [successor, Store.core_named]
      exact Iff.rfl
  | _ => exact Iff.rfl

theorem Call.along_permits_core {c : Call} (same : s.core opers = t.core opers)
    {events : List Event} (h : Along apply c.permits s events) : Along apply c.permits t events := by
  induction events generalizing s t with
  | nil => trivial
  | cons e events ih =>
      refine ⟨permits_core.mp (same ▸ permits_core.mpr h.1), ih ?_ h.2⟩
      exact fold_core same [e]

end Core

/-! ### Calls -/

/-- The core moved by events that the call is permitted, and that it logged. -/
def Tracks (c : Call) (db db' : Db) : Prop :=
  ∃ events, Appends db.log events db'.log ∧ Along apply c.permits db.toStore events ∧
    db'.toStore.core false = (fold db.toStore events).core false

instance {c : Call} : IsPreorder Db (Tracks c) where
  refl db := ⟨[], .refl db.log, trivial, rfl⟩
  trans := by
    rintro a b d ⟨events, logs, permitted, cores⟩ ⟨events', logs', permitted', cores'⟩
    refine ⟨events ++ events', logs.trans logs', along_append.mpr ⟨permitted, ?_⟩, ?_⟩
    · exact Call.along_permits_core cores permitted'
    · rw [cores', fold_append]
      exact fold_core cores events'

/-- The core and the operator grants moved by events that the call is permitted. -/
def Moves (c : Call) (db db' : Db) : Prop :=
  ∃ events, Along apply c.permits db.toStore events ∧
    db'.toStore.core true = (fold db.toStore events).core true

instance {c : Call} : IsPreorder Db (Moves c) where
  refl db := ⟨[], trivial, rfl⟩
  trans := by
    rintro a b d ⟨events, permitted, cores⟩ ⟨events', permitted', cores'⟩
    refine ⟨events ++ events', along_append.mpr ⟨permitted, ?_⟩, ?_⟩
    · exact Call.along_permits_core cores permitted'
    · rw [cores', fold_append]
      exact fold_core cores events'

theorem LockstepIn.tracks {c : Call} {db db' : Db} (h : LockstepIn c.permits db db') :
    Tracks c db db' := by
  obtain ⟨events, logs, permitted, stores⟩ := h
  exact ⟨events, logs, permitted, congrArg (Store.core false) stores⟩

theorem LockstepIn.moves {c : Call} {db db' : Db} (h : LockstepIn c.permits db db') :
    Moves c db db' := by
  obtain ⟨events, -, permitted, stores⟩ := h
  exact ⟨events, permitted, congrArg (Store.core true) stores⟩

/-- An event that changes nothing in the core. -/
def Event.aside (opers : Bool) : Event → Bool
  | .accountSeen .. | .accountExpiryWarned .. | .accountOperNoteSet .. | .memoSent .. | .memoRead ..
  | .memoDeleted .. | .memoIgnoreAdd .. | .memoIgnoreDel .. | .memoPrefsSet .. | .channelUsed ..
  | .channelExpiryWarned .. | .channelOperNoteSet .. | .channelBotAssigned .. | .botAdded ..
  | .botRemoved .. | .sessionExceptionAdded .. | .sessionExceptionRemoved .. | .newsAdded ..
  | .newsDeleted .. | .jupeAdded .. | .jupeRemoved .. | .reportFiled .. | .reportClosed ..
  | .reportDeleted .. | .helpRequested .. | .helpTaken .. | .helpClosed .. | .notifyRemoved .. => true
  | .operGranted .. | .operRevoked .. => !opers
  | _ => false

section Aside

variable {opers : Bool} {s t : Store} {e : Event}

theorem Store.core_adjustAccount_aside {account : String} {f : Account → Account}
    (same : ∀ a, (f a).core = a.core) : (s.adjustAccount account f).core opers = s.core opers :=
  core_congr (map_modify_of_same same) rfl rfl rfl

theorem Store.core_adjustChannel_aside {channel : String} {f : ChannelInfo → ChannelInfo}
    (same : ∀ c, (f c).core = c.core) : (s.adjustChannel channel f).core opers = s.core opers :=
  core_congr rfl (map_modify_of_same same) rfl rfl

theorem apply_aside (aside : e.aside opers = true) : (apply s e).core opers = s.core opers := by
  cases e with
  | memoSent | memoIgnoreAdd =>
      refine Store.core_adjustAccount_aside fun a => ?_
      split <;> rfl
  | accountSeen | accountExpiryWarned | accountOperNoteSet | memoRead | memoDeleted | memoIgnoreDel
  | memoPrefsSet => exact Store.core_adjustAccount_aside fun _ => rfl
  | channelUsed | channelExpiryWarned | channelOperNoteSet | channelBotAssigned =>
      exact Store.core_adjustChannel_aside fun _ => rfl
  | botRemoved nick =>
      refine Store.core_congr rfl rfl rfl ?_
      simp only [apply]
      split <;> rfl
  | jupeAdded name sid reason =>
      refine Store.core_congr rfl rfl rfl ?_
      simp only [apply, Store.adjustNet]
      split <;> rfl
  | operGranted | operRevoked =>
      cases opers with
      | true => contradiction
      | false => exact Store.core_congr rfl rfl rfl rfl
  | botAdded | sessionExceptionAdded | sessionExceptionRemoved | newsAdded | newsDeleted | jupeRemoved
  | reportFiled | reportClosed | reportDeleted | helpRequested | helpTaken | helpClosed
  | notifyRemoved => exact Store.core_congr rfl rfl rfl rfl
  | _ => contradiction

theorem fold_aside {events : List Event} (aside : ∀ e ∈ events, e.aside opers = true) :
    (fold s events).core opers = s.core opers := by
  induction events generalizing s with
  | nil => rfl
  | cons e events ih =>
      obtain ⟨head, tail⟩ := List.forall_mem_cons.mp aside
      rw [fold_cons, ih tail, apply_aside head]

/-- Outside operator grants, nothing is checked of an event that changes nothing
in the core. -/
theorem Call.permits_aside {c : Call} (aside : e.aside true = true) : c.permits s e := by
  cases e <;> trivial

/-- Only events that change nothing in the core were logged, and the core is the
same. -/
def Aside (db db' : Db) : Prop :=
  ∃ events, Appends db.log events db'.log ∧ (∀ e ∈ events, e.aside true = true) ∧
    ∀ opers, db'.toStore.core opers = db.toStore.core opers

instance : IsPreorder Db Aside where
  refl db := ⟨[], .refl db.log, fun _ => by simp, fun _ => rfl⟩
  trans := by
    rintro a b c ⟨events, logs, aside, cores⟩ ⟨events', logs', aside', cores'⟩
    refine ⟨events ++ events', logs.trans logs', ?_, fun opers => ?_⟩
    · intro e mem
      exact (List.mem_append.mp mem).elim (aside e) (aside' e)
    · exact (cores' opers).trans (cores opers)

theorem Event.aside_of_aside (h : e.aside true = true) : e.aside opers = true := by
  cases e <;> first | exact h | contradiction

/-- Nothing is asked of events that change nothing in the core. -/
theorem Call.along_permits_aside {c : Call} {events : List Event}
    (aside : ∀ e ∈ events, e.aside true = true) : Along apply c.permits s events := by
  induction events generalizing s with
  | nil => trivial
  | cons e events ih =>
      obtain ⟨head, tail⟩ := List.forall_mem_cons.mp aside
      exact ⟨permits_aside head, ih tail⟩

theorem Aside.tracks {c : Call} {db db' : Db} (h : Aside db db') : Tracks c db db' := by
  obtain ⟨events, logs, aside, cores⟩ := h
  refine ⟨events, logs, Call.along_permits_aside aside, ?_⟩
  rw [cores, fold_aside fun e mem => Event.aside_of_aside (aside e mem)]

theorem Aside.moves {c : Call} {db db' : Db} (h : Aside db db') : Moves c db db' := by
  obtain ⟨-, -, -, cores⟩ := h
  exact ⟨[], trivial, cores true⟩

namespace Db

variable {db : Db} {ε : Type}

theorem aside_append {onError : IoError → ε} (aside : e.aside true = true) :
    Keeps Aside (append e onError).run db := by
  unfold Keeps
  rw [run_append]
  rcases outcome : db.log.append e with ⟨log, err | ⟨⟩⟩
  · exact ⟨[], (Appends.refl db.log).failed outcome, fun _ => by simp, fun _ => rfl⟩
  · refine ⟨[e], (Appends.refl db.log).ok outcome, ?_, fun _ => rfl⟩
    intro e' mem
    rw [List.mem_singleton.mp mem]
    exact aside

theorem aside_edit {write : Store → Store}
    (same : ∀ s opers, (write s).core opers = s.core opers) : Keeps Aside (edit write) db :=
  ⟨[], .refl db.log, fun _ => by simp, fun opers => same _ opers⟩

theorem aside_logged {onError : IoError → ε} {write : Store → Store} (aside : e.aside true = true)
    (same : ∀ s opers, (write s).core opers = s.core opers) :
    Keeps Aside (logged e onError write).run db :=
  keeps_bindE (aside_append aside) fun _ _ _ => keeps_liftE (aside_edit same)

theorem aside_quietly {write : Store → Store} (aside : e.aside true = true)
    (same : ∀ s opers, (write s).core opers = s.core opers) : Keeps Aside (quietly e write) db :=
  keeps_bind (aside_append aside) (aside_edit same)

theorem aside_appendEach {α : Type} {eventOf : α → Event} {onError : IoError → ε} {l : List α}
    (aside : ∀ x, (eventOf x).aside true = true) :
    Keeps Aside (appendEach eventOf onError l).run db :=
  keeps_forME fun x _ _ _ => aside_append (aside x)

theorem aside_putBot {bot : Bot} : Keeps Aside (putBot bot).run db :=
  aside_logged rfl fun _ _ => Store.core_congr rfl rfl rfl rfl

theorem aside_botChange (env : Env) (old newNick user host gecos : String) :
    Keeps Aside (botChange env old newNick user host gecos).run db := by
  refine keeps_get_bindE ?_
  split
  · exact keeps_throw
  dsimp only
  split
  · exact aside_putBot
  split
  · exact keeps_throw
  have removed : Keeps Aside (logged (.botRemoved old) (fun _ => ChanError.internal) fun s =>
      { s with bots := s.bots.erase (key old) }).run db :=
    aside_logged rfl fun _ _ => Store.core_congr rfl rfl rfl rfl
  refine keeps_bindE removed fun _ _ _ => keeps_bindE aside_putBot fun _ _ _ => ?_
  exact keeps_forME fun _ _ _ _ =>
    aside_logged rfl fun _ _ => Store.core_adjustChannel_aside fun _ => rfl

theorem aside_memoSend (env : Env) (account sender text : String) (receipt : Bool) :
    Keeps Aside (memoSend env account sender text receipt).run db := by
  refine keeps_get_bindE ?_
  split
  · exact aside_logged rfl fun _ _ => Store.core_adjustAccount_aside fun _ => rfl
  · exact keeps_throw

theorem aside_botDel (nick : String) : Keeps Aside (botDel nick).run db := by
  refine keeps_get_bindE ?_
  split
  · refine keeps_bindE (aside_logged rfl fun _ _ => ?_) fun _ _ _ => keeps_ok
    exact Store.core_congr rfl rfl rfl rfl
  · exact keeps_ok

theorem aside_botDelAll (env : Env) : Keeps Aside (botDelAll env).run db := by
  refine keeps_get_bindE (keeps_bindE (aside_appendEach fun _ => rfl) fun _ _ _ => ?_)
  refine keeps_bindE (keeps_liftE (aside_edit fun _ _ => ?_)) fun _ _ _ => keeps_ok
  exact Store.core_congr rfl rfl rfl rfl

theorem aside_notifyClear : Keeps Aside notifyClear.run db := by
  refine keeps_get_bindE (keeps_bindE (aside_appendEach fun _ => rfl) fun _ _ _ => ?_)
  refine keeps_bindE (keeps_liftE (aside_edit fun _ _ => ?_)) fun _ _ _ => keeps_ok
  exact Store.core_congr rfl rfl rfl rfl

end Db

/-- A call that deviates does so outside the core. -/
theorem Call.aside {env : Env} {c : Call} {db : Db} (h : c.deviates = true) :
    Keeps Aside (c.run env) db := by
  have unseen {f : NetData → NetData} (same : ∀ n opers, (f n).core opers = n.core opers)
      (s : Store) (opers : Bool) : (s.adjustNet f).core opers = s.core opers :=
    Store.core_congr rfl rfl rfl (same s.net opers)
  have session (times : Table Nat) : Aside db { db with reportTimes := times } :=
    ⟨[], .refl db.log, fun _ => by simp, fun _ => rfl⟩
  cases c with
  | memoSend account sender text receipt => exact Db.aside_memoSend env account sender text receipt
  | botDel nick => exact Db.aside_botDel nick
  | botDelAll => exact Db.aside_botDelAll env
  | botChange old newNick user host gecos => exact Db.aside_botChange env old newNick user host gecos
  | notifyClear => exact Db.aside_notifyClear
  | reportFile reporter cooldownKey target reason =>
      refine keeps_bind (Db.keeps_unlessThrottled session fun _ _ => ?_) keeps_pure
      refine keeps_bind (Db.aside_edit (unseen fun _ _ => rfl)) (keeps_get_bind ?_)
      exact keeps_bind (Db.aside_quietly rfl (unseen fun _ _ => rfl)) keeps_pure
  | helpRequest requester cooldownKey message =>
      refine keeps_bind (Db.keeps_unlessThrottled session fun _ _ => ?_) keeps_pure
      refine keeps_bind (Db.aside_edit (unseen fun _ _ => rfl)) (keeps_get_bind ?_)
      exact keeps_bind (Db.aside_quietly rfl (unseen fun _ _ => rfl)) keeps_pure
  | _ => contradiction

/-- An event whose refusal is ignored moves the core by what was logged. -/
theorem tracks_offer {c : Call} {db : Db} (permitted : c.permits db.toStore e)
    (aside : e.aside false = true) : Keeps (Tracks c) (Db.offer e) db := by
  unfold Keeps Db.offer
  rw [Db.run_quietly]
  rcases outcome : db.log.append e with ⟨log, err | ⟨⟩⟩
  · exact ⟨[], (Appends.refl db.log).failed outcome, trivial, apply_aside aside⟩
  · exact ⟨[e], (Appends.refl db.log).ok outcome, ⟨permitted, trivial⟩, rfl⟩

theorem moves_offer {c : Call} {db : Db} (permitted : c.permits db.toStore e) :
    Keeps (Moves c) (Db.offer e) db := by
  unfold Keeps Db.offer
  rw [Db.run_quietly]
  exact ⟨[e], ⟨permitted, trivial⟩, rfl⟩

/-- An event whose refusal is ignored is outside the core, or grants or revokes
an operator's rights. -/
theorem Call.aside_offered {env : Env} {db : Db} {c : Call} (offered : c.offers env db = some e) :
    e.aside false = true := by
  cases c <;> simp only [offers] at offered <;>
    first
    | contradiction
    | (obtain rfl := Option.some.inj offered; rfl)
    | (split at offered <;> first | contradiction | (obtain rfl := Option.some.inj offered; rfl))
    | (obtain ⟨_, _, rfl⟩ := Option.map_eq_some_iff.mp offered; rfl)

theorem Call.permits_offered {env : Env} {db : Db} {c : Call} (offered : c.offers env db = some e) :
    c.permits db.toStore e := by
  cases c <;> simp only [offers] at offered <;>
    first
    | contradiction
    | (obtain rfl := Option.some.inj offered; trivial)
    | (split at offered <;> first | contradiction | (obtain rfl := Option.some.inj offered; trivial))
    | (obtain ⟨_, _, rfl⟩ := Option.map_eq_some_iff.mp offered; trivial)

/-- Every call moves the core by permitted events that it logged, whatever is
refused. -/
theorem Call.tracks {env : Env} {c : Call} {db : Db} (wf : db.Wf) :
    Keeps (Tracks c) (c.run env) db := by
  cases h : c.deviates with
  | false =>
      refine keeps wf (fun _ _ => LockstepIn.tracks) h fun e offered => ?_
      exact tracks_offer (permits_offered offered) (aside_offered offered)
  | true => exact (aside h).mono fun _ => Aside.tracks

/-- Every call moves the core and the operator grants by permitted events. -/
theorem Call.moves {env : Env} {c : Call} {db : Db} (wf : db.Wf) :
    Keeps (Moves c) (c.run env) db := by
  cases h : c.deviates with
  | false =>
      refine keeps wf (fun _ _ => LockstepIn.moves) h fun e offered => ?_
      exact moves_offer (permits_offered offered)
  | true => exact (aside h).mono fun _ => Aside.moves

end Aside

end Echo
