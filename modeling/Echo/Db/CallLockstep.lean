import Echo.Db.Call

/-!
Every call in lockstep. `Call.keeps` goes through the mutators once: a call
whose writes end it keeps any relation that lockstep in the events it is
permitted implies, and one that ignores a refusal keeps it as far as the offered
event does.
-/

namespace Echo

open Std (ExtTreeMap)
open Echo.Lib
open EventLog (Appends)

namespace Db

variable {db : Db} {P : Store → Event → Prop}

/-! ### The mutators outside the families -/

theorem exists_iff_named {name : String} : db.exists name = true ↔ db.toStore.Named name := by
  unfold Db.exists resolvedKey Store.Named
  by_cases held : db.accounts.contains (key name) = true
  · simp [held]
  · rw [if_neg held, Option.isSome_map, ExtTreeMap.isSome_getElem?_eq_contains]
    simp [held]

/-- A registration is of a name that nothing resolves to. -/
theorem lockstep_registerPrepared {env : Env} {name : String} {creds : Credentials}
    {email : Option String}
    (permitted : ¬ db.toStore.Named name → ∀ ts home scram256 scram512 verified,
      P db.toStore (.accountRegistered
        (freshAccount name email ts home scram256 scram512 verified))) :
    Keeps (LockstepIn P) (registerPrepared env name creds email).run db := by
  refine keeps_get_bindE ?_
  split
  · exact keeps_throw
  · rename_i taken
    have free : ¬ db.toStore.Named name := fun named => taken (exists_iff_named.mpr named)
    exact lockstep_commitAccount (Store.getElem?_eq_none_of_not_named free)
      (permitted free _ _ _ _ _)

theorem lockstep_provisionAccount {env : Env} {name scram256 scram512 : String}
    {email : Option String}
    (verifiers : P db.toStore (.accountPasswordSet name scram256 scram512))
    (permitted : ¬ db.toStore.Named name → ∀ ts home scram256 scram512 verified,
      P db.toStore (.accountRegistered
        (freshAccount name email ts home scram256 scram512 verified))) :
    Keeps (LockstepIn P) (provisionAccount env name scram256 scram512 email).run db := by
  unfold provisionAccount
  split
  · exact keeps_throw
  · refine keeps_get_bindE ?_
    split
    · exact lockstep_logged rfl verifiers
    · rename_i taken
      have free : ¬ db.toStore.Named name := fun named => taken (exists_iff_named.mpr named)
      exact lockstep_commitAccount (Store.getElem?_eq_none_of_not_named free)
        (permitted free _ _ _ _ _)

theorem lockstep_dropAccount {account : String}
    (permitted : P db.toStore (.accountDropped account)) :
    Keeps (LockstepIn P) (dropAccount account).run db := by
  refine keeps_get_bindE ?_
  split
  · exact keeps_bindE (lockstep_logged rfl permitted) fun _ _ _ => keeps_ok
  · exact keeps_ok

theorem lockstep_setPubkey {env : Env} {account : String} {pubkey : Option String}
    (permitted : ∀ pubkey, P db.toStore (.accountPubkeySet account pubkey)) :
    Keeps (LockstepIn P) (setPubkey env account pubkey).run db := by
  refine keeps_get_bindE ?_
  split
  · split
    · exact lockstep_writeAccount (fun _ => rfl) (permitted _)
    · split
      · exact keeps_throw
      · exact lockstep_writeAccount (fun _ => rfl) (permitted _)
  · exact keeps_throw

theorem lockstep_setCredentials {account : String} {creds : Credentials}
    (permitted : P db.toStore (.accountPasswordSet account creds.scram256 creds.scram512)) :
    Keeps (LockstepIn P) (setCredentials account creds).run db := by
  refine lockstep_writeAccount (fun s => ?_) permitted
  simp [apply, creds.derived]

/-- Nobody owns the fingerprint. It is then not on the account's own list either,
so the fold adds it too. -/
theorem lockstep_certfpAdd {env : Env} {account fp : String}
    (permitted : (∀ (k : String) a, db.accounts[k]? = some a → toAsciiLowercase fp ∉ a.certfps) →
      P db.toStore (.certAdded account (toAsciiLowercase fp))) :
    Keeps (LockstepIn P) (certfpAdd env account fp).run db := by
  refine keeps_get_bindE ?_
  split
  · exact keeps_throw
  split
  · exact keeps_throw
  rename_i unowned
  split
  · exact keeps_throw
  split
  · exact keeps_throw
  have absent (k : String) (a : Account) (held : db.accounts[k]? = some a) :
      toAsciiLowercase fp ∉ a.certfps := by
    intro listed
    refine unowned ?_
    unfold certfpOwner
    rw [Option.isSome_map, List.find?_isSome]
    refine ⟨a, Env.mem_values.mpr ⟨k, held⟩, ?_⟩
    rw [toAsciiLowercase_idem]
    exact List.contains_iff_mem.mpr listed
  refine lockstep_logged (Store.adjustAccount_congr fun a held => ?_) (permitted absent)
  rw [if_neg fun listed => absent _ a held (List.contains_iff_mem.mp listed)]

theorem lockstep_ajoinAdd {account channel joinKey : String}
    (permitted : P db.toStore (.ajoinAdded account channel joinKey)) :
    Keeps (LockstepIn P) (ajoinAdd account channel joinKey).run db := by
  refine keeps_get_bindE ?_
  split
  · exact keeps_throw
  · exact keeps_bindE (lockstep_logged rfl permitted) fun _ _ _ => keeps_ok

theorem lockstep_requestVhost {env : Env} {account host : String}
    (permitted : P db.toStore (.vhostRequested account host env.now)) :
    Keeps (LockstepIn P) (requestVhost env account host).run db :=
  keeps_bindE (lockstep_writeAccount (fun _ => rfl) permitted) fun _ _ _ => .of_same rfl rfl

theorem lockstep_takeVhostRequest {account : String}
    (permitted : P db.toStore (.vhostRequestCleared account)) :
    Keeps (LockstepIn P) (takeVhostRequest account).run db := by
  refine keeps_get_bindE ?_
  split
  · exact keeps_throw
  · split
    · exact keeps_ok
    · exact keeps_bindE (lockstep_logged rfl permitted) fun _ _ _ => keeps_ok

theorem lockstep_vhostForbidAdd {env : Env} {pattern : String}
    (permitted : P db.toStore (.vhostForbidAdded pattern)) :
    Keeps (LockstepIn P) (vhostForbidAdd env pattern).run db := by
  unfold vhostForbidAdd
  split
  · exact keeps_throw
  · refine lockstep_hostListAdd (fun absent => ?_) permitted
    simp [apply, Store.adjustHost, absent]

theorem lockstep_vhostOfferAdd {host : String} (permitted : P db.toStore (.vhostOfferAdded host)) :
    Keeps (LockstepIn P) (vhostOfferAdd host).run db := by
  refine lockstep_hostListAdd (fun absent => ?_) permitted
  simp [apply, Store.adjustHost, absent]

/-- A memo the mailbox has room for is one the fold keeps. -/
theorem lockstep_memoSend {env : Env} {account sender text : String} {receipt : Bool}
    (room : db.log.writable = true →
      ∀ a, db.accounts[key account]? = some a → a.memos.length < a.memoCap)
    (permitted : P db.toStore (.memoSent account sender text env.now receipt)) :
    Keeps (LockstepIn P) (memoSend env account sender text receipt).run db := by
  refine keeps_get_bindE ?_
  split
  · cases writable : db.log.writable with
    | true =>
        refine lockstep_logged (Store.adjustAccount_congr fun a ha => ?_) permitted
        rw [if_pos (room writable a ha)]
    | false => exact lockstep_logged_refused writable
  · exact keeps_throw

theorem lockstep_groupNick {nick account : String}
    (permitted : db.accounts.contains (key account) = true →
      P db.toStore (.nickGrouped nick account)) :
    Keeps (LockstepIn P) (groupNick nick account).run db := by
  refine keeps_get_bindE ?_
  split
  · rename_i held
    exact lockstep_logged rfl (permitted held)
  · exact keeps_throw

theorem lockstep_ungroupNick {nick : String} (permitted : P db.toStore (.nickUngrouped nick)) :
    Keeps (LockstepIn P) (ungroupNick nick).run db := by
  refine keeps_get_bindE ?_
  split
  · exact keeps_bindE (lockstep_logged rfl permitted) fun _ _ _ => keeps_ok
  · exact keeps_ok

theorem lockstep_registerChannel {env : Env} {name founder : String}
    (permitted : P db.toStore (.channelRegistered name founder env.now)) :
    Keeps (LockstepIn P) (registerChannel env name founder).run db := by
  refine keeps_get_bindE ?_
  split
  · exact keeps_throw
  · exact lockstep_logged rfl permitted

theorem lockstep_dropChannel {name : String} (permitted : P db.toStore (.channelDropped name)) :
    Keeps (LockstepIn P) (dropChannel name).run db := by
  refine keeps_get_bindE ?_
  split
  · exact lockstep_logged rfl permitted
  · exact keeps_throw

theorem lockstep_renameChannel {old new : String}
    (permitted : P db.toStore (.channelRenamed old new)) :
    Keeps (LockstepIn P) (renameChannel old new).run db := by
  refine keeps_get_bindE ?_
  split
  · exact keeps_throw
  · split
    · exact keeps_throw
    · exact lockstep_logged rfl permitted

theorem lockstep_setFounder {channel account : String}
    (permitted : P db.toStore (.channelFounderSet channel account)) :
    Keeps (LockstepIn P) (setFounder channel account).run db :=
  lockstep_writeChannel (fun _ => rfl) permitted

theorem lockstep_setSuccessor {channel : String} {successor : Option String}
    (permitted : P db.toStore (.channelSuccessorSet channel successor)) :
    Keeps (LockstepIn P) (setSuccessor channel successor).run db :=
  lockstep_writeChannel (fun _ => rfl) permitted

/-- What the release of a departing account's channels writes: channels dropped,
or handed to a successor that is another name and resolves. -/
structure ReleasePermitted (P : Store → Event → Prop) (account : String) : Prop where
  drop : ∀ s chan, P s (.channelDropped chan)
  inherit : ∀ s chan heir, (s.channels[key chan]?).bind (·.successor) = some heir →
    eqIgnoreAsciiCase heir account = false → s.Named heir → P s (.channelFounderSet chan heir)
  clear : ∀ s chan, P s (.channelSuccessorSet chan none)

theorem lockstep_abandonChannel {chan : String}
    (permitted : ∀ s, P s (.channelDropped chan)) :
    Keeps (LockstepIn P) (abandonChannel chan) db :=
  keeps_bind (keeps_effect (lockstep_dropChannel (permitted _))) keeps_pure

theorem lockstep_releaseChannel {account chan : String} (permitted : ReleasePermitted P account) :
    Keeps (LockstepIn P) (releaseChannel account chan) db := by
  refine keeps_get_bind ?_
  split
  · exact lockstep_abandonChannel fun s => permitted.drop s chan
  · rename_i heir found
    obtain ⟨successor, eligible⟩ := Option.filter_eq_some_iff.mp found
    rw [Bool.and_eq_true, Bool.not_eq_true'] at eligible
    refine keeps_bind (lockstep_setFounder (permitted.inherit _ _ _ successor eligible.1
      (exists_iff_named.mp eligible.2))) ?_
    split
    · exact lockstep_abandonChannel fun s => permitted.drop s chan
    · exact keeps_bind (keeps_effect (lockstep_setSuccessor (permitted.clear _ _))) keeps_pure

theorem lockstep_releaseFoundedChannels {env : Env} {account : String}
    (permitted : ReleasePermitted P account) :
    Keeps (LockstepIn P) (releaseFoundedChannels env account) db := by
  refine keeps_get_bind (keeps_bind ?_ keeps_pure)
  exact keeps_mapM fun chan _ _ _ => lockstep_releaseChannel permitted

theorem lockstep_badwordAdd {env : Env} {channel pattern : String}
    (permitted : ∀ list, P db.toStore (.channelBadwordsSet channel list)) :
    Keeps (LockstepIn P) (badwordAdd env channel pattern).run db := by
  unfold badwordAdd
  split
  · exact keeps_throw
  · refine keeps_get_bindE ?_
    split
    · exact keeps_throw
    · split
      · exact keeps_ok
      · exact keeps_bindE (lockstep_writeBadwords (permitted _)) fun _ _ _ => keeps_ok

theorem lockstep_badwordDel {channel pattern : String}
    (permitted : ∀ list, P db.toStore (.channelBadwordsSet channel list)) :
    Keeps (LockstepIn P) (badwordDel channel pattern).run db := by
  refine keeps_get_bindE ?_
  split
  · exact keeps_throw
  · split
    · exact keeps_bindE (lockstep_writeBadwords (permitted _)) fun _ _ _ => keeps_ok
    · exact keeps_ok

theorem lockstep_badwordClear {channel : String}
    (permitted : ∀ list, P db.toStore (.channelBadwordsSet channel list)) :
    Keeps (LockstepIn P) (badwordClear channel).run db := by
  refine keeps_get_bindE ?_
  split
  · exact keeps_throw
  · split
    · exact keeps_bindE (lockstep_writeBadwords (permitted _)) fun _ _ _ => keeps_ok
    · exact keeps_ok

theorem lockstep_triggerAdd {env : Env} {channel pattern response : String} {cooldown : Nat}
    (permitted : ∀ list, P db.toStore (.channelTriggersSet channel list)) :
    Keeps (LockstepIn P) (triggerAdd env channel pattern response cooldown).run db := by
  unfold triggerAdd
  split
  · exact keeps_throw
  · refine keeps_get_bindE ?_
    split
    · exact keeps_throw
    · split
      · exact keeps_ok
      · exact keeps_bindE (lockstep_writeTriggers (permitted _)) fun _ _ _ => keeps_ok

theorem lockstep_triggerDel {channel : String} {index : Nat}
    (permitted : ∀ list, P db.toStore (.channelTriggersSet channel list)) :
    Keeps (LockstepIn P) (triggerDel channel index).run db := by
  refine keeps_get_bindE ?_
  split
  · exact keeps_throw
  · split
    · exact keeps_ok
    · exact keeps_bindE (lockstep_writeTriggers (permitted _)) fun _ _ _ => keeps_ok

theorem lockstep_triggerClear {channel : String}
    (permitted : ∀ list, P db.toStore (.channelTriggersSet channel list)) :
    Keeps (LockstepIn P) (triggerClear channel).run db := by
  refine keeps_get_bindE ?_
  split
  · exact keeps_throw
  · split
    · exact keeps_bindE (lockstep_writeTriggers (permitted _)) fun _ _ _ => keeps_ok
    · exact keeps_ok

/-- Four events, each followed by its own edit: a failure in the middle leaves
what the first ones say. -/
theorem lockstep_copyBotConfig {src dst : String}
    (kickers : ∀ s k, P s (.channelKickerSet dst k))
    (badwords : ∀ s list, P s (.channelBadwordsSet dst list))
    (settings : ∀ s set, P s (.channelSettingsSet dst set)) :
    Keeps (LockstepIn P) (copyBotConfig src dst).run db := by
  refine keeps_get_bindE ?_
  split
  · exact keeps_throw
  · split
    · refine keeps_bindE (lockstep_logged rfl (kickers _ _)) fun _ _ _ => ?_
      refine keeps_bindE (lockstep_writeBadwords (badwords _ _)) fun _ _ _ => ?_
      exact keeps_bindE (lockstep_setChannelSetting (settings _)) fun _ _ _ =>
        lockstep_setChannelSetting (settings _)
    · exact keeps_throw

theorem lockstep_botAdd {nick user host gecos : String}
    (permitted : ∀ bot, P db.toStore (.botAdded bot)) :
    Keeps (LockstepIn P) (botAdd nick user host gecos).run db := by
  refine keeps_get_bindE ?_
  split
  · exact keeps_throw
  · exact lockstep_putBot (permitted _)

/-- The bot is put back under the key it is held at, which is its nick's. -/
theorem lockstep_botSetPrivate (wf : db.Wf) {nick : String} {«private» : Bool}
    (permitted : ∀ bot, P db.toStore (.botAdded bot)) :
    Keeps (LockstepIn P) (botSetPrivate nick «private»).run db := by
  refine keeps_get_bindE ?_
  split
  · exact keeps_ok
  · rename_i bot held
    refine keeps_bindE (lockstep_logged ?_ (permitted _)) fun _ _ _ => keeps_ok
    simp only [apply]
    rw [wf.bots _ bot held]

/-- Removing a bot that is not the default one. -/
theorem lockstep_removeBot {ε : Type} {onError : IoError → ε} {nick : String}
    (other : db.log.writable = true → db.net.defaultBot ≠ some (key nick))
    (permitted : P db.toStore (.botRemoved nick)) :
    Keeps (LockstepIn P) (logged (.botRemoved nick) onError fun s =>
      { s with bots := s.bots.erase (key nick) }).run db := by
  cases writable : db.log.writable with
  | true =>
      refine lockstep_logged ?_ permitted
      simp only [apply]
      rw [if_neg (other writable)]
  | false => exact lockstep_logged_refused writable

theorem lockstep_botDel {nick : String}
    (other : db.log.writable = true → db.bots.contains (key nick) →
      db.net.defaultBot ≠ some (key nick))
    (permitted : P db.toStore (.botRemoved nick)) :
    Keeps (LockstepIn P) (botDel nick).run db := by
  refine keeps_get_bindE ?_
  split
  · rename_i held
    exact keeps_bindE (lockstep_removeBot (fun w => other w held) permitted) fun _ _ _ => keeps_ok
  · exact keeps_ok

theorem lockstep_botChange {env : Env} {old newNick user host gecos : String}
    (other : db.log.writable = true → db.bots.contains (key old) → key old ≠ key newNick →
      db.bots.contains (key newNick) = false → db.net.defaultBot ≠ some (key old))
    (add : ∀ s bot, P s (.botAdded bot)) (remove : ∀ s nick, P s (.botRemoved nick))
    (assign : ∀ s chan nick, P s (.channelBotAssigned chan nick)) :
    Keeps (LockstepIn P) (botChange env old newNick user host gecos).run db := by
  refine keeps_get_bindE ?_
  split
  · exact keeps_throw
  rename_i held eq
  dsimp only
  split
  · exact lockstep_putBot (add _ _)
  rename_i moved
  split
  · exact keeps_throw
  rename_i free
  have standing : db.bots.contains (key old) := by
    rw [ExtTreeMap.contains_eq_isSome_getElem?, eq]
    rfl
  have removed : Keeps (LockstepIn P) (logged (.botRemoved old) (fun _ => ChanError.internal) fun s =>
      { s with bots := s.bots.erase (key old) }).run db :=
    lockstep_removeBot (fun w => other w standing moved (Bool.eq_false_iff.mpr free)) (remove _ _)
  refine keeps_bindE removed fun _ _ _ => keeps_bindE (lockstep_putBot (add _ _)) fun _ _ _ => ?_
  exact keeps_forME fun _ _ _ _ => lockstep_logged rfl (assign _ _ _)

theorem lockstep_groupRegister {env : Env} {name founder : String}
    (permitted : ∀ ts home, P db.toStore (.groupRegistered name founder ts home)) :
    Keeps (LockstepIn P) (groupRegister env name founder).run db := by
  refine keeps_get_bindE ?_
  split
  · exact keeps_throw
  split
  · exact keeps_throw
  rename_i free
  refine lockstep_logged ?_ (permitted _ _)
  have absent : db.net.groups.any (fun g => key g.name == key name) = false := by
    refine Bool.eq_false_iff.mpr fun held => free ?_
    obtain ⟨g, hg, same⟩ := List.any_eq_true.mp held
    exact List.find?_isSome.mpr ⟨g, hg, same⟩
  simp [apply, Store.adjustNet, registerGroup, absent]

theorem lockstep_groupDrop {name : String} (permitted : P db.toStore (.groupDropped name)) :
    Keeps (LockstepIn P) (groupDrop name).run db := by
  refine keeps_get_bindE ?_
  split
  · exact lockstep_logged rfl permitted
  · exact keeps_throw

theorem lockstep_groupDelMember {name account : String}
    (permitted : P db.toStore (.groupMemberDel name account)) :
    Keeps (LockstepIn P) (groupDelMember name account).run db := by
  refine keeps_get_bindE ?_
  split
  · exact keeps_throw
  · split
    · exact keeps_bindE (lockstep_logged rfl permitted) fun _ _ _ => keeps_ok
    · exact keeps_ok

/-- The counters are logged as a list and folded back into the same map. -/
theorem lockstep_persistStats {counters : Table Nat} {chanStats : ChanStats}
    (permitted : P db.toStore (.statsSet counters.toList chanStats)) :
    Keeps (LockstepIn P) (persistStats counters chanStats).run db := by
  refine lockstep_logged ?_ permitted
  have rebuilt : counters.toList.foldl (fun m c => m.insert c.1 c.2) ∅ = counters :=
    insertAll_of_perm (List.Perm.refl counters.toList)
  simp only [apply, Store.adjustNet, rebuilt]

/-! ### The mutators that ignore a refusal -/

section Quiet

variable {R : Db → Db → Prop} [IsPreorder Db R]

theorem keeps_memoRead {account : String} {index : Nat}
    (h : ∀ a, db.accounts[key account]? = some a → (a.memos[index]?).any (!·.read) = true →
      Keeps R (offer (.memoRead account index)) db) :
    Keeps R (memoRead account index) db := by
  refine keeps_get_bind (keeps_bind ?_ keeps_pure)
  exact keeps_quietAccount (fun _ _ => rfl) h

theorem keeps_memoDel {account : String} {index : Nat}
    (h : ∀ a, db.accounts[key account]? = some a → index < a.memos.length →
      Keeps R (offer (.memoDeleted account index)) db) :
    Keeps R (memoDel account index) db :=
  keeps_quietAccount (fun _ _ => rfl) fun a held within => h a held (of_decide_eq_true within)

theorem keeps_memoCancel {account sender : String}
    (h : ∀ a i, db.accounts[key account]? = some a → lastUnread sender a.memos = some i →
      Keeps R (offer (.memoDeleted account i)) db) :
    Keeps R (memoCancel account sender) db := by
  refine keeps_get_bind ?_
  split
  · rename_i i found
    obtain ⟨a, held, last⟩ := Option.bind_eq_some_iff.mp found
    exact keeps_memoDel fun _ _ _ => h a i held last
  · exact keeps_pure

/-- An ignored target is not on the list yet, so the fold adds it too. -/
theorem keeps_memoIgnoreAdd {account target : String}
    (h : ∀ a, db.accounts[key account]? = some a →
      (!a.memoIgnore.any fun t => eqIgnoreAsciiCase t target) = true →
      Keeps R (offer (.memoIgnoreAdd account target)) db) :
    Keeps R (memoIgnoreAdd account target) db := by
  refine keeps_get_bind ?_
  split
  · exact keeps_pure
  rename_i a held
  split
  · rename_i absent
    refine keeps_bind (keeps_quietly (Store.adjustAccount_congr fun b hb => ?_) (h a held absent))
      keeps_pure
    obtain rfl := Option.some.inj (hb.symm.trans held)
    rw [if_neg (by simpa using absent)]
  · exact keeps_pure

/-- The item's id is the counter, which is ahead of every id in use. -/
theorem keeps_newsAdd (wf : db.Wf) {env : Env} {kind : NewsKind} {text setter : String}
    (h : Keeps R (offer (.newsAdded db.net.newsSeq kind.wire text setter env.now)) db) :
    Keeps R (newsAdd env kind text setter) db := by
  refine keeps_get_bind (keeps_bind (keeps_quietly ?_ h) keeps_pure)
  simp [apply, Store.adjustNet, wf.net.news.fresh]

theorem keeps_jupeAdd {name reason : String}
    (h : (db.net.jupes.any fun j => eqIgnoreAsciiCase j.name name) = false →
      Keeps R (offer (.jupeAdded name (jupeSid db.net.jupeSeq) reason)) db) :
    Keeps R (jupeAdd name reason) db := by
  refine keeps_get_bind ?_
  split
  · exact keeps_pure
  · rename_i absent
    rw [List.find?_eq_none] at absent
    have free : (db.net.jupes.any fun j => eqIgnoreAsciiCase j.name name) = false :=
      List.any_eq_false.mpr absent
    refine keeps_bind (keeps_quietly ?_ (h free)) keeps_pure
    simp [apply, Store.adjustNet, free]

theorem keeps_jupeDel {name : String}
    (h : (db.net.jupes.any fun j => eqIgnoreAsciiCase j.name name) = true →
      Keeps R (offer (.jupeRemoved name)) db) :
    Keeps R (jupeDel name) db := by
  refine keeps_get_bind (keeps_bind ?_ keeps_pure)
  exact keeps_quietEdit rfl h

/-! ### The moderation queues -/

/-- An edit that changes nothing is no edit. -/
theorem keeps_edit_same {α : Type} {write : Store → Store} {k : Unit → StateM Db α}
    (same : write db.toStore = db.toStore) (h : Keeps R (k ()) db) :
    Keeps R (edit write >>= k) db := by
  have unedited : ((edit write).run db).2 = db := by
    change { db with toStore := write db.toStore } = db
    rw [same]
  refine keeps_bind ?_ ?_
  · unfold Keeps
    rw [unedited]
    exact refl_of R db
  · rwa [unedited]

theorem pruneQueue_of_room {α : Type} {isOpen : α → Bool} {q : List α}
    (room : q.length < maxQueue) : pruneQueue isOpen q = q := if_pos room

/-- A filing inside the cooldown is nothing but its answer; any other runs after
a note among the session data. -/
theorem keeps_unlessThrottled {env : Env} {who : String} {file : StateM Db Nat}
    (session : ∀ times, R db { db with reportTimes := times })
    (h : ∀ times, db.filedRecently env who = false →
      Keeps R file { db with reportTimes := times }) :
    Keeps R (unlessThrottled env who file) db := by
  refine keeps_get_bind ?_
  split
  · exact keeps_pure
  · rename_i free
    exact keeps_bind (session _) (keeps_bind (h _ (Bool.eq_false_iff.mpr free)) keeps_pure)

/-- A queue with room takes the report as the fold does: its id is the counter. -/
theorem keeps_fileReport (wf : db.Wf) {env : Env} {reporter target reason : String}
    (room : db.net.reports.length < maxQueue)
    (h : Keeps R (offer (.reportFiled db.net.reportSeq reporter target reason env.now)) db) :
    Keeps R (fileReport env reporter target reason) db := by
  refine keeps_edit_same ?_ ?_
  · simp only [Store.adjustNet, pruneQueue_of_room room]
  · refine keeps_get_bind (keeps_bind (keeps_quietly ?_ h) keeps_pure)
    simp [apply, Store.adjustNet, wf.net.reports.fresh]

theorem keeps_fileHelp (wf : db.Wf) {env : Env} {requester message : String}
    (room : db.net.help.length < maxQueue)
    (h : Keeps R (offer (.helpRequested db.net.helpSeq requester message env.now)) db) :
    Keeps R (fileHelp env requester message) db := by
  refine keeps_edit_same ?_ ?_
  · simp only [Store.adjustNet, pruneQueue_of_room room]
  · refine keeps_get_bind (keeps_bind (keeps_quietly ?_ h) keeps_pure)
    simp [apply, Store.adjustNet, wf.net.help.fresh]

end Quiet

/-! ### Clearing a list -/

section Clearing

variable {ε α : Type} (eventOf : α → Event) (onError : IoError → ε)

theorem appendEach_cons (x : α) (l : List α) :
    appendEach eventOf onError (x :: l) =
      append (eventOf x) onError >>= fun _ => appendEach eventOf onError l := rfl

theorem run_appendEach_written {l : List α} {db : Db}
    (written : db.log.writableFor l.length = true) :
    ∃ log, (appendEach eventOf onError l).run.run db = (.ok (), { db with log }) ∧
      Appends db.log (l.map eventOf) log := by
  induction l generalizing db with
  | nil => exact ⟨db.log, rfl, .refl db.log⟩
  | cons x l ih =>
      obtain ⟨now, later⟩ := (EventLog.writableFor_succ (eventOf x)).mp written
      have outcome := EventLog.append_of_writable now (eventOf x)
      have next : ({ db with log := db.log.committed (eventOf x) } : Db).log.writableFor l.length =
        true := later
      obtain ⟨log, run, appends⟩ := ih next
      refine ⟨log, ?_, ((Appends.refl db.log).ok outcome).trans appends⟩
      rw [appendEach_cons, run_bindE, run_append, outcome]
      exact run

theorem run_appendEach_refused {x : α} {l : List α} {db : Db}
    (refused : db.log.writable = false) :
    ∃ e log, (appendEach eventOf onError (x :: l)).run.run db = (.error e, { db with log }) ∧
      Appends db.log [] log := by
  obtain ⟨e, log, outcome, -⟩ := EventLog.append_of_not_writable refused (eventOf x)
  refine ⟨onError e, log, ?_, (Appends.refl db.log).failed outcome⟩
  rw [appendEach_cons, run_bindE, run_append, outcome]

variable {eventOf onError}

/-- Logging all the events and then clearing keeps lockstep if every write goes
through and the events clear what the edit clears, or if the first is refused. -/
theorem lockstep_clear {β : Type} {l : List α} {write : Store → Store} {answer : β}
    (written : db.log.writable = true → l ≠ [] →
      db.log.writableFor l.length = true ∧ write db.toStore = fold db.toStore (l.map eventOf))
    (nothing : l = [] → write db.toStore = db.toStore) (permitted : ∀ s x, P s (eventOf x)) :
    Keeps (LockstepIn P) (do
      appendEach eventOf onError l
      edit write
      return answer : DbM ε β).run db := by
  unfold Keeps
  rw [run_bindE]
  rcases l with _ | ⟨x, l⟩
  · exact ⟨[], .refl db.log, trivial, nothing rfl⟩
  cases writable : db.log.writable with
  | false =>
      obtain ⟨e, log, run, appends⟩ :=
        run_appendEach_refused eventOf onError (x := x) (l := l) writable
      rw [run]
      exact ⟨[], appends, trivial, rfl⟩
  | true =>
      obtain ⟨all, same⟩ := written writable (List.cons_ne_nil x l)
      obtain ⟨log, run, appends⟩ :=
        run_appendEach_written eventOf onError all
      rw [run]
      exact ⟨(x :: l).map eventOf, appends, along_map fun s y => permitted s y, same⟩

end Clearing

/-- Folding the removal of some bots erases their keys; the rest of the store
keeps, save the default bot, which goes if it is among them. -/
theorem fold_botRemoved (s : Store) (nicks : List String) :
    ∃ d, fold s (nicks.map .botRemoved) =
        { s with
          bots := nicks.foldl (fun m n => m.erase (key n)) s.bots
          net := { s.net with defaultBot := d } } ∧
      ((∀ n ∈ nicks, s.net.defaultBot ≠ some (key n)) → d = s.net.defaultBot) := by
  induction nicks generalizing s with
  | nil => exact ⟨s.net.defaultBot, rfl, fun _ => rfl⟩
  | cons n nicks ih =>
      rw [List.map_cons, fold_cons]
      obtain ⟨d, eq, kept⟩ := ih (apply s (.botRemoved n))
      refine ⟨d, ?_, fun other => ?_⟩
      · rw [eq]
        simp only [apply]
        split <;> rfl
      · have first := other n List.mem_cons_self
        simp only [apply, if_neg first] at kept
        exact kept fun m hm => other m (List.mem_cons_of_mem n hm)

/-- Every bot is held under its nick's key, so removing all the nicks leaves no
bot. -/
theorem erase_nicks (wf : db.Wf) (env : Env) :
    ((env.values db.bots).map (·.nick)).foldl (fun m n => m.erase (key n)) db.bots = ∅ := by
  refine eraseAll_eq_empty fun k bot held => ?_
  exact ⟨bot.nick, List.mem_map_of_mem (Env.mem_values.mpr ⟨k, held⟩), wf.bots k bot held⟩

theorem lockstep_botDelAll (wf : db.Wf) {env : Env}
    (h : db.log.writable = true → db.bots ≠ ∅ →
      db.log.writableFor db.bots.toList.length = true ∧
        ∀ k ∈ db.net.defaultBot, db.bots.contains k = false)
    (permitted : ∀ s nick, P s (.botRemoved nick)) :
    Keeps (LockstepIn P) (botDelAll env).run db := by
  refine keeps_get_bindE (lockstep_clear (fun writable some => ?_) (fun none => ?_) permitted)
  · have count : ((env.values db.bots).map (·.nick)).length = db.bots.toList.length := by
      unfold Env.values Env.entries
      rw [List.length_map, List.length_map, (env.iter_perm _).length_eq]
    have bots : db.bots ≠ ∅ := by
      intro empty
      refine some (List.eq_nil_of_length_eq_zero ?_)
      rw [count, empty]
      rfl
    obtain ⟨all, other⟩ := h writable bots
    refine ⟨count ▸ all, ?_⟩
    obtain ⟨d, folded, kept⟩ := fold_botRemoved db.toStore ((env.values db.bots).map (·.nick))
    rw [folded, erase_nicks wf, kept]
    intro n hn default
    obtain ⟨bot, hb, rfl⟩ := List.mem_map.mp hn
    obtain ⟨k, held⟩ := Env.mem_values.mp hb
    have absent := other _ default
    rw [wf.bots k bot held, ExtTreeMap.contains_eq_isSome_getElem?, held] at absent
    contradiction
  · have cleared := erase_nicks wf env
    rw [none] at cleared
    change { db.toStore with bots := ∅ } = db.toStore
    rw [← cleared]
    rfl

/-- Folding the removal of each watch leaves no watch. -/
theorem fold_notifyRemoved (s : Store) (masks : List String) :
    fold s (masks.map .notifyRemoved) =
      s.adjustNet fun n =>
        { n with notifies := n.notifies.filter fun x =>
            !masks.any fun mask => eqIgnoreAsciiCase x.mask mask } := by
  induction masks generalizing s with
  | nil =>
      simp only [List.map_nil, fold_nil, List.any_nil, Bool.not_false, List.filter_true]
      rfl
  | cons mask masks ih =>
      rw [List.map_cons, fold_cons, ih]
      simp only [apply, Store.adjustNet, List.filter_filter, List.any_cons, Bool.not_or]
      simp only [Bool.and_comm]

theorem cleared_notifies (s : Store) :
    (s.adjustNet ({ · with notifies := [] })) =
      fold s ((s.net.notifies.map (·.mask)).map .notifyRemoved) := by
  have all : (s.net.notifies.filter fun x =>
      !(s.net.notifies.map (·.mask)).any fun mask => eqIgnoreAsciiCase x.mask mask) = [] := by
    refine List.filter_eq_nil_iff.mpr fun x hx => ?_
    have own : (s.net.notifies.map (·.mask)).any
        (fun mask => eqIgnoreAsciiCase x.mask mask) = true :=
      List.any_eq_true.mpr ⟨x.mask, List.mem_map_of_mem hx, eqIgnoreAsciiCase_self _⟩
    simp [own]
  rw [fold_notifyRemoved]
  simp only [Store.adjustNet, all]

theorem lockstep_notifyClear
    (h : db.log.writable = true → db.net.notifies ≠ [] →
      db.log.writableFor db.net.notifies.length = true)
    (permitted : ∀ s mask, P s (.notifyRemoved mask)) :
    Keeps (LockstepIn P) notifyClear.run db := by
  refine keeps_get_bindE (lockstep_clear (fun writable some => ?_) (fun none => ?_) permitted)
  · have notifies : db.net.notifies ≠ [] := fun empty => some (by rw [empty]; rfl)
    exact ⟨by rw [List.length_map]; exact h writable notifies, cleared_notifies db.toStore⟩
  · have empty := List.map_eq_nil_iff.mp none
    simp only [Store.adjustNet, ← empty]

end Db

/-! ### Every call -/

namespace Call

open Db

variable {env : Env} {c : Call} {db : Db}

/-- The calls whose edit is not always the fold of what they log. -/
def deviates : Call → Bool
  | .memoSend .. | .botDel .. | .botDelAll | .botChange .. | .notifyClear | .reportFile ..
  | .helpRequest .. => true
  | _ => false

/-- A call that does not deviate keeps whatever lockstep in the events it is
permitted implies, as far as the event it offers does. -/
theorem keeps {R : Db → Db → Prop} [IsPreorder Db R] (wf : db.Wf)
    (lock : ∀ d d', LockstepIn c.permits d d' → R d d') (straight : c.deviates = false)
    (offered : ∀ event, c.offers env db = some event → Keeps R (offer event) db) :
    Keeps R (c.run env) db := by
  have strict {α ε : Type} {call : DbM ε α} (h : Keeps (LockstepIn c.permits) call.run db) :
      Keeps R (effect call) db := lock _ _ h
  cases c with
  | memoSend | botDel | botDelAll | botChange | notifyClear | reportFile | helpRequest =>
      contradiction
  | registerPrepared name creds email =>
      exact strict (lockstep_registerPrepared fun free _ _ _ _ _ =>
        ⟨free, email, .inl ⟨creds, rfl⟩, _, _, _, _, _, rfl⟩)
  | provisionAccount name scram256 scram512 email =>
      exact strict (lockstep_provisionAccount rfl fun free _ _ _ _ _ =>
        ⟨free, email, .inr ⟨scram256, scram512, rfl⟩, _, _, _, _, _, rfl⟩)
  | dropAccount account => exact strict (lockstep_dropAccount rfl)
  | setPubkey account pubkey => exact strict (lockstep_setPubkey fun _ => ⟨pubkey, rfl⟩)
  | setCredentials account creds => exact strict (lockstep_setCredentials rfl)
  | certfpAdd account fp =>
      exact strict (lockstep_certfpAdd fun absent => ⟨⟨fp, rfl, rfl⟩, absent⟩)
  | setProfile account field value =>
      exact strict (lockstep_writeAccount (fun s => by simp [apply]) trivial)
  | verifyAccount | setEmail | setGreet | setLanguage | setSwhois | setSignore | setAccountAutoop
  | setAccountKill | setAccountHideStatus | setAccountSnotice | setVhost =>
      exact strict (lockstep_writeAccount (fun _ => rfl) trivial)
  | suspendAccount => exact strict (lockstep_writeAccount (fun _ => rfl) ⟨_, _, _, rfl⟩)
  | certfpDel | ajoinDel | delVhost | unsuspendAccount | setAccountNoexpire =>
      exact strict (lockstep_changeAccount (fun _ => rfl) trivial)
  | ajoinAdd account channel joinKey => exact strict (lockstep_ajoinAdd trivial)
  | requestVhost account host => exact strict (lockstep_requestVhost trivial)
  | takeVhostRequest account => exact strict (lockstep_takeVhostRequest trivial)
  | vhostOfferAdd host => exact strict (lockstep_vhostOfferAdd trivial)
  | vhostForbidAdd pattern => exact strict (lockstep_vhostForbidAdd trivial)
  | vhostOfferDel | vhostForbidDel =>
      exact strict (lockstep_hostListDel (fun _ _ => rfl) fun _ => trivial)
  | setVhostTemplate template => exact strict (lockstep_logged rfl trivial)
  | groupNick nick account => exact strict (lockstep_groupNick fun held => ⟨rfl, held⟩)
  | ungroupNick nick => exact strict (lockstep_ungroupNick rfl)
  | registerChannel name founder => exact strict (lockstep_registerChannel rfl)
  | dropChannel name => exact strict (lockstep_dropChannel trivial)
  | renameChannel old new => exact strict (lockstep_renameChannel rfl)
  | setFounder channel account => exact strict (lockstep_setFounder (.inl rfl))
  | setSuccessor channel successor => exact strict (lockstep_setSuccessor (.inl rfl))
  | setMlockParams | levelSet | setDesc | setUrl | setChannelEmail | setEntrymsg | setChannelTopic
  | suspendChannel | assignBot => exact strict (lockstep_writeChannel (fun _ => rfl) trivial)
  | accessAdd channel account level => exact strict (lockstep_cappedAdd (fun _ => rfl) rfl)
  | akickAdd channel mask reason => exact strict (lockstep_cappedAdd (fun _ => rfl) trivial)
  | accessDel | akickDel | levelReset | unsuspendChannel | setChannelNoexpire | unassignBot =>
      exact strict (lockstep_changeChannel (fun _ => rfl) trivial)
  | releaseFoundedChannels account =>
      exact lock _ _ (lockstep_releaseFoundedChannels
        { drop := fun _ _ => trivial
          inherit := fun _ _ _ successor other named => .inr ⟨account, rfl, successor, other, named⟩
          clear := fun _ _ => .inr rfl })
  | setChannelSetting channel setting on =>
      exact strict (lockstep_setChannelSetting fun _ => trivial)
  | setKicker | setCapsKicker | setFloodKicker | setRepeatKicker | setTtb | setBanExpire
  | setVotekick => exact strict (lockstep_updateKickers fun _ => trivial)
  | badwordAdd channel pattern => exact strict (lockstep_badwordAdd fun _ => trivial)
  | badwordDel channel pattern => exact strict (lockstep_badwordDel fun _ => trivial)
  | badwordClear channel => exact strict (lockstep_badwordClear fun _ => trivial)
  | triggerAdd channel pattern response cooldown =>
      exact strict (lockstep_triggerAdd fun _ => trivial)
  | triggerDel channel index => exact strict (lockstep_triggerDel fun _ => trivial)
  | triggerClear channel => exact strict (lockstep_triggerClear fun _ => trivial)
  | copyBotConfig src dst =>
      exact strict (lockstep_copyBotConfig (fun _ _ => trivial) (fun _ _ => trivial)
        fun _ _ => trivial)
  | botAdd nick user host gecos => exact strict (lockstep_botAdd fun _ => trivial)
  | botSetPrivate nick «private» => exact strict (lockstep_botSetPrivate wf fun _ => trivial)
  | setDefaultBot bot => exact strict (lockstep_logged rfl trivial)
  | akillAdd | filterAdd | forbidAdd | notifyAdd =>
      exact strict (lockstep_lineAdd (fun _ => rfl) trivial)
  | akillDel | filterDel | forbidDel | notifyDel =>
      exact strict (lockstep_lineDel (fun _ => rfl) trivial)
  | persistStats counters chanStats => exact strict (lockstep_persistStats trivial)
  | persistIncidents seq incidents => exact strict (lockstep_logged rfl trivial)
  | groupRegister name founder => exact strict (lockstep_groupRegister fun _ _ => rfl)
  | groupDrop name => exact strict (lockstep_groupDrop trivial)
  | groupSetFlags | groupSetFounder => exact strict (lockstep_writeGroup (fun _ => rfl) rfl)
  | groupDelMember name account => exact strict (lockstep_groupDelMember trivial)
  | setReadonly on => exact lock _ _ ⟨[], .lockdown on (.refl db.log), trivial, rfl⟩
  | setEmailEnabled on => exact lock _ _ (.of_same rfl rfl)
  | setRegistrationVouch on => exact lock _ _ (.of_same rfl rfl)
  | markAccountSeen account now =>
      refine keeps_bind (keeps_quietAccount (fun _ _ => rfl) fun a held due => ?_) keeps_pure
      exact offered _ (by simpa [offers, held] using due)
  | markAccountWarned account =>
      refine keeps_bind (keeps_quietAccount (fun _ _ => rfl) fun a held _ => ?_) keeps_pure
      exact offered _ (by simp [offers, held])
  | setAccountNote account note =>
      refine keeps_bind (keeps_quietAccount (fun _ _ => rfl) fun a held _ => ?_) keeps_pure
      exact offered _ (by simp [offers, held])
  | memoRead account index =>
      refine keeps_bind (keeps_memoRead fun a held unread => ?_) keeps_pure
      exact offered _ (by simpa [offers, held] using unread)
  | memoDel account index =>
      refine keeps_bind (keeps_memoDel fun a held within => ?_) keeps_pure
      exact offered _ (by simp [offers, held, within])
  | memoCancel account sender =>
      refine keeps_bind (keeps_memoCancel fun a i held last => ?_) keeps_pure
      exact offered _ (by simp [offers, held, last])
  | memoIgnoreAdd account target =>
      refine keeps_bind (keeps_memoIgnoreAdd fun a held absent => ?_) keeps_pure
      exact offered _ (by simpa [offers, held] using absent)
  | memoIgnoreDel account target =>
      refine keeps_bind (keeps_quietAccount (fun _ _ => rfl) fun a held listed => ?_) keeps_pure
      exact offered _ (by simpa [offers, held] using listed)
  | setMemoNotify account on =>
      refine keeps_bind (keeps_quietAccount (fun a ha => ?_) fun a held _ => ?_) keeps_pure
      · exact Store.adjustAccount_congr fun b hb => by rw [Option.some.inj (ha.symm.trans hb)]
      · exact offered _ (by simp [offers, held])
  | setMemoLimit account limit =>
      refine keeps_bind (keeps_quietAccount (fun a ha => ?_) fun a held _ => ?_) keeps_pure
      · exact Store.adjustAccount_congr fun b hb => by rw [Option.some.inj (ha.symm.trans hb)]
      · exact offered _ (by simp [offers, held])
  | markChannelUsed channel now =>
      refine keeps_bind (keeps_quietChannel rfl fun c held due => ?_) keeps_pure
      exact offered _ (by simpa [offers, held] using due)
  | markChannelWarned channel =>
      refine keeps_bind (keeps_quietChannel rfl fun c held _ => ?_) keeps_pure
      exact offered _ (by simp [offers, held])
  | setChannelNote channel note =>
      refine keeps_bind (keeps_quietChannel rfl fun c held _ => ?_) keeps_pure
      exact offered _ (by simp [offers, held])
  | sessionExceptAdd mask limit reason => exact keeps_quietly rfl (offered _ rfl)
  | operGrant account privs expires => exact keeps_quietly rfl (offered _ rfl)
  | newsAdd kind text setter => exact keeps_bind (keeps_newsAdd wf (offered _ rfl)) keeps_pure
  | jupeAdd name reason =>
      refine keeps_bind (keeps_jupeAdd fun absent => offered _ ?_) keeps_pure
      simp only [offers, absent]
      rfl
  | jupeDel name =>
      refine keeps_bind (keeps_jupeDel fun held => offered _ ?_) keeps_pure
      simp only [offers, held]
      rfl
  | sessionExceptDel | operRevoke | newsDel | reportClose | reportDel | helpTake | helpClose =>
      refine keeps_bind (keeps_quietEdit rfl fun held => offered _ ?_) keeps_pure
      simp only [offers, held]
      rfl

/-- An event whose refusal is ignored keeps lockstep if it is not refused, or if
it says nothing new. -/
theorem lockstep_offer {event : Event}
    (h : db.log.writable = true ∨ apply db.toStore event = db.toStore) :
    Keeps Lockstep (offer event) db := by
  cases writable : db.log.writable with
  | true =>
      have taken : Keeps (LockstepIn fun _ _ => True) (offer event) db :=
        lockstep_quietly rfl trivial writable
      exact taken.mono fun _ => LockstepIn.lockstep
  | false =>
      have idle : apply db.toStore event = db.toStore := by
        rcases h with h | h
        · rw [h] at writable
          contradiction
        · exact h
      obtain ⟨e, log, outcome, -⟩ := EventLog.append_of_not_writable writable event
      unfold Keeps offer
      rw [run_quietly, outcome]
      exact ⟨[], (Appends.refl db.log).failed outcome, idle⟩

/-- A safe call keeps the records in lockstep with the log. -/
theorem lockstep (wf : db.Wf) (safe : c.safe env db) : Keeps Lockstep (c.run env) db := by
  cases h : c.deviates with
  | false =>
      refine keeps wf (fun _ _ => LockstepIn.lockstep) h fun event offered => lockstep_offer ?_
      cases c <;> first | contradiction | exact safe event offered
  | true =>
      have strict {α ε : Type} {call : DbM ε α}
          (h : Keeps (LockstepIn fun _ _ => True) call.run db) : Keeps Lockstep (effect call) db :=
        h.mono fun _ => LockstepIn.lockstep
      cases c with
      | memoSend account sender text receipt =>
          exact strict (lockstep_memoSend (fun writable a held => safe writable a held) trivial)
      | botDel nick => exact strict (lockstep_botDel safe trivial)
      | botDelAll => exact strict (lockstep_botDelAll wf safe fun _ _ => trivial)
      | botChange old newNick user host gecos =>
          exact strict (lockstep_botChange safe (fun _ _ => trivial) (fun _ _ => trivial)
            fun _ _ _ => trivial)
      | notifyClear => exact strict (lockstep_notifyClear safe fun _ _ => trivial)
      | reportFile reporter cooldownKey target reason =>
          obtain ⟨room, writable⟩ := safe
          refine keeps_bind (keeps_unlessThrottled (fun _ => .of_same rfl rfl)
            fun times free => ?_) keeps_pure
          have offers : (offers env db (.reportFile reporter cooldownKey target reason)).isSome := by
            simp [Call.offers, free]
          refine keeps_fileReport ?_ ?_ (lockstep_offer ?_)
          · exact wf
          · exact room offers
          · exact .inl (writable offers)
      | helpRequest requester cooldownKey message =>
          obtain ⟨room, writable⟩ := safe
          refine keeps_bind (keeps_unlessThrottled (fun _ => .of_same rfl rfl)
            fun times free => ?_) keeps_pure
          have offers : (offers env db (.helpRequest requester cooldownKey message)).isSome := by
            simp [Call.offers, free]
          refine keeps_fileHelp ?_ ?_ (lockstep_offer ?_)
          · exact wf
          · exact room offers
          · exact .inl (writable offers)
      | _ => contradiction

end Call

end Echo
