import Echo.Db.Lockstep

/-!
Lockstep of the mutator families. Each lemma asks only that the member's edit is
the fold of the member's event and that the event is permitted; the guards in
front of it change nothing.
-/

namespace Echo.Db

open Echo.Lib

variable {ε α : Type} {db : Db} {P : Store → Event → Prop}

theorem keeps_effect {R : Db → Db → Prop} {call : DbM ε α} (h : Keeps R call.run db) :
    Keeps R (effect call) db := h

/-! ### The families that end on a failed write -/

theorem lockstep_writeAccount {account : String} {event : Event} {write : Account → Account}
    (same : ∀ s : Store, s.adjustAccount account write = apply s event)
    (permitted : P db.toStore event) :
    Keeps (LockstepIn P) (writeAccount account event write).run db := by
  refine keeps_get_bindE ?_
  split
  · exact lockstep_logged (same db.toStore) permitted
  · exact keeps_throw

theorem lockstep_changeAccount {missing internal : ε} {account : String} {pending : Account → Bool}
    {event : Event} {write : Account → Account}
    (same : ∀ s : Store, s.adjustAccount account write = apply s event)
    (permitted : P db.toStore event) :
    Keeps (LockstepIn P) (changeAccount missing internal account pending event write).run db := by
  refine keeps_get_bindE ?_
  split
  · exact keeps_throw
  · split
    · exact keeps_bindE (lockstep_logged (same db.toStore) permitted) fun _ _ _ => keeps_ok
    · exact keeps_ok

theorem lockstep_writeChannel {channel : String} {event : Event} {write : ChannelInfo → ChannelInfo}
    (same : ∀ s : Store, s.adjustChannel channel write = apply s event)
    (permitted : P db.toStore event) :
    Keeps (LockstepIn P) (writeChannel channel event write).run db := by
  refine keeps_get_bindE ?_
  split
  · exact lockstep_logged (same db.toStore) permitted
  · exact keeps_throw

theorem lockstep_changeChannel {channel : String} {pending : ChannelInfo → Bool} {event : Event}
    {write : ChannelInfo → ChannelInfo}
    (same : ∀ s : Store, s.adjustChannel channel write = apply s event)
    (permitted : P db.toStore event) :
    Keeps (LockstepIn P) (changeChannel channel pending event write).run db := by
  refine keeps_get_bindE ?_
  split
  · exact keeps_throw
  · split
    · exact keeps_bindE (lockstep_logged (same db.toStore) permitted) fun _ _ _ => keeps_ok
    · exact keeps_ok

theorem lockstep_cappedAdd {channel : String} {listOf : ChannelInfo → List α} {dup : α → Bool}
    {event : Event} {write : ChannelInfo → ChannelInfo}
    (same : ∀ s : Store, s.adjustChannel channel write = apply s event)
    (permitted : P db.toStore event) :
    Keeps (LockstepIn P) (cappedAdd channel listOf dup event write).run db := by
  refine keeps_get_bindE ?_
  split
  · exact keeps_throw
  · split
    · exact keeps_throw
    · exact lockstep_logged (same db.toStore) permitted

theorem lockstep_updateKickers {channel : String} {f : KickerSettings → KickerSettings}
    (permitted : ∀ kickers, P db.toStore (.channelKickerSet channel kickers)) :
    Keeps (LockstepIn P) (updateKickers channel f).run db := by
  refine keeps_get_bindE ?_
  split
  · exact keeps_throw
  · exact lockstep_logged rfl (permitted _)

theorem lockstep_writeBadwords {channel : String} {list : List String}
    (permitted : P db.toStore (.channelBadwordsSet channel list)) :
    Keeps (LockstepIn P) (writeBadwords channel list).run db := lockstep_logged rfl permitted

theorem lockstep_writeTriggers {channel : String} {list : List Trigger}
    (permitted : P db.toStore (.channelTriggersSet channel list)) :
    Keeps (LockstepIn P) (writeTriggers channel list).run db := lockstep_logged rfl permitted

theorem lockstep_lineAdd {live : NetData → Bool} {event : Event} {write : NetData → NetData}
    (same : ∀ s : Store, s.adjustNet write = apply s event)
    (permitted : P db.toStore event) :
    Keeps (LockstepIn P) (lineAdd live event write).run db := by
  refine keeps_get_bindE ?_
  exact keeps_bindE (lockstep_logged (same db.toStore) permitted) fun _ _ _ => keeps_ok

theorem lockstep_lineDel {live : NetData → Bool} {event : Event} {write : NetData → NetData}
    (same : ∀ s : Store, s.adjustNet write = apply s event)
    (permitted : P db.toStore event) :
    Keeps (LockstepIn P) (lineDel live event write).run db := by
  refine keeps_get_bindE ?_
  split
  · exact keeps_bindE (lockstep_logged (same db.toStore) permitted) fun _ _ _ => keeps_ok
  · exact keeps_ok

theorem lockstep_writeGroup {name : String} {event : Event} {write : Group → Group}
    (same : ∀ s : Store, s.adjustGroup name write = apply s event)
    (permitted : P db.toStore event) :
    Keeps (LockstepIn P) (writeGroup name event write).run db := by
  refine keeps_get_bindE ?_
  split
  · exact lockstep_logged (same db.toStore) permitted
  · exact keeps_throw

theorem lockstep_putBot {bot : Bot} (permitted : P db.toStore (.botAdded bot)) :
    Keeps (LockstepIn P) (putBot bot).run db := lockstep_logged rfl permitted

theorem lockstep_setChannelSetting {channel : String} {setting : ChanSetting} {on : Bool}
    (permitted : ∀ settings, P db.toStore (.channelSettingsSet channel settings)) :
    Keeps (LockstepIn P) (setChannelSetting channel setting on).run db := by
  refine keeps_get_bindE ?_
  split
  · exact keeps_throw
  · exact lockstep_logged rfl (permitted _)

theorem lockstep_hostListAdd {listOf : HostConfig → List String} {entry : String} {event : Event}
    {write : HostConfig → HostConfig}
    (same : (listOf db.hostCfg).any (· == entry) = false →
      db.toStore.adjustHost write = apply db.toStore event)
    (permitted : P db.toStore event) :
    Keeps (LockstepIn P) (hostListAdd listOf entry event write).run db := by
  refine keeps_get_bindE ?_
  split
  · exact keeps_ok
  · rename_i absent
    rw [Bool.not_eq_true] at absent
    exact keeps_bindE (lockstep_logged (same absent) permitted) fun _ _ _ => keeps_ok

theorem lockstep_hostListDel {listOf : HostConfig → List String} {index : Nat}
    {event : String → Event} {write : String → HostConfig → HostConfig}
    (same : ∀ (s : Store) entry, s.adjustHost (write entry) = apply s (event entry))
    (permitted : ∀ entry, P db.toStore (event entry)) :
    Keeps (LockstepIn P) (hostListDel listOf index event write).run db := by
  refine keeps_get_bindE ?_
  cases index with
  | zero => exact keeps_ok
  | succ i =>
      dsimp only
      split
      · exact keeps_ok
      · exact keeps_bindE (lockstep_logged (same db.toStore _) (permitted _)) fun _ _ _ => keeps_ok

/-- A registration under a name nobody holds: no rival claim stands. -/
theorem lockstep_commitAccount {account : Account} (free : db.accounts[key account.name]? = none)
    (permitted : P db.toStore (.accountRegistered account)) :
    Keeps (LockstepIn P) (commitAccount account).run db := by
  refine lockstep_logged ?_ permitted
  simp [apply, free]

/-! ### The families that ignore a failed write -/

section Quiet

variable {R : Db → Db → Prop} [IsPreorder Db R]

/-- Edit the records as the fold does, the log having been offered the event. -/
def offer (event : Event) : StateM Db Unit := quietly event (apply · event)

omit [IsPreorder Db R] in
theorem keeps_quietly {event : Event} {write : Store → Store}
    (same : write db.toStore = apply db.toStore event) (h : Keeps R (offer event) db) :
    Keeps R (quietly event write) db := by
  unfold Keeps offer at *
  rw [run_quietly] at h ⊢
  rwa [same]

theorem keeps_quietAccount {account : String} {pending : Account → Bool} {event : Account → Event}
    {write : Account → Account}
    (same : ∀ a, db.accounts[key account]? = some a →
      db.toStore.adjustAccount account write = apply db.toStore (event a))
    (h : ∀ a, db.accounts[key account]? = some a → pending a = true →
      Keeps R (offer (event a)) db) :
    Keeps R (quietAccount account pending event write) db := by
  refine keeps_get_bind ?_
  split
  · exact keeps_pure
  · rename_i a held
    split
    · rename_i due
      exact keeps_bind (keeps_quietly (same a held) (h a held due)) keeps_pure
    · exact keeps_pure

theorem keeps_quietChannel {channel : String} {pending : ChannelInfo → Bool} {event : Event}
    {write : ChannelInfo → ChannelInfo}
    (same : db.toStore.adjustChannel channel write = apply db.toStore event)
    (h : ∀ c, db.channels[key channel]? = some c → pending c = true → Keeps R (offer event) db) :
    Keeps R (quietChannel channel pending event write) db := by
  refine keeps_get_bind ?_
  split
  · exact keeps_pure
  · rename_i c held
    split
    · rename_i due
      exact keeps_bind (keeps_quietly same (h c held due)) keeps_pure
    · exact keeps_pure

theorem keeps_quietEdit {present : NetData → Bool} {event : Event} {write : NetData → NetData}
    (same : db.toStore.adjustNet write = apply db.toStore event)
    (h : present db.net = true → Keeps R (offer event) db) :
    Keeps R (quietEdit present event write) db := by
  refine keeps_get_bind ?_
  split
  · rename_i held
    exact keeps_bind (keeps_quietly same (h held)) keeps_pure
  · exact keeps_pure

end Quiet

end Echo.Db
