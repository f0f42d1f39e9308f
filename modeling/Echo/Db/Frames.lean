import Echo.Db.Channel
import Echo.Db.Lockstep

/-!
A call about one channel leaves every other channel as it is.
-/

namespace Echo

open Std (ExtTreeMap)
open Echo.Lib

namespace Db

/-- The channel held under `k`, if there is one, is as it was. -/
def LeavesChannel (k : String) (db db' : Db) : Prop := db'.channels[k]? = db.channels[k]?

instance (k : String) : IsPreorder Db (LeavesChannel k) where
  refl _ := rfl
  trans _ _ _ first second := Eq.trans second first

variable {k channel : String} {db : Db}

theorem leaves_logged {ε : Type} (event : Event) (onError : IoError → ε) {write : Store → Store}
    (same : (write db.toStore).channels[k]? = db.channels[k]?) :
    Keeps (LeavesChannel k) (logged event onError write).run db := by
  unfold Keeps
  rw [run_logged]
  rcases db.log.append event with ⟨log, err | ⟨⟩⟩
  · rfl
  · exact same

theorem leaves_loggedChannel {ε : Type} (apart : key channel ≠ k) (event : Event)
    (onError : IoError → ε) (write : ChannelInfo → ChannelInfo) :
    Keeps (LeavesChannel k) (logged event onError (·.adjustChannel channel write)).run db := by
  refine leaves_logged event onError ?_
  unfold Store.adjustChannel
  rw [ExtTreeMap.getElem?_modify, if_neg (by simpa using apart)]

/-! ### Writes to a channel -/

theorem leaves_writeChannel (apart : key channel ≠ k) (event : Event)
    (write : ChannelInfo → ChannelInfo) :
    Keeps (LeavesChannel k) (writeChannel channel event write).run db := by
  refine keeps_get_bindE ?_
  split
  · exact leaves_loggedChannel apart _ _ _
  · exact keeps_throw

theorem leaves_changeChannel (apart : key channel ≠ k) (pending : ChannelInfo → Bool)
    (event : Event) (write : ChannelInfo → ChannelInfo) :
    Keeps (LeavesChannel k) (changeChannel channel pending event write).run db := by
  refine keeps_get_bindE ?_
  split
  · exact keeps_throw
  · split
    · exact keeps_bindE (leaves_loggedChannel apart _ _ _) fun _ _ _ => keeps_ok
    · exact keeps_ok

theorem leaves_cappedAdd {α : Type} (apart : key channel ≠ k) (listOf : ChannelInfo → List α)
    (same : α → Bool) (event : Event) (write : ChannelInfo → ChannelInfo) :
    Keeps (LeavesChannel k) (cappedAdd channel listOf same event write).run db := by
  refine keeps_get_bindE ?_
  split
  · exact keeps_throw
  · split
    · exact keeps_throw
    · exact leaves_loggedChannel apart _ _ _

theorem leaves_setChannelSetting (apart : key channel ≠ k) (setting : ChanSetting) (on : Bool) :
    Keeps (LeavesChannel k) (setChannelSetting channel setting on).run db := by
  refine keeps_get_bindE ?_
  split
  · exact keeps_throw
  · exact leaves_loggedChannel apart _ _ _

/-! ### Registrations -/

/-- A name that is registered is not registered anew. -/
theorem leaves_registerChannel (taken : db.channels.contains k = true) (env : Env)
    (name founder : String) :
    Keeps (LeavesChannel k) (registerChannel env name founder).run db := by
  refine keeps_get_bindE ?_
  split
  · exact keeps_throw
  · rename_i free
    refine leaves_logged _ _ ?_
    have apart : key name ≠ k := by
      rintro rfl
      exact free taken
    rw [ExtTreeMap.getElem?_insert, if_neg (by simpa using apart)]

theorem registerChannel_ok (taken : db.channels.contains k = true) {env : Env}
    {name founder : String} (ok : ((registerChannel env name founder).run.run db).1 = .ok ()) :
    key name ≠ k := by
  rintro rfl
  unfold registerChannel at ok
  rw [run_bindE] at ok
  change ((if db.channels.contains (key name) then throw .exists else _ : DbM ChanError Unit).run.run db).1 =
    .ok () at ok
  rw [if_pos taken] at ok
  cases ok

theorem leaves_dropChannel (apart : key channel ≠ k) :
    Keeps (LeavesChannel k) (dropChannel channel).run db := by
  refine keeps_get_bindE ?_
  split
  · refine leaves_logged _ _ ?_
    rw [ExtTreeMap.getElem?_erase, if_neg (by simpa using apart)]
  · exact keeps_throw

/-- A channel is not renamed onto another. -/
theorem leaves_renameChannel {old new : String} (apart : key old ≠ k)
    (taken : db.channels.contains k = true) :
    Keeps (LeavesChannel k) (renameChannel old new).run db := by
  refine keeps_get_bindE ?_
  split
  · exact keeps_throw
  · split
    · exact keeps_throw
    · rename_i free
      refine leaves_logged _ _ ?_
      have other : key new ≠ k := by
        rintro rfl
        exact free ⟨apart, taken⟩
      split
      · rw [ExtTreeMap.getElem?_insert, if_neg (by simpa using other), ExtTreeMap.getElem?_erase,
          if_neg (by simpa using apart)]
      · rfl

theorem renameChannel_ok {old new : String} (apart : key old ≠ k)
    (taken : db.channels.contains k = true)
    (ok : ((renameChannel old new).run.run db).1 = .ok ()) : key new ≠ k := by
  rintro rfl
  unfold renameChannel at ok
  rw [run_get_bindE] at ok
  split at ok
  · cases ok
  · rw [if_pos ⟨apart, taken⟩] at ok
    cases ok

theorem leaves_memoSend (env : Env) (account sender text : String) (receipt : Bool) :
    Keeps (LeavesChannel k) (memoSend env account sender text receipt).run db := by
  refine keeps_get_bindE ?_
  split
  · exact leaves_logged _ _ rfl
  · exact keeps_throw

/-! ### What stays registered -/

/-- The channel of this key is still registered, if it was. -/
def StaysRegistered (k : String) (db db' : Db) : Prop :=
  db.channels.contains k = true → db'.channels.contains k = true

theorem stays_loggedChannel {ε : Type} (event : Event) (onError : IoError → ε)
    (write : ChannelInfo → ChannelInfo) :
    Keeps (StaysRegistered k) (logged event onError (·.adjustChannel channel write)).run db := by
  intro registered
  rw [run_logged]
  rcases db.log.append event with ⟨log, err | ⟨⟩⟩
  · exact registered
  · unfold Store.adjustChannel
    rw [ExtTreeMap.contains_modify]
    exact registered

theorem stays_writeChannel (event : Event) (write : ChannelInfo → ChannelInfo) :
    Keeps (StaysRegistered k) (writeChannel channel event write).run db := by
  refine keeps_get_bindE ?_
  split
  · exact stays_loggedChannel _ _ _
  · exact fun registered => registered

theorem stays_cappedAdd {α : Type} (listOf : ChannelInfo → List α) (same : α → Bool)
    (event : Event) (write : ChannelInfo → ChannelInfo) :
    Keeps (StaysRegistered k) (cappedAdd channel listOf same event write).run db := by
  refine keeps_get_bindE ?_
  split
  · exact fun registered => registered
  · split
    · exact fun registered => registered
    · exact stays_loggedChannel _ _ _

end Db

end Echo
