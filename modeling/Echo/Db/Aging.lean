import Echo.Db.Core
import Echo.Lib.Stamps

/-!
How the compiled lists of a channel, its badwords and its triggers, change: under one
registration only by writes that are counted. A registration and a rename are what puts
another channel in a place.
-/

namespace Echo

open Std (ExtTreeMap)
open Echo.Lib

namespace ChannelInfo

def badwordSource (c : ChannelInfo) : Source (List String) := ⟨c.ts, c.badwordsRev, c.badwords⟩

def triggerSource (c : ChannelInfo) : Source (List Trigger) := ⟨c.ts, c.triggersRev, c.triggers⟩

/-- A registration some time later. -/
structure Ages (c c' : ChannelInfo) : Prop where
  badwords : c.badwordSource.Ages c'.badwordSource
  triggers : c.triggerSource.Ages c'.triggerSource

theorem Ages.refl (c : ChannelInfo) : c.Ages c := ⟨.refl _, .refl _⟩

end ChannelInfo

namespace Store

variable {s s' : Store} {e : Event}

/-- Every registration is an earlier one that has aged. -/
def Ages (s s' : Store) : Prop :=
  ∀ (k : String) c', s'.channels[k]? = some c' → ∃ c, s.channels[k]? = some c ∧ c.Ages c'

theorem ages_same (same : s'.channels = s.channels) : s.Ages s' := fun _ c held => ⟨c, same ▸ held, .refl c⟩

theorem Ages.trans {s'' : Store} (first : s.Ages s') (second : s'.Ages s'') : s.Ages s'' := by
  intro k c'' held
  obtain ⟨c', held', later⟩ := second k c'' held
  obtain ⟨c, held, now⟩ := first k c' held'
  exact ⟨c, held, now.badwords.trans later.badwords, now.triggers.trans later.triggers⟩

theorem ages_adjust {name : String} {f : ChannelInfo → ChannelInfo} (ages : ∀ c : ChannelInfo, c.Ages (f c)) :
    s.Ages (s.adjustChannel name f) := by
  intro k c' held
  change (s.channels.modify (key name) f)[k]? = some c' at held
  rw [ExtTreeMap.getElem?_modify] at held
  split at held
  · rename_i same
    obtain rfl := Std.LawfulEqCmp.eq_of_compare same
    obtain ⟨c, was, rfl⟩ := Option.map_eq_some_iff.mp held
    exact ⟨c, was, ages c⟩
  · exact ⟨c', held, .refl c'⟩

/-- Apart from registrations and renames, channels only age. -/
theorem ages_apply (registered : ∀ name founder ts, e ≠ .channelRegistered name founder ts)
    (renamed : ∀ old new, e ≠ .channelRenamed old new) : s.Ages (apply s e) := by
  cases e with
  | channelRegistered name founder ts => exact absurd rfl (registered name founder ts)
  | channelRenamed old new => exact absurd rfl (renamed old new)
  | accountRegistered | accountProfileSet =>
      simp only [apply]
      split <;> exact ages_same rfl
  | accountDropped account =>
      intro k c' held
      change (s.channels.map fun _ c => Store.purgeChannel account c)[k]? = some c' at held
      rw [ExtTreeMap.getElem?_map] at held
      obtain ⟨c, was, rfl⟩ := Option.map_eq_some_iff.mp held
      exact ⟨c, was, .refl _, .refl _⟩
  | channelDropped name =>
      intro k c held
      change (s.channels.erase (key name))[k]? = some c at held
      rw [ExtTreeMap.getElem?_erase] at held
      split at held
      · cases held
      · exact ⟨c, held, .refl c⟩
  | channelBadwordsSet channel badwords =>
      exact ages_adjust fun c => ⟨c.badwordSource.ages_write badwords, .refl _⟩
  | channelTriggersSet channel triggers =>
      exact ages_adjust fun c => ⟨.refl _, c.triggerSource.ages_write triggers⟩
  | channelMlock | channelAccessAdd | channelAccessDel | channelAkickAdd | channelAkickDel
  | channelLevelSet | channelLevelReset | channelFounderSet | channelSuccessorSet | channelDescSet
  | channelEntryMsgSet | channelUrlSet | channelEmailSet | channelSettingsSet | channelKickerSet
  | channelTopicSet | channelSuspended | channelUnsuspended | channelBotAssigned | channelBotUnassigned
  | channelUsed | channelNoExpire | channelExpiryWarned | channelOperNoteSet =>
      exact ages_adjust fun _ => ⟨.refl _, .refl _⟩
  | _ => exact ages_same rfl

/-- A registration takes its place, and the others stay. -/
theorem channels_registered {name founder : String} {ts : Nat} {k : String} {c : ChannelInfo}
    (held : (apply s (.channelRegistered name founder ts)).channels[k]? = some c) :
    key name = k ∧ c.ts = ts ∨ s.channels[k]? = some c := by
  change (s.channels.insert (key name) (newChannel name founder ts))[k]? = some c at held
  rw [ExtTreeMap.getElem?_insert] at held
  split at held
  · rename_i same
    obtain rfl := Option.some.inj held
    exact .inl ⟨Std.LawfulEqCmp.eq_of_compare same, rfl⟩
  · exact .inr held

/-- A renamed channel takes its new place, and the others stay. -/
theorem channels_renamed {old new k : String} {c : ChannelInfo}
    (held : (apply s (.channelRenamed old new)).channels[k]? = some c) :
    (key new = k ∧ ∃ moved, s.channels[key old]? = some moved ∧ moved.Ages c) ∨ s.channels[k]? = some c := by
  simp only [apply] at held
  split at held
  · rename_i moved was
    rw [ExtTreeMap.getElem?_insert] at held
    split at held
    · rename_i same
      obtain rfl := Option.some.inj held
      exact .inl ⟨Std.LawfulEqCmp.eq_of_compare same, moved, was, .refl _, .refl _⟩
    · rw [ExtTreeMap.getElem?_erase] at held
      split at held
      · cases held
      · exact .inr held
  · exact .inr held

end Store

/-! ### Calls -/

/-- The calls that put another channel in a place. -/
def Call.replaces : Call → Bool
  | .registerChannel .. | .renameChannel .. => true
  | _ => false

/-- Channels have only aged. -/
def Older (db db' : Db) : Prop := db.toStore.Ages db'.toStore

instance : IsPreorder Db Older where
  refl _ := Store.ages_same rfl
  trans _ _ _ := Store.Ages.trans

namespace Db

variable {ε : Type} {db : Db} {event : Event} {onError : IoError → ε} {write : Store → Store}

theorem older_edit (ages : db.toStore.Ages (write db.toStore)) : Keeps Older (edit write) db := ages

theorem older_quietly (ages : db.toStore.Ages (write db.toStore)) : Keeps Older (quietly event write) db := by
  unfold Keeps
  rw [run_quietly]
  exact ages

theorem older_append : Keeps Older (append event onError).run db := by
  unfold Keeps
  rw [run_append]
  rcases db.log.append event with ⟨log, err | ⟨⟩⟩
  all_goals exact Store.ages_same rfl

theorem older_logged (ages : db.toStore.Ages (write db.toStore)) :
    Keeps Older (logged event onError write).run db := by
  unfold Keeps
  rw [run_logged]
  rcases db.log.append event with ⟨log, err | ⟨⟩⟩
  · exact Store.ages_same rfl
  · exact ages

theorem older_appendEach {α : Type} {eventOf : α → Event} {l : List α} :
    Keeps Older (appendEach eventOf onError l).run db := keeps_forME fun _ _ _ _ => older_append

theorem older_memoSend (env : Env) (account sender text : String) (receipt : Bool) :
    Keeps Older (memoSend env account sender text receipt).run db := by
  refine keeps_get_bindE ?_
  split
  · exact older_logged (Store.ages_same rfl)
  · exact keeps_throw

theorem older_botDel (nick : String) : Keeps Older (botDel nick).run db := by
  refine keeps_get_bindE ?_
  split
  · exact keeps_bindE (older_logged (Store.ages_same rfl)) fun _ _ _ => keeps_ok
  · exact keeps_ok

theorem older_botDelAll (env : Env) : Keeps Older (botDelAll env).run db := by
  refine keeps_get_bindE (keeps_bindE older_appendEach fun _ _ _ => ?_)
  exact keeps_bindE (keeps_liftE (older_edit (Store.ages_same rfl))) fun _ _ _ => keeps_ok

theorem older_botChange (env : Env) (old newNick user host gecos : String) :
    Keeps Older (botChange env old newNick user host gecos).run db := by
  have put (bot : Bot) (d : Db) : Keeps Older (putBot bot).run d := older_logged (Store.ages_same rfl)
  refine keeps_get_bindE ?_
  split
  · exact keeps_throw
  dsimp only
  split
  · exact put _ db
  split
  · exact keeps_throw
  refine keeps_bindE (older_logged (Store.ages_same rfl)) fun _ _ _ => keeps_bindE (put _ _) fun _ _ _ => ?_
  exact keeps_forME fun _ _ _ _ => older_logged (Store.ages_adjust fun _ => ⟨.refl _, .refl _⟩)

theorem older_notifyClear : Keeps Older notifyClear.run db := by
  refine keeps_get_bindE (keeps_bindE older_appendEach fun _ _ _ => ?_)
  exact keeps_bindE (keeps_liftE (older_edit (Store.ages_same rfl))) fun _ _ _ => keeps_ok

theorem older_fileReport (env : Env) (reporter target reason : String) :
    Keeps Older (fileReport env reporter target reason) db := by
  refine keeps_bind (older_edit (Store.ages_same rfl)) (keeps_get_bind (keeps_bind ?_ keeps_pure))
  exact older_quietly (Store.ages_same rfl)

theorem older_fileHelp (env : Env) (requester message : String) :
    Keeps Older (fileHelp env requester message) db := by
  refine keeps_bind (older_edit (Store.ages_same rfl)) (keeps_get_bind (keeps_bind ?_ keeps_pure))
  exact older_quietly (Store.ages_same rfl)

end Db

theorem Call.permits_ages {s : Store} {e : Event} {c : Call} (other : c.replaces = false)
    (permitted : c.permits s e) : s.Ages (apply s e) := by
  refine Store.ages_apply ?_ ?_
  · rintro name founder ts rfl
    obtain rfl : c = _ := permitted
    cases other
  · rintro old new rfl
    obtain rfl : c = _ := permitted
    cases other

theorem ages_fold {s : Store} {events : List Event} {c : Call} (other : c.replaces = false)
    (permitted : Along apply c.permits s events) : s.Ages (fold s events) := by
  induction events generalizing s with
  | nil => exact Store.ages_same rfl
  | cons e events ih => exact (Call.permits_ages other permitted.1).trans (ih permitted.2)

/-- Any other call leaves channels that have aged, whatever is refused. -/
theorem Call.older {env : Env} {c : Call} {db : Db} (wf : db.Wf) (other : c.replaces = false) :
    Keeps Older (c.run env) db := by
  cases h : c.deviates with
  | false =>
      refine keeps wf (fun d d' step => ?_) h fun event offered => Db.older_quietly ?_
      · obtain ⟨events, -, permitted, stores⟩ := step
        unfold Older
        rw [stores]
        exact ages_fold other permitted
      · exact permits_ages other (permits_offered offered)
  | true =>
      have session (times : Table Nat) : Older db { db with reportTimes := times } := Store.ages_same rfl
      cases c with
      | memoSend account sender text receipt => exact Db.older_memoSend env account sender text receipt
      | botDel nick => exact Db.older_botDel nick
      | botDelAll => exact Db.older_botDelAll env
      | botChange old newNick user host gecos => exact Db.older_botChange env old newNick user host gecos
      | notifyClear => exact Db.older_notifyClear
      | reportFile reporter cooldownKey target reason =>
          exact keeps_bind (Db.keeps_unlessThrottled session fun _ _ =>
            Db.older_fileReport env reporter target reason) keeps_pure
      | helpRequest requester cooldownKey message =>
          exact keeps_bind (Db.keeps_unlessThrottled session fun _ _ =>
            Db.older_fileHelp env requester message) keeps_pure
      | _ => contradiction

end Echo
