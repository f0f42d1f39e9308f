import Echo.Db.Wf

/-!
The persisted part of a store: everything but the counters of this session's
edits, which a channel bumps when its badwords or triggers change and which are
never serialized. The fold does not look at them.
-/

namespace Echo

open Std (ExtTreeMap)
open Echo.Lib

/-- The channel without the counters of this session's edits. -/
def ChannelInfo.persisted (c : ChannelInfo) : ChannelInfo :=
  { c with badwordsRev := 0, triggersRev := 0 }

/-- The store without the counters of this session's edits. -/
def Store.persisted (s : Store) : Store :=
  { s with channels := s.channels.map fun _ c => c.persisted }

@[simp] theorem Store.persisted_persisted (s : Store) : s.persisted.persisted = s.persisted := by
  unfold persisted
  rw [map_map]
  rfl

section

variable {s : Store}

theorem Store.persisted_adjustChannel {channel : String} {f : ChannelInfo → ChannelInfo}
    (blind : ∀ c, (f c.persisted).persisted = (f c).persisted) :
    (s.persisted.adjustChannel channel f).persisted = (s.adjustChannel channel f).persisted := by
  have same := map_modify_map (m := s.channels) (k := key channel)
    (g := ChannelInfo.persisted) (fun _ => rfl) blind
  exact congrArg (fun m => { s with channels := m }) same

/-- An event that leaves the channels alone does not see the counters. -/
theorem Store.persisted_edit {f : Store → Store}
    (frame : ∀ m, f { s with channels := m } = { f s with channels := m }) :
    (f s.persisted).persisted = (f s).persisted := by
  have twice := congrArg Store.channels s.persisted_persisted
  have kept : f s = { f s with channels := s.channels } := frame s.channels
  unfold persisted at *
  rw [frame, kept]
  exact congrArg (fun m => { f s with channels := m }) twice

end

/-- The fold does not see the counters of this session's edits. -/
theorem apply_persisted (s : Store) (e : Event) :
    (apply s.persisted e).persisted = (apply s e).persisted := by
  cases e with
  | channelRegistered name founder ts =>
      simp only [apply, Store.persisted, map_insert, map_map]
      rfl
  | channelDropped name =>
      simp only [apply, Store.persisted, map_erase, map_map]
      rfl
  | channelRenamed old new =>
      have looked : s.persisted.channels[key old]? =
          (s.channels[key old]?).map ChannelInfo.persisted := ExtTreeMap.getElem?_map
      simp only [apply, looked]
      cases s.channels[key old]? with
      | none => exact s.persisted_persisted
      | some c =>
          simp only [Option.map_some, Store.persisted, map_insert, map_erase, map_map]
          rfl
  | accountDropped account =>
      simp only [apply, Store.purgeAccountRefs, Store.persisted, map_map]
      rfl
  | accountRegistered a =>
      refine Store.persisted_edit (f := (apply · (.accountRegistered a))) fun m => ?_
      simp only [apply]
      split <;> rfl
  | accountProfileSet account field value =>
      refine Store.persisted_edit (f := (apply · (.accountProfileSet account field value))) fun m => ?_
      simp only [apply]
      split <;> rfl
  | channelMlock | channelAccessAdd | channelAccessDel | channelAkickAdd | channelAkickDel
  | channelLevelSet | channelLevelReset | channelFounderSet | channelSuccessorSet | channelDescSet
  | channelEntryMsgSet | channelUrlSet | channelEmailSet | channelSettingsSet | channelKickerSet
  | channelBadwordsSet | channelTriggersSet | channelTopicSet | channelSuspended
  | channelUnsuspended | channelBotAssigned | channelBotUnassigned | channelUsed | channelNoExpire
  | channelExpiryWarned | channelOperNoteSet =>
      exact Store.persisted_adjustChannel fun _ => rfl
  | _ => exact Store.persisted_edit (f := (apply · _)) fun _ => rfl

/-- Stores that agree on what is persisted still do after folding the same events. -/
theorem fold_persisted {s t : Store} (same : s.persisted = t.persisted) (events : List Event) :
    (fold s events).persisted = (fold t events).persisted := by
  induction events generalizing s t with
  | nil => exact same
  | cons e events ih =>
      rw [fold_cons, fold_cons]
      refine ih ?_
      rw [← apply_persisted s, same, apply_persisted]

end Echo
