import Echo.Db.CoreRun
import Echo.Db.Grounded

/-!
Who founded a channel. A store is owned when the founder of every channel is
written exactly as the account it names. Besides the writes of a founder, only
the registration of an account over another spelling of its name and the drop of
an account can break that; the drop is followed by the release of the channels
the account founded, each to its successor or to nobody.
-/

namespace Echo

open Std (ExtTreeMap)
open Echo.Lib

/-! ### Founders and accounts -/

namespace Store

/-- The name as the account of that name writes it. -/
def spelling (s : Store) (name : String) : Option String := (s.accounts[key name]?).map (·.name)

/-- A name written exactly as an account's. -/
def Canonical (s : Store) (name : String) : Prop := s.spelling name = some name

instance (s : Store) (name : String) : Decidable (s.Canonical name) :=
  inferInstanceAs (Decidable (_ = _))

/-- The founder of every channel is an account, written as the account is. -/
def Owned (s : Store) : Prop :=
  ∀ (k : String) (c : ChannelInfo), s.channels[k]? = some c → s.Canonical c.founder

/-- Whether an event leaves an owned store owned. -/
def KeepsOwned (s : Store) : Event → Prop
  | .accountRegistered claim =>
      (s.accounts[key claim.name]?).any (ownsOver · claim) = true ∨
        ∀ (k : String) (c : ChannelInfo), s.channels[k]? = some c →
          key c.founder = key claim.name → c.founder = claim.name
  | .accountDropped account =>
      ∀ (k : String) (c : ChannelInfo), s.channels[k]? = some c → key c.founder ≠ key account
  | .channelRegistered _ founder _ => s.Canonical founder
  | .channelFounderSet channel founder =>
      s.channels.contains (key channel) = true → s.Canonical founder
  | _ => True

end Store

section Fold

variable {s : Store} {e : Event} {k : String}

theorem spelling_modify {f : Account → Account} (named : ∀ a, (f a).name = a.name)
    {m : Table Account} {k' : String} :
    ((m.modify k' f)[k]?).map (·.name) = (m[k]?).map (·.name) := by
  rw [ExtTreeMap.getElem?_modify]
  split
  · rename_i same
    obtain rfl := Std.LawfulEqCmp.eq_of_compare same
    rw [Option.map_map]
    exact congrArg (Option.map · _) (funext named)
  · rfl

/-- How accounts are written changes only with their registration and their drop. -/
theorem spelling_apply (registered : ∀ claim, e ≠ .accountRegistered claim)
    (dropped : ∀ account, e ≠ .accountDropped account) :
    ((apply s e).accounts[k]?).map (·.name) = (s.accounts[k]?).map (·.name) := by
  cases e with
  | accountRegistered claim => exact absurd rfl (registered claim)
  | accountDropped account => exact absurd rfl (dropped account)
  | accountProfileSet account field value =>
      simp only [apply]
      split
      · refine spelling_modify fun a => ?_
        rfl
      · rfl
  | channelRenamed old new =>
      simp only [apply]
      split <;> rfl
  | certAdded | memoSent | memoIgnoreAdd =>
      refine spelling_modify fun a => ?_
      split <;> rfl
  | memoRead | memoDeleted | certRemoved | accountEmailSet | accountGreetSet
  | accountLanguageSet | accountSwhoisSet | accountSignoreSet | accountPubkeySet | accountAutoOpSet
  | accountKillSet | accountHideStatusSet | accountSnoticeSet | accountPasswordSet
  | accountVerified | ajoinAdded | ajoinRemoved | vhostSet | vhostDeleted | vhostRequested
  | vhostRequestCleared | accountSuspended | accountUnsuspended
  | memoIgnoreDel | memoPrefsSet | accountSeen | accountNoExpire | accountExpiryWarned
  | accountOperNoteSet =>
      refine spelling_modify fun a => ?_
      rfl
  | _ => rfl

theorem founder_modify {f : ChannelInfo → ChannelInfo} {m : Table ChannelInfo} {k' : String}
    {c : ChannelInfo} (held : (m.modify k' f)[k]? = some c) (kept : ∀ c, (f c).founder = c.founder) :
    ∃ c', m[k]? = some c' ∧ c'.founder = c.founder := by
  rw [ExtTreeMap.getElem?_modify] at held
  split at held
  · rename_i same
    obtain rfl := Std.LawfulEqCmp.eq_of_compare same
    obtain ⟨c', was, rfl⟩ := Option.map_eq_some_iff.mp held
    exact ⟨c', was, (kept c').symm⟩
  · exact ⟨c, held, rfl⟩

/-- Founders come only with a registration and a transfer. -/
theorem founder_apply (registered : ∀ name founder ts, e ≠ .channelRegistered name founder ts)
    (transferred : ∀ channel founder, e ≠ .channelFounderSet channel founder) {c : ChannelInfo}
    (held : (apply s e).channels[k]? = some c) :
    ∃ (k' : String) (c' : ChannelInfo), s.channels[k']? = some c' ∧ c'.founder = c.founder := by
  cases e with
  | channelRegistered name founder ts => exact absurd rfl (registered name founder ts)
  | channelFounderSet channel founder => exact absurd rfl (transferred channel founder)
  | accountRegistered | accountProfileSet =>
      simp only [apply] at held
      split at held <;> exact ⟨k, c, held, rfl⟩
  | accountDropped account =>
      change (s.channels.map fun _ c => Store.purgeChannel account c)[k]? = some c at held
      rw [ExtTreeMap.getElem?_map] at held
      obtain ⟨c', was, rfl⟩ := Option.map_eq_some_iff.mp held
      exact ⟨k, c', was, rfl⟩
  | channelDropped name =>
      change (s.channels.erase (key name))[k]? = some c at held
      rw [ExtTreeMap.getElem?_erase] at held
      split at held
      · cases held
      · exact ⟨k, c, held, rfl⟩
  | channelRenamed old new =>
      simp only [apply] at held
      split at held
      · rename_i moved was
        rw [ExtTreeMap.getElem?_insert] at held
        split at held
        · cases held
          exact ⟨key old, moved, was, rfl⟩
        · rw [ExtTreeMap.getElem?_erase] at held
          split at held
          · cases held
          · exact ⟨k, c, held, rfl⟩
      · exact ⟨k, c, held, rfl⟩
  | channelMlock | channelAccessAdd | channelAccessDel | channelAkickAdd | channelAkickDel
  | channelLevelSet | channelLevelReset | channelSuccessorSet | channelDescSet | channelEntryMsgSet
  | channelUrlSet | channelEmailSet | channelSettingsSet | channelKickerSet | channelBadwordsSet
  | channelTriggersSet | channelTopicSet | channelSuspended | channelUnsuspended
  | channelBotAssigned | channelBotUnassigned | channelUsed | channelNoExpire
  | channelExpiryWarned | channelOperNoteSet =>
      obtain ⟨c', was, same⟩ := founder_modify held fun _ => rfl
      exact ⟨k, c', was, same⟩
  | _ => exact ⟨k, c, held, rfl⟩

theorem canonical_dropped {account name : String} :
    (apply s (.accountDropped account)).Canonical name ↔
      s.Canonical name ∧ key name ≠ key account := by
  unfold Store.Canonical Store.spelling
  change ((s.accounts.erase (key account))[key name]?).map _ = _ ↔ _
  rw [ExtTreeMap.getElem?_erase]
  by_cases same : key account = key name
  · simp [same]
  · rw [if_neg (by simpa using same)]
    exact ⟨fun written => ⟨written, Ne.symm same⟩, And.left⟩

/-- Once an account is dropped the store is owned if each founder was written right
and is not that account. -/
theorem owned_dropped_iff {account : String} :
    (apply s (.accountDropped account)).Owned ↔
      ∀ (k : String) (c : ChannelInfo), s.channels[k]? = some c →
        s.Canonical c.founder ∧ key c.founder ≠ key account := by
  constructor
  · intro owned k c held
    have kept : (apply s (.accountDropped account)).channels[k]? =
        some (Store.purgeChannel account c) := by
      change (s.channels.map fun _ c => Store.purgeChannel account c)[k]? = _
      rw [ExtTreeMap.getElem?_map, held]
      rfl
    have written := owned k _ kept
    exact canonical_dropped.mp written
  · intro fit k c held
    change (s.channels.map fun _ c => Store.purgeChannel account c)[k]? = some c at held
    rw [ExtTreeMap.getElem?_map] at held
    obtain ⟨c', was, rfl⟩ := Option.map_eq_some_iff.mp held
    exact canonical_dropped.mpr (fit k c' was)

/-- An event leaves an owned store owned exactly when it keeps it owned. -/
theorem Store.Owned.apply_iff (h : s.Owned) : (apply s e).Owned ↔ s.KeepsOwned e := by
  cases e with
  | accountRegistered claim =>
      simp only [apply]
      unfold Store.KeepsOwned
      split
      · rename_i stands
        exact iff_of_true h (.inl stands)
      · rename_i wins
        have spelled (name : String) :
            Store.spelling { s with accounts := s.accounts.insert (key claim.name) claim } name =
              if key claim.name = key name then some claim.name else s.spelling name := by
          unfold Store.spelling
          rw [ExtTreeMap.getElem?_insert]
          by_cases same : key claim.name = key name
          · rw [if_pos same, if_pos (by simpa using same)]
            rfl
          · rw [if_neg same, if_neg (by simpa using same)]
        constructor
        · intro owned
          right
          intro k c held same
          have written : Store.spelling _ c.founder = some c.founder := owned k c held
          rw [spelled, if_pos same.symm, Option.some_inj] at written
          exact written.symm
        · rintro (stands | same) k c held
          · exact absurd stands wins
          · change Store.spelling _ c.founder = some c.founder
            rw [spelled]
            split
            · rename_i named
              rw [same k c held named.symm]
            · exact h k c held
  | accountDropped account =>
      rw [owned_dropped_iff]
      constructor
      · exact fun fit k c held => (fit k c held).2
      · exact fun other k c held => ⟨h k c held, other k c held⟩
  | channelRegistered name founder ts =>
      constructor
      · intro owned
        refine owned (key name) (newChannel name founder ts) ?_
        exact ExtTreeMap.getElem?_insert_self
      · intro canonical k c held
        change (s.channels.insert (key name) (newChannel name founder ts))[k]? = some c at held
        rw [ExtTreeMap.getElem?_insert] at held
        split at held
        · cases held
          exact canonical
        · exact h k c held
  | channelFounderSet channel founder =>
      constructor
      · intro owned there
        rw [ExtTreeMap.contains_eq_isSome_getElem?] at there
        obtain ⟨c, held⟩ := Option.isSome_iff_exists.mp there
        refine owned (key channel) { c with founder } ?_
        change (s.channels.modify (key channel) _)[key channel]? = _
        rw [ExtTreeMap.getElem?_modify_self, held]
        rfl
      · intro canonical k c held
        change (s.channels.modify (key channel) _)[k]? = some c at held
        rw [ExtTreeMap.getElem?_modify] at held
        split at held
        · rename_i same
          obtain rfl := Std.LawfulEqCmp.eq_of_compare same
          obtain ⟨c', was, rfl⟩ := Option.map_eq_some_iff.mp held
          refine canonical ?_
          exact Table.contains_of_some was
        · exact h k c held
  | _ =>
      refine iff_of_true (fun k c held => ?_) trivial
      obtain ⟨k', c', was, same⟩ := founder_apply (by simp) (by simp) held
      unfold Store.Canonical Store.spelling
      rw [spelling_apply (by simp) (by simp), ← same]
      exact h k' c' was

end Fold

theorem Store.spelling_core {s : Store} (name : String) :
    (s.core false).spelling name = s.spelling name := by
  unfold spelling
  rw [core_getElem?_accounts, Option.map_map]
  rfl

theorem Store.owned_core {s : Store} : (s.core false).Owned ↔ s.Owned := by
  have same (name : String) : (s.core false).Canonical name ↔ s.Canonical name := by
    unfold Canonical
    rw [spelling_core]
  constructor
  · intro owned k c held
    exact (same c.founder).mp (owned k c.core (core_channel false held))
  · intro owned k c held
    rw [core_getElem?_channels] at held
    obtain ⟨c', was, rfl⟩ := Option.map_eq_some_iff.mp held
    exact (same c'.founder).mpr (owned k c' was)

/-- The founder of every channel of an owned store is an account. -/
theorem Store.Owned.founded {s : Store} (h : s.Owned) {k : String} {c : ChannelInfo}
    (held : s.channels[k]? = some c) : s.accounts.contains (key c.founder) = true := by
  have written : s.spelling c.founder = some c.founder := h k c held
  rw [ExtTreeMap.contains_eq_isSome_getElem?, ← Option.isSome_map]
  exact Option.isSome_of_eq_some written

/-! ### Calls that found nothing -/

/-- A call that writes who a channel belongs to, or takes an account away. -/
def Call.owning : Call → Bool
  | .registerChannel .. | .setFounder .. | .setSuccessor .. | .releaseFoundedChannels ..
  | .dropAccount .. => true
  | _ => false

def Action.owning : Action → Bool
  | .call _ c => c.owning
  | .ingest .. => true
  | _ => false

/-- Any other call keeps an owned store owned. -/
theorem Call.permits_keepsOwned {c : Call} (outside : c.owning = false) {s : Store} {e : Event}
    (permitted : c.permits s e) (h : s.Owned) : s.KeepsOwned e := by
  cases e with
  | accountRegistered claim =>
      right
      intro k c held same
      refine absurd (.inl ?_) permitted.1
      rw [← same]
      exact h.founded held
  | accountDropped account =>
      cases permitted
      contradiction
  | channelRegistered name founder ts =>
      cases permitted
      contradiction
  | channelFounderSet channel founder =>
      rcases permitted with rfl | ⟨account, rfl, -⟩ <;> contradiction
  | _ => trivial

theorem Db.owned_step {db : Db} {a : Action} (outside : a.owning = false) (wf : db.Wf)
    (tracked : db.Tracked) (h : db.toStore.Owned) : (db.step a).toStore.Owned := by
  refine core_invariant_step (I := Store.Owned) (fun _ => Store.owned_core) wf tracked ?_ h
  intro s e allowed owned
  cases a with
  | call env c => exact owned.apply_iff.mpr (Call.permits_keepsOwned outside allowed owned)
  | ingest => contradiction
  | _ => exact allowed.elim

end Echo
