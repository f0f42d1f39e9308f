import Echo.Db.Access
import Echo.Db.CoreRun

/-!
Accounts are named all over the store: on access lists, as successors, in groups,
by aliases and by operator grants. A store is grounded when every name that is so
used is taken, so that whoever registers a free name finds nothing held for it.
The fold keeps a store grounded as long as it puts in taken names only and frees
no name that is still used.
-/

namespace Echo

open Std (ExtTreeMap)
open Echo.Lib

/-- The accounts a channel grants something: those on its access list and its
successor. An access entry with a leading `!` is for a group. -/
def ChannelInfo.grantees (c : ChannelInfo) : List String :=
  (c.access.filter fun a => !a.forGroup).map (·.account) ++ c.successor.toList

/-- The founder of a group and its members. -/
def Group.grantees (g : Group) : List String := g.founder :: g.members.map (·.account)

namespace Store

/-- Something is held in the name with this key. -/
inductive Holds (s : Store) (k : String) : Prop
  | channel {chan : String} {c : ChannelInfo} {name : String} (held : s.channels[chan]? = some c)
      (granted : name ∈ c.grantees) (same : key name = k)
  | group {g : Group} {name : String} (held : g ∈ s.net.groups) (granted : name ∈ g.grantees)
      (same : key name = k)
  | grouped {nick name : String} (held : s.grouped[nick]? = some name) (same : key name = k)
  | oper (granted : s.net.opers.contains k = true)

/-- Whether the name with this key is an account's, or a nick grouped to one. -/
def Taken (s : Store) (k : String) : Prop :=
  s.accounts.contains k = true ∨ s.grouped.contains k = true

/-- Every name that something is held in is taken. -/
def Grounded (s : Store) : Prop := ∀ k, s.Holds k → s.Taken k

end Store

/-- The account an event makes something held for. -/
def Event.grantee : Event → Option String
  | .channelAccessAdd _ account level =>
      if (ChanAccess.mk account level).forGroup then none else some account
  | .channelSuccessorSet _ successor => successor
  | .groupRegistered _ founder .. => some founder
  | .groupFounderSet _ founder => some founder
  | .groupFlagsSet _ account _ => some account
  | .nickGrouped _ account => some account
  | .operGranted account .. => some account
  | _ => none

/-! ### What an edit makes held -/

namespace ChannelInfo

variable {c : ChannelInfo} {account name level : String} {successor : Option String}

theorem mem_grantees :
    name ∈ c.grantees ↔
      (∃ a ∈ c.access, a.forGroup = false ∧ a.account = name) ∨ c.successor = some name := by
  unfold grantees
  simp [and_assoc]

theorem grantees_purgeChannel (h : name ∈ (Store.purgeChannel account c).grantees) :
    name ∈ c.grantees := by
  rw [mem_grantees] at h ⊢
  rcases h with ⟨a, listed, direct, rfl⟩ | succeeds
  · exact .inl ⟨a, List.mem_of_mem_filter listed, direct, rfl⟩
  · right
    simp only [Store.purgeChannel] at succeeds
    split at succeeds
    · contradiction
    · exact succeeds

/-- A purged channel grants nothing to the account. -/
theorem key_ne_of_purgeChannel (h : name ∈ (Store.purgeChannel account c).grantees) :
    key name ≠ key account := by
  intro same
  have caught : eqIgnoreAsciiCase name account = true := eqIgnoreAsciiCase_iff.mpr same
  rw [mem_grantees] at h
  rcases h with ⟨a, listed, -, rfl⟩ | succeeds
  · have kept := (List.mem_filter.mp listed).2
    rw [caught] at kept
    contradiction
  · simp only [Store.purgeChannel] at succeeds
    split at succeeds
    · contradiction
    · rename_i missed
      rw [succeeds] at missed
      exact missed caught

theorem grantees_accessAdd
    (h : name ∈ grantees
      { c with
        access :=
          c.access.filter (fun a => !eqIgnoreAsciiCase a.account account) ++ [⟨account, level⟩] }) :
    name ∈ (Event.channelAccessAdd "" account level).grantee ∨ name ∈ c.grantees := by
  rw [mem_grantees] at h
  rw [mem_grantees]
  rcases h with ⟨a, listed, direct, rfl⟩ | succeeds
  · rcases List.mem_append.mp listed with old | new
    · exact .inr (.inl ⟨a, List.mem_of_mem_filter old, direct, rfl⟩)
    · rw [List.mem_singleton.mp new] at direct ⊢
      left
      change account ∈ if (ChanAccess.mk account level).forGroup = true then none else some account
      rw [if_neg (by simp [direct])]
      rfl
  · exact .inr (.inr succeeds)

theorem grantees_accessDel
    (h : name ∈ grantees
      { c with access := c.access.filter fun a => !eqIgnoreAsciiCase a.account account }) :
    name ∈ c.grantees := by
  rw [mem_grantees] at h ⊢
  rcases h with ⟨a, listed, direct, rfl⟩ | succeeds
  · exact .inl ⟨a, List.mem_of_mem_filter listed, direct, rfl⟩
  · exact .inr succeeds

theorem grantees_successorSet (h : name ∈ grantees { c with successor }) :
    name ∈ successor ∨ name ∈ c.grantees := by
  rw [mem_grantees] at h
  rw [mem_grantees]
  rcases h with access | succeeds
  · exact .inr (.inl access)
  · exact .inl succeeds

end ChannelInfo

namespace Group

variable {g : Group} {account name flags : String}

theorem mem_grantees :
    name ∈ g.grantees ↔ name = g.founder ∨ ∃ m ∈ g.members, m.account = name := by
  unfold grantees
  rw [List.mem_cons, List.mem_map]

theorem grantees_purgeMembers (h : name ∈ (Store.purgeMembers account g).grantees) :
    name ∈ g.grantees := by
  rw [mem_grantees] at h ⊢
  rcases h with founds | ⟨m, listed, rfl⟩
  · exact .inl founds
  · exact .inr ⟨m, List.mem_of_mem_filter listed, rfl⟩

theorem grantees_flagsSet
    (h : name ∈ grantees
      { g with
        members :=
          g.members.filter (fun m => !eqIgnoreAsciiCase m.account account) ++ [⟨account, flags⟩] }) :
    name ∈ some account ∨ name ∈ g.grantees := by
  rw [mem_grantees] at h
  rw [mem_grantees]
  rcases h with founds | ⟨m, listed, rfl⟩
  · exact .inr (.inl founds)
  · rcases List.mem_append.mp listed with old | new
    · exact .inr (.inr ⟨m, List.mem_of_mem_filter old, rfl⟩)
    · rw [List.mem_singleton.mp new]
      exact .inl rfl

theorem grantees_memberDel
    (h : name ∈ grantees
      { g with members := g.members.filter fun m => !eqIgnoreAsciiCase m.account account }) :
    name ∈ g.grantees := by
  rw [mem_grantees] at h ⊢
  rcases h with founds | ⟨m, listed, rfl⟩
  · exact .inl founds
  · exact .inr ⟨m, List.mem_of_mem_filter listed, rfl⟩

end Group

/-! ### What the fold adds -/

section Adds

variable {s s' : Store} {k : String} {extra : Option String}

/-- Nothing is held in a name that was not, but for one more. -/
def Store.Within (extra : Option String) (s s' : Store) : Prop :=
  ∀ k, s'.Holds k → s.Holds k ∨ ∃ name ∈ extra, key name = k

namespace Store.Within

theorem of_parts
    (channels : ∀ (chan : String) c', s'.channels[chan]? = some c' → ∀ name ∈ c'.grantees,
      name ∈ extra ∨ ∃ (chan : String) (c : ChannelInfo),
        s.channels[chan]? = some c ∧ name ∈ c.grantees)
    (groups : ∀ g' ∈ s'.net.groups, ∀ name ∈ g'.grantees,
      name ∈ extra ∨ ∃ g ∈ s.net.groups, name ∈ g.grantees)
    (grouped : ∀ (nick : String) name, s'.grouped[nick]? = some name →
      name ∈ extra ∨ ∃ nick : String, s.grouped[nick]? = some name)
    (opers : ∀ k, s'.net.opers.contains k = true →
      s.net.opers.contains k = true ∨ ∃ name ∈ extra, key name = k) : Within extra s s' := by
  rintro k (⟨held, granted, same⟩ | ⟨held, granted, same⟩ | ⟨held, same⟩ | ⟨granted⟩)
  · rcases channels _ _ held _ granted with new | ⟨chan, c, was, granted'⟩
    · exact .inr ⟨_, new, same⟩
    · exact .inl (.channel was granted' same)
  · rcases groups _ held _ granted with new | ⟨g, was, granted'⟩
    · exact .inr ⟨_, new, same⟩
    · exact .inl (.group was granted' same)
  · rcases grouped _ _ held with new | ⟨nick, was⟩
    · exact .inr ⟨_, new, same⟩
    · exact .inl (.grouped was same)
  · rcases opers k granted with was | new
    · exact .inl (.oper was)
    · exact .inr new

/-- Nothing new is held when the channels, groups, aliases and grants stay. -/
theorem of_same (channels : s'.channels = s.channels) (groups : s'.net.groups = s.net.groups)
    (grouped : s'.grouped = s.grouped) (opers : s'.net.opers = s.net.opers) :
    Within none s s' := by
  refine of_parts ?_ ?_ ?_ ?_
  · exact fun chan c held name granted => .inr ⟨chan, c, channels ▸ held, granted⟩
  · exact fun g held name granted => .inr ⟨g, groups ▸ held, granted⟩
  · exact fun nick name held => .inr ⟨nick, grouped ▸ held⟩
  · exact fun k granted => .inl (opers ▸ granted)

theorem of_channels {channels : Table ChannelInfo}
    (granted : ∀ (chan : String) c', channels[chan]? = some c' → ∀ name ∈ c'.grantees,
      name ∈ extra ∨ ∃ (chan : String) (c : ChannelInfo),
        s.channels[chan]? = some c ∧ name ∈ c.grantees) :
    Within extra s { s with channels } := by
  refine of_parts granted ?_ ?_ ?_
  · exact fun g held name mem => .inr ⟨g, held, mem⟩
  · exact fun nick name held => .inr ⟨nick, held⟩
  · exact fun k granted => .inl granted

theorem adjustChannel {channel : String} {f : ChannelInfo → ChannelInfo}
    (granted : ∀ c, ∀ name ∈ (f c).grantees, name ∈ extra ∨ name ∈ c.grantees) :
    Within extra s (s.adjustChannel channel f) := by
  refine of_channels fun chan c' held name mem => ?_
  rw [ExtTreeMap.getElem?_modify] at held
  split at held
  · obtain ⟨c, was, rfl⟩ := Option.map_eq_some_iff.mp held
    rcases granted c name mem with new | old
    · exact .inl new
    · exact .inr ⟨_, c, was, old⟩
  · exact .inr ⟨chan, c', held, mem⟩

theorem of_groups {groups : List Group}
    (granted : ∀ g' ∈ groups, ∀ name ∈ g'.grantees,
      name ∈ extra ∨ ∃ g ∈ s.net.groups, name ∈ g.grantees) :
    Within extra s (s.adjustNet fun n => { n with groups }) := by
  refine of_parts ?_ granted ?_ ?_
  · exact fun chan c held name mem => .inr ⟨chan, c, held, mem⟩
  · exact fun nick name held => .inr ⟨nick, held⟩
  · exact fun k granted => .inl granted

theorem modifyFirst_grantees {p : Group → Bool} {f : Group → Group}
    (granted : ∀ g, ∀ name ∈ (f g).grantees, name ∈ extra ∨ name ∈ g.grantees) :
    ∀ {groups : List Group}, ∀ g' ∈ modifyFirst p f groups, ∀ name ∈ g'.grantees,
      name ∈ extra ∨ ∃ g ∈ groups, name ∈ g.grantees
  | g :: groups, g', mem, name, listed => by
      unfold modifyFirst at mem
      by_cases hit : p g = true
      · rw [if_pos hit] at mem
        rcases List.mem_cons.mp mem with rfl | mem
        · exact (granted g name listed).imp_right fun old => ⟨g, List.mem_cons_self, old⟩
        · exact .inr ⟨g', List.mem_cons_of_mem g mem, listed⟩
      · rw [if_neg hit] at mem
        rcases List.mem_cons.mp mem with rfl | mem
        · exact .inr ⟨g', List.mem_cons_self, listed⟩
        · refine (modifyFirst_grantees granted g' mem name listed).imp_right ?_
          rintro ⟨g₀, was, old⟩
          exact ⟨g₀, List.mem_cons_of_mem g was, old⟩

theorem registerGroup_grantees {claim : Group} {groups : List Group} {g' : Group} {name : String}
    (fresh : claim.members = []) (held : g' ∈ registerGroup claim groups)
    (listed : name ∈ g'.grantees) :
    name ∈ some claim.founder ∨ ∃ g ∈ groups, name ∈ g.grantees := by
  have own {name : String} (granted : name ∈ claim.grantees) : name ∈ some claim.founder := by
    rcases Group.mem_grantees.mp granted with founds | ⟨m, member, -⟩
    · exact congrArg some founds.symm
    · rw [fresh] at member
      exact absurd member List.not_mem_nil
  unfold registerGroup at held
  split at held
  · refine modifyFirst_grantees (fun g name granted => ?_) g' held name listed
    split at granted
    · exact .inr granted
    · exact .inl (own granted)
  · rcases List.mem_append.mp held with old | new
    · exact .inr ⟨g', old, listed⟩
    · rw [List.mem_singleton.mp new] at listed
      exact .inl (own listed)

theorem adjustGroup {name : String} {f : Group → Group}
    (granted : ∀ g, ∀ name ∈ (f g).grantees, name ∈ extra ∨ name ∈ g.grantees) :
    Within extra s (s.adjustGroup name f) := of_groups (modifyFirst_grantees granted)

end Store.Within

/-- The fold makes nothing held for a name but the one the event names. -/
theorem apply_within (s : Store) (e : Event) : Store.Within e.grantee s (apply s e) := by
  cases e with
  | accountRegistered a =>
      simp only [apply]
      split <;> exact .of_same rfl rfl rfl rfl
  | accountProfileSet account field value =>
      simp only [apply]
      split <;> exact .of_same rfl rfl rfl rfl
  | accountDropped account =>
      refine .of_parts ?_ ?_ ?_ ?_
      · intro chan c' held name listed
        change (s.channels.map fun _ c => Store.purgeChannel account c)[chan]? = some c' at held
        rw [ExtTreeMap.getElem?_map] at held
        obtain ⟨c, was, rfl⟩ := Option.map_eq_some_iff.mp held
        exact .inr ⟨chan, c, was, ChannelInfo.grantees_purgeChannel listed⟩
      · intro g' held name listed
        obtain ⟨g, was, rfl⟩ := List.mem_map.mp (List.mem_of_mem_filter held)
        exact .inr ⟨g, was, Group.grantees_purgeMembers listed⟩
      · intro nick name held
        change (s.grouped.filter fun _ a => !eqIgnoreAsciiCase a account)[nick]? = some name at held
        rw [ExtTreeMap.getElem?_filter'] at held
        exact .inr ⟨nick, (Option.filter_eq_some_iff.mp held).1⟩
      · exact fun k granted => .inl granted
  | nickGrouped nick account =>
      refine .of_parts ?_ ?_ ?_ ?_
      · exact fun chan c held name listed => .inr ⟨chan, c, held, listed⟩
      · exact fun g held name listed => .inr ⟨g, held, listed⟩
      · intro nick' name held
        change (s.grouped.insert (key nick) account)[nick']? = some name at held
        rw [ExtTreeMap.getElem?_insert] at held
        split at held
        · cases held
          exact .inl rfl
        · exact .inr ⟨nick', held⟩
      · exact fun k granted => .inl granted
  | nickUngrouped nick =>
      refine .of_parts ?_ ?_ ?_ ?_
      · exact fun chan c held name listed => .inr ⟨chan, c, held, listed⟩
      · exact fun g held name listed => .inr ⟨g, held, listed⟩
      · intro nick' name held
        change (s.grouped.erase (key nick))[nick']? = some name at held
        rw [ExtTreeMap.getElem?_erase] at held
        split at held
        · cases held
        · exact .inr ⟨nick', held⟩
      · exact fun k granted => .inl granted
  | operGranted account privs expires =>
      refine .of_parts ?_ ?_ ?_ ?_
      · exact fun chan c held name listed => .inr ⟨chan, c, held, listed⟩
      · exact fun g held name listed => .inr ⟨g, held, listed⟩
      · exact fun nick name held => .inr ⟨nick, held⟩
      · intro k granted
        change (s.net.opers.insert (key account) _).contains k = true at granted
        rw [ExtTreeMap.contains_insert, Bool.or_eq_true] at granted
        rcases granted with same | old
        · exact .inr ⟨account, rfl, by simpa using same⟩
        · exact .inl old
  | operRevoked account =>
      refine .of_parts ?_ ?_ ?_ ?_
      · exact fun chan c held name listed => .inr ⟨chan, c, held, listed⟩
      · exact fun g held name listed => .inr ⟨g, held, listed⟩
      · exact fun nick name held => .inr ⟨nick, held⟩
      · intro k granted
        change (s.net.opers.erase (key account)).contains k = true at granted
        rw [ExtTreeMap.contains_erase, Bool.and_eq_true] at granted
        exact .inl granted.2
  | channelRegistered name founder ts =>
      refine .of_channels fun chan c' held name' listed => ?_
      rw [ExtTreeMap.getElem?_insert] at held
      split at held
      · cases held
        exact absurd listed List.not_mem_nil
      · exact .inr ⟨chan, c', held, listed⟩
  | channelDropped name =>
      refine .of_channels fun chan c' held name' listed => ?_
      rw [ExtTreeMap.getElem?_erase] at held
      split at held
      · cases held
      · exact .inr ⟨chan, c', held, listed⟩
  | channelRenamed old new =>
      simp only [apply]
      split
      · rename_i c was
        refine .of_channels fun chan c' held name listed => ?_
        rw [ExtTreeMap.getElem?_insert] at held
        split at held
        · cases held
          exact .inr ⟨_, c, was, listed⟩
        · rw [ExtTreeMap.getElem?_erase] at held
          split at held
          · cases held
          · exact .inr ⟨chan, c', held, listed⟩
      · exact .of_same rfl rfl rfl rfl
  | channelAccessAdd channel account level =>
      exact .adjustChannel fun c name => ChannelInfo.grantees_accessAdd
  | channelAccessDel channel account =>
      refine .adjustChannel fun c name listed => ?_
      exact .inr (ChannelInfo.grantees_accessDel listed)
  | channelSuccessorSet channel successor =>
      exact .adjustChannel fun c name => ChannelInfo.grantees_successorSet
  | channelMlock | channelAkickAdd | channelAkickDel | channelLevelSet | channelLevelReset
  | channelFounderSet | channelDescSet | channelEntryMsgSet | channelUrlSet | channelEmailSet
  | channelSettingsSet | channelKickerSet | channelBadwordsSet | channelTriggersSet
  | channelTopicSet | channelSuspended | channelUnsuspended | channelBotAssigned
  | channelBotUnassigned | channelUsed | channelNoExpire | channelExpiryWarned
  | channelOperNoteSet => exact .adjustChannel fun c name listed => .inr listed
  | groupRegistered name founder ts home =>
      exact .of_groups fun g held name listed => Store.Within.registerGroup_grantees rfl held listed
  | groupDropped name =>
      exact .of_groups fun g held name' listed => .inr ⟨g, List.mem_of_mem_filter held, listed⟩
  | groupFounderSet name founder =>
      refine .adjustGroup fun g name' listed => ?_
      rcases List.mem_cons.mp listed with rfl | member
      · exact .inl rfl
      · exact .inr (List.mem_cons_of_mem _ member)
  | groupFlagsSet name account flags =>
      exact .adjustGroup fun g name' => Group.grantees_flagsSet
  | groupMemberDel name account =>
      refine .adjustGroup fun g name' listed => ?_
      exact .inr (Group.grantees_memberDel listed)
  | botRemoved nick =>
      simp only [apply]
      split <;> exact .of_same rfl rfl rfl rfl
  | jupeAdded name sid reason =>
      simp only [apply, Store.adjustNet]
      split <;> exact .of_same rfl rfl rfl rfl
  | _ => exact .of_same rfl rfl rfl rfl

end Adds

end Echo
