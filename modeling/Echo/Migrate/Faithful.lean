import Echo.Db.Run
import Echo.Migrate.Phases

/-!
What an import carries over. Accounts, aliases and channels come over as the database
has them, and so do the entries of an access list: an entry is taken over as the mask
that it is in the database, whether or not the mask names an account.

Memos are carried over only in part: a mailbox holds what its cap allows, and a memo is
known by its place among those of its owner as he is spelled.
-/

namespace Echo.Migrate

open Std (ExtTreeMap)
open Echo.Lib

/-! ### What a database holds -/

/-- The display names of the cores. -/
def displays (data : Value) : List String :=
  (data.records "NickCore").filterMap (·.field "display")

/-- The channels whose founder is known, each with its founder. -/
def foundedChannels (data : Value) : List (String × String) :=
  (data.records "ChannelInfo").filterMap (founded data)

/-- A memo and its owner. -/
def memoOf (m : Value) : Option (String × Memo) :=
  match m.field "owner", m.field "text" with
  | some owner, some text =>
      some (owner, ⟨(m.field "sender").getD "unknown", text, m.num "time", !m.flag "unread",
        m.flag "receipt"⟩)
  | _, _ => none

/-- The memos of an owner in any spelling, each with its own. -/
def boxOf (owner : String) (memos : List Value) : List (String × Memo) :=
  (memos.filterMap memoOf).filter fun m => key m.1 == key owner

def mailbox (data : Value) (owner : String) : List (String × Memo) :=
  boxOf owner (data.records "Memo")

/-- The nicks, cores and channels are unique up to case; a nick that is the display name
of a core is one of that core. -/
structure Unique (data : Value) : Prop where
  cores : DistinctBy key (displays data)
  nicks : DistinctBy key ((data.records "NickAlias").filterMap (·.field "nick"))
  owned : ∀ na ∈ data.records "NickAlias", ∀ nick disp, na.field "nick" = some nick →
    displayOf data na "ncid" = some disp → ∀ disp' ∈ displays data, key nick = key disp' →
      disp = disp'
  channels : DistinctBy key ((data.records "ChannelInfo").filterMap (·.field "name"))

/-- The identities and the channels of the database are those of the store. -/
structure Carried (data : Value) (db : Db) : Prop where
  /-- One account for each core. -/
  accounts : (db.accounts.toList.map fun p => p.2.name).Perm (displays data)
  /-- Every nick resolves to the account of its core. -/
  nicks : ∀ na ∈ data.records "NickAlias", ∀ nick disp, na.field "nick" = some nick →
    displayOf data na "ncid" = some disp → db.resolveAccount nick = some disp
  /-- One channel for each channel whose founder is known, with that founder. -/
  channels : (db.channels.toList.map fun p => (p.2.name, p.2.founder)).Perm (foundedChannels data)

/-- What an import might be expected to do on top: access lists of accounts, and mailboxes
with all their memos. -/
structure Faithful (data : Value) (db : Db) : Prop extends Carried data db where
  access : ∀ (k : String) (c : ChannelInfo), db.channels[k]? = some c → ∀ entry ∈ c.access,
    db.accounts.contains (key entry.account) = true
  memos : ∀ disp ∈ displays data,
    (db.accounts[key disp]?).map (·.memos) = some ((mailbox data disp).map (·.2))

/-- What an import does. -/
structure Imported (data : Value) (db : Db) : Prop extends Carried data db where
  /-- An access entry is that of an access record of the channel. -/
  granted : ∀ (k : String) (c : ChannelInfo), db.channels[k]? = some c → ∀ entry ∈ c.access,
    ∃ ca ∈ data.records "ChanAccess", ∃ chan,
      accessOf data ca = some (chan, entry) ∧ key chan = k
  /-- Every record whose role can be represented has one. -/
  grants : ∀ ca ∈ data.records "ChanAccess", ∀ chan entry, accessOf data ca = some (chan, entry) →
    ∀ c, db.channels[key chan]? = some c → ∃ held ∈ c.access, key held.account = key entry.account
  /-- It names an account exactly if its mask is the display name of a core. -/
  named : ∀ (k : String) (c : ChannelInfo), db.channels[k]? = some c → ∀ entry ∈ c.access,
    (db.accounts.contains (key entry.account) = true ↔
      ∃ disp ∈ displays data, key disp = key entry.account)
  /-- The memos of an owner come over in order, each with its own read flag, if they fit
  the mailbox and the owner is spelled one way. -/
  memos : ∀ disp ∈ displays data, ∃ a, db.accounts[key disp]? = some a ∧
    ((∃ owner, ∀ m ∈ mailbox data disp, m.1 = owner) →
      (mailbox data disp).length ≤ a.memoCap → a.memos = (mailbox data disp).map (·.2))

/-! ### Accounts -/

section Accounts

variable (data : Value) (node : String)

/-- The accounts of the cores. -/
def coreAccounts : List Account :=
  (data.records "NickCore").filterMap fun nc =>
    (nc.field "display").map fun name => accountOf data node name nc

theorem coreEvents_eq : (data.records "NickCore").filterMap (coreEvent data node) =
    (coreAccounts data node).map .accountRegistered := by
  unfold coreAccounts coreEvent
  rw [List.map_filterMap]
  simp only [Option.map_map]
  rfl

theorem displays_eq : displays data = (coreAccounts data node).map (·.name) := by
  unfold coreAccounts displays
  rw [List.map_filterMap]
  simp only [Option.map_map]
  refine List.filterMap_congr fun nc _ => ?_
  cases nc.field "display" <;> rfl

theorem coreAccounts_memos {a : Account} (mem : a ∈ coreAccounts data node) : a.memos = [] := by
  obtain ⟨nc, -, made⟩ := List.mem_filterMap.mp mem
  obtain ⟨name, -, rfl⟩ := Option.map_eq_some_iff.mp made
  rfl

variable {data}

/-- Registering accounts under distinct names: each is held under its own. -/
theorem fold_registered (distinct : DistinctBy key (displays data)) (k : String) :
    (fold {} ((coreAccounts data node).map .accountRegistered)).accounts[k]? =
      (coreAccounts data node).find? fun a => key a.name == k := by
  have keyed : DistinctBy (fun a : Account => key a.name) (coreAccounts data node) := by
    rw [displays_eq data node] at distinct
    unfold DistinctBy at distinct ⊢
    rw [List.map_map] at distinct
    exact distinct
  unfold fold
  rw [List.foldl_map]
  have found := lookup_foldl (fun s a => apply s (.accountRegistered a))
    (fun (s : Store) k => s.accounts[k]?) (fun a => key a.name) id (s := {}) ?_ keyed ?_ k
  · rw [found]
    simp
  · intro s a k new
    simp only [apply]
    rw [new]
    simp only [Option.any_none, Bool.false_eq_true, if_false]
    rw [ExtTreeMap.getElem?_insert]
    simp
  · intro a _
    exact ExtTreeMap.getElem?_empty

end Accounts

/-! ### Aliases -/

section Aliases

variable (data : Value)

/-- The nicks that are grouped, each with its core. -/
def aliasOf (na : Value) : Option (String × String) :=
  match na.field "nick", displayOf data na "ncid" with
  | some nick, some disp => if eqIgnoreAsciiCase nick disp then none else some (nick, disp)
  | _, _ => none

theorem aliasEvents_eq : (data.records "NickAlias").filterMap (aliasEvent data) =
    ((data.records "NickAlias").filterMap (aliasOf data)).map fun p => .nickGrouped p.1 p.2 := by
  rw [List.map_filterMap]
  refine List.filterMap_congr fun na _ => ?_
  unfold aliasEvent aliasOf
  cases na.field "nick" with
  | none => rfl
  | some nick =>
      cases displayOf data na "ncid" with
      | none => rfl
      | some disp =>
          dsimp only
          split <;> rfl

variable {data}

theorem aliasOf_eq_some {na : Value} {nick disp : String} :
    aliasOf data na = some (nick, disp) ↔
      na.field "nick" = some nick ∧ displayOf data na "ncid" = some disp ∧
        key nick ≠ key disp := by
  unfold aliasOf
  constructor
  · intro made
    split at made
    · rename_i nick' disp' named owned
      split at made
      · contradiction
      · rename_i apart
        cases made
        exact ⟨named, owned, fun same => apart (eqIgnoreAsciiCase_iff_key.mpr same)⟩
    · contradiction
  · rintro ⟨named, owned, apart⟩
    rw [named, owned]
    dsimp only
    rw [if_neg fun same => apart (eqIgnoreAsciiCase_iff_key.mp same)]

/-- Grouping distinct nicks: each is grouped to its own core. -/
theorem fold_grouped_of (distinct : DistinctBy key
      ((data.records "NickAlias").filterMap (·.field "nick")))
    {s : Store} (empty : s.grouped = ∅) {na : Value} (mem : na ∈ data.records "NickAlias")
    {nick disp : String} (grouped : aliasOf data na = some (nick, disp)) :
    (fold s ((data.records "NickAlias").filterMap (aliasEvent data))).grouped[key nick]? =
      some disp := by
  have keyed : DistinctBy (fun p : String × String => key p.1)
      ((data.records "NickAlias").filterMap (aliasOf data)) := by
    refine distinct.filterMap_of fun na p made => ?_
    exact ⟨p.1, (aliasOf_eq_some.mp made).1, rfl⟩
  rw [aliasEvents_eq]
  unfold fold
  rw [List.foldl_map]
  have found := lookup_foldl (fun s (p : String × String) => apply s (.nickGrouped p.1 p.2))
    (fun (s : Store) k => s.grouped[k]?) (fun p => key p.1) Prod.snd (s := s) ?_ keyed ?_ (key nick)
  · have held := keyed.find?_key (List.mem_filterMap.mpr ⟨na, mem, grouped⟩)
    rw [found, held]
    rfl
  · intro s p k _
    simp only [apply]
    rw [ExtTreeMap.getElem?_insert]
    simp
  · intro p _
    rw [empty]
    exact ExtTreeMap.getElem?_empty

end Aliases

/-! ### Channels -/

section Channels

variable (data : Value)

/-- The records of the channels whose founder is known. -/
def foundedRecords : List ((String × String) × Value) :=
  (data.records "ChannelInfo").filterMap fun ci => (founded data ci).map fun p => (p, ci)

theorem foundedChannels_eq : foundedChannels data = (foundedRecords data).map (·.1) := by
  unfold foundedChannels foundedRecords
  rw [List.map_filterMap]
  refine List.filterMap_congr fun ci _ => ?_
  cases founded data ci <;> rfl

/-- What is logged of a channel. -/
def foundedEvents (p : (String × String) × Value) : List Event :=
  .channelRegistered p.1.1 p.1.2 (p.2.num "registered") :: detailEvents p.1.1 p.2

theorem channelEvents_eq : (data.records "ChannelInfo").flatMap (channelEvents data) =
    (foundedRecords data).flatMap foundedEvents := by
  unfold foundedRecords
  induction data.records "ChannelInfo" with
  | nil => rfl
  | cons ci rest ih =>
      rw [List.flatMap_cons, ih, List.filterMap_cons]
      unfold channelEvents
      cases founded data ci with
      | none => rfl
      | some p => rfl

variable {data}

/-- What of a channel only its registration decides. -/
def titleOf (c : ChannelInfo) : String × String := (c.name, c.founder)

/-- An edit of a channel after its registration keeps its name and founder. -/
theorem detail_keeps {α : Type} (view : ChannelInfo → α) {name : String} {ci : Value} {e : Event}
    (mem : e ∈ detailEvents name ci)
    (blind : ∀ c desc topic setter bot settings on,
      view { c with desc } = view c ∧ view { c with topic, topicSetter := setter } = view c ∧
      view { c with assignedBot := some bot } = view c ∧ view { c with settings } = view c ∧
      view { c with noexpire := on } = view c) (s : Store) (k : String) :
    (apply s e).channels[k]?.map view = s.channels[k]?.map view := by
  simp only [detailEvents, List.mem_append, Option.mem_toList, Option.map_eq_some_iff] at mem
  rcases mem with (((⟨desc, -, rfl⟩ | ⟨topic, -, rfl⟩) | ⟨bot, -, rfl⟩) | mem) | mem
  · exact map_adjustChannel (fun c => (blind c desc "" "" "" {} true).1) s name k
  · exact map_adjustChannel (fun c => (blind c "" topic _ "" {} true).2.1) s name k
  · exact map_adjustChannel (fun c => (blind c "" "" "" bot {} true).2.2.1) s name k
  · split at mem
    · cases List.mem_singleton.mp mem
      exact map_adjustChannel (fun c => (blind c "" "" "" "" _ true).2.2.2.1) s name k
    · contradiction
  · split at mem
    · cases List.mem_singleton.mp mem
      exact map_adjustChannel (fun c => (blind c "" "" "" "" {} true).2.2.2.2) s name k
    · contradiction

/-- Registering distinct channels: each is held with its founder. -/
theorem fold_founded (distinct : DistinctBy key
      ((data.records "ChannelInfo").filterMap (·.field "name")))
    {s : Store} (empty : s.channels = ∅) (k : String) :
    (fold s ((data.records "ChannelInfo").flatMap (channelEvents data))).channels[k]?.map titleOf =
      (foundedChannels data).find? fun p => key p.1 == k := by
  have keyed : DistinctBy (fun p : (String × String) × Value => key p.1.1) (foundedRecords data) := by
    refine distinct.filterMap_of fun ci p made => ?_
    obtain ⟨pair, known, rfl⟩ := Option.map_eq_some_iff.mp made
    unfold founded at known
    split at known
    · rename_i name founder named _
      cases known
      exact ⟨name, named, rfl⟩
    · contradiction
  rw [channelEvents_eq]
  unfold fold
  rw [List.foldl_flatMap]
  have found := lookup_foldl (fun s p => (foundedEvents p).foldl apply s)
    (fun (s : Store) k => s.channels[k]?.map titleOf) (fun p => key p.1.1) Prod.fst (s := s)
    ?_ keyed ?_ k
  · rw [found, empty, ExtTreeMap.getElem?_empty, foundedChannels_eq, List.find?_map, Option.map_none,
      Option.or_none]
    rfl
  · intro s p k _
    have blind : ∀ e ∈ detailEvents p.1.1 p.2, ∀ s : Store,
        (apply s e).channels[k]?.map titleOf = s.channels[k]?.map titleOf := fun e mem s =>
      detail_keeps titleOf mem (fun _ _ _ _ _ _ _ => ⟨rfl, rfl, rfl, rfl, rfl⟩) s k
    have details := fold_keeps (fun s => s.channels[k]?.map titleOf) blind
      (apply s (.channelRegistered p.1.1 p.1.2 (p.2.num "registered")))
    refine Eq.trans details ?_
    dsimp only [apply]
    rw [ExtTreeMap.getElem?_insert]
    by_cases same : key p.1.1 = k
    · simp [same, titleOf, newChannel]
    · simp [same]
  · intro p _
    rw [empty, ExtTreeMap.getElem?_empty]
    rfl

/-- A channel that was just registered has an empty access list. -/
theorem fold_founded_access {s : Store} (empty : s.channels = ∅) (k : String) (c : ChannelInfo)
    (held : (fold s ((data.records "ChannelInfo").flatMap (channelEvents data))).channels[k]? =
      some c) : c.access = [] := by
  refine fold_holds (P := fun s => ∀ (k : String) (c : ChannelInfo), s.channels[k]? = some c →
    c.access = []) ?_ ?_ k c held
  · intro e mem s before k c held
    rw [channelEvents_eq] at mem
    obtain ⟨p, -, mem⟩ := List.mem_flatMap.mp mem
    rcases List.mem_cons.mp mem with rfl | detail
    · dsimp only [apply] at held
      rw [ExtTreeMap.getElem?_insert] at held
      split at held
      · cases held
        rfl
      · exact before k c held
    · have same := detail_keeps ChannelInfo.access detail
        (fun _ _ _ _ _ _ _ => ⟨rfl, rfl, rfl, rfl, rfl⟩) s k
      rw [held] at same
      obtain ⟨c', earlier, same⟩ := Option.map_eq_some_iff.mp same.symm
      rw [← same]
      exact before k c' earlier
  · intro k c held
    rw [empty, ExtTreeMap.getElem?_empty] at held
    contradiction

end Channels

/-! ### Access lists -/

section Access

variable (data : Value)

/-- Every entry of an access list is that of an access record of the channel. -/
def Granted (s : Store) : Prop :=
  ∀ (k : String) (c : ChannelInfo), s.channels[k]? = some c → ∀ entry ∈ c.access,
    ∃ ca ∈ data.records "ChanAccess", ∃ chan, accessOf data ca = some (chan, entry) ∧ key chan = k

/-- The channel, if there is one, has an entry for the mask. -/
def Grants (k mask : String) (s : Store) : Prop :=
  ∀ c, s.channels[k]? = some c → ∃ held ∈ c.access, key held.account = key mask

variable {data}

theorem granted_step {e : Event} (mem : e ∈ (data.records "ChanAccess").filterMap (accessEvent data))
    (s : Store) (before : Granted data s) : Granted data (apply s e) := by
  obtain ⟨ca, recorded, logged⟩ := List.mem_filterMap.mp mem
  obtain ⟨⟨chan, entry⟩, made, rfl⟩ := Option.map_eq_some_iff.mp logged
  intro k c held entry' mem'
  dsimp only [apply] at held
  rw [getElem?_adjustChannel] at held
  split at held
  · rename_i same
    obtain ⟨c', earlier, rfl⟩ := Option.map_eq_some_iff.mp held
    rcases List.mem_append.mp mem' with kept | new
    · exact before k c' earlier entry' (List.mem_filter.mp kept).1
    · cases List.mem_singleton.mp new
      exact ⟨ca, recorded, chan, made, same⟩
  · exact before k c held entry' mem'

theorem grants_step {k mask : String} {chan account level : String} {s : Store}
    (before : Grants k mask s) : Grants k mask (apply s (.channelAccessAdd chan account level)) := by
  intro c held
  dsimp only [apply] at held
  rw [getElem?_adjustChannel] at held
  split at held
  · obtain ⟨c', earlier, rfl⟩ := Option.map_eq_some_iff.mp held
    obtain ⟨entry, mem, same⟩ := before c' earlier
    by_cases replaced : key entry.account = key account
    · exact ⟨⟨account, level⟩, by simp, replaced.symm.trans same⟩
    · refine ⟨entry, List.mem_append_left _ (List.mem_filter.mpr ⟨mem, ?_⟩), same⟩
      rw [Bool.not_eq_true', Bool.eq_false_iff]
      exact fun hit => replaced (eqIgnoreAsciiCase_iff_key.mp hit)
  · exact before c held

/-- After its access records, a channel has an entry for each. -/
theorem fold_grants {cas : List Value} {ca : Value} (mem : ca ∈ cas) {chan : String}
    {entry : ChanAccess} (made : accessOf data ca = some (chan, entry)) (s : Store) :
    Grants (key chan) entry.account (fold s (cas.filterMap (accessEvent data))) := by
  induction cas generalizing s with
  | nil => contradiction
  | cons first rest ih =>
      have later (s : Store) (before : Grants (key chan) entry.account s) :
          Grants (key chan) entry.account (fold s (rest.filterMap (accessEvent data))) := by
        refine fold_holds (fun e mem s before => ?_) before
        obtain ⟨ca', -, logged⟩ := List.mem_filterMap.mp mem
        obtain ⟨_, -, rfl⟩ := Option.map_eq_some_iff.mp logged
        exact grants_step before
      rcases List.mem_cons.mp mem with rfl | mem
      · have logged : accessEvent data ca =
            some (.channelAccessAdd chan entry.account entry.level) := by
          unfold accessEvent
          rw [made]
          rfl
        rw [List.filterMap_cons_some logged, fold_cons]
        refine later _ fun c held => ?_
        dsimp only [apply] at held
        rw [getElem?_adjustChannel, if_pos rfl] at held
        obtain ⟨c', -, rfl⟩ := Option.map_eq_some_iff.mp held
        exact ⟨entry, by simp, rfl⟩
      · rw [List.filterMap_cons]
        cases accessEvent data first with
        | none => exact ih mem s
        | some e => exact ih mem (apply s e)

/-- Mode locks leave the name, the founder and the access list of a channel alone. -/
theorem fold_locks {α : Type} (view : ChannelInfo → α) (locks : List (String × Mlock)) (s : Store)
    (k : String)
    (blind : ∀ c on off params,
      view { c with lockOn := on, lockOff := off, lockParams := params } = view c) :
    (fold s (locks.map lockEvent)).channels[k]?.map view = s.channels[k]?.map view := by
  refine fold_keeps (fun s => s.channels[k]?.map view) (fun e mem s => ?_) s
  obtain ⟨lock, -, rfl⟩ := List.mem_map.mp mem
  exact map_adjustChannel (fun c => blind c _ _ _) s lock.1 k

/-- Access records leave the name and the founder of a channel alone. -/
theorem fold_access_title (s : Store) (k : String) :
    (fold s ((data.records "ChanAccess").filterMap (accessEvent data))).channels[k]?.map titleOf =
      s.channels[k]?.map titleOf := by
  refine fold_keeps (fun s => s.channels[k]?.map titleOf) (fun e mem s => ?_) s
  obtain ⟨ca, -, logged⟩ := List.mem_filterMap.mp mem
  obtain ⟨⟨chan, entry⟩, -, rfl⟩ := Option.map_eq_some_iff.mp logged
  dsimp only [apply]
  refine map_adjustChannel (g := titleOf) (fun c => ?_) s chan k
  rfl

end Access

/-! ### Memos -/

section Memos

/-- What is logged of a memo with its place in the mailbox. -/
def deliver (owner : String) (memo : Memo) (idx : Nat) : List Event :=
  .memoSent owner memo.sender memo.text memo.ts memo.receipt ::
    if memo.read then [.memoRead owner idx] else []

theorem memoEvents_none {m : Value} (none : memoOf m = none) (memoIndex : Table Nat)
    (rest : List Value) : memoEvents memoIndex (m :: rest) = memoEvents memoIndex rest := by
  unfold memoOf at none
  rw [memoEvents]
  cases owned : m.field "owner" with
  | none => rfl
  | some owner =>
      cases said : m.field "text" with
      | none => rfl
      | some text =>
          rw [owned, said] at none
          cases none

theorem memoEvents_some {m : Value} {owner : String} {memo : Memo}
    (made : memoOf m = some (owner, memo)) (memoIndex : Table Nat) (rest : List Value) :
    memoEvents memoIndex (m :: rest) =
      deliver owner memo (memoIndex[owner]?.getD 0) ++
        memoEvents (memoIndex.insert owner (memoIndex[owner]?.getD 0 + 1)) rest := by
  unfold memoOf at made
  rw [memoEvents]
  cases owned : m.field "owner" with
  | none =>
      rw [owned] at made
      cases made
  | some owner' =>
      cases said : m.field "text" with
      | none =>
          rw [owned, said] at made
          cases made
      | some text =>
          rw [owned, said] at made
          cases made
          rfl

variable {s : Store}

/-- A memo within the cap is put last, read or not as it was. -/
theorem fold_deliver {owner : String} {a : Account} (held : s.accounts[key owner]? = some a)
    (room : a.memos.length < a.memoCap) (memo : Memo) :
    (fold s (deliver owner memo a.memos.length)).accounts[key owner]? =
      some { a with memos := a.memos ++ [memo] } := by
  obtain ⟨sender, text, ts, read, receipt⟩ := memo
  have sent : (apply s (.memoSent owner sender text ts receipt)).accounts[key owner]? =
      some { a with memos := a.memos ++ [⟨sender, text, ts, false, receipt⟩] } := by
    dsimp only [apply]
    rw [getElem?_adjustAccount, if_pos rfl, held, Option.map_some, if_pos room]
  unfold deliver
  rw [fold_cons]
  cases read with
  | false => exact sent
  | true =>
      dsimp only
      rw [if_pos rfl, fold_cons, fold_nil]
      dsimp only [apply] at sent ⊢
      rw [getElem?_adjustAccount, if_pos rfl, sent, Option.map_some]
      simp [List.modify_eq_take_drop]

theorem fold_deliver_other {owner k : String} (other : key owner ≠ k) (memo : Memo) (idx : Nat) :
    (fold s (deliver owner memo idx)).accounts[k]? = s.accounts[k]? := by
  refine fold_keeps (fun s => s.accounts[k]?) (fun e mem s => ?_) s
  rcases List.mem_cons.mp mem with rfl | read
  · dsimp only [apply]
    rw [getElem?_adjustAccount, if_neg other]
  · split at read
    · cases List.mem_singleton.mp read
      dsimp only [apply]
      rw [getElem?_adjustAccount, if_neg other]
    · contradiction

/-- The memos of an owner who is spelled one way are all put into his mailbox, if they
fit: his count is the length of the mailbox. -/
theorem fold_memoEvents {owner : String} {memos : List Value} {a : Account} {memoIndex : Table Nat}
    (spelled : ∀ m ∈ boxOf owner memos, m.1 = owner)
    (held : s.accounts[key owner]? = some a)
    (counted : memoIndex[owner]?.getD 0 = a.memos.length)
    (fits : a.memos.length + (boxOf owner memos).length ≤ a.memoCap) :
    (fold s (memoEvents memoIndex memos)).accounts[key owner]? =
      some { a with memos := a.memos ++ (boxOf owner memos).map (·.2) } := by
  induction memos generalizing s a memoIndex with
  | nil =>
      simp [memoEvents, boxOf, held]
  | cons m rest ih =>
      cases made : memoOf m with
      | none =>
          have same : boxOf owner (m :: rest) = boxOf owner rest := by
            unfold boxOf
            rw [List.filterMap_cons_none made]
          rw [same] at spelled fits ⊢
          rw [memoEvents_none made]
          exact ih spelled held counted fits
      | some p =>
          obtain ⟨name, memo⟩ := p
          rw [memoEvents_some made, fold_append]
          by_cases own : key name = key owner
          · have box : boxOf owner (m :: rest) = (name, memo) :: boxOf owner rest := by
              unfold boxOf
              rw [List.filterMap_cons_some made, List.filter_cons_of_pos (by simp [own])]
            rw [box] at spelled fits ⊢
            obtain rfl : name = owner := spelled _ List.mem_cons_self
            rw [List.length_cons] at fits
            have sent := fold_deliver held (by omega) memo
            rw [counted]
            have next : (memoIndex.insert name (a.memos.length + 1))[name]?.getD 0 =
                (a.memos ++ [memo]).length := by simp
            have delivered := ih (fun m mem => spelled m (List.mem_cons_of_mem _ mem)) sent next ?_
            · rw [delivered]
              simp
            · simp only [List.length_append, List.length_singleton]
              unfold Account.memoCap at fits ⊢
              dsimp only
              omega
          · have box : boxOf owner (m :: rest) = boxOf owner rest := by
              unfold boxOf
              rw [List.filterMap_cons_some made, List.filter_cons_of_neg (by simp [own])]
            rw [box] at spelled fits ⊢
            refine ih spelled ?_ ?_ fits
            · rw [fold_deliver_other own]
              exact held
            · rw [ExtTreeMap.getElem?_insert]
              have apart : name ≠ owner := fun same => own (by rw [same])
              simp [apart, counted]

end Memos

/-! ### The replay -/

section Replay

variable (env : Env) (data : Value) (node : String)

/-- The store that an import is replayed to. -/
def replayed : Store := fold {} (importEvents env data node)

theorem avoids_of {kinds : List Part} {es : List Event} {p : Part}
    (reach : ∀ e ∈ es, partOf e = some p) (other : p ∉ kinds) : Avoids kinds es :=
  fun e mem => ⟨p, reach e mem, other⟩

/-- What follows the registrations does not register, and only the last of it is memos. -/
theorem replayed_accounts :
    ∃ rest, replayed env data node =
        fold (fold (fold {} ((coreAccounts data node).map .accountRegistered)) rest)
          (memoEvents ∅ (data.records "Memo")) ∧
      Avoids [.register, .memo] rest ∧
      Avoids [.register] (memoEvents ∅ (data.records "Memo")) := by
  refine ⟨(data.records "NickAlias").filterMap (aliasEvent data) ++
    (data.records "NSCert").filterMap (certEvent data) ++
    (data.records "ChannelInfo").flatMap (channelEvents data) ++
    (data.records "ChanAccess").filterMap (accessEvent data) ++
    (env.entries (locksOf data)).map lockEvent ++
    (data.records "BotInfo").filterMap botEvent, ?_, ?_, ?_⟩
  · unfold replayed importEvents
    simp only [fold_append, coreEvents_eq]
  · exact ((((((avoids_of (alias_part data) (by decide)).append
      (avoids_of (cert_part data) (by decide))).append
      (avoids_of (channel_part data) (by decide))).append
      (avoids_of (access_part data) (by decide))).append
      (avoids_of (lock_part _) (by decide))).append
      (avoids_of (bot_part data) (by decide)))
  · exact avoids_of (memo_part _ ∅) (by decide)

theorem replayed_grouped :
    ∃ rest s, replayed env data node =
        fold (fold s ((data.records "NickAlias").filterMap (aliasEvent data))) rest ∧
      s.grouped = ∅ ∧ Avoids [.alias] rest := by
  refine ⟨(data.records "NSCert").filterMap (certEvent data) ++
    (data.records "ChannelInfo").flatMap (channelEvents data) ++
    (data.records "ChanAccess").filterMap (accessEvent data) ++
    (env.entries (locksOf data)).map lockEvent ++
    (data.records "BotInfo").filterMap botEvent ++ memoEvents ∅ (data.records "Memo"),
    fold {} ((data.records "NickCore").filterMap (coreEvent data node)), ?_, ?_, ?_⟩
  · unfold replayed importEvents
    simp only [fold_append]
  · exact fold_grouped {} (avoids_of (core_part data node) (by decide))
  · exact ((((((avoids_of (cert_part data) (by decide)).append
      (avoids_of (channel_part data) (by decide))).append
      (avoids_of (access_part data) (by decide))).append
      (avoids_of (lock_part _) (by decide))).append
      (avoids_of (bot_part data) (by decide))).append
      (avoids_of (memo_part _ ∅) (by decide)))

theorem replayed_channels :
    ∃ s, (replayed env data node).channels =
        (fold (fold (fold s ((data.records "ChannelInfo").flatMap (channelEvents data)))
          ((data.records "ChanAccess").filterMap (accessEvent data)))
          ((env.entries (locksOf data)).map lockEvent)).channels ∧
      s.channels = ∅ := by
  refine ⟨fold (fold (fold {} ((data.records "NickCore").filterMap (coreEvent data node)))
    ((data.records "NickAlias").filterMap (aliasEvent data)))
    ((data.records "NSCert").filterMap (certEvent data)), ?_, ?_⟩
  · unfold replayed importEvents
    simp only [fold_append]
    rw [fold_channels _ (avoids_of (memo_part _ ∅) (by decide)),
      fold_channels _ (avoids_of (bot_part data) (by decide))]
  · rw [fold_channels _ (avoids_of (cert_part data) (by decide)),
      fold_channels _ (avoids_of (alias_part data) (by decide)),
      fold_channels _ (avoids_of (core_part data node) (by decide))]

variable {env data node}

/-- An account is held under the name of each core, and under no other. -/
theorem replayed_name (env : Env) (node : String) (unique : Unique data) (k : String) :
    (replayed env data node).accounts[k]?.map (·.name) =
      (displays data).find? fun disp => key disp == k := by
  obtain ⟨rest, split, others, memos⟩ := replayed_accounts env data node
  have labels : (replayed env data node).accounts[k]?.map labelOf =
      ((coreAccounts data node).find? fun a => key a.name == k).map labelOf := by
    rw [split, fold_accounts _ memos, fold_accounts _ ?_, fold_registered node unique.cores]
    intro e mem
    obtain ⟨p, reaches, other⟩ := others e mem
    exact ⟨p, reaches, fun same => other (by simp_all)⟩
  have names := congrArg (Option.map Prod.fst) labels
  rw [Option.map_map, Option.map_map] at names
  refine names.trans ?_
  rw [displays_eq data node, List.find?_map]
  rfl

theorem replayed_contains (unique : Unique data) (k : String) :
    (replayed env data node).accounts.contains k = true ↔ ∃ disp ∈ displays data, key disp = k := by
  rw [ExtTreeMap.contains_eq_isSome_getElem?, ← Option.isSome_map (f := fun a : Account => a.name),
    replayed_name env node unique, List.find?_isSome]
  simp

/-- The memos of a core are all in its mailbox, if they are under one name and fit. -/
theorem replayed_memos (unique : Unique data) {disp : String} (mem : disp ∈ displays data) :
    ∃ a, (replayed env data node).accounts[key disp]? = some a ∧
      ((∃ owner, ∀ m ∈ mailbox data disp, m.1 = owner) →
        (mailbox data disp).length ≤ a.memoCap → a.memos = (mailbox data disp).map (·.2)) := by
  have named := replayed_name env node unique (key disp)
  rw [unique.cores.find?_key mem] at named
  obtain ⟨a, held, -⟩ := Option.map_eq_some_iff.mp named
  refine ⟨a, held, ?_⟩
  rintro ⟨owner, spelled⟩ fits
  obtain ⟨rest, split, others, memos⟩ := replayed_accounts env data node
  rw [split] at held
  have labels := fold_accounts (fold (fold {} ((coreAccounts data node).map .accountRegistered)) rest)
    memos (key disp)
  rw [held] at labels
  obtain ⟨a', before, label⟩ := Option.map_eq_some_iff.mp labels.symm
  have empty : a'.memos = [] := by
    have kept := fold_memos (fold {} ((coreAccounts data node).map .accountRegistered)) others
      (key disp)
    rw [before, fold_registered node unique.cores] at kept
    obtain ⟨first, found, same⟩ := Option.map_eq_some_iff.mp kept.symm
    exact same.symm.trans (coreAccounts_memos data node (List.mem_of_find?_eq_some found))
  have cap : a'.memoCap = a.memoCap := by
    unfold Account.memoCap
    rw [(Prod.mk.inj label).2]
  -- The name the memos are under, any if there are none.
  obtain ⟨owner, same, spelled⟩ : ∃ owner, key owner = key disp ∧
      ∀ m ∈ mailbox data disp, m.1 = owner := by
    cases box : mailbox data disp with
    | nil => exact ⟨disp, rfl, nofun⟩
    | cons m others =>
        have own : m ∈ mailbox data disp := by
          rw [box]
          exact List.mem_cons_self
        refine ⟨owner, ?_, ?_⟩
        · rw [← spelled m own]
          exact beq_iff_eq.mp (List.mem_filter.mp own).2
        · rw [← box]
          exact spelled
  have box : boxOf owner (data.records "Memo") = mailbox data disp := by
    unfold mailbox boxOf
    rw [same]
  rw [← box] at spelled
  rw [← same] at before
  have none : (∅ : Table Nat)[owner]?.getD 0 = a'.memos.length := by simp [empty]
  have delivered := fold_memoEvents spelled before none (by rw [box, cap, empty]; simpa using fits)
  rw [same, held, Option.some.injEq] at delivered
  rw [delivered, empty, box]
  rfl

/-- Every nick resolves to its core. -/
theorem replayed_nicks (unique : Unique data) {na : Value} (mem : na ∈ data.records "NickAlias")
    {nick disp : String} (named : na.field "nick" = some nick)
    (owned : displayOf data na "ncid" = some disp) (known : disp ∈ displays data) {db : Db}
    (store : db.toStore = replayed env data node) : db.resolveAccount nick = some disp := by
  have held : (replayed env data node).accounts[key disp]?.map (·.name) = some disp := by
    rw [replayed_name env node unique, unique.cores.find?_key known]
  unfold Db.resolveAccount Db.resolvedKey
  rw [store]
  by_cases display : (replayed env data node).accounts.contains (key nick) = true
  · obtain ⟨disp', known', same⟩ := (replayed_contains unique _).mp display
    obtain rfl := unique.owned na mem nick disp named owned disp' known' same.symm
    rw [if_pos display, ← same]
    exact held
  · have apart : key nick ≠ key disp := by
      intro same
      refine display ((replayed_contains unique _).mpr ⟨disp, known, same.symm⟩)
    obtain ⟨rest, s, split, empty, others⟩ := replayed_grouped env data node
    have grouped : (replayed env data node).grouped[key nick]? = some disp := by
      rw [split, fold_grouped _ others]
      exact fold_grouped_of unique.nicks empty mem (aliasOf_eq_some.mpr ⟨named, owned, apart⟩)
    rw [if_neg display, grouped]
    exact held

theorem replayed_founded (unique : Unique data) (k : String) :
    (replayed env data node).channels[k]?.map titleOf =
      (foundedChannels data).find? fun p => key p.1 == k := by
  obtain ⟨s, channels, empty⟩ := replayed_channels env data node
  rw [channels, fold_locks titleOf _ _ _ (fun _ _ _ _ => rfl), fold_access_title,
    fold_founded unique.channels empty]

/-- A channel's list is as the channels and the access records have made it, on top of a
store without channels. -/
theorem replayed_access : ∃ s : Store, s.channels = ∅ ∧
    ∀ {k : String} {c : ChannelInfo}, (replayed env data node).channels[k]? = some c → ∃ c',
      (fold (fold s ((data.records "ChannelInfo").flatMap (channelEvents data)))
        ((data.records "ChanAccess").filterMap (accessEvent data))).channels[k]? = some c' ∧
        c'.access = c.access := by
  obtain ⟨s, channels, empty⟩ := replayed_channels env data node
  refine ⟨s, empty, fun {k c} held => ?_⟩
  rw [channels] at held
  have lists := fold_locks ChannelInfo.access (env.entries (locksOf data))
    (fold (fold s ((data.records "ChannelInfo").flatMap (channelEvents data)))
      ((data.records "ChanAccess").filterMap (accessEvent data))) k
    (fun _ _ _ _ => rfl)
  rw [held] at lists
  exact Option.map_eq_some_iff.mp lists.symm

theorem replayed_granted : Granted data (replayed env data node) := by
  obtain ⟨s, empty, lists⟩ := @replayed_access env data node
  intro k c held
  obtain ⟨c', before, same⟩ := lists held
  rw [← same]
  refine fold_holds (P := Granted data) (fun e mem s => granted_step mem s) ?_ k c' before
  intro k c registered entry mem
  rw [fold_founded_access empty k c registered] at mem
  contradiction

theorem replayed_grants {ca : Value} (mem : ca ∈ data.records "ChanAccess") {chan : String}
    {entry : ChanAccess} (made : accessOf data ca = some (chan, entry)) :
    Grants (key chan) entry.account (replayed env data node) := by
  obtain ⟨s, -, lists⟩ := @replayed_access env data node
  intro c held
  obtain ⟨c', before, same⟩ := lists held
  rw [← same]
  exact fold_grants mem made _ c' before

/-- A core that is referred to has a display name. -/
theorem displayOf_mem {v : Value} {k disp : String} (owned : displayOf data v k = some disp) :
    disp ∈ displays data := by
  have all : ∀ (l : List Value) (m : Table String), (∀ nc ∈ l, nc ∈ data.records "NickCore") →
      Bindings (fun _ disp => disp ∈ displays data) m →
      Bindings (fun _ disp => disp ∈ displays data) (l.foldl (fun m nc =>
        match nc.idField "uniqueid", nc.field "display" with
        | some id, some disp => m.insert id disp
        | _, _ => m) m) := by
    intro l
    induction l with
    | nil => exact fun m _ held => held
    | cons nc rest ih =>
        intro m within held
        refine ih _ (fun nc' mem => within nc' (List.mem_cons_of_mem nc mem)) ?_
        dsimp only
        split
        · rename_i disp' _ named
          exact held.insert (List.mem_filterMap.mpr ⟨nc, within nc List.mem_cons_self, named⟩)
        · exact held
  obtain ⟨id, -, found⟩ := Option.bind_eq_some_iff.mp owned
  exact all _ ∅ (fun _ mem => mem) .empty id disp found

/-- What an import that went through has written. -/
theorem run_appendEach_ok {events : List Event} {db db' : Db}
    (ran : (Db.appendEach id id events).run.run db = (.ok (), db')) :
    eventsOf db'.log.entries = eventsOf db.log.entries ++ events := by
  induction events generalizing db with
  | nil =>
      cases ran
      rw [List.append_nil]
  | cons e events ih =>
      rw [Db.appendEach_cons, run_bindE, Db.run_append] at ran
      rcases written : db.log.append e with ⟨log, _ | ⟨⟩⟩
      · rw [id, written] at ran
        cases ran
      · rw [id, written] at ran
        rw [ih ran, EventLog.append_ok written]
        simp [EventLog.committed, eventsOf]

/-- The log of an import replays to the accounts, nicks and channels of the database, with
access entries as they are there and with the memos that fit. -/
theorem import_carries (env : Env) (root : Value) (node origin : String) (outcomes : List Bool)
    (entries : List LogEntry) (unique : Unique ((root.get "data").getD .null))
    (done : importAnope env root node outcomes = .ok entries) :
    Imported ((root.get "data").getD .null) (Db.open' origin entries) := by
  generalize of : (root.get "data").getD .null = data at unique ⊢
  have store : (Db.open' origin entries).toStore = replayed env data node := by
    unfold importAnope at done
    rw [of] at done
    dsimp only at done
    split at done
    rename_i result db ran
    cases result with
    | error e => cases done
    | ok _ =>
        cases done
        have events := run_appendEach_ok ran
        unfold Db.open' replayed
        dsimp only
        rw [EventLog.open_entries, events]
        rfl
  have accounts : (Db.open' origin entries).accounts = (replayed env data node).accounts := by
    rw [store]
  have channels : (Db.open' origin entries).channels = (replayed env data node).channels := by
    rw [store]
  have founded : DistinctBy (fun p : String × String => key p.1) (foundedChannels data) := by
    refine unique.channels.filterMap_of fun ci p known => ?_
    unfold Migrate.founded at known
    split at known
    · rename_i name founder named _
      cases known
      exact ⟨name, named, rfl⟩
    · contradiction
  constructor
  · constructor
    · rw [accounts]
      exact perm_of_find? unique.cores (replayed_name env node unique)
    · intro na mem nick disp named owned
      exact replayed_nicks unique mem named owned (displayOf_mem owned) store
    · rw [channels]
      exact perm_of_find? (f := titleOf) founded (replayed_founded unique)
  · rw [channels]
    exact replayed_granted
  · rw [channels]
    intro ca mem chan entry made
    exact replayed_grants mem made
  · rw [accounts]
    intro k c _ entry _
    exact replayed_contains unique _
  · rw [accounts]
    intro disp mem
    exact replayed_memos unique mem

end Replay

/-! ### An access list without accounts -/

/-- A document with one account and a channel of it to which two others have access. -/
def minimal : Value :=
  let n (i : Int) : Value := .number (.int i)
  .object [("data", .object [
    ("BotInfo", .array [.object [("host", .string "h"), ("nick", .string "Botty"),
      ("realname", .string "Bot"), ("user", .string "b")]]),
    ("ChanAccess", .array [
      .object [("ci", .string "#chan"), ("data", .string "5"), ("mask", .string "bob")],
      .object [("ci", .string "#chan"), ("data", .string "3"), ("mask", .string "carol")]]),
    ("ChannelInfo", .array [.object [("bi", .string "Botty"), ("description", .string "a place"),
      ("founderid", n 100), ("levels", .string "AUTOOP 5 AUTOVOICE 3"), ("name", .string "#chan"),
      ("registered", n 1100)]]),
    ("Memo", .array [.object [("owner", .string "alice"), ("sender", .string "bob"),
      ("text", .string "hi"), ("time", n 3000), ("unread", .bool false)]]),
    ("NickAlias", .array [.object [("last_seen", n 2000), ("ncid", n 100),
      ("nick", .string "alice")]]),
    ("NickCore", .array [.object [("AUTOOP", .bool true), ("display", .string "alice"),
      ("email", .string "a@x.io"), ("memomax", n 20), ("registered", n 1000),
      ("uniqueid", n 100)]])])]

theorem minimal_unique : Unique ((minimal.get "data").getD .null) := by
  have only : displays ((minimal.get "data").getD .null) = ["alice"] := by decide +kernel
  constructor
  · unfold DistinctBy
    decide +kernel
  · unfold DistinctBy
    decide +kernel
  · intro na mem nick disp named owned disp' known same
    have mem := displayOf_mem owned
    rw [only] at mem known
    rw [List.mem_singleton.mp mem, List.mem_singleton.mp known]
  · unfold DistinctBy
    decide +kernel

/-- Whether the channel of this store grants access to someone who has no account. -/
def grantsStranger (db : Db) : Bool :=
  (db.channels["#chan"]?).any fun c => c.access.any fun entry =>
    !db.accounts.contains (key entry.account)

theorem minimal_imported :
    ∃ entries, importAnope .still minimal "n1" [] = .ok entries ∧
      grantsStranger ( Db.open' "n1" entries) = true := by
  have ran : (importAnope .still minimal "n1" []).toOption.any
      (fun entries => grantsStranger ( Db.open' "n1" entries)) = true := by decide +kernel
  generalize importAnope .still minimal "n1" [] = result at ran ⊢
  cases result with
  | error e => exact absurd ran Bool.false_ne_true
  | ok entries => exact ⟨entries, rfl, ran⟩

theorem import_carries_minimal :
    ∃ entries, importAnope .still minimal "n1" [] = .ok entries ∧
      Imported ((minimal.get "data").getD .null) ( Db.open' "n1" entries) := by
  obtain ⟨entries, done, -⟩ := minimal_imported
  exact ⟨entries, done, import_carries .still minimal "n1" "n1" [] entries minimal_unique done⟩

/-- Its import goes through, and grants access to accounts that do not exist. -/
theorem access_without_account :
    ∃ entries, importAnope .still minimal "n1" [] = .ok entries ∧
      Unique ((minimal.get "data").getD .null) ∧
      ¬ Faithful ((minimal.get "data").getD .null) ( Db.open' "n1" entries) := by
  obtain ⟨entries, done, stranger⟩ := minimal_imported
  refine ⟨entries, done, minimal_unique, fun faithful => ?_⟩
  unfold grantsStranger at stranger
  rw [Option.any_eq_true] at stranger
  obtain ⟨c, held, strange⟩ := stranger
  obtain ⟨entry, mem, absent⟩ := List.any_eq_true.mp strange
  rw [faithful.access "#chan" c held entry mem] at absent
  exact Bool.false_ne_true absent

end Echo.Migrate
