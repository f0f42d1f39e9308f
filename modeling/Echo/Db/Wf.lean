import Echo.Db.Apply
import Echo.Lib.Bindings

/-!
Well-formed stores. Every map is keyed by the folded name of what it holds, the
keyed lists hold each key once, and the id counters are ahead of the ids given
out. The fold preserves this for any event whatever, so it holds of every store
the log can rebuild.
-/

namespace Echo

open Std (ExtTreeMap)
open Echo.Lib

/-- A channel as it is held under `k`. -/
structure ChannelInfo.Wf (k : String) (c : ChannelInfo) : Prop where
  name : key c.name = k
  used : c.ts ≤ c.lastUsed
  access : DistinctBy (fun a => key a.account) c.access
  akick : DistinctBy (fun a => key a.mask) c.akick
  levels : DistinctBy (fun l => key l.1) c.levels

def Group.Wf (g : Group) : Prop := DistinctBy (fun m => key m.account) g.members

structure HostConfig.Wf (h : HostConfig) : Prop where
  offers : h.offers.Nodup
  forbidden : h.forbidden.Nodup

/-- Stable ids: distinct, and below the counter of the next one. -/
structure Ids {α : Type} (idOf : α → Nat) (next : Nat) (l : List α) : Prop where
  distinct : DistinctBy idOf l
  below : ∀ x ∈ l, idOf x < next

structure NetData.Wf (n : NetData) : Prop where
  akills : DistinctBy (fun a => (a.kind, key a.mask)) n.akills
  filters : DistinctBy (fun f => key f.pattern) n.filters
  forbids : DistinctBy (fun f => (f.kind, key f.mask)) n.forbids
  notifies : DistinctBy (fun x => key x.mask) n.notifies
  sessExceptions : DistinctBy (fun e => key e.mask) n.sessExceptions
  news : Ids News.id n.newsSeq n.news
  reports : Ids Report.id n.reportSeq n.reports
  help : Ids HelpTicket.id n.helpSeq n.help
  groups : DistinctBy (fun g => key g.name) n.groups
  members : ∀ g ∈ n.groups, g.Wf
  opers : Bindings (fun k _ => key k = k) n.opers
  jupes : DistinctBy (fun j => key j.name) n.jupes
  jupeSeq : n.jupes.length ≤ n.jupeSeq
  defaultBot : ∀ k ∈ n.defaultBot, key k = k

structure Store.Wf (s : Store) : Prop where
  accounts : Bindings (fun k a => key a.name = k) s.accounts
  channels : Bindings (fun k c => c.Wf k) s.channels
  grouped : Bindings (fun k _ => key k = k) s.grouped
  bots : Bindings (fun k b => key b.nick = k) s.bots
  hostCfg : s.hostCfg.Wf
  net : s.net.Wf

/-! ### What the edits keep -/

section Lists

variable {α : Type} {idOf : α → Nat} {next : Nat} {l : List α}

theorem Ids.sublist {l' : List α} (h : Ids idOf next l) (sub : l'.Sublist l) :
    Ids idOf next l' :=
  ⟨h.distinct.sublist sub, fun x hx => h.below x (sub.subset hx)⟩

theorem Ids.modifyFirst {p : α → Bool} {f : α → α} (h : Ids idOf next l)
    (same : ∀ x, idOf (f x) = idOf x) : Ids idOf next (modifyFirst p f l) := by
  refine ⟨h.distinct.modifyFirst fun x _ => same x, fun x hx => ?_⟩
  have mem : idOf x ∈ (Lib.modifyFirst p f l).map idOf := List.mem_map_of_mem hx
  rw [map_modifyFirst fun x _ => same x] at mem
  obtain ⟨y, hy, eq⟩ := List.mem_map.mp mem
  rw [← eq]
  exact h.below y hy

/-- The counter itself is not in use. -/
theorem Ids.fresh (h : Ids idOf next l) : (l.any fun y => idOf y == next) = false := by
  refine List.any_eq_false.mpr fun y hy same => ?_
  have := h.below y hy
  rw [beq_iff_eq.mp same] at this
  exact Nat.lt_irrefl next this

/-- Filing an entry under an id: the counter moves past it, and the entry is
added unless its id is taken. -/
theorem Ids.file {x : α} (h : Ids idOf next l) :
    Ids idOf (max next (idOf x + 1))
      (if l.any fun y => idOf y == idOf x then l else l ++ [x]) := by
  split
  · exact ⟨h.distinct, fun y hy => by have := h.below y hy; omega⟩
  · rename_i free
    have fresh : ∀ y ∈ l, idOf y ≠ idOf x := by
      intro y hy same
      exact free (List.any_eq_true.mpr ⟨y, hy, by simp [same]⟩)
    refine ⟨h.distinct.append_new fresh, fun y hy => ?_⟩
    rcases List.mem_append.mp hy with hy | hy
    · have := h.below y hy
      omega
    · rw [List.mem_singleton.mp hy]
      omega

/-- Dropping whatever shares the key of `x` and appending `x`. -/
theorem distinct_upsert {κ : Type} {keyOf : α → κ} {x : α} {same : α → Bool}
    (h : DistinctBy keyOf l) (detects : ∀ y, keyOf y = keyOf x → same y = true) :
    DistinctBy keyOf (l.filter (fun y => !same y) ++ [x]) :=
  h.upsert fun y hy => by rw [detects y hy]; rfl

end Lists

theorem sameLine_iff {kind mask kind' mask' : String} :
    sameLine kind mask kind' mask' = true ↔ (kind, key mask) = (kind', key mask') := by
  simp [sameLine, eqIgnoreAsciiCase_iff_key]

namespace Store

variable {s : Store}

theorem adjustAccount_congr {account : String} {f g : Account → Account}
    (agree : ∀ a, s.accounts[key account]? = some a → f a = g a) :
    s.adjustAccount account f = s.adjustAccount account g := by
  unfold Store.adjustAccount
  rw [modify_congr agree]

theorem Wf.adjustAccount (h : s.Wf) {account : String} {f : Account → Account}
    (name : ∀ a, (f a).name = a.name) : (s.adjustAccount account f).Wf :=
  { h with accounts := h.accounts.modify fun a ha => by rw [name a]; exact ha }

theorem Wf.adjustChannel (h : s.Wf) {channel : String} {f : ChannelInfo → ChannelInfo}
    (keeps : ∀ k c, c.Wf k → (f c).Wf k) : (s.adjustChannel channel f).Wf :=
  { h with channels := h.channels.modify fun c hc => keeps _ c hc }

theorem Wf.adjustNet (h : s.Wf) {f : NetData → NetData} (keeps : s.net.Wf → (f s.net).Wf) :
    (s.adjustNet f).Wf :=
  { h with net := keeps h.net }

theorem Wf.adjustHost (h : s.Wf) {f : HostConfig → HostConfig}
    (keeps : s.hostCfg.Wf → (f s.hostCfg).Wf) : (s.adjustHost f).Wf :=
  { h with hostCfg := keeps h.hostCfg }

/-- Editing a group in place keeps its name and the distinctness of its members. -/
theorem Wf.adjustGroup (h : s.Wf) {name : String} {f : Group → Group}
    (same : ∀ g, (f g).name = g.name) (keeps : ∀ g, g.Wf → (f g).Wf) :
    (s.adjustGroup name f).Wf := by
  refine h.adjustNet fun n => { n with groups := ?_, members := ?_ }
  · exact n.groups.modifyFirst fun g _ => by rw [same g]
  · exact modifyFirst_forall keeps n.members

theorem Wf.purgeAccountRefs (h : s.Wf) (account : String) : (s.purgeAccountRefs account).Wf where
  accounts := h.accounts
  channels := h.channels.map fun _ _ c => { c with access := c.access.filter _ }
  grouped := h.grouped.filter
  bots := h.bots
  hostCfg := h.hostCfg
  net :=
    { h.net with
      groups := (h.net.groups.map_same (f := purgeMembers account) fun _ => rfl).filter _
      members := by
        intro g hg
        obtain ⟨g', hg', rfl⟩ := List.mem_map.mp (List.mem_filter.mp hg).1
        exact (h.net.members g' hg').filter _ }

end Store

/-- A registration keeps the groups distinct: it edits the group of its name or
adds one. -/
theorem NetData.Wf.registerGroup {n : NetData} (h : n.Wf) (name founder : String) (ts : Nat)
    (home : String) :
    NetData.Wf { n with groups := Echo.registerGroup ⟨name, founder, ts, home, []⟩ n.groups } := by
  have empty : Group.Wf ⟨name, founder, ts, home, []⟩ := distinctBy_nil
  unfold Echo.registerGroup
  split
  · refine { h with groups := ?_, members := ?_ }
    · refine h.groups.modifyFirst fun g hg => ?_
      split
      · rfl
      · exact (beq_iff_eq.mp hg).symm
    · refine modifyFirst_forall (fun g hg => ?_) h.members
      split
      · exact hg
      · exact empty
  · rename_i free
    refine { h with groups := ?_, members := ?_ }
    · refine h.groups.append_new fun g hg same => free ?_
      exact List.any_eq_true.mpr ⟨g, hg, beq_iff_eq.mpr same⟩
    · intro g hg
      rcases List.mem_append.mp hg with hg | hg
      · exact h.members g hg
      · rw [List.mem_singleton.mp hg]
        exact empty

theorem wf_empty : Store.Wf {} where
  accounts := .empty
  channels := .empty
  grouped := .empty
  bots := .empty
  hostCfg := ⟨List.nodup_nil, List.nodup_nil⟩
  net :=
    { akills := distinctBy_nil, filters := distinctBy_nil, forbids := distinctBy_nil
      notifies := distinctBy_nil, sessExceptions := distinctBy_nil
      news := ⟨distinctBy_nil, by simp⟩, reports := ⟨distinctBy_nil, by simp⟩
      help := ⟨distinctBy_nil, by simp⟩, groups := distinctBy_nil, members := by simp
      opers := .empty, jupes := distinctBy_nil, jupeSeq := Nat.le_refl 0, defaultBot := by simp }

/-- A fresh channel is well-formed under the key of its name. -/
theorem newChannel_wf (name founder : String) (ts : Nat) :
    (newChannel name founder ts).Wf (key name) :=
  ⟨rfl, Nat.le_refl ts, distinctBy_nil, distinctBy_nil, distinctBy_nil⟩

/-- The fold keeps a store well-formed, whatever the event says. -/
theorem apply_wf {s : Store} (h : s.Wf) (e : Event) : (apply s e).Wf := by
  unfold apply
  cases e with
  | accountRegistered a =>
      dsimp only
      split
      · exact h
      · exact { h with accounts := h.accounts.insert rfl }
  | accountDropped account =>
      have erased : Store.Wf { s with accounts := s.accounts.erase (key account) } :=
        { h with accounts := h.accounts.erase }
      exact erased.purgeAccountRefs account
  | accountProfileSet account field value =>
      dsimp only
      split
      · exact h.adjustAccount fun _ => rfl
      · exact h
  | certAdded account fp => exact h.adjustAccount fun a => by split <;> rfl
  | memoSent account sender text ts receipt => exact h.adjustAccount fun a => by split <;> rfl
  | memoIgnoreAdd account target => exact h.adjustAccount fun a => by split <;> rfl
  | nickGrouped nick account => exact { h with grouped := h.grouped.insert (key_key nick) }
  | nickUngrouped nick => exact { h with grouped := h.grouped.erase }
  | channelRegistered name founder ts =>
      exact { h with channels := h.channels.insert (newChannel_wf name founder ts) }
  | channelDropped name => exact { h with channels := h.channels.erase }
  | channelRenamed old new =>
      dsimp only
      split
      · rename_i c held
        exact { h with
          channels := h.channels.erase.insert { h.channels _ c held with name := rfl } }
      · exact h
  | channelAccessAdd channel account level =>
      exact h.adjustChannel fun _ _ c =>
        { c with access := distinct_upsert c.access fun _ => eqIgnoreAsciiCase_iff_key.mpr }
  | channelAccessDel channel account =>
      exact h.adjustChannel fun _ _ c => { c with access := c.access.filter _ }
  | channelAkickAdd channel mask reason =>
      exact h.adjustChannel fun _ _ c =>
        { c with akick := distinct_upsert c.akick fun _ => eqIgnoreAsciiCase_iff_key.mpr }
  | channelAkickDel channel mask =>
      exact h.adjustChannel fun _ _ c => { c with akick := c.akick.filter _ }
  | channelLevelSet channel cap role =>
      exact h.adjustChannel fun _ _ c =>
        { c with levels := distinct_upsert c.levels fun _ => eqIgnoreAsciiCase_iff_key.mpr }
  | channelLevelReset channel cap =>
      exact h.adjustChannel fun _ _ c => { c with levels := c.levels.filter _ }
  | channelUsed channel ts =>
      exact h.adjustChannel fun _ c wf =>
        { wf with used := Nat.le_trans wf.used (Nat.le_max_left c.lastUsed ts) }
  | botAdded b => exact { h with bots := h.bots.insert rfl }
  | botRemoved nick =>
      refine { h with bots := h.bots.erase, net := ?_ }
      change NetData.Wf (if _ then _ else _)
      split
      · exact { h.net with defaultBot := by simp }
      · exact h.net
  | defaultBotSet bot =>
      refine h.adjustNet fun n => { n with defaultBot := fun k hk => ?_ }
      obtain ⟨b, -, rfl⟩ := Option.map_eq_some_iff.mp hk
      exact key_key b
  | vhostOfferAdded host =>
      refine h.adjustHost fun c => ?_
      split
      · exact c
      · rename_i absent
        refine { c with offers := List.nodup_append.mpr ⟨c.offers, List.nodup_singleton _, ?_⟩ }
        rintro a ha b hb rfl
        exact absent (List.any_eq_true.mpr ⟨a, ha, by simp [List.mem_singleton.mp hb]⟩)
  | vhostOfferRemoved host => exact h.adjustHost fun c => { c with offers := c.offers.filter _ }
  | vhostForbidAdded pattern =>
      refine h.adjustHost fun c => ?_
      split
      · exact c
      · rename_i absent
        refine { c with
          forbidden := List.nodup_append.mpr ⟨c.forbidden, List.nodup_singleton _, ?_⟩ }
        rintro a ha b hb rfl
        exact absent (List.any_eq_true.mpr ⟨a, ha, by simp [List.mem_singleton.mp hb]⟩)
  | vhostForbidRemoved pattern =>
      exact h.adjustHost fun c => { c with forbidden := c.forbidden.filter _ }
  | vhostTemplateSet template => exact h.adjustHost fun c => { c with }
  | akillAdded kind mask setter reason ts expires =>
      exact h.adjustNet fun n =>
        { n with akills := distinct_upsert n.akills fun _ => sameLine_iff.mpr }
  | akillRemoved kind mask => exact h.adjustNet fun n => { n with akills := n.akills.filter _ }
  | filterAdded pattern action flags reason setter ts expires =>
      exact h.adjustNet fun n =>
        { n with filters := distinct_upsert n.filters fun _ => eqIgnoreAsciiCase_iff_key.mpr }
  | filterRemoved pattern => exact h.adjustNet fun n => { n with filters := n.filters.filter _ }
  | forbidAdded kind mask setter reason ts =>
      exact h.adjustNet fun n =>
        { n with forbids := distinct_upsert n.forbids fun _ => sameLine_iff.mpr }
  | forbidRemoved kind mask => exact h.adjustNet fun n => { n with forbids := n.forbids.filter _ }
  | notifyAdded mask flags reason setter ts expires =>
      exact h.adjustNet fun n =>
        { n with notifies := distinct_upsert n.notifies fun _ => eqIgnoreAsciiCase_iff_key.mpr }
  | notifyRemoved mask => exact h.adjustNet fun n => { n with notifies := n.notifies.filter _ }
  | sessionExceptionAdded mask limit reason =>
      exact h.adjustNet fun n =>
        { n with sessExceptions :=
            distinct_upsert n.sessExceptions fun _ => eqIgnoreAsciiCase_iff_key.mpr }
  | sessionExceptionRemoved mask =>
      exact h.adjustNet fun n => { n with sessExceptions := n.sessExceptions.filter _ }
  | jupeAdded name sid reason =>
      refine h.adjustNet fun n => ?_
      split
      · exact n
      · rename_i absent
        refine { n with jupes := n.jupes.append_new fun j hj same => absent ?_, jupeSeq := ?_ }
        · exact List.any_eq_true.mpr ⟨j, hj, eqIgnoreAsciiCase_iff_key.mpr same⟩
        · rw [List.length_append]
          exact Nat.succ_le_succ n.jupeSeq
  | jupeRemoved name =>
      exact h.adjustNet fun n =>
        { n with
          jupes := n.jupes.filter _
          jupeSeq := Nat.le_trans (List.length_filter_le _ _) n.jupeSeq }
  | newsAdded id kind text setter ts =>
      exact h.adjustNet fun n =>
        { n with news := n.news.file (x := ⟨id, kind, text, setter, ts⟩) }
  | newsDeleted id =>
      exact h.adjustNet fun n => { n with news := n.news.sublist List.filter_sublist }
  | reportFiled id reporter target reason ts =>
      exact h.adjustNet fun n =>
        { n with reports := n.reports.file (x := ⟨id, reporter, target, reason, ts, true⟩) }
  | reportClosed id =>
      exact h.adjustNet fun n =>
        { n with reports := n.reports.modifyFirst fun _ => rfl }
  | reportDeleted id =>
      exact h.adjustNet fun n =>
        { n with reports := n.reports.sublist List.filter_sublist }
  | helpRequested id requester message ts =>
      exact h.adjustNet fun n =>
        { n with help := n.help.file (x := ⟨id, requester, message, ts, none, true⟩) }
  | helpTaken id handler =>
      exact h.adjustNet fun n =>
        { n with help := n.help.modifyFirst fun _ => rfl }
  | helpClosed id =>
      exact h.adjustNet fun n =>
        { n with help := n.help.modifyFirst fun _ => rfl }
  | groupRegistered name founder ts home =>
      exact h.adjustNet fun n => n.registerGroup name founder ts home
  | groupDropped name =>
      exact h.adjustNet fun n =>
        { n with
          groups := n.groups.filter _
          members := fun g hg => n.members g (List.mem_filter.mp hg).1 }
  | groupFounderSet name founder => exact h.adjustGroup (fun _ => rfl) fun _ g => g
  | groupFlagsSet name account flags =>
      exact h.adjustGroup (fun _ => rfl) fun _ g =>
        distinct_upsert g fun _ => eqIgnoreAsciiCase_iff_key.mpr
  | groupMemberDel name account =>
      exact h.adjustGroup (fun _ => rfl) fun _ g => DistinctBy.filter _ g
  | operGranted account privs expires =>
      exact h.adjustNet fun n => { n with opers := n.opers.insert (key_key account) }
  | operRevoked account => exact h.adjustNet fun n => { n with opers := n.opers.erase }
  | statsSet counters channels => exact h.adjustNet fun n => { n with }
  | incidentsSet seq incidents => exact h.adjustNet fun n => { n with }
  | channelMlock | channelFounderSet | channelSuccessorSet | channelDescSet | channelEntryMsgSet
  | channelUrlSet | channelEmailSet | channelSettingsSet | channelKickerSet | channelBadwordsSet
  | channelTriggersSet | channelTopicSet | channelSuspended | channelUnsuspended
  | channelBotAssigned | channelBotUnassigned | channelNoExpire | channelExpiryWarned
  | channelOperNoteSet => exact h.adjustChannel fun _ _ c => { c with }
  | _ => exact h.adjustAccount fun _ => rfl

theorem fold_wf {s : Store} (h : s.Wf) : ∀ events : List Event, (fold s events).Wf
  | [] => h
  | e :: events => fold_wf (apply_wf h e) events

end Echo
