import Echo.Db.Persisted
import Echo.Db.Rebuild

/-!
What a compaction loses: folding the snapshot of a well-formed store gives back
the store with its counters lowered to the ids still in use, a parameter lock
without a mode lock and a topic setter without a topic dropped, and without what
had expired.
-/

namespace Echo

open Std (ExtTreeMap)
open Echo.Lib

/-- The counter after the ids in use have been filed again. -/
def nextId (ids : List Nat) : Nat := ids.foldl (fun n id => max n (id + 1)) 0

theorem nextId_concat (ids : List Nat) (id : Nat) :
    nextId (ids ++ [id]) = max (nextId ids) (id + 1) := List.foldl_append

/-- The network lists as their snapshot rebuilds them. -/
def NetData.recovered (now : Nat) (n : NetData) : NetData :=
  { n with
    akills := n.akills.filter (live now ·.expires)
    filters := n.filters.filter (live now ·.expires)
    notifies := n.notifies.filter (live now ·.expires)
    newsSeq := nextId (n.news.map (·.id))
    reportSeq := nextId (n.reports.map (·.id))
    helpSeq := nextId (n.help.map (·.id))
    jupeSeq := n.jupes.length
    incidentSeq := if n.incidents ≠ [] then n.incidentSeq else 0 }

/-- A store as its snapshot rebuilds it. -/
def Store.recovered (now : Nat) (s : Store) : Store :=
  { s with
    channels := s.channels.map fun _ c => c.recovered
    net := s.net.recovered now }

/-! ### The network lists -/

/-- The store with these network lists. -/
def Store.withNet (s : Store) (n : NetData) : Store := { s with net := n }

namespace NetData

variable {s : Store} {n x : NetData}

theorem rebuilds_head (wf : n.Wf)
    (empty : (x.defaultBot, x.stats, x.chanStats, x.incidents, x.incidentSeq) =
      (none, ∅, [], [], 0)) :
    Rebuilds (s.withNet x) n.snapshotHead (s.withNet
      { x with
        defaultBot := n.defaultBot, stats := n.stats, chanStats := n.chanStats
        incidents := n.incidents
        incidentSeq := if n.incidents ≠ [] then n.incidentSeq else 0 }) := by
  simp only [Prod.mk.injEq] at empty
  unfold snapshotHead
  refine .append (.append
    (rebuilds_oneFor s.withNet ({ x with defaultBot := · }) (fun k held => ?_) ?_)
    (rebuilds_oneIf s.withNet
      (y := { x with
        defaultBot := n.defaultBot, stats := n.stats, chanStats := n.chanStats })
      (fun _ => ?_) fun none => ?_))
    (rebuilds_oneIf s.withNet (fun some => ?_) fun none => ?_)
  · have folded : key k = k := wf.defaultBot k held
    change s.withNet { x with defaultBot := some (key k) } = _
    rw [folded]
  · rw [← empty.1]
  · have counters : n.stats.toList.foldl (fun m c => m.insert c.1 c.2) ∅ = n.stats :=
      insertAll_of_perm (List.Perm.refl _)
    change s.withNet { x with
      defaultBot := n.defaultBot
      stats := n.stats.toList.foldl (fun m c => m.insert c.1 c.2) ∅
      chanStats := n.chanStats } = _
    rw [counters]
  · rw [not_or, not_not, not_not] at none
    rw [none.1, none.2, ← empty.2.1, ← empty.2.2.1]
  · rw [if_pos some]
    rfl
  · rw [if_neg none, not_not.mp none, ← empty.2.2.2.1, ← empty.2.2.2.2]

/-- A list of entries with distinct keys. -/
theorem rebuilds_lines {α κ : Type} {keyOf : α → κ} {e : α → Event} {l : List α}
    {keep : α → α → Bool} (distinct : DistinctBy keyOf l) (get : NetData → List α)
    (put : List α → NetData → NetData)
    (acts : ∀ (s : Store) a, apply s (e a) =
      s.adjustNet fun n => put ((get n).filter (keep a) ++ [a]) n)
    (keeps : ∀ a a', keyOf a' ≠ keyOf a → keep a a' = true) (gets : ∀ l, get (put l x) = l)
    (puts : ∀ l l', put l' (put l x) = put l' x) (empty : put [] x = x) :
    Rebuilds (s.withNet x) (l.map e) (s.withNet (put l x)) :=
  rebuilds_listed s.withNet distinct get put (fun _ _ => acts _ _) keeps gets puts empty

theorem differs_of_line {kind mask kind' mask' : String}
    (h : (kind, key mask) ≠ (kind', key mask')) : (!sameLine kind mask kind' mask') = true := by
  rw [Bool.not_eq_true', Bool.eq_false_iff]
  exact fun same => h (sameLine_iff.mp same)

theorem rebuilds_bans (wf : n.Wf) (now : Nat)
    (empty : (x.forbids, x.notifies, x.akills, x.filters) = ([], [], [], [])) :
    Rebuilds (s.withNet x) (n.snapshotBans now) (s.withNet
      { x with
        forbids := n.forbids, notifies := n.notifies.filter (live now ·.expires)
        akills := n.akills.filter (live now ·.expires)
        filters := n.filters.filter (live now ·.expires) }) := by
  simp only [Prod.mk.injEq] at empty
  unfold snapshotBans
  refine .append (.append (.append
    (rebuilds_lines wf.forbids (·.forbids) (fun l x => { x with forbids := l })
      (fun _ _ => rfl) (fun _ _ => differs_of_line) (fun _ => rfl) (fun _ _ => rfl) ?_)
    (rebuilds_lines (wf.notifies.filter _) (·.notifies) (fun l x => { x with notifies := l })
      (fun _ _ => rfl) (fun _ _ => differs_of_key) (fun _ => rfl) (fun _ _ => rfl) ?_))
    (rebuilds_lines (wf.akills.filter _) (·.akills) (fun l x => { x with akills := l })
      (fun _ _ => rfl) (fun _ _ => differs_of_line) (fun _ => rfl) (fun _ _ => rfl) ?_))
    (rebuilds_lines (wf.filters.filter _) (·.filters) (fun l x => { x with filters := l })
      (fun _ _ => rfl) (fun _ _ => differs_of_key) (fun _ => rfl) (fun _ _ => rfl) ?_)
  · rw [← empty.1]
  · rw [← empty.2.1]
  · rw [← empty.2.2.1]
  · rw [← empty.2.2.2]

/-! ### The desk: news, reports, groups and help tickets -/

/-- An id that is not in use yet. -/
theorem any_id_eq_false {α : Type} {idOf : α → Nat} {l : List α} {id : Nat}
    (fresh : ∀ y ∈ l, idOf y ≠ id) : (l.any fun y => idOf y == id) = false :=
  List.any_eq_false.mpr fun y hy same => fresh y hy (beq_iff_eq.mp same)

/-- Filing an entry under a new id: the counter moves past it. -/
theorem rebuilds_filed {α : Type} {idOf : α → Nat} {e : Event} {done : List α} {a : α}
    (put : List α → Nat → NetData)
    (acts : apply (s.withNet (put done (nextId (done.map idOf)))) e =
      s.withNet (put (if done.any fun y => idOf y == idOf a then done else done ++ [a])
        (max (nextId (done.map idOf)) (idOf a + 1))))
    (fresh : ∀ y ∈ done, idOf y ≠ idOf a) :
    Rebuilds (s.withNet (put done (nextId (done.map idOf)))) [e]
      (s.withNet (put (done ++ [a]) (nextId ((done ++ [a]).map idOf)))) := by
  unfold Rebuilds
  rw [fold_cons, fold_nil, acts, any_id_eq_false fresh, List.map_append, List.map_singleton,
    nextId_concat]
  rfl

/-- Editing by id the entry just filed. -/
theorem modifyFirst_filed {α : Type} {idOf : α → Nat} {f : α → α} {done : List α} {a : α}
    {id : Nat} (fresh : ∀ y ∈ done, idOf y ≠ id) (same : idOf a = id) :
    modifyFirst (fun y => idOf y == id) f (done ++ [a]) = done ++ [f a] :=
  modifyFirst_append_of_fresh (p := fun y => idOf y == id) (beq_iff_eq.mpr same) fun y hy =>
    beq_eq_false_iff_ne.mpr (fresh y hy)

theorem rebuilds_news (wf : n.Wf) (empty : (x.news, x.newsSeq) = ([], 0)) :
    Rebuilds (s.withNet x) (n.news.map fun a => .newsAdded a.id a.kind a.text a.setter a.ts)
      (s.withNet { x with news := n.news, newsSeq := nextId (n.news.map News.id) }) := by
  have built := rebuilds_keyed s.withNet
    (fun a => [.newsAdded a.id a.kind a.text a.setter a.ts]) wf.news.distinct
    (fun done => { x with news := done, newsSeq := nextId (done.map News.id) })
    fun done a fresh _ =>
      rebuilds_filed (fun l next => { x with news := l, newsSeq := next }) rfl fresh
  have start : x = { x with news := [], newsSeq := nextId [] } := by
    simp only [Prod.mk.injEq] at empty
    rw [← empty.1, show nextId [] = x.newsSeq from empty.2.symm]
  rw [← List.map_eq_flatMap] at built
  rwa [start]

theorem rebuilds_reports (wf : n.Wf) (empty : (x.reports, x.reportSeq) = ([], 0)) :
    Rebuilds (s.withNet x) (n.reports.flatMap Report.snapshot)
      (s.withNet { x with
        reports := n.reports, reportSeq := nextId (n.reports.map Report.id) }) := by
  have built := rebuilds_keyed s.withNet Report.snapshot wf.reports.distinct
    (fun done => { x with reports := done, reportSeq := nextId (done.map Report.id) })
    fun done a fresh _ => ?_
  · have start : x = { x with reports := [], reportSeq := nextId [] } := by
      simp only [Prod.mk.injEq] at empty
      rw [← empty.1, show nextId [] = x.reportSeq from empty.2.symm]
    rwa [start]
  · have filed := rebuilds_filed (fun l next => { x with reports := l, reportSeq := next })
      (s := s) (a := { a with «open» := true })
      (e := .reportFiled a.id a.reporter a.target a.reason a.ts) rfl fresh
    have ids : (done ++ [{ a with «open» := true }]).map Report.id = (done ++ [a]).map Report.id :=
      by simp only [List.map_append, List.map_singleton]
    rw [ids] at filed
    refine .append filed (rebuilds_oneIf s.withNet (fun shut => ?_) fun notShut => ?_)
    · have edited : modifyFirst (fun r => r.id == a.id) (fun r => { r with «open» := false })
          (done ++ [{ a with «open» := true }]) = done ++ [a] := by
        rw [modifyFirst_filed fresh (by rfl), ← shut]
      exact congrArg (fun l => s.withNet { x with
        reports := l, reportSeq := nextId ((done ++ [a]).map Report.id) }) edited
    · rw [Bool.not_eq_false] at notShut
      rw [← notShut]

theorem rebuilds_help (wf : n.Wf) (empty : (x.help, x.helpSeq) = ([], 0)) :
    Rebuilds (s.withNet x) (n.help.flatMap HelpTicket.snapshot)
      (s.withNet { x with
        help := n.help, helpSeq := nextId (n.help.map HelpTicket.id) }) := by
  have built := rebuilds_keyed s.withNet HelpTicket.snapshot wf.help.distinct
    (fun done => { x with help := done, helpSeq := nextId (done.map HelpTicket.id) })
    fun done a fresh _ => ?_
  · have start : x = { x with help := [], helpSeq := nextId [] } := by
      simp only [Prod.mk.injEq] at empty
      rw [← empty.1, show nextId [] = x.helpSeq from empty.2.symm]
    rwa [start]
  · have filed := rebuilds_filed (fun l next => { x with help := l, helpSeq := next })
      (s := s) (a := { a with handler := none, «open» := true })
      (e := .helpRequested a.id a.requester a.message a.ts) rfl fresh
    have ids : (done ++ [{ a with handler := none, «open» := true }]).map HelpTicket.id =
        (done ++ [a]).map HelpTicket.id := by
      simp only [List.map_append, List.map_singleton]
    rw [ids] at filed
    refine .append (.append filed
      (rebuilds_oneFor s.withNet
        (fun h => { x with
          help := done ++ [{ a with handler := h, «open» := true }]
          helpSeq := nextId ((done ++ [a]).map HelpTicket.id) })
        (fun h _ => ?_) rfl))
      (rebuilds_oneIf s.withNet (fun shut => ?_) fun notShut => ?_)
    · have edited := modifyFirst_filed (f := fun t => { t with handler := some h })
        (a := { a with handler := none, «open» := true }) fresh rfl
      exact congrArg (fun l => s.withNet { x with
        help := l, helpSeq := nextId ((done ++ [a]).map HelpTicket.id) }) edited
    · have edited : modifyFirst (fun t => t.id == a.id) (fun t => { t with «open» := false })
          (done ++ [{ a with «open» := true }]) = done ++ [a] := by
        rw [modifyFirst_filed fresh (by rfl), ← shut]
      exact congrArg (fun l => s.withNet { x with
        help := l, helpSeq := nextId ((done ++ [a]).map HelpTicket.id) }) edited
    · rw [Bool.not_eq_false] at notShut
      rw [← notShut]

theorem apply_groupFlagsSet (groups : List Group) (name : String) (m : GroupMember) :
    apply (s.withNet { x with groups }) (.groupFlagsSet name m.account m.flags) =
      s.withNet
        { x with
          groups := modifyFirst (fun g => key g.name == key name) (fun g =>
            { g with
              members :=
                g.members.filter (fun k => !eqIgnoreAsciiCase k.account m.account) ++ [m] })
            groups } := rfl

/-- A member's flags reach the group registered last. -/
theorem apply_groupFlagsSet_last {done : List Group} {g : Group} {l : List GroupMember}
    (m : GroupMember) (fresh : ∀ h ∈ done, key h.name ≠ key g.name) :
    apply (s.withNet { x with groups := done ++ [{ g with members := l }] })
        (.groupFlagsSet g.name m.account m.flags) =
      s.withNet { x with groups := done ++ [{ g with
        members := l.filter (fun k => !eqIgnoreAsciiCase k.account m.account) ++ [m] }] } := by
  rw [apply_groupFlagsSet, modifyFirst_append_of_fresh]
  · exact beq_self_eq_true (key g.name)
  · exact fun h mem => beq_eq_false_iff_ne.mpr (fresh h mem)

/-- A group is registered empty and its members are put back in order. -/
theorem rebuilds_group {done : List Group} {g : Group} (members : g.Wf)
    (fresh : ∀ h ∈ done, key h.name ≠ key g.name) :
    Rebuilds (s.withNet { x with groups := done }) g.snapshot
      (s.withNet { x with groups := done ++ [g] }) := by
  have registered : registerGroup ⟨g.name, g.founder, g.ts, g.home, []⟩ done =
      done ++ [⟨g.name, g.founder, g.ts, g.home, []⟩] := by
    unfold registerGroup
    rw [if_neg]
    intro taken
    obtain ⟨h, mem, same⟩ := List.any_eq_true.mp taken
    exact fresh h mem (beq_iff_eq.mp same)
  have created : Rebuilds (s.withNet { x with groups := done })
      [.groupRegistered g.name g.founder g.ts g.home]
      (s.withNet { x with groups := done ++ [⟨g.name, g.founder, g.ts, g.home, []⟩] }) :=
    congrArg (fun l => s.withNet { x with groups := l }) registered
  exact .append created (rebuilds_listed
    (fun l => s.withNet { x with groups := done ++ [{ g with members := l }] })
    members id (fun l _ => l) (fun _ m => apply_groupFlagsSet_last m fresh)
    (fun _ _ => differs_of_key) (fun _ => rfl) (fun _ _ => rfl) rfl)

theorem rebuilds_groups (wf : n.Wf) (empty : x.groups = []) :
    Rebuilds (s.withNet x) (n.groups.flatMap Group.snapshot)
      (s.withNet { x with groups := n.groups }) := by
  have built := rebuilds_keyed s.withNet Group.snapshot wf.groups
    (fun done => { x with groups := done })
    fun done g fresh mem => rebuilds_group (wf.members g mem) fresh
  rwa [← empty] at built

theorem rebuilds_opers (wf : n.Wf) (env : Env) (empty : x.opers = ∅) :
    Rebuilds (s.withNet x)
      ((env.entries n.opers).map fun (account, grant) =>
        .operGranted account grant.privs grant.expires)
      (s.withNet { x with opers := n.opers }) := by
  have built := rebuilds_bindings s.withNet env (m := n.opers)
    (fun (account, grant) => [.operGranted account grant.privs grant.expires])
    (fun t => { x with opers := t }) fun t k grant held _ => ?_
  · rwa [← empty, ← List.map_eq_flatMap] at built
  · have folded : key k = k := wf.opers k grant held
    change s.withNet { x with opers := t.insert (key k) ⟨grant.privs, grant.expires⟩ } = _
    rw [folded]

theorem rebuilds_jupes (wf : n.Wf) (empty : (x.jupes, x.jupeSeq) = ([], 0)) :
    Rebuilds (s.withNet x) (n.jupes.map fun j => .jupeAdded j.name j.sid j.reason)
      (s.withNet { x with jupes := n.jupes, jupeSeq := n.jupes.length }) := by
  have built := rebuilds_keyed s.withNet (fun j => [.jupeAdded j.name j.sid j.reason]) wf.jupes
    (fun done => { x with jupes := done, jupeSeq := done.length }) fun done j fresh _ => ?_
  · simp only [Prod.mk.injEq] at empty
    rw [← List.map_eq_flatMap] at built
    have start : x = { x with jupes := [], jupeSeq := 0 } := by rw [← empty.1, ← empty.2]
    rwa [start]
  · have absent : ¬ (done.any fun h => eqIgnoreAsciiCase h.name j.name) = true := by
      intro taken
      obtain ⟨h, mem, same⟩ := List.any_eq_true.mp taken
      exact fresh h mem (eqIgnoreAsciiCase_iff_key.mp same)
    unfold Rebuilds
    rw [fold_cons, fold_nil, List.length_append]
    exact congrArg s.withNet (if_neg absent)

theorem rebuilds_desk (wf : n.Wf)
    (empty : (x.news, x.newsSeq, x.reports, x.reportSeq, x.groups, x.help, x.helpSeq) =
      ([], 0, [], 0, [], [], 0)) :
    Rebuilds (s.withNet x) n.snapshotDesk (s.withNet
      { x with
        news := n.news, newsSeq := nextId (n.news.map News.id)
        reports := n.reports, reportSeq := nextId (n.reports.map Report.id)
        groups := n.groups
        help := n.help, helpSeq := nextId (n.help.map HelpTicket.id) }) := by
  simp only [Prod.mk.injEq] at empty
  obtain ⟨news, newsSeq, reports, reportSeq, groups, help, helpSeq⟩ := empty
  unfold snapshotDesk
  refine .append (.append (.append (rebuilds_news wf ?_) (rebuilds_reports wf ?_))
    (rebuilds_groups wf ?_)) (rebuilds_help wf ?_)
  · rw [news, newsSeq]
  · rw [← reports, ← reportSeq]
  · exact groups
  · rw [← help, ← helpSeq]

theorem rebuilds_tail (wf : n.Wf) (env : Env)
    (empty : (x.opers, x.sessExceptions, x.jupes, x.jupeSeq) = (∅, [], [], 0)) :
    Rebuilds (s.withNet x) (n.snapshotOpers env) (s.withNet
      { x with
        opers := n.opers, sessExceptions := n.sessExceptions
        jupes := n.jupes, jupeSeq := n.jupes.length }) := by
  simp only [Prod.mk.injEq] at empty
  obtain ⟨opers, sessExceptions, jupes, jupeSeq⟩ := empty
  unfold snapshotOpers
  refine .append (.append (rebuilds_opers wf env opers)
    (rebuilds_lines wf.sessExceptions (·.sessExceptions)
      (fun l x => { x with sessExceptions := l }) (fun _ _ => rfl)
      (fun _ _ => differs_of_key) (fun _ => rfl) (fun _ _ => rfl) ?_)) (rebuilds_jupes wf ?_)
  · rw [← sessExceptions]
  · rw [← jupes, ← jupeSeq]

/-- What the head of a snapshot leaves. -/
def headOnly (n : NetData) : NetData :=
  { defaultBot := n.defaultBot, stats := n.stats, chanStats := n.chanStats
    incidents := n.incidents
    incidentSeq := if n.incidents ≠ [] then n.incidentSeq else 0 }

theorem rebuilds_lists (wf : n.Wf) (env : Env) :
    Rebuilds (s.withNet n.headOnly)
      (n.snapshotBans env.now ++ n.snapshotDesk ++ n.snapshotOpers env)
      (s.withNet (n.recovered env.now)) :=
  .append (.append (rebuilds_bans wf env.now rfl) (rebuilds_desk wf rfl))
    (rebuilds_tail wf env rfl)

end NetData

/-! ### The whole store -/

namespace Store

variable {s : Store}

theorem rebuilds_accounts (env : Env) (wf : s.Wf) :
    Rebuilds {} ((env.values s.accounts).map .accountRegistered) { accounts := s.accounts } := by
  have built := rebuilds_bindings (fun t => { accounts := t : Store }) env
    (m := s.accounts) (fun b => [.accountRegistered b.2]) id
    fun t k a held absent => ?_
  · unfold Env.values
    rwa [List.map_map, List.map_eq_flatMap]
  · have stored : key a.name = k := wf.accounts k a held
    unfold Rebuilds
    rw [fold_cons, fold_nil]
    change (if (t[key a.name]?).any _ then _ else _) = _
    rw [stored, absent]
    rfl

theorem rebuilds_channels (env : Env) (wf : s.Wf) {accounts : Table Account} :
    Rebuilds { accounts } ((env.values s.channels).flatMap ChannelInfo.snapshot)
      { accounts, channels := s.channels.map fun _ c => c.recovered } := by
  have built := rebuilds_bindings (fun t => { accounts, channels := t : Store }) env
    (m := s.channels) (fun b => b.2.snapshot)
    (fun t => t.map fun _ c => c.recovered) fun t k c held _ => ?_
  · unfold Env.values
    rw [List.flatMap_map]
    rwa [map_empty] at built
  · have stored : c.Wf k := wf.channels k c held
    have rebuilt := ChannelInfo.rebuilds_snapshot stored
      { accounts, channels := t.map fun _ c => c.recovered }
    unfold holding at rebuilt
    rw [stored.name] at rebuilt
    have added : (t.insert k c).map (fun _ c => c.recovered) =
        (t.map fun _ c => c.recovered).insert k c.recovered := map_insert
    rwa [added]

theorem rebuilds_grouped (env : Env) (wf : s.Wf) {accounts : Table Account} {channels : Table ChannelInfo} :
    Rebuilds { accounts, channels }
      ((env.entries s.grouped).map fun (nick, account) => .nickGrouped nick account)
      { accounts, channels, grouped := s.grouped } := by
  have built := rebuilds_bindings (fun t => { accounts, channels, grouped := t : Store }) env
    (m := s.grouped) (fun (nick, account) => [.nickGrouped nick account]) id fun t k account held _ => ?_
  · rwa [← List.map_eq_flatMap] at built
  · have folded : key k = k := wf.grouped k account held
    change Store.mk _ _ (t.insert (key k) account) _ _ _ = _
    rw [folded]
    rfl

theorem rebuilds_bots (env : Env) (wf : s.Wf) {accounts : Table Account} {channels : Table ChannelInfo}
    {grouped : Table String} :
    Rebuilds { accounts, channels, grouped } ((env.values s.bots).map .botAdded)
      { accounts, channels, grouped, bots := s.bots } := by
  have built := rebuilds_bindings
    (fun t => { accounts, channels, grouped, bots := t : Store }) env (m := s.bots) (fun b => [.botAdded b.2]) id
    fun t k b held _ => ?_
  · unfold Env.values
    rwa [List.map_map, List.map_eq_flatMap]
  · have stored : key b.nick = k := wf.bots k b held
    change Store.mk _ _ _ (t.insert (key b.nick) b) _ _ = _
    rw [stored]
    rfl

/-- The store with this host configuration. -/
def withHost (t : Store) (h : HostConfig) : Store := { t with hostCfg := h }

theorem rebuilds_host {t : Store} {h : HostConfig} (wf : h.Wf) :
    Rebuilds (t.withHost {}) h.snapshot (t.withHost h) := by
  have offers := rebuilds_keyed t.withHost (fun host => [.vhostOfferAdded host])
    (l := h.offers) (wf.offers.map fun _ _ => id) (fun done => { offers := done })
    fun done host fresh _ => ?_
  have forbidden := rebuilds_keyed t.withHost (fun pattern => [.vhostForbidAdded pattern])
    (l := h.forbidden) (wf.forbidden.map fun _ _ => id)
    (fun done => { offers := h.offers, forbidden := done }) fun done pattern fresh _ => ?_
  · rw [← List.map_eq_flatMap] at offers forbidden
    refine .append (.append offers forbidden) ?_
    exact rebuilds_oneFor t.withHost
      (fun template => { offers := h.offers, forbidden := h.forbidden, template })
      (fun _ _ => rfl) rfl
  · have absent : ¬ (done.any (· == pattern)) = true := by
      intro taken
      obtain ⟨held, mem, same⟩ := List.any_eq_true.mp taken
      exact fresh held mem (beq_iff_eq.mp same)
    exact congrArg t.withHost (if_neg absent)
  · have absent : ¬ (done.any (· == host)) = true := by
      intro taken
      obtain ⟨held, mem, same⟩ := List.any_eq_true.mp taken
      exact fresh held mem (beq_iff_eq.mp same)
    exact congrArg t.withHost (if_neg absent)

/-- What the fold of a snapshot gives back. -/
theorem rebuilds_snapshot (wf : s.Wf) (env : Env) :
    Rebuilds {} (s.snapshot env) (s.recovered env.now) := by
  have head := NetData.rebuilds_head wf.net (x := {}) rfl (s :=
    { accounts := s.accounts, channels := s.channels.map fun _ c => c.recovered
      grouped := s.grouped, bots := s.bots })
  have host := rebuilds_host wf.hostCfg (t :=
    { accounts := s.accounts, channels := s.channels.map fun _ c => c.recovered
      grouped := s.grouped, bots := s.bots, net := s.net.headOnly })
  have lists := NetData.rebuilds_lists wf.net env (s :=
    { accounts := s.accounts, channels := s.channels.map fun _ c => c.recovered
      grouped := s.grouped, bots := s.bots, hostCfg := s.hostCfg })
  have built := Rebuilds.append (.append (.append (.append (.append (.append
    (rebuilds_accounts env wf) (rebuilds_channels env wf))
    (rebuilds_grouped env wf)) (rebuilds_bots env wf)) head) host) lists
  unfold snapshot
  simp only [List.append_assoc] at built ⊢
  exact built

/-! ### What is lost -/

end Store

/-! ### What is lost -/

/-- The store without what has expired by now. -/
def Store.forgetExpired (now : Nat) (s : Store) : Store :=
  s.adjustNet fun n =>
    { n with
      akills := n.akills.filter (live now ·.expires)
      filters := n.filters.filter (live now ·.expires)
      notifies := n.notifies.filter (live now ·.expires) }

/-- Nothing hangs on a field that is written only along with another. -/
def ChannelInfo.Lossless (c : ChannelInfo) : Prop :=
  (c.lockOn = "" → c.lockOff = "" → c.lockParams = []) ∧ (c.topic = "" → c.topicSetter = "")

/-- The counters are where refiling what is left puts them. -/
structure NetData.Lossless (n : NetData) : Prop where
  newsSeq : n.newsSeq = nextId (n.news.map News.id)
  reportSeq : n.reportSeq = nextId (n.reports.map Report.id)
  helpSeq : n.helpSeq = nextId (n.help.map HelpTicket.id)
  jupeSeq : n.jupeSeq = n.jupes.length
  incidentSeq : n.incidents = [] → n.incidentSeq = 0

/-- A store that its snapshot holds all of. -/
structure Store.Lossless (s : Store) : Prop where
  channels : Bindings (fun _ c => c.Lossless) s.channels
  net : s.net.Lossless

theorem ChannelInfo.recovered_persisted_iff {c : ChannelInfo} :
    c.recovered.persisted = c.persisted ↔ c.Lossless := by
  unfold recovered persisted Lossless
  simp only [mk.injEq, true_and, and_true]
  constructor
  · rintro ⟨params, setter⟩
    constructor
    · intro noOn noOff
      simpa [noOn, noOff] using params.symm
    · intro noTopic
      simpa [noTopic] using setter.symm
  · rintro ⟨params, setter⟩
    constructor
    · split
      · rfl
      · rename_i none
        rw [not_or, not_not, not_not] at none
        exact (params none.1 none.2).symm
    · split
      · rfl
      · rename_i none
        exact (setter (not_not.mp none)).symm

theorem NetData.recovered_eq_iff {now : Nat} {n : NetData} :
    n.recovered now =
        { n with
          akills := n.akills.filter (live now ·.expires)
          filters := n.filters.filter (live now ·.expires)
          notifies := n.notifies.filter (live now ·.expires) } ↔ n.Lossless := by
  unfold recovered
  simp only [mk.injEq, true_and]
  constructor
  · rintro ⟨newsSeq, reportSeq, helpSeq, jupeSeq, incidentSeq⟩
    refine ⟨newsSeq.symm, reportSeq.symm, helpSeq.symm, jupeSeq.symm, fun none => ?_⟩
    rw [← incidentSeq, none]
    rfl
  · rintro ⟨newsSeq, reportSeq, helpSeq, jupeSeq, incidentSeq⟩
    refine ⟨newsSeq.symm, reportSeq.symm, helpSeq.symm, jupeSeq.symm, ?_⟩
    split
    · rfl
    · rename_i none
      exact (incidentSeq (not_not.mp none)).symm

/-- The fold of a snapshot is the store it was taken of, up to what had expired,
exactly when the store is lossless. -/
theorem Store.recovered_persisted_iff {now : Nat} {s : Store} :
    (s.recovered now).persisted = (s.forgetExpired now).persisted ↔ s.Lossless := by
  unfold recovered persisted forgetExpired adjustNet
  simp only [mk.injEq, true_and, map_map, NetData.recovered_eq_iff, map_eq_map_iff,
    ChannelInfo.recovered_persisted_iff]
  exact ⟨fun h => ⟨h.1, h.2⟩, fun h => ⟨h.1, h.2⟩⟩

end Echo
