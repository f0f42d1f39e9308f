import Echo.Db.Run

/-!
When a compaction leaves nothing to compact. A sweep takes the log for worth
rewriting once it is longer than three entries for each account and channel and some
more; a compaction writes as many entries as there are records to rebuild.
-/

namespace Echo

open Std (ExtTreeMap)
open Echo.Lib

namespace Db

/-- Whether the log has grown enough past the live state to be worth compacting. -/
def shouldCompact (db : Db) : Bool :=
  decide (db.log.entries.length > (db.accounts.size + db.channels.size) * 3 + 64)

end Db

/-! ### How many records there are to rebuild -/

namespace ChannelInfo

/-- The registration, the entries of the channel's lists and what is set of its
options. -/
def records (c : ChannelInfo) : Nat :=
  1 + c.access.length + c.levels.length + c.akick.length +
    [decide (c.lastUsed > c.ts), decide (c.lockOn ≠ "" ∨ c.lockOff ≠ ""), decide (c.desc ≠ ""),
      decide (c.entrymsg ≠ ""), decide (c.url ≠ ""), decide (c.email ≠ ""), c.successor.isSome,
      c.noexpire, c.expiryWarned, decide (c.settings ≠ {}), decide (c.topic ≠ ""),
      c.suspension.isSome, c.assignedBot.isSome, decide (c.kickers ≠ {}),
      decide (c.badwords ≠ []), decide (c.triggers ≠ []), c.operNote.isSome].count true

end ChannelInfo

/-- A report, and that it is closed. -/
def Report.records (r : Report) : Nat := 1 + [!r.open].count true

/-- A ticket, who took it, and that it is closed. -/
def HelpTicket.records (t : HelpTicket) : Nat := 1 + [t.handler.isSome, !t.open].count true

def NetData.records (now : Nat) (n : NetData) : Nat :=
  [n.defaultBot.isSome, decide (n.stats ≠ ∅ ∨ n.chanStats ≠ []),
      decide (n.incidents ≠ [])].count true +
    n.forbids.length + n.notifies.countP (live now ·.expires) +
    n.akills.countP (live now ·.expires) + n.filters.countP (live now ·.expires) +
    n.news.length + (n.reports.map Report.records).sum +
    (n.groups.map fun g => 1 + g.members.length).sum + (n.help.map HelpTicket.records).sum +
    n.opers.size + n.sessExceptions.length + n.jupes.length

/-- The records a store holds that have not expired. -/
def Store.records (now : Nat) (s : Store) : Nat :=
  s.accounts.size + (s.channels.toList.map (·.2.records)).sum + s.grouped.size +
    s.bots.size + s.hostCfg.offers.length + s.hostCfg.forbidden.length +
    [s.hostCfg.template.isSome].count true + s.net.records now

/-! ### How many events a snapshot has -/

variable {now : Nat} {env : Env}

@[simp] theorem length_oneIf (p : Prop) [Decidable p] (event : Event) :
    (oneIf p event).length = (decide p).toNat := by
  unfold oneIf
  by_cases h : p <;> simp [h]

@[simp] theorem length_oneFor {α : Type} (value : Option α) (event : α → Event) :
    (oneFor value event).length = value.isSome.toNat := by
  cases value <;> rfl

theorem count_cons_true (b : Bool) (l : List Bool) : (b :: l).count true = b.toNat + l.count true := by
  cases b <;> simp [Nat.add_comm]

theorem ChannelInfo.length_snapshot (c : ChannelInfo) : c.snapshot.length = c.records := by
  simp only [snapshot, snapshotBase, snapshotLists, snapshotTexts, snapshotFlags, snapshotBot,
    records, List.length_append, List.length_map, List.length_singleton, length_oneIf,
    length_oneFor, count_cons_true, List.count_nil, Bool.decide_eq_true]
  omega

theorem Report.length_snapshot (r : Report) : r.snapshot.length = r.records := by
  cases h : r.open <;> simp [snapshot, records, h]

theorem HelpTicket.length_snapshot (t : HelpTicket) : t.snapshot.length = t.records := by
  simp only [snapshot, records, List.length_append, List.length_singleton, length_oneIf,
    length_oneFor, count_cons_true, List.count_nil, Bool.decide_eq_false]
  omega

theorem Group.length_snapshot (g : Group) : g.snapshot.length = 1 + g.members.length := by
  simp [snapshot, Nat.add_comm]

/-- A list written record by record takes as many events as the records do. -/
theorem length_flatMap_records {α : Type} {f : α → List Event} {records : α → Nat}
    (each : ∀ x, (f x).length = records x) (l : List α) :
    (l.flatMap f).length = (l.map records).sum := by
  rw [List.length_flatMap]
  simp only [each]

theorem NetData.length_snapshot (n : NetData) (env : Env) :
    (n.snapshotHead ++ n.snapshotBans env.now ++ n.snapshotDesk ++ n.snapshotOpers env).length =
      n.records env.now := by
  have opers : (env.entries n.opers).length = n.opers.size := by
    rw [Env.entries, (env.iter_perm _).length_eq, ExtTreeMap.length_toList]
  simp only [snapshotHead, snapshotBans, snapshotDesk, snapshotOpers, records, List.length_append,
    List.length_map, length_oneIf, length_oneFor, count_cons_true, List.count_nil,
    length_flatMap_records Report.length_snapshot, length_flatMap_records Group.length_snapshot,
    length_flatMap_records HelpTicket.length_snapshot, ← List.countP_eq_length_filter, opers]
  omega

theorem Store.length_snapshot (s : Store) : (s.snapshot env).length = s.records env.now := by
  have entries {α : Type} (m : Table α) : (env.entries m).length = m.size := by
    rw [Env.entries, (env.iter_perm _).length_eq, ExtTreeMap.length_toList]
  have values {α : Type} (m : Table α) : (env.values m).length = m.size := by
    rw [Env.values, List.length_map, entries]
  have channels : ((env.values s.channels).map ChannelInfo.records).sum =
      (s.channels.toList.map (·.2.records)).sum := by
    rw [Env.values, Env.entries, List.map_map]
    exact ((env.iter_perm _).map _).sum_nat
  have net := s.net.length_snapshot env
  simp only [List.length_append] at net
  simp only [snapshot, records, HostConfig.snapshot, List.length_append, List.length_map, entries,
    length_flatMap_records ChannelInfo.length_snapshot, channels, values,
    length_oneFor, count_cons_true, List.count_nil]
  omega

/-! ### When the log is short enough -/

namespace Db

/-- The records are few for the accounts and channels or, where there is none and a
compaction leaves the log alone, the entries are. -/
def Settled (now : Nat) (db : Db) : Prop :=
  (if db.records now = 0 then db.log.entries.length else db.records now) ≤
    (db.accounts.size + db.channels.size) * 3 + 64

theorem run_compact (env : Env) (db : Db) :
    (Db.compact env).run.run db =
      ((db.log.compact (db.toStore.snapshot env)).2,
        { db with log := (db.log.compact (db.toStore.snapshot env)).1 }) := by
  unfold Db.compact
  rw [ExceptT.run_bind, StateT.run_bind]
  change (ExceptT.run (_ : DbM IoError _)).run db = _
  rcases db.log.compact (db.toStore.snapshot env) with ⟨log, e | ⟨⟩⟩ <;> rfl

/-- A compaction that succeeds writes the records, if there are any. -/
theorem length_compact {db : Db} (ok : ((Db.compact env).run.run db).1 = .ok ()) :
    ((Db.compact env).run.run db).2.log.entries.length =
      if db.records env.now = 0 then db.log.entries.length else db.records env.now := by
  have length (entries : List LogEntry) : entries.length = (eventsOf entries).length :=
    (List.length_map _).symm
  have empty : db.records env.now = 0 ↔ db.snapshot env = [] := by
    rw [← Store.length_snapshot, List.length_eq_zero_iff]
  rw [run_compact] at ok ⊢
  dsimp only at ok ⊢
  rw [EventLog.compact_eq] at ok
  rw [length, EventLog.eventsOf_compact, EventLog.rewrites]
  by_cases none_ : db.snapshot env = []
  · rw [if_pos (empty.mpr none_), none_, length]
    rfl
  · rw [if_neg fun h => none_ (empty.mp h), ← Store.length_snapshot]
    rw [if_neg none_] at ok
    cases refused : db.log.faults.headD false with
    | true =>
        simp only [refused, if_true] at ok
        contradiction
    | false =>
        have some_ : (db.snapshot env).isEmpty = false := by simpa using none_
        rw [some_]
        rfl

/-- After a compaction that succeeds there is nothing to compact exactly when the
records are few. -/
theorem compact_settles_iff (db : Db) (env : Env)
    (ok : ((Db.compact env).run.run db).1 = .ok ()) :
    ((Db.compact env).run.run db).2.shouldCompact = false ↔ db.Settled env.now := by
  have store : ((Db.compact env).run.run db).2.toStore = db.toStore := by
    rw [run_compact]
  unfold shouldCompact Settled
  rw [store, length_compact ok, decide_eq_false_iff_not, Nat.not_lt]

/-- A compaction that succeeds leaves nothing for the next sweep to compact. -/
def Rests (db : Db) (a : Action) : Prop :=
  ∀ env, a = .compact env → ((Db.compact env).run.run db).1 = .ok () →
    (db.step a).shouldCompact = false

/-- A compaction that succeeds finds the records few. -/
def FindsSettled (db : Db) (a : Action) : Prop :=
  ∀ env, a = .compact env → ((Db.compact env).run.run db).1 = .ok () → db.Settled env.now

/-- In a run from any file, every compaction that succeeds leaves nothing to compact
exactly when each of them finds the records few. -/
theorem compactions_rest_iff (origin : String) (file : List LogEntry) (actions : List Action) :
    Along Db.step Rests (Db.open' origin file) actions ↔
      Along Db.step FindsSettled (Db.open' origin file) actions := by
  refine along_congr (J := fun _ => True) (fun _ _ _ => trivial) (fun db a _ => ?_) trivial
  constructor
  · rintro rests env rfl ok
    exact (compact_settles_iff db env ok).mp (rests env rfl ok)
  · rintro settled env rfl ok
    exact (compact_settles_iff db env ok).mpr (settled env rfl ok)

/-- A store with that many hosts on offer and nothing else. -/
def offering (n : Nat) : List Action :=
  (List.range n).map fun i => .call .still (.vhostOfferAdd (String.ofList (List.replicate i 'h')))

/-- Sixty-five hosts on offer make a log that is rewritten at every sweep. -/
theorem offers_never_rest :
    ¬ Along Db.step Rests (Db.fresh "a") (offering 65 ++ [.compact .still]) := by
  intro run
  have rests := (along_append.mp run).2.1 .still rfl (by decide +kernel)
  have grown : ((after Db.step (Db.fresh "a") (offering 65)).step
      (.compact .still)).shouldCompact = true := by decide +kernel
  rw [grown] at rests
  exact Bool.false_ne_true rests.symm

end Db

end Echo
