import Echo.Db.LogRun

/-!
Entry identities: the cursors a log stamps on the Global entries it authors.

They only increase, over appends, compactions and restarts, because the epoch is
recovered from every entry of the log's own origin and the sequence number from
its own cursor. What breaks this is an entry of the log's own origin ingested
from ahead of its epoch: the cursor moves on and the epoch does not.
-/

namespace Echo

open Std (ExtTreeMap)
open Echo.Lib

/-- The cursors of the Global entries among some, in order. -/
def globalCursors (entries : List LogEntry) : List Cursor :=
  (entries.filter (·.isGlobal)).map LogEntry.cursor

theorem globalCursors_concat (entries : List LogEntry) (entry : LogEntry) :
    globalCursors (entries ++ [entry]) =
      globalCursors entries ++ if entry.isGlobal then [entry.cursor] else [] := by
  unfold globalCursors
  cases global : entry.isGlobal <;> simp [List.filter_append, global]

namespace EventLog

variable {log : EventLog}

/-- The cursors an action stamps on the Global entries it writes. -/
def authored (log : EventLog) : LogAction → List Cursor
  | .append event => if log.writable then globalCursors [log.stamped event] else []
  | .compact events =>
      if log.rewrites events then globalCursors (log.rewritten events).snapshot else []
  | .ingest _ | .reopen | .wire .. | .lockdown _ | .faults _ => []

/-- The cursors a run stamps, oldest first. -/
def authoredAlong (log : EventLog) : List LogAction → List Cursor
  | [] => []
  | a :: actions => log.authored a ++ (log.step a).authoredAlong actions

/-- A step without a refused write, in which no entry of the log's own origin is
taken from ahead of its epoch. -/
def Steady (log : EventLog) : LogAction → Prop
  | .ingest entry =>
      entry.origin = log.origin → log.acceptable entry = true → entry.epoch ≤ log.epoch
  | .faults _ => False
  | .append _ | .compact _ | .reopen | .wire .. | .lockdown _ => True

/-- The cursor of the next Global entry the log authors. -/
def nextStamp (log : EventLog) : Cursor := (log.epoch, log.nextSeq)

/-- Whether an append is of a Global event decides what it stamps. -/
theorem globalCursors_stamped (event : Event) :
    globalCursors [log.stamped event] = if event.scope = .global then [log.nextStamp] else [] := by
  have global : (log.stamped event).isGlobal = true ↔ event.scope = .global := by
    rw [LogEntry.isGlobal, stamped_event, Event.isGlobal_iff]
  unfold globalCursors nextStamp
  split
  · rename_i scope
    simp [global.mpr scope, stamped_cursor scope]
  · rename_i scope
    simp [Bool.eq_false_iff.mpr fun h => scope (global.mp h)]

/-- With its own cursor within its epoch, the next stamp is ahead of it. -/
theorem Settled.next_nextStamp (h : Settled log) :
    Next log.versions[log.origin]? log.nextStamp := by
  unfold nextStamp nextSeq
  cases held : log.versions[log.origin]? with
  | none => rfl
  | some c =>
      have within := h.own_epoch held
      unfold Next
      dsimp only
      split <;> omega

theorem nextSeq_of_own {e s : Nat} (held : log.versions[log.origin]? = some (e, s)) :
    log.nextSeq = if e = log.epoch then s + 1 else 0 := by
  unfold nextSeq
  rw [held]

/-! ### One step -/

/-- What a step does to the stamps: those it writes increase, they start where
the next one stood, and the next one is now past them. -/
structure Advances (log log' : EventLog) (stamps : List Cursor) : Prop where
  forward : ¬ Earlier log'.nextStamp log.nextStamp
  increasing : stamps.Pairwise Earlier
  since : ∀ c ∈ stamps, ¬ Earlier c log.nextStamp
  before : ∀ c ∈ stamps, Earlier c log'.nextStamp

theorem Advances.idle {log' : EventLog} (same : log'.nextStamp = log.nextStamp) :
    Advances log log' [] :=
  ⟨by rw [same]; exact Earlier.irrefl, .nil, by simp, by simp⟩

theorem nextStamp_committed (log : EventLog) (event : Event) :
    (log.committed event).nextStamp =
      if event.scope = .global then (log.epoch, log.nextSeq + 1) else log.nextStamp := by
  by_cases scope : event.scope = .global
  · have held : (log.committed event).versions[(log.committed event).origin]? =
        some (log.epoch, log.nextSeq) := by
      unfold committed
      rw [if_pos scope]
      exact ExtTreeMap.getElem?_insert_self
    rw [if_pos scope]
    unfold nextStamp
    rw [nextSeq_of_own held]
    exact congrArg (Prod.mk log.epoch) (if_pos rfl)
  · have versions : (log.committed event).versions = log.versions := if_neg scope
    rw [if_neg scope]
    unfold nextStamp nextSeq
    rw [versions]
    rfl

theorem settled_committed (h : Settled log) (event : Event) : Settled (log.committed event) := by
  have global : (log.stamped event).isGlobal = true ↔ event.scope = .global := by
    rw [LogEntry.isGlobal, stamped_event, Event.isGlobal_iff]
  refine h.push (log.stamped event) rfl rfl ?_ ?_ fun isGlobal c held => ?_
  · simp only [committed, global, stamped_origin]
    split
    · rename_i scope
      rw [stamped_cursor scope]
    · rfl
  · rw [if_pos (stamped_origin log event)]
    have within : (log.stamped event).epoch ≤ log.epoch := by
      unfold stamped stamp
      split
      · exact Nat.le_refl _
      · exact Nat.zero_le _
    exact (Nat.max_eq_left within).symm
  · rw [stamped_origin] at held
    rw [stamped_cursor (global.mp isGlobal)]
    have next := h.next_nextStamp
    rw [Option.mem_def.mp held] at next
    exact next.earlier

theorem Settled.same {log' : EventLog} (h : Settled log) (origin : log'.origin = log.origin)
    (entries : log'.entries = log.entries) (versions : log'.versions = log.versions)
    (epoch : log'.epoch = log.epoch) : Settled log' := by
  constructor
  · rw [origin, entries, versions]
    exact h.versions
  · rw [origin, entries, epoch]
    exact h.epoch

theorem nextStamp_same {log' : EventLog} (origin : log'.origin = log.origin)
    (versions : log'.versions = log.versions) (epoch : log'.epoch = log.epoch) :
    log'.nextStamp = log.nextStamp := by
  unfold nextStamp nextSeq
  rw [origin, versions, epoch]

theorem advances_append (event : Event) :
    Advances log (log.append event).1 (log.authored (.append event)) := by
  have stamps : log.authored (.append event) =
      if log.writable then globalCursors [log.stamped event] else [] := rfl
  rw [append_eq, stamps]
  split
  · rename_i writable
    rw [globalCursors_stamped]
    have next := nextStamp_committed log event
    split
    · rename_i scope
      rw [if_pos scope] at next
      exact {
        forward := by rw [next]; unfold nextStamp Earlier; dsimp only; omega
        increasing := List.pairwise_singleton Earlier _
        since := by simp [Earlier.irrefl]
        before := by
          intro c hc
          rw [List.mem_singleton.mp hc, next]
          unfold nextStamp Earlier
          dsimp only
          omega }
    · rename_i scope
      rw [if_neg scope] at next
      exact .idle next
  · split <;> exact .idle (nextStamp_same rfl rfl rfl)

theorem settled_append (h : Settled log) (event : Event) : Settled (log.append event).1 := by
  rw [append_eq]
  split
  · exact settled_committed h event
  · split
    · exact h
    · exact h.same rfl rfl rfl rfl

/-- An accepted entry is the next of its origin. -/
theorem acceptable_next {entry : LogEntry} (acceptable : log.acceptable entry = true) :
    entry.isGlobal = true ∧ Next log.versions[entry.origin]? entry.cursor := by
  unfold EventLog.acceptable at acceptable
  simp only [Bool.and_eq_true] at acceptable
  exact ⟨acceptable.1.1, follows_iff.mp acceptable.2⟩

theorem settled_accepted (h : Settled log) {entry : LogEntry}
    (acceptable : log.acceptable entry = true)
    (within : entry.origin = log.origin → entry.epoch ≤ log.epoch) :
    Settled (log.accepted entry) := by
  obtain ⟨global, next⟩ := acceptable_next acceptable
  refine h.push entry rfl rfl ?_ ?_ fun _ c held => ?_
  · rw [if_pos global]
    rfl
  · split
    · rename_i own
      exact (Nat.max_eq_left (within own)).symm
    · rfl
  · rw [Option.mem_def.mp held] at next
    exact next.earlier

/-- An entry of the log's own origin from within its epoch only moves the next
stamp on. -/
theorem forward_accepted (h : Settled log) {entry : LogEntry}
    (acceptable : log.acceptable entry = true)
    (within : entry.origin = log.origin → entry.epoch ≤ log.epoch) :
    ¬ Earlier (log.accepted entry).nextStamp log.nextStamp := by
  by_cases own : entry.origin = log.origin
  · have next := (acceptable_next acceptable).2
    have now := h.next_nextStamp
    have later := (settled_accepted h acceptable within).next_nextStamp
    have held : (log.accepted entry).versions[(log.accepted entry).origin]? = some entry.cursor := by
      change (log.versions.insert entry.origin entry.cursor)[log.origin]? = _
      rw [← own]
      exact ExtTreeMap.getElem?_insert_self
    have epoch : (log.accepted entry).nextStamp.1 = log.nextStamp.1 := rfl
    have bound := within own
    rw [held] at later
    rw [own] at next
    have cursorEpoch : entry.cursor.1 = entry.epoch := rfl
    have nextEpoch : log.nextStamp.1 = log.epoch := rfl
    cases before : log.versions[log.origin]? with
    | none =>
        rw [before] at next now
        unfold Next at next now later
        unfold Earlier
        dsimp only at next now later
        omega
    | some c =>
        rw [before] at next now
        unfold Next at next now later
        unfold Earlier
        dsimp only at next now later
        omega
  · have versions : (log.accepted entry).versions[log.origin]? = log.versions[log.origin]? := by
      change (log.versions.insert entry.origin entry.cursor)[log.origin]? = _
      rw [ExtTreeMap.getElem?_insert, if_neg]
      exact fun same => own (Std.LawfulEqCmp.eq_of_compare same)
    have same : (log.accepted entry).nextStamp = log.nextStamp := by
      unfold nextStamp nextSeq
      rw [show (log.accepted entry).origin = log.origin from rfl, versions]
      rfl
    rw [same]
    exact Earlier.irrefl

/-! ### A compaction -/

/-- What a rewrite has written so far: its Global entries numbered from 0 under
the new epoch, from which a restart recovers the cursor and the epoch. -/
structure Numbered (log : EventLog) (epoch : Nat) (w : Rewrite) : Prop where
  cursors : globalCursors w.snapshot = (List.range w.seq).map (epoch, ·)
  last : w.lastGlobal = if w.seq = 0 then none else some (w.seq - 1)
  versions : ∀ o, (open' log.origin w.snapshot).versions[o]? =
    if o = log.origin then w.lastGlobal.map (epoch, ·) else none
  epoch : (open' log.origin w.snapshot).epoch = if w.snapshot = [] then 0 else epoch

theorem numbered_start (log : EventLog) (epoch : Nat) :
    Numbered log epoch { lamport := log.lamport } where
  cursors := rfl
  last := rfl
  versions o := by
    rw [show (open' log.origin []).versions = ∅ from rfl, ExtTreeMap.getElem?_empty]
    split <;> rfl
  epoch := rfl

/-- The restart's view of a snapshot with one more entry of its own. -/
theorem open_own_epoch_concat {epoch : Nat} {entries : List LogEntry} {entry : LogEntry}
    (own : entry.origin = log.origin) (at_epoch : entry.epoch = epoch)
    (h : (open' log.origin entries).epoch = if entries = [] then 0 else epoch) :
    (open' log.origin (entries ++ [entry])).epoch =
      if entries ++ [entry] = [] then 0 else epoch := by
  rw [open_concat, if_neg (by simp)]
  dsimp only
  rw [absorb_epoch, open_origin, if_pos own, h, at_epoch]
  split <;> omega

theorem Numbered.one {epoch : Nat} {w : Rewrite} (h : Numbered log epoch w) (event : Event) :
    Numbered log epoch (log.rewriteOne epoch w event) := by
  unfold rewriteOne
  split
  · rename_i scope
    have global : event.isGlobal = true := Event.isGlobal_iff.mpr scope
    constructor
    · rw [globalCursors_concat, h.cursors, List.range_succ, List.map_append]
      exact congrArg (_ ++ ·) (if_pos global)
    · rw [if_neg (Nat.succ_ne_zero w.seq)]
      rfl
    · intro o
      rw [open_concat]
      dsimp only
      rw [absorb_versions, h.versions]
      by_cases own : o = log.origin
      · rw [if_pos own, if_pos own, if_pos ⟨global, own.symm⟩]
        cases last : w.lastGlobal with
        | none => rfl
        | some s =>
            have behind := h.last
            rw [last] at behind
            have newer : cursorNewer (epoch, s) (epoch, w.seq) = true := by
              rw [cursorNewer_iff]
              unfold Earlier
              split at behind
              · contradiction
              · cases behind
                dsimp only
                omega
            exact congrArg some (if_pos newer)
      · rw [if_neg own, if_neg own, if_neg fun h => own h.2.symm]
    · exact open_own_epoch_concat rfl rfl h.epoch
  · rename_i scope
    have localEvent : ¬ event.isGlobal = true := fun h => scope (Event.isGlobal_iff.mp h)
    constructor
    · rw [globalCursors_concat, h.cursors]
      exact (congrArg (_ ++ ·) (if_neg localEvent)).trans (List.append_nil _)
    · exact h.last
    · intro o
      rw [open_concat]
      dsimp only
      rw [absorb_versions, h.versions, if_neg fun h => localEvent h.1]
    · exact open_own_epoch_concat rfl rfl h.epoch

theorem numbered_rewritten (log : EventLog) (events : List Event) :
    Numbered log (log.epoch + 1) (log.rewritten events) := by
  have all : ∀ (events : List Event) (w : Rewrite), Numbered log (log.epoch + 1) w →
      Numbered log (log.epoch + 1) (events.foldl (log.rewriteOne (log.epoch + 1)) w) := by
    intro events
    induction events with
    | nil => exact fun _ h => h
    | cons e events ih => exact fun _ h => ih _ (h.one e)
  exact all events _ (numbered_start log (log.epoch + 1))

/-- A log after a compaction to these events. -/
theorem compact_cases (log : EventLog) (events : List Event) :
    (log.rewrites events = false ∧ (log.faults.headD false = false →
      (log.compact events).1 = log)) ∨
    (log.rewrites events = true ∧ (log.compact events).1.origin = log.origin ∧
      (log.compact events).1.epoch = log.epoch + 1 ∧
      (log.compact events).1.entries = (log.rewritten events).snapshot ∧
      (log.compact events).1.faults = log.faults.tail ∧
      (log.compact events).1.versions = match (log.rewritten events).lastGlobal with
        | some last => (∅ : Versions).insert log.origin (log.epoch + 1, last)
        | none => ∅) := by
  rw [compact_eq]
  unfold rewrites
  cases events with
  | nil => exact .inl ⟨rfl, fun _ => rfl⟩
  | cons e events =>
      rw [if_neg (List.cons_ne_nil e events)]
      cases log.faults.headD false with
      | true => exact .inl ⟨rfl, fun absurd => by contradiction⟩
      | false => exact .inr ⟨rfl, rfl, rfl, rfl, rfl, rfl⟩

theorem getElem?_lastGlobal (origin o : String) (epoch : Nat) (last : Option Nat) :
    (match last with
      | some s => (∅ : Versions).insert origin (epoch, s)
      | none => ∅)[o]? = if o = origin then last.map (epoch, ·) else none := by
  cases last with
  | none =>
      rw [ExtTreeMap.getElem?_empty]
      split <;> rfl
  | some s =>
      dsimp only
      rw [ExtTreeMap.getElem?_insert, ExtTreeMap.getElem?_empty]
      by_cases own : o = origin
      · rw [if_pos own, if_pos (by rw [own]; exact Std.ReflCmp.compare_self)]
        rfl
      · rw [if_neg own, if_neg fun same => own (Std.LawfulEqCmp.eq_of_compare same).symm]

theorem settled_compact (h : Settled log) (reliable : log.faults.headD false = false)
    (events : List Event) : Settled (log.compact events).1 := by
  rcases compact_cases log events with ⟨_, same⟩ | ⟨written, origin, epoch, entries, _, versions⟩
  · rwa [same reliable]
  · have numbered := numbered_rewritten log events
    constructor
    · rw [origin, entries, versions]
      refine ExtTreeMap.ext_getElem? fun o => ?_
      rw [numbered.versions, getElem?_lastGlobal]
    · rw [origin, entries, epoch, numbered.epoch, if_neg]
      intro empty
      have events' := log.eventsOf_rewritten events
      rw [empty] at events'
      unfold rewrites at written
      rw [← events'] at written
      contradiction

theorem advances_compact (reliable : log.faults.headD false = false) (events : List Event) :
    Advances log (log.compact events).1 (log.authored (.compact events)) := by
  have stamps : log.authored (.compact events) =
      if log.rewrites events then globalCursors (log.rewritten events).snapshot else [] := rfl
  rw [stamps]
  rcases compact_cases log events with ⟨skipped, same⟩ | ⟨written, origin, epoch, _, _, versions⟩
  · rw [same reliable, skipped]
    exact .idle rfl
  · have numbered := numbered_rewritten log events
    have next : (log.compact events).1.nextStamp = (log.epoch + 1, (log.rewritten events).seq) := by
      unfold nextStamp nextSeq
      rw [origin, epoch, versions, getElem?_lastGlobal, if_pos rfl, numbered.last]
      cases (log.rewritten events).seq with
      | zero => rfl
      | succ s => exact congrArg (Prod.mk (log.epoch + 1)) (if_pos rfl)
    rw [written, if_pos rfl, numbered.cursors]
    constructor
    · rw [next]
      unfold Earlier nextStamp
      dsimp only
      omega
    · refine List.pairwise_map.mpr (List.pairwise_lt_range.imp fun less => ?_)
      exact .inr ⟨rfl, less⟩
    · intro c hc
      obtain ⟨s, _, rfl⟩ := List.mem_map.mp hc
      unfold Earlier nextStamp
      dsimp only
      omega
    · intro c hc
      obtain ⟨s, mem, rfl⟩ := List.mem_map.mp hc
      rw [next]
      exact .inr ⟨rfl, List.mem_range.mp mem⟩

/-! ### A run -/

/-- A file that refuses nothing goes on refusing nothing. -/
theorem step_reliable (reliable : log.faults = []) {a : LogAction} (steady : log.Steady a) :
    (log.step a).faults = [] := by
  cases a with
  | append event =>
      change (log.append event).1.faults = []
      rw [append_eq]
      split
      · exact congrArg List.tail reliable
      · split
        · exact reliable
        · exact congrArg List.tail reliable
  | ingest entry =>
      change (log.ingest entry).1.faults = []
      rw [ingest_eq]
      split
      · split <;> exact congrArg List.tail reliable
      · exact reliable
  | compact events =>
      change (log.compact events).1.faults = []
      have clear : log.faults.headD false = false := by rw [reliable]; rfl
      rcases compact_cases log events with ⟨_, same⟩ | ⟨_, _, _, _, faults, _⟩
      · rw [same clear]
        exact reliable
      · rw [faults, reliable]
        rfl
  | reopen => exact open_faults log.origin log.entries
  | wire signing outbound => exact reliable
  | lockdown on => exact reliable
  | faults outcomes => exact steady.elim

theorem step_steady (h : Settled log) (reliable : log.faults = []) {a : LogAction}
    (steady : log.Steady a) :
    Settled (log.step a) ∧ Advances log (log.step a) (log.authored a) := by
  have clear : log.faults.headD false = false := by rw [reliable]; rfl
  cases a with
  | append event => exact ⟨settled_append h event, advances_append event⟩
  | ingest entry =>
      change Settled (log.ingest entry).1 ∧ Advances log (log.ingest entry).1 []
      rw [ingest_eq, clear]
      split
      · rename_i acceptable
        have within : entry.origin = log.origin → entry.epoch ≤ log.epoch :=
          fun own => steady own acceptable
        refine ⟨settled_accepted h acceptable within, ?_, .nil, by simp, by simp⟩
        exact forward_accepted h acceptable within
      · exact ⟨h, .idle rfl⟩
  | compact events => exact ⟨settled_compact h clear events, advances_compact clear events⟩
  | reopen =>
      have recovered : (open' log.origin log.entries).nextStamp = log.nextStamp :=
        nextStamp_same (open_origin _ _) h.versions h.epoch
      exact ⟨settled_open log.origin log.entries, .idle recovered⟩
  | wire signing outbound => exact ⟨h.same rfl rfl rfl rfl, .idle rfl⟩
  | lockdown on => exact ⟨h.same rfl rfl rfl rfl, .idle rfl⟩
  | faults outcomes => exact steady.elim

/-- The stamps of a steady run increase and start where its log stood. -/
theorem authoredAlong_increasing (h : Settled log) (reliable : log.faults = [])
    {actions : List LogAction} (run : Along step Steady log actions) :
    (log.authoredAlong actions).Pairwise Earlier ∧
      ∀ c ∈ log.authoredAlong actions, ¬ Earlier c log.nextStamp := by
  induction actions generalizing log with
  | nil => exact ⟨.nil, by simp [authoredAlong]⟩
  | cons a actions ih =>
      obtain ⟨settled, advances⟩ := step_steady h reliable run.1
      obtain ⟨increasing, since⟩ := ih settled (step_reliable reliable run.1) run.2
      have behind : ∀ c, Earlier c log.nextStamp → Earlier c (log.step a).nextStamp := by
        intro c early
        have forward := advances.forward
        unfold Earlier at early forward ⊢
        omega
      constructor
      · refine List.pairwise_append.mpr ⟨advances.increasing, increasing, fun c hc d hd => ?_⟩
        have before := advances.before c hc
        have after := since d hd
        unfold Earlier at before after ⊢
        omega
      · intro c hc early
        rcases List.mem_append.mp hc with hc | hc
        · exact advances.since c hc early
        · exact since c hc (behind c early)

/-- Over any run without a refused write the cursors stamped on authored Global
entries increase, if no entry of the log's own origin is taken from ahead of its
epoch. -/
theorem own_identities_increase (origin : String) (file : List LogEntry)
    (actions : List LogAction) (run : Along step Steady (open' origin file) actions) :
    ((open' origin file).authoredAlong actions).Pairwise Earlier :=
  (authoredAlong_increasing (settled_open origin file) (open_faults origin file) run).1

/-- Two appends around a compaction to nothing Global and a restart. -/
theorem own_identities_increase_compacted :
    ((fresh "a").authoredAlong [.append (.accountVerified "alice"), .compact [.channelDropped "#c"],
      .reopen, .append (.accountVerified "alice")]).Pairwise Earlier :=
  own_identities_increase "a" [] _ ⟨trivial, trivial, trivial, trivial, trivial⟩

/-- An append, an entry of the node's own origin from a later epoch, another
append. -/
def ownEpochAhead : List LogAction :=
  [.append (.accountVerified "alice"),
    .ingest ⟨"a", 0, 0, 1, none, .accountVerified "bob"⟩,
    .append (.accountVerified "carol")]

/-- The second append is stamped as the first one was. -/
theorem own_identity_reused :
    (fresh "a").authoredAlong ownEpochAhead = [(0, 0), (0, 0)] ∧
      ¬ ((fresh "a").authoredAlong ownEpochAhead).Pairwise Earlier := by
  have stamps : (fresh "a").authoredAlong ownEpochAhead = [(0, 0), (0, 0)] := by decide
  refine ⟨stamps, fun increasing => ?_⟩
  rw [stamps] at increasing
  exact Earlier.irrefl ((List.pairwise_cons.mp increasing).1 (0, 0) List.mem_cons_self)

end EventLog

end Echo
