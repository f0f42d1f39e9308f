import Echo.Db.Ingest
import Echo.Lib.Replicas

/-!
The logs of several nodes, each growing by entries of its own and by entries of the
others, none compacted.

A node numbers its Global entries 0, 1, 2, … and takes those of another node only in
that order. So of every author it holds the beginning of what the author wrote, and its
cursor says how much of it.
-/

namespace Echo

open Std (ExtTreeMap)
open Echo.Lib
open EventLog (Settled Appends)

/-- The Global entries of a log. -/
def EventLog.globals (log : EventLog) : List LogEntry := log.entries.filter (·.isGlobal)

theorem cursorsOf_eq (o : String) (log : EventLog) :
    cursorsOf o log.entries = (authored LogEntry.origin o log.globals).map LogEntry.cursor := by
  unfold cursorsOf authored EventLog.globals
  rw [List.filter_filter]
  refine congrArg (List.map LogEntry.cursor) (List.filter_congr fun e _ => ?_)
  rw [Bool.and_comm, beq_eq_decide]

/-! ### Numbering -/

/-- The cursor held of an author after some of its entries, all of its first epoch. -/
def heldAfter : Nat → Option Cursor
  | 0 => none
  | k + 1 => some (0, k)

theorem heldAfter_inj {k l : Nat} (same : heldAfter k = heldAfter l) : k = l := by
  cases k <;> cases l <;> simp_all [heldAfter]

/-- Of the first epoch, the entry that follows is the one with the next number. -/
theorem next_heldAfter {k : Nat} {c : Cursor} (first : c.1 = 0) :
    Next (heldAfter k) c ↔ c = (0, k) := by
  obtain ⟨e, s⟩ := c
  obtain rfl : e = 0 := first
  cases k with
  | zero => simp [heldAfter, Next]
  | succ k => simp [heldAfter, Next]

/-- Contiguous cursors of the first epoch count on from the one held. -/
theorem Contiguous.numbered {k : Nat} {cs : List Cursor} (h : Contiguous (heldAfter k) cs)
    (first : ∀ c ∈ cs, c.1 = 0) :
    cs = (List.range' k cs.length).map (Prod.mk 0) ∧
      reached (heldAfter k) cs = heldAfter (k + cs.length) := by
  induction cs generalizing k with
  | nil => exact ⟨rfl, rfl⟩
  | cons c cs ih =>
      obtain rfl := (next_heldAfter (first c List.mem_cons_self)).mp h.1
      obtain ⟨counted, last⟩ := ih (k := k + 1) h.2 fun d mem => first d (List.mem_cons_of_mem _ mem)
      constructor
      · rw [List.length_cons, List.range'_succ, List.map_cons, ← counted]
      · rw [reached_cons, List.length_cons, Nat.add_comm cs.length, ← Nat.add_assoc]
        exact last

/-- A log that numbers the entries of every author from 0, without a gap. -/
structure Numbered (log : EventLog) : Prop where
  cursors : ∀ o, (authored LogEntry.origin o log.globals).map LogEntry.cursor =
    (List.range (authored LogEntry.origin o log.globals).length).map (Prod.mk 0)
  versions : ∀ o : String,
    log.versions[o]? = heldAfter (authored LogEntry.origin o log.globals).length

theorem Numbered.cursor_eq {log : EventLog} (h : Numbered log) {o : String} {i : Nat} {e : LogEntry}
    (at_i : (authored LogEntry.origin o log.globals)[i]? = some e) : e.cursor = (0, i) := by
  obtain ⟨bound, -⟩ := List.getElem?_eq_some_iff.mp at_i
  have there := congrArg (·[i]?) (h.cursors o)
  simp only [List.getElem?_map, at_i, List.getElem?_range bound] at there
  exact Option.some.inj there

/-- A log of a node that has never compacted, over an empty file. -/
structure Uncompacted (n : String) (log : EventLog) : Prop where
  grown : Grown (EventLog.fresh n) log
  epoch : log.epoch = 0
  stamped : ∀ e ∈ log.entries, e.epoch = 0

namespace Uncompacted

variable {n : String} {log log' : EventLog}

theorem fresh (n : String) : Uncompacted n (EventLog.fresh n) where
  grown := .start n []
  epoch := rfl
  stamped := by simp [EventLog.fresh]

theorem origin (h : Uncompacted n log) : log.origin = n :=
  h.grown.origin.trans (EventLog.open_origin n [])

theorem same (h : Uncompacted n log) (origin : log'.origin = log.origin)
    (entries : log'.entries = log.entries) (versions : log'.versions = log.versions)
    (epoch : log'.epoch = log.epoch) : Uncompacted n log' where
  grown := h.grown.same origin entries versions epoch
  epoch := epoch.trans h.epoch
  stamped := by
    rw [entries]
    exact h.stamped

theorem numbered (h : Uncompacted n log) : Numbered log := by
  obtain ⟨new, entries, contiguous⟩ := h.grown.grown
  have all : new = log.entries := by
    rw [entries]
    exact (List.nil_append new).symm
  subst all
  have counted (o : String) :=
    (show Contiguous (heldAfter 0) (cursorsOf o log.entries) from (contiguous o).1).numbered
      fun c mem => by
        obtain ⟨e, held, rfl⟩ := List.mem_map.mp mem
        exact h.stamped e (List.mem_filter.mp held).1
  constructor
  · intro o
    have here := (counted o).1
    rw [cursorsOf_eq, List.length_map] at here
    rwa [List.range_eq_range']
  · intro o
    have here := (counted o).2
    rw [cursorsOf_eq, List.length_map, Nat.zero_add] at here
    rw [← here, ← cursorsOf_eq]
    exact (contiguous o).2

/-- An entry is stamped with the log's epoch, or with none at all. -/
theorem stamped_epoch (h : Uncompacted n log) (event : Event) : (log.stamped event).epoch = 0 := by
  have own := h.epoch
  unfold EventLog.stamped EventLog.stamp
  split
  · exact own
  · rfl

theorem committed (h : Uncompacted n log) (event : Event) : Uncompacted n (log.committed event) where
  grown := h.grown.committed event
  epoch := h.epoch
  stamped e mem := by
    rcases List.mem_append.mp mem with old | new
    · exact h.stamped e old
    · rw [List.mem_singleton.mp new]
      exact h.stamped_epoch event

theorem accepted (h : Uncompacted n log) {entry : LogEntry}
    (acceptable : log.acceptable entry = true) (foreign : entry.origin ≠ n) (first : entry.epoch = 0) :
    Uncompacted n (log.accepted entry) where
  grown := h.grown.accepted acceptable (h.origin ▸ foreign)
  epoch := h.epoch
  stamped e mem := by
    rcases List.mem_append.mp mem with old | new
    · exact h.stamped e old
    · rwa [List.mem_singleton.mp new]

/-- A restart recovers the log. -/
theorem reopened (h : Uncompacted n log) : Uncompacted n (EventLog.open' log.origin log.entries) :=
  h.same (EventLog.open_origin _ _) (EventLog.open_entries _ _) h.grown.settled.versions
    h.grown.settled.epoch

/-- An entry that the log has does not pass its checks. -/
theorem not_mem_globals (h : Uncompacted n log) {e : LogEntry}
    (next : Next log.versions[e.origin]? e.cursor) : e ∉ log.globals := by
  intro mem
  have there : e ∈ authored LogEntry.origin e.origin log.globals := mem_authored.mpr ⟨mem, rfl⟩
  have cursor := List.mem_map_of_mem (f := LogEntry.cursor) there
  rw [h.numbered.versions, next_heldAfter (h.stamped e (List.mem_filter.mp mem).1)] at next
  rw [h.numbered.cursors, next] at cursor
  simp at cursor

end Uncompacted

theorem EventLog.globals_committed (log : EventLog) (event : Event) :
    (log.committed event).globals =
      log.globals ++ if event.scope = .global then [log.stamped event] else [] := by
  have global : (log.stamped event).isGlobal = true ↔ event.scope = .global := by
    rw [LogEntry.isGlobal, stamped_event, Event.isGlobal_iff]
  unfold globals committed
  rw [List.filter_append]
  by_cases scope : event.scope = .global
  · rw [if_pos scope, List.filter_cons_of_pos (global.mpr scope), List.filter_nil]
  · rw [if_neg scope, List.filter_cons_of_neg fun h => scope (global.mp h), List.filter_nil]

theorem EventLog.globals_accepted (log : EventLog) {entry : LogEntry} (global : entry.isGlobal = true) :
    (log.accepted entry).globals = log.globals ++ [entry] := by
  unfold globals accepted
  rw [List.filter_append, List.filter_cons_of_pos global, List.filter_nil]

/-! ### All the logs -/

/-- The Global entries of each node. -/
def globalsOf (logs : String → EventLog) (n : String) : List LogEntry := (logs n).globals

theorem globalsOf_update (logs : String → EventLog) (n : String) (log : EventLog) :
    globalsOf (Function.update logs n log) = Function.update (globalsOf logs) n log.globals := by
  funext k
  unfold globalsOf
  by_cases here : k = n
  · rw [here, Function.update_self, Function.update_self]
  · rw [Function.update_of_ne here, Function.update_of_ne here]

/-- No node has compacted, and each holds the beginning of what every other wrote. -/
structure Replicas (logs : String → EventLog) : Prop where
  uncompacted : ∀ n, Uncompacted n (logs n)
  replicated : Replicated LogEntry.origin (globalsOf logs)

theorem replicas_fresh : Replicas EventLog.fresh where
  uncompacted := .fresh
  replicated := ⟨fun _ _ => List.prefix_rfl, fun _ => List.nodup_nil⟩

namespace Replicas

variable {logs : String → EventLog} {n : String} {log : EventLog} {e : LogEntry}

/-- One node's log changes, and not its Global entries. -/
theorem same (h : Replicas logs) (uncompacted : Uncompacted n log) (entries : log.globals = (logs n).globals) :
    Replicas (Function.update logs n log) where
  uncompacted k := by
    by_cases here : k = n
    · rwa [here, Function.update_self]
    · rw [Function.update_of_ne here]
      exact h.uncompacted k
  replicated := by
    rw [globalsOf_update, entries]
    exact (Function.update_eq_self n (globalsOf logs)).symm ▸ h.replicated

/-- What a log is but for its clock, its signing and the file's answers. -/
theorem again {log' : EventLog} (h : Replicas (Function.update logs n log))
    (origin : log'.origin = log.origin) (entries : log'.entries = log.entries)
    (versions : log'.versions = log.versions) (epoch : log'.epoch = log.epoch) :
    Replicas (Function.update logs n log') := by
  have held := h.uncompacted n
  rw [Function.update_self] at held
  have moved := h.same (held.same origin entries versions epoch) (by
    rw [Function.update_self]
    exact congrArg (List.filter (·.isGlobal)) entries)
  rwa [Function.update_idem] at moved

theorem committed (h : Replicas logs) (event : Event) :
    Replicas (Function.update logs n ((logs n).committed event)) := by
  have uncompacted := (h.uncompacted n).committed event
  by_cases scope : event.scope = .global
  · have grown := (logs n).globals_committed event
    rw [if_pos scope] at grown
    refine ⟨fun k => ?_, ?_⟩
    · by_cases here : k = n
      · rwa [here, Function.update_self]
      · rw [Function.update_of_ne here]
        exact h.uncompacted k
    · rw [globalsOf_update, grown]
      refine h.replicated.write ?_ ((h.uncompacted n).not_mem_globals ?_)
      · rw [EventLog.stamped_origin, (h.uncompacted n).origin]
      · rw [EventLog.stamped_origin, EventLog.stamped_cursor scope]
        exact (h.uncompacted n).grown.settled.next_nextStamp
  · refine h.same uncompacted ?_
    rw [EventLog.globals_committed, if_neg scope, List.append_nil]

theorem appends (h : Replicas logs) {events : List Event} (steps : Appends (logs n) events log) :
    Replicas (Function.update logs n log) := by
  induction steps with
  | refl =>
      rw [Function.update_eq_self]
      exact h
  | ok _ written ih =>
      rw [EventLog.append_ok written]
      have grown := ih.committed (n := n)
      simp only [Function.update_self, Function.update_idem] at grown
      exact grown _
  | failed _ refused ih =>
      rcases EventLog.append_error refused with rfl | rfl
      · exact ih
      · exact ih.again rfl rfl rfl rfl
  | lockdown on _ ih => exact ih.again rfl rfl rfl rfl

/-- What passes the checks of a node is another's, and the next it lacks of that. -/
theorem accepted_next (h : Replicas logs) (held : e ∈ globalsOf logs e.origin)
    (acceptable : (logs n).acceptable e = true) :
    e.origin ≠ n ∧ authored LogEntry.origin e.origin (globalsOf logs n) ++ [e] <+:
      authored LogEntry.origin e.origin (globalsOf logs e.origin) := by
  obtain ⟨-, next⟩ := EventLog.acceptable_next acceptable
  have missing := (h.uncompacted n).not_mem_globals next
  have first : e.epoch = 0 := (h.uncompacted e.origin).stamped e (List.mem_filter.mp held).1
  constructor
  · rintro rfl
    exact missing held
  · obtain ⟨rest, all⟩ := h.replicated.part n e.origin
    have number : e.cursor = (0, (authored LogEntry.origin e.origin (globalsOf logs n)).length) := by
      rw [(h.uncompacted n).numbered.versions] at next
      exact (next_heldAfter first).mp next
    have there : e ∈ authored LogEntry.origin e.origin (globalsOf logs e.origin) :=
      mem_authored.mpr ⟨held, rfl⟩
    obtain ⟨i, at_i⟩ := List.mem_iff_getElem?.mp there
    have cursor := (h.uncompacted e.origin).numbered.cursor_eq at_i
    obtain rfl : i = (authored LogEntry.origin e.origin (globalsOf logs n)).length :=
      (Prod.mk.inj (cursor.symm.trans number)).2
    rw [← all]
    have last : rest.head? = some e := by
      rw [← all, List.getElem?_append_right (Nat.le_refl _), Nat.sub_self] at at_i
      rwa [List.head?_eq_getElem?]
    obtain ⟨more, rfl⟩ := List.head?_eq_some_iff.mp last
    exact ⟨more, by simp⟩

theorem accepted (h : Replicas logs) (held : e ∈ globalsOf logs e.origin)
    (acceptable : (logs n).acceptable e = true) :
    Replicas (Function.update logs n ((logs n).accepted e)) := by
  obtain ⟨foreign, next⟩ := h.accepted_next held acceptable
  obtain ⟨global, -⟩ := EventLog.acceptable_next acceptable
  have first : e.epoch = 0 := (h.uncompacted e.origin).stamped e (List.mem_filter.mp held).1
  refine ⟨fun k => ?_, ?_⟩
  · by_cases here : k = n
    · rw [here, Function.update_self]
      exact (h.uncompacted n).accepted acceptable foreign first
    · rw [Function.update_of_ne here]
      exact h.uncompacted k
  · rw [globalsOf_update, EventLog.globals_accepted _ global]
    exact h.replicated.take foreign next

/-- Nodes with one cursor for an author have the same entries of it. -/
theorem length_eq {m o : String} (h : Replicas logs)
    (same : (logs n).versions[o]? = (logs m).versions[o]?) :
    (authored LogEntry.origin o (globalsOf logs n)).length =
      (authored LogEntry.origin o (globalsOf logs m)).length := by
  rw [(h.uncompacted n).numbered.versions, (h.uncompacted m).numbered.versions] at same
  exact heldAfter_inj same

end Replicas

end Echo
