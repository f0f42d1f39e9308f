import Echo.Gossip.Mesh

/-!
The logical clocks of a mesh: an entry's is past those of all that its author held when
it wrote it, and so, step by step, of all that may have led to it.
-/

namespace Echo

open Std (ExtTreeMap)
open Echo.Lib
open EventLog (Appends)

/-- A restart moves the clock to that of each Global entry. -/
theorem EventLog.absorb_lamport (log : EventLog) (e : LogEntry) :
    (log.absorb e).lamport = if e.isGlobal then max log.lamport e.lamport else log.lamport := by
  unfold absorb
  dsimp only
  by_cases global : e.isGlobal = true
  · rw [if_pos global, if_neg (not_not.mpr (Event.isGlobal_iff.mp global))]
    split <;> rfl
  · rw [if_neg global, if_pos fun h => global (Event.isGlobal_iff.mpr h)]
    split <;> rfl

/-- A log whose clock is past its Global entries, each of its own past those before it. -/
structure Clocked (log : EventLog) : Prop where
  past : ∀ e ∈ log.globals, e.lamport ≤ log.lamport
  own : ∀ x y, Before log.globals x y → y.origin = log.origin → x.lamport < y.lamport

namespace Clocked

variable {log log' : EventLog} {e : LogEntry}

theorem fresh (n : String) : Clocked (EventLog.fresh n) :=
  ⟨fun _ mem => absurd mem List.not_mem_nil, fun _ _ before => absurd before.mem.1 List.not_mem_nil⟩

theorem same (h : Clocked log) (origin : log'.origin = log.origin)
    (entries : log'.entries = log.entries) (clock : log.lamport ≤ log'.lamport) : Clocked log' := by
  have globals : log'.globals = log.globals := congrArg (List.filter LogEntry.isGlobal) entries
  constructor
  · intro e mem
    rw [globals] at mem
    exact Nat.le_trans (h.past e mem) clock
  · rw [globals, origin]
    exact h.own

/-- One more entry, ahead of the clock if it is the log's own. -/
theorem push (h : Clocked log) (origin : log'.origin = log.origin)
    (globals : log'.globals = log.globals ++ [e]) (clock : log.lamport ≤ log'.lamport)
    (within : e.lamport ≤ log'.lamport) (ahead : e.origin = log.origin → log.lamport < e.lamport) :
    Clocked log' := by
  constructor
  · intro x mem
    rw [globals] at mem
    rcases List.mem_append.mp mem with old | new
    · exact Nat.le_trans (h.past x old) clock
    · rwa [List.mem_singleton.mp new]
  · intro x y before own
    rw [globals, before_concat] at before
    rw [origin] at own
    rcases before with old | ⟨mem, rfl⟩
    · exact h.own x y old own
    · exact Nat.lt_of_le_of_lt (h.past x mem) (ahead own)

theorem attempted (h : Clocked log) (event : Event) : Clocked (log.attempted event) :=
  h.same rfl rfl (by
    unfold EventLog.attempted
    dsimp only
    split <;> omega)

theorem committed (h : Clocked log) (event : Event) : Clocked (log.committed event) := by
  have grown := log.globals_committed event
  by_cases scope : event.scope = .global
  · have clock : (log.committed event).lamport = log.lamport + 1 := if_pos scope
    have stamp : (log.stamped event).lamport = log.lamport + 1 := by
      unfold EventLog.stamped EventLog.stamp
      rw [if_pos scope]
    rw [if_pos scope] at grown
    refine h.push rfl grown ?_ ?_ fun _ => ?_ <;> omega
  · rw [if_neg scope, List.append_nil] at grown
    have moved := h.attempted event
    constructor
    · rw [grown]
      exact moved.past
    · rw [grown]
      exact moved.own

theorem appends (h : Clocked log) {events : List Event} (steps : Appends log events log') :
    Clocked log' := by
  induction steps with
  | refl => exact h
  | ok _ written ih =>
      rw [EventLog.append_ok written]
      exact ih.committed _
  | failed _ refused ih =>
      rcases EventLog.append_error refused with rfl | rfl
      · exact ih
      · exact ih.attempted _
  | lockdown on _ ih => exact ih.same rfl rfl (Nat.le_refl _)

theorem ingest (h : Clocked log) (foreign : log.acceptable e = true → e.origin ≠ log.origin) :
    Clocked (log.ingest e).1 := by
  rw [EventLog.ingest_eq]
  split
  · rename_i acceptable
    split
    · exact h.same rfl rfl (Nat.le_refl _)
    · obtain ⟨global, -⟩ := EventLog.acceptable_next acceptable
      have clock : (log.accepted e).lamport = max log.lamport e.lamport + 1 := rfl
      refine h.push rfl (log.globals_accepted global) ?_ ?_ fun own => absurd own (foreign acceptable)
      · rw [clock]
        omega
      · rw [clock]
        omega
  · exact h

/-- The clock that a restart recovers is past all the file holds. -/
theorem reopened (h : Clocked log) : Clocked (EventLog.open' log.origin log.entries) := by
  have globals : (EventLog.open' log.origin log.entries).globals = log.globals :=
    congrArg (List.filter LogEntry.isGlobal) (EventLog.open_entries _ _)
  constructor
  · rw [globals]
    unfold EventLog.globals
    generalize log.entries = file
    induction file using List.reverseRecOn with
    | nil => simp
    | append_singleton file e ih =>
        intro x mem
        obtain ⟨there, global⟩ := List.mem_filter.mp mem
        have clock : (EventLog.open' log.origin (file ++ [e])).lamport =
            if e.isGlobal then max (EventLog.open' log.origin file).lamport e.lamport
            else (EventLog.open' log.origin file).lamport := by
          rw [EventLog.open_concat, EventLog.absorb_lamport]
        rw [clock]
        rcases List.mem_append.mp there with old | new
        · have behind := ih x (List.mem_filter.mpr ⟨old, global⟩)
          split <;> omega
        · rw [List.mem_singleton.mp new] at global ⊢
          rw [if_pos global]
          omega
  · rw [globals, EventLog.open_origin]
    exact h.own

end Clocked

namespace Mesh

variable {m : Mesh} {n : String}

theorem clocked_act (h : ∀ k, Clocked (m.logs k)) {a : Action}
    (step : Clocked ((m.nodes n).step a).log) (k : String) : Clocked ((m.act n a).logs k) := by
  rw [logs_act]
  by_cases here : k = n
  · rwa [here, Function.update_self]
  · rw [Function.update_of_ne here]
    exact h k

theorem clocked_step (intact : Intact m) (h : ∀ n, Clocked (m.logs n)) (a : MeshAction) (k : String) :
    Clocked ((m.step a).logs k) := by
  cases a with
  | call n env c =>
      obtain ⟨events, steps⟩ := (Call.sound (intact.wf n) : Keeps Sound (c.run env) (m.nodes n)).2
      exact clocked_act (a := .call env c) h ((h n).appends steps) k
  | restart n => exact clocked_act (a := .reopen) h (h n).reopened k
  | configure n signing outbound => exact clocked_act (a := .wire signing outbound) h ((h n).same rfl rfl (Nat.le_refl _)) k
  | faults n outcomes => exact clocked_act (a := .faults outcomes) h ((h n).same rfl rfl (Nat.le_refl _)) k
  | advertise | push => exact h k
  | deliver n env i =>
      cases arrives : m.wire[i]? with
      | none =>
          simp only [step, arrives]
          exact h k
      | some message =>
          simp only [step, arrives, Option.elim_some]
          cases message with
          | digest versions reply => exact h k
          | entry e =>
              refine clocked_act h ?_ k
              rw [log_ingest]
              refine (h n).ingest fun acceptable => ?_
              have own := (intact.sent e (List.mem_of_getElem? arrives)).2
              rw [(intact.replicas.uncompacted n).origin]
              exact (intact.replicas.accepted_next own acceptable).1

/-- The author of the second entry held the first when it wrote it. -/
def Precedes (m : Mesh) (x y : LogEntry) : Prop := Before (globalsOf m.logs y.origin) x y

/-- Whatever may have led to an entry, over any number of nodes, has an earlier clock. -/
theorem clock_condition (actions : List MeshAction) (x y : LogEntry) :
    Relation.TransGen (after step start actions).Precedes x y → x.lamport < y.lamport := by
  have held : Intact (after step start actions) ∧ ∀ n, Clocked ((after step start actions).logs n) :=
    invariant (I := fun m => Intact m ∧ ∀ n, Clocked (m.logs n))
      (fun m a h => ⟨intact_step h.1 a, clocked_step h.1 h.2 a⟩) ⟨intact_start, Clocked.fresh⟩ actions
  intro led
  induction led with
  | single precedes =>
      exact (held.2 _).own x _ precedes (held.1.replicas.uncompacted _).origin.symm
  | tail _ precedes ih =>
      exact Nat.lt_trans ih ((held.2 _).own _ _ precedes (held.1.replicas.uncompacted _).origin.symm)

/-- Each node grants an operator once it holds the grant of the node before it. -/
def relay : List MeshAction :=
  [.call "a" .still (.operGrant "alice" ["admin"] none), .push "a" 0, .deliver "b" .still 0,
    .call "b" .still (.operGrant "bob" ["admin"] none), .push "b" 1, .deliver "c" .still 1,
    .call "c" .still (.operGrant "carol" ["admin"] none)]

def granted («from» : String) (lamport : Nat) (account : String) : LogEntry :=
  ⟨«from», 0, lamport, 0, none, .operGranted account ["admin"] none⟩

/-- The last node never held the first grant, but what followed it. -/
theorem clock_condition_relay :
    globalsOf (after step start relay).logs "c" = [granted "b" 3 "bob", granted "c" 5 "carol"] ∧
      (granted "a" 1 "alice").lamport < (granted "c" 5 "carol").lamport := by
  have second : globalsOf (after step start relay).logs "b" =
      [granted "a" 1 "alice", granted "b" 3 "bob"] := by decide +kernel
  have third : globalsOf (after step start relay).logs "c" =
      [granted "b" 3 "bob", granted "c" 5 "carol"] := by decide +kernel
  refine ⟨third, clock_condition relay _ _ (.tail (b := granted "b" 3 "bob") (.single ?_) ?_)⟩
  · change Before (globalsOf (after step start relay).logs "b") _ _
    rw [second]
    exact List.Sublist.refl _
  · change Before (globalsOf (after step start relay).logs "c") _ _
    rw [third]
    exact List.Sublist.refl _

end Mesh

end Echo
