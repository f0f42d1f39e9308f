import Echo.Gossip.Replicas
import Mathlib.Logic.Relation

/-!
A mesh of nodes that write on their own and exchange digests and entries.

A message stays on the wire: it may arrive anywhere, at any time, more than once or
never. Whatever the order, no entry of another node is made up, skipped, reordered
within its author or taken twice, and the clock of an entry is past those of all that
its author had.
-/

namespace Echo

open Std (ExtTreeMap)
open Echo.Lib
open EventLog (Appends)

/-- A message between nodes: the cursors held, with a digest asked for in return or not,
or an entry. -/
inductive Message where
  | digest (versions : Versions) (reply : Bool)
  | entry (e : LogEntry)

/-- The nodes, by their origins, and what they have sent so far. -/
structure Mesh where
  nodes : String → Db
  wire : List Message

/-- One thing that happens in a mesh. -/
inductive MeshAction where
  | call (n : String) (env : Env) (c : Call)
  | restart (n : String)
  | configure (n : String) (signing : Option Signing) (outbound : Option (List LogEntry))
  | faults (n : String) (outcomes : List Bool)
  /-- A digest is sent, on the timer or after pushes have been lost. -/
  | advertise (n : String) (reply : Bool)
  /-- An entry of the node's log is forwarded. -/
  | push (n : String) (i : Nat)
  /-- A message arrives. -/
  | deliver (n : String) (env : Env) (i : Nat)

theorem EventLog.Appends.globals_subset {log log' : EventLog} {events : List Event}
    (h : Appends log events log') : log.globals ⊆ log'.globals := by
  induction h with
  | refl => exact List.Subset.refl _
  | ok _ written ih =>
      rw [append_ok written, globals_committed]
      exact List.Subset.trans ih (List.subset_append_left ..)
  | failed _ refused ih =>
      rcases append_error refused with rfl | rfl
      · exact ih
      · exact ih
  | lockdown on _ ih => exact ih

namespace Mesh

/-- Nodes over empty files. -/
def start : Mesh := ⟨Db.fresh, []⟩

def act (m : Mesh) (n : String) (a : Action) : Mesh :=
  { m with nodes := Function.update m.nodes n ((m.nodes n).step a) }

def send (m : Mesh) (messages : List Message) : Mesh := { m with wire := m.wire ++ messages }

/-- Answer a digest with what the peer lacks, and with a digest if it asks for one; take in an
entry. -/
def receive (m : Mesh) (n : String) (env : Env) : Message → Mesh
  | .digest versions reply =>
      m.send (((m.nodes n).log.missingFor versions).map .entry ++
        if reply then [.digest (m.nodes n).log.versions false] else [])
  | .entry e => m.act n (.ingest env e)

def step (m : Mesh) : MeshAction → Mesh
  | .call n env c => m.act n (.call env c)
  | .restart n => m.act n .reopen
  | .configure n signing outbound => m.act n (.wire signing outbound)
  | .faults n outcomes => m.act n (.faults outcomes)
  | .advertise n reply => m.send [.digest (m.nodes n).log.versions reply]
  -- Only Global entries are forwarded.
  | .push n i => m.send (((m.nodes n).log.entries[i]?.filter (·.isGlobal)).toList.map .entry)
  | .deliver n env i => (m.wire[i]?).elim m (m.receive n env)

/-- A mesh that some run ends in. -/
def Reachable (m : Mesh) : Prop := ∃ actions, m = after step start actions

def logs (m : Mesh) (n : String) : EventLog := (m.nodes n).log

/-- The Global entries a node has of an author. -/
def held (m : Mesh) (n o : String) : List LogEntry :=
  authored LogEntry.origin o (globalsOf m.logs n)

variable {m : Mesh} {n : String}

@[simp] theorem nodes_act_self (a : Action) : (m.act n a).nodes n = (m.nodes n).step a :=
  Function.update_self ..

theorem nodes_act_of_ne {k : String} (other : k ≠ n) (a : Action) :
    (m.act n a).nodes k = m.nodes k := Function.update_of_ne other ..

theorem logs_act (m : Mesh) (n : String) (a : Action) :
    (m.act n a).logs = Function.update m.logs n ((m.nodes n).step a).log := by
  funext k
  unfold logs
  by_cases here : k = n
  · rw [here, Function.update_self, nodes_act_self]
  · rw [Function.update_of_ne here, nodes_act_of_ne here]

/-! ### Every run -/

/-- The nodes' logs are replicas of each other, and what is on the wire is their authors'. -/
structure Intact (m : Mesh) : Prop where
  wf : ∀ n, (m.nodes n).Wf
  replicas : Replicas m.logs
  sent : ∀ e, .entry e ∈ m.wire → e.isGlobal = true ∧ e ∈ globalsOf m.logs e.origin

theorem intact_start : Intact start where
  wf n := Db.wf_open n []
  replicas := replicas_fresh
  sent _ mem := by simp [start] at mem

/-- What a node has, its author has. -/
theorem Intact.mem_own (h : Intact m) {e : LogEntry} (mem : e ∈ (m.logs n).entries)
    (global : e.isGlobal = true) : e ∈ globalsOf m.logs e.origin :=
  h.replicas.replicated.mem_own (n := n) (List.mem_filter.mpr ⟨mem, global⟩)

theorem Intact.send (h : Intact m) {messages : List Message}
    (own : ∀ e, .entry e ∈ messages → e.isGlobal = true ∧ e ∈ (m.logs n).entries) :
    Intact (m.send messages) where
  wf := h.wf
  replicas := h.replicas
  sent e mem := by
    rcases List.mem_append.mp mem with old | new
    · exact h.sent e old
    · obtain ⟨global, mem⟩ := own e new
      exact ⟨global, h.mem_own mem global⟩

/-- A node acts by itself, its log growing as the others allow. -/
theorem Intact.act (h : Intact m) {a : Action}
    (replicas : Replicas (Function.update m.logs n ((m.nodes n).step a).log))
    (grown : globalsOf m.logs n ⊆ ((m.nodes n).step a).log.globals) : Intact (m.act n a) where
  wf k := by
    by_cases here : k = n
    · subst here
      rw [nodes_act_self]
      exact Db.wf_step (h.wf k) a
    · rw [nodes_act_of_ne here]
      exact h.wf k
  replicas := by rwa [logs_act]
  sent e mem := by
    obtain ⟨global, own⟩ := h.sent e mem
    refine ⟨global, ?_⟩
    rw [logs_act, globalsOf_update]
    by_cases here : e.origin = n
    · rw [here] at own ⊢
      rw [Function.update_self]
      exact grown own
    · rwa [Function.update_of_ne here]

/-- An entry taken off the wire, if the node adopts it. -/
theorem log_ingest (db : Db) (env : Env) (e : LogEntry) :
    (db.step (.ingest env e)).log = (db.log.ingest e).1 := by
  rw [Db.step_ingest]
  rcases db.log.ingest e with ⟨log, failed | _ | event⟩ <;> rfl

theorem Intact.ingest (h : Intact m) {e : LogEntry} (sent : .entry e ∈ m.wire) (env : Env) :
    Intact (m.act n (.ingest env e)) := by
  obtain ⟨global, own⟩ := h.sent e sent
  have held := h.replicas.uncompacted n
  refine h.act ?_ ?_
  · rw [log_ingest, EventLog.ingest_eq]
    split
    · split
      · exact h.replicas.same (held.same rfl rfl rfl rfl) rfl
      · exact h.replicas.accepted own ‹_›
    · exact h.replicas.same held rfl
  · rw [log_ingest, EventLog.ingest_eq]
    split
    · split
      · exact List.Subset.refl _
      · rw [EventLog.globals_accepted _ global]
        exact List.subset_append_left ..
    · exact List.Subset.refl _

theorem Intact.call (h : Intact m) (env : Env) (c : Call) : Intact (m.act n (.call env c)) := by
  obtain ⟨events, steps⟩ := (Call.sound (h.wf n) : Keeps Sound (c.run env) (m.nodes n)).2
  exact h.act (h.replicas.appends steps) steps.globals_subset

/-- A restart recovers the log from the file. -/
theorem Intact.restart (h : Intact m) : Intact (m.act n .reopen) := by
  have entries : ((m.nodes n).step .reopen).log.entries = (m.logs n).entries :=
    EventLog.open_entries _ _
  have globals : ((m.nodes n).step .reopen).log.globals = (m.logs n).globals :=
    congrArg (List.filter LogEntry.isGlobal) entries
  refine h.act (h.replicas.same (h.replicas.uncompacted n).reopened globals) ?_
  rw [globals]
  exact List.Subset.refl _

theorem intact_step (h : Intact m) (a : MeshAction) : Intact (m.step a) := by
  have held (n : String) := h.replicas.uncompacted n
  cases a with
  | call n env c => exact h.call env c
  | restart n => exact h.restart
  | configure n signing outbound =>
      exact h.act (h.replicas.same ((held n).same rfl rfl rfl rfl) rfl) (List.Subset.refl _)
  | faults n outcomes =>
      exact h.act (h.replicas.same ((held n).same rfl rfl rfl rfl) rfl) (List.Subset.refl _)
  | advertise n reply => exact h.send (n := n) (by simp)
  | push n i =>
      refine h.send (n := n) fun e mem => ?_
      obtain ⟨e', pushed, same⟩ := List.mem_map.mp mem
      cases same
      obtain ⟨there, global⟩ := Option.filter_eq_some_iff.mp (Option.mem_toList.mp pushed)
      exact ⟨global, List.mem_of_getElem? there⟩
  | deliver n env i =>
      cases arrives : m.wire[i]? with
      | none =>
          simp only [step, arrives]
          exact h
      | some message =>
          simp only [step, arrives, Option.elim_some]
          cases message with
          | entry e => exact h.ingest (List.mem_of_getElem? arrives) env
          | digest versions reply =>
              refine h.send (n := n) fun e mem => ?_
              rcases List.mem_append.mp mem with offered | asked
              · obtain ⟨e', missing, same⟩ := List.mem_map.mp offered
                cases same
                obtain ⟨there, global⟩ := List.mem_filter.mp (List.mem_filter.mp missing).1
                exact ⟨global, there⟩
              · split at asked <;> simp at asked

theorem Reachable.intact (h : Reachable m) : Intact m := by
  obtain ⟨actions, rfl⟩ := h
  exact invariant (I := Intact) (fun _ a held => intact_step held a) intact_start actions

/-- Whatever the interleaving, a node holds of each author the beginning of what that
wrote, numbered without a gap, and its cursor is that of the last of them. -/
theorem held_prefix (actions : List MeshAction) (n o : String) :
    let m := after step start actions
    m.held n o <+: m.held o o ∧
      (m.held n o).map LogEntry.cursor = (List.range (m.held n o).length).map (Prod.mk 0) ∧
      (m.logs n).versions[o]? = heldAfter (m.held n o).length := by
  intro m
  have h : Intact m := Reachable.intact ⟨actions, rfl⟩
  exact ⟨h.replicas.replicated.part n o, (h.replicas.uncompacted n).numbered.cursors o,
    (h.replicas.uncompacted n).numbered.versions o⟩

/-- Nodes with equal version vectors hold the same Global entries, each once. -/
theorem same_entries (actions : List MeshAction) (n k : String) :
    let m := after step start actions
    (∀ o : String, (m.logs n).versions[o]? = (m.logs k).versions[o]?) →
      (globalsOf m.logs n).Perm (globalsOf m.logs k) ∧ (globalsOf m.logs n).Nodup := by
  intro m same
  have h : Intact m := Reachable.intact ⟨actions, rfl⟩
  exact ⟨h.replicas.replicated.perm fun o => h.replicas.length_eq (same o),
    h.replicas.replicated.nodup n⟩

end Mesh

end Echo
