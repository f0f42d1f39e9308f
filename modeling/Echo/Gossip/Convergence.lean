import Echo.Db.CoreRun
import Echo.Db.Places
import Echo.Gossip.Mesh

/-!
Convergence of a mesh: nodes with equal version vectors hold the same entries, each in an
order of its own. They have folded them to the same Global state if whatever two of them
were taken in different orders commutes.

Not all do: of two values set for one field at two nodes at once, each node keeps the one
that it took last.
-/

namespace Echo

open Std (ExtTreeMap)
open Echo.Lib
open EventLog (Appends)

/-- Write an entry to the Global state. -/
def Shared.take (σ : Shared) (e : LogEntry) : Shared := e.event.write.on σ

def Message.event : Message → Option Event
  | .digest .. => none
  | .entry e => some e.event

namespace Mesh

variable {m : Mesh} {n : String}

/-- A step that leaves memory and log together, and takes in no entry that some node holds
before another the node has already, unless the two commute. -/
def Orderly (m : Mesh) : MeshAction → Prop
  | .call n env c => c.safe env (m.nodes n)
  | .deliver n _ i => ∀ e, m.wire[i]? = some (.entry e) → (m.nodes n).adopts e = true →
      ∀ x ∈ globalsOf m.logs n, ∀ k, Before (globalsOf m.logs k) e x →
        x.event.write.Commutes e.event.write
  | .restart _ | .configure .. | .faults .. | .advertise .. | .push .. => True

def Commuting (x y : LogEntry) : Prop := x.event.write.Commutes y.event.write

/-- Memory follows the log at every node, and what two nodes took in different orders commutes. -/
structure Agreeing (m : Mesh) : Prop where
  live : ∀ n, (m.nodes n).toStore = replay (m.logs n).entries
  aligned : Aligned Commuting (globalsOf m.logs)

/-- One node acts: its memory follows its log, whose Global entries grow as the others allow. -/
theorem Agreeing.act (h : Agreeing m) {a : Action}
    (live : ((m.nodes n).step a).toStore = replay ((m.nodes n).step a).log.entries)
    (aligned : Aligned Commuting
      (Function.update (globalsOf m.logs) n ((m.nodes n).step a).log.globals)) :
    Agreeing (m.act n a) where
  live k := by
    unfold logs
    by_cases here : k = n
    · subst here
      rwa [nodes_act_self]
    · rw [nodes_act_of_ne here]
      exact h.live k
  aligned := by rwa [logs_act, globalsOf_update]

/-- A step that leaves memory and log together, and takes in no entry that contradicts one of
another author. -/
def Separate (m : Mesh) : MeshAction → Prop
  | .call n env c => c.safe env (m.nodes n)
  | .deliver n _ i => ∀ e, m.wire[i]? = some (.entry e) → (m.nodes n).adopts e = true →
      ∀ x ∈ globalsOf m.logs n, x.origin ≠ e.origin → x.event.write.Clear e.event.write
  | .restart _ | .configure .. | .faults .. | .advertise .. | .push .. => True

/-- Of one author, an entry is taken in behind what it wrote before. -/
theorem Intact.orderly (h : Intact m) {a : MeshAction} (separate : m.Separate a) : m.Orderly a := by
  cases a with
  | call n env c => exact separate
  | deliver n env i =>
      intro e arrives adopts x held k before
      refine (separate e arrives adopts x held fun same => ?_).commutes
      have there : e ∈ globalsOf m.logs n := h.replicas.replicated.mem_of_before before same.symm held
      have acceptable : (m.logs n).acceptable e = true := (Bool.and_eq_true_iff.mp adopts).1
      exact (h.replicas.uncompacted n).not_mem_globals (EventLog.acceptable_next acceptable).2 there
  | _ => trivial

/-- Two nodes each grant an operator, and take in the other's grant. -/
def grants : List MeshAction :=
  [.call "a" .still (.operGrant "alice" ["admin"] none), .push "a" 0,
    .call "b" .still (.operGrant "bob" ["admin"] none), .push "b" 0,
    .deliver "a" .still 1, .deliver "b" .still 0]

/-- Two nodes set the greeting of one account at once. -/
def greetings : List MeshAction :=
  [.call "a" .still (.provisionAccount "alice" "secret" "" none), .push "a" 0, .deliver "b" .still 0,
    .call "a" .still (.setGreet "alice" "hello"), .push "a" 1,
    .call "b" .still (.setGreet "alice" "welcome"), .push "b" 1,
    .deliver "a" .still 2, .deliver "b" .still 1]

-- Each node ends with the other's greeting, and neither lacks an entry.
example :
    let m := after step start greetings
    (m.logs "a").versions.toList = (m.logs "b").versions.toList ∧
      (m.nodes "a").accounts["alice"]?.map Account.greet = some "welcome" ∧
      (m.nodes "b").accounts["alice"]?.map Account.greet = some "hello" := by
  decide +kernel

end Mesh

end Echo
