import Echo.Db.Log
import Echo.Lib.Runs
import Mathlib.Data.List.Induction

/-!
Runs of one event log: appends, entries ingested from other nodes, compactions
and restarts, with the file's answers and the operator's lockdown in between.

Cursors are ordered by epoch, then by sequence number. What a restart recovers
from the file is a fixed point: a log whose cursors and epoch are those of its
entries keeps them so, as long as no entry of its own origin comes in from ahead
of its epoch.
-/

namespace Echo

open Std (ExtTreeMap)
open Echo.Lib

/-- One thing that happens to a log. -/
inductive LogAction where
  | append (event : Event)
  | ingest (entry : LogEntry)
  | compact (events : List Event)
  /-- Restart over the file. -/
  | reopen
  | wire (signing : Option Signing) (outbound : Option (List LogEntry))
  | lockdown (on : Bool)
  /-- What the file will answer to the next writes. -/
  | faults (outcomes : List Bool)

namespace EventLog

def step (log : EventLog) : LogAction → EventLog
  | .append event => (log.append event).1
  | .ingest entry => (log.ingest entry).1
  | .compact events => (log.compact events).1
  | .reopen => open' log.origin log.entries
  | .wire signing outbound => { log with signing, outbound }
  | .lockdown on => { log with readonly := on }
  | .faults outcomes => { log with faults := outcomes }

/-- A log over an empty file. -/
def fresh (origin : String) : EventLog := open' origin []

/-- A log that some run over an empty file ends in. -/
def Reachable (log : EventLog) : Prop :=
  ∃ origin actions, log = after step (fresh origin) actions

end EventLog

/-! ### The order of cursors -/

/-- Epoch first, then sequence number. -/
def Earlier (a b : Cursor) : Prop := a.1 < b.1 ∨ a.1 = b.1 ∧ a.2 < b.2

theorem cursorNewer_iff {a b : Cursor} : cursorNewer a b = true ↔ Earlier a b := by
  unfold cursorNewer Earlier
  rw [decide_eq_true_iff]
  omega

theorem Earlier.irrefl {a : Cursor} : ¬ Earlier a a := by
  unfold Earlier
  omega

theorem Earlier.trans {a b c : Cursor} (first : Earlier a b) (second : Earlier b c) :
    Earlier a c := by
  unfold Earlier at *
  omega

open EventLog (follows)

/-- The next cursor of an origin: its first, the next of its epoch, or the start
of a later one. -/
def Next : Option Cursor → Cursor → Prop
  | none, c => c.2 = 0
  | some h, c => h.1 = c.1 ∧ c.2 = h.2 + 1 ∨ h.1 < c.1 ∧ c.2 = 0

theorem follows_iff {held : Option Cursor} {next : Cursor} :
    follows held next = true ↔ Next held next := by
  unfold EventLog.follows Next
  rcases held with _ | ⟨e, s⟩
  · exact beq_iff_eq
  · dsimp only
    split
    · rw [beq_iff_eq]
      omega
    · split
      · rw [beq_iff_eq]
        omega
      · constructor
        · exact fun h => absurd h Bool.false_ne_true
        · omega

theorem Next.earlier {h next : Cursor} (fits : Next (some h) next) : Earlier h next := by
  unfold Next at fits
  unfold Earlier
  omega

/-- Each cursor is the next one after those before it, the first after `held`. -/
def Contiguous : Option Cursor → List Cursor → Prop
  | _, [] => True
  | held, c :: cs => Next held c ∧ Contiguous (some c) cs

/-- The cursor reached. -/
def reached (held : Option Cursor) (cs : List Cursor) : Option Cursor := cs.getLast?.or held

theorem reached_concat (held : Option Cursor) (cs : List Cursor) (c : Cursor) :
    reached held (cs ++ [c]) = some c := by
  unfold reached
  rw [List.getLast?_concat]
  rfl

theorem reached_cons (held : Option Cursor) (c : Cursor) (cs : List Cursor) :
    reached held (c :: cs) = reached (some c) cs := by
  unfold reached
  rw [List.getLast?_cons]
  cases cs.getLast? <;> rfl

theorem Contiguous.concat {held : Option Cursor} {cs : List Cursor} {c : Cursor}
    (h : Contiguous held cs) (next : Next (reached held cs) c) : Contiguous held (cs ++ [c]) := by
  induction cs generalizing held with
  | nil => exact ⟨next, trivial⟩
  | cons d cs ih =>
      rw [reached_cons] at next
      exact ⟨h.1, ih h.2 next⟩

/-- Contiguous cursors increase, all of them past the one held. -/
theorem Contiguous.increases {held : Option Cursor} {cs : List Cursor} (h : Contiguous held cs) :
    (∀ a ∈ held, ∀ c ∈ cs, Earlier a c) ∧ cs.Pairwise Earlier := by
  induction cs generalizing held with
  | nil => exact ⟨by simp, .nil⟩
  | cons d cs ih =>
      obtain ⟨later, pairwise⟩ := ih h.2
      refine ⟨fun a mem c hc => ?_, List.pairwise_cons.mpr ⟨later d rfl, pairwise⟩⟩
      rw [Option.mem_def] at mem
      have first : Earlier a d := by
        have next := h.1
        rw [mem] at next
        exact next.earlier
      rcases List.mem_cons.mp hc with rfl | hc
      · exact first
      · exact first.trans (later d rfl c hc)

/-- The cursor held for an origin is at least `c`. -/
def Covers (held : Option Cursor) (c : Cursor) : Prop := ∃ h, held = some h ∧ ¬ Earlier h c

theorem covers_some {h c : Cursor} : Covers (some h) c ↔ ¬ Earlier h c := by
  constructor
  · rintro ⟨_, held, covers⟩
    rwa [Option.some.inj held]
  · exact fun covers => ⟨h, rfl, covers⟩

theorem not_covers_none {c : Cursor} : ¬ Covers none c := by
  rintro ⟨_, held, _⟩
  contradiction

namespace EventLog

/-! ### Opening a file -/

theorem open_concat (origin : String) (file : List LogEntry) (entry : LogEntry) :
    open' origin (file ++ [entry]) =
      { (open' origin file).absorb entry with entries := (open' origin file).entries ++ [entry] } :=
  List.foldl_append

@[simp] theorem absorb_origin (log : EventLog) (entry : LogEntry) :
    (log.absorb entry).origin = log.origin := by
  unfold absorb
  dsimp only
  split <;> split <;> rfl

@[simp] theorem open_origin (origin : String) (file : List LogEntry) :
    (open' origin file).origin = origin := by
  induction file using List.reverseRecOn with
  | nil => rfl
  | append_singleton file entry ih =>
      rw [open_concat]
      exact (absorb_origin _ entry).trans ih

@[simp] theorem open_entries (origin : String) (file : List LogEntry) :
    (open' origin file).entries = file := by
  induction file using List.reverseRecOn with
  | nil => rfl
  | append_singleton file entry ih =>
      rw [open_concat]
      exact congrArg (· ++ [entry]) ih

@[simp] theorem open_faults (origin : String) (file : List LogEntry) :
    (open' origin file).faults = [] := by
  induction file using List.reverseRecOn with
  | nil => rfl
  | append_singleton file entry ih =>
      rw [open_concat, ← ih]
      unfold absorb
      dsimp only
      split <;> split <;> rfl

/-- The epoch a log recovers is that of its own entries. -/
theorem absorb_epoch (log : EventLog) (entry : LogEntry) :
    (log.absorb entry).epoch =
      if entry.origin = log.origin then max log.epoch entry.epoch else log.epoch := by
  unfold absorb
  dsimp only
  split <;> split <;> rfl

/-- An absorbed entry moves the cursor of its origin if it is ahead of it. -/
theorem absorb_versions (log : EventLog) (entry : LogEntry) (origin : String) :
    (log.absorb entry).versions[origin]? =
      if entry.isGlobal = true ∧ entry.origin = origin then
        match log.versions[origin]? with
        | some c => some (if cursorNewer c entry.cursor then entry.cursor else c)
        | none => some entry.cursor
      else log.versions[origin]? := by
  unfold absorb
  have kept : (if entry.origin = log.origin then
      { log with epoch := max log.epoch entry.epoch } else log).versions = log.versions := by
    split <;> rfl
  dsimp only
  generalize (if entry.origin = log.origin then
    { log with epoch := max log.epoch entry.epoch } else log) = moved at *
  by_cases global : entry.isGlobal = true
  · rw [if_neg (not_not.mpr (Event.isGlobal_iff.mp global))]
    dsimp only
    rw [ExtTreeMap.getElem?_alter, kept]
    by_cases same : entry.origin = origin
    · subst same
      rw [if_pos Std.ReflCmp.compare_self]
      refine Eq.trans ?_ (if_pos ⟨global, rfl⟩).symm
      cases log.versions[entry.origin]? <;> rfl
    · rw [if_neg fun h => same (Std.LawfulEqCmp.eq_of_compare h), if_neg fun h => same h.2]
  · rw [if_pos fun h => global (Event.isGlobal_iff.mpr h), if_neg fun h => global h.1, kept]

/-! ### What a restart recovers -/

/-- The cursors and the epoch are those a restart would recover. -/
structure Settled (log : EventLog) : Prop where
  versions : (open' log.origin log.entries).versions = log.versions
  epoch : (open' log.origin log.entries).epoch = log.epoch

theorem settled_open (origin : String) (file : List LogEntry) : Settled (open' origin file) := by
  constructor <;> rw [open_origin, open_entries]

/-- No cursor of the log's own origin is from ahead of its epoch. -/
theorem open_own_epoch (origin : String) (file : List LogEntry) {c : Cursor}
    (held : (open' origin file).versions[origin]? = some c) : c.1 ≤ (open' origin file).epoch := by
  induction file using List.reverseRecOn generalizing c with
  | nil =>
      rw [show (open' origin []).versions = ∅ from rfl, ExtTreeMap.getElem?_empty] at held
      contradiction
  | append_singleton file entry ih =>
      rw [open_concat] at held ⊢
      dsimp only at held ⊢
      rw [absorb_versions] at held
      rw [absorb_epoch, open_origin]
      by_cases own : entry.origin = origin
      · rw [if_pos own]
        split at held
        · split at held
          · rename_i c' before
            have old := ih before
            split at held
            · cases held
              exact Nat.le_max_right _ _
            · cases held
              exact Nat.le_trans old (Nat.le_max_left _ _)
          · cases held
            exact Nat.le_max_right _ _
        · exact Nat.le_trans (ih held) (Nat.le_max_left _ _)
      · rw [if_neg fun h => own h.2] at held
        rw [if_neg own]
        exact ih held

theorem Settled.own_epoch {log : EventLog} (h : Settled log) {c : Cursor}
    (held : log.versions[log.origin]? = some c) : c.1 ≤ log.epoch := by
  rw [← h.versions] at held
  rw [← h.epoch]
  exact open_own_epoch log.origin log.entries held

/-- A restart passes every entry in the file. -/
theorem open_covers (origin : String) (file : List LogEntry) :
    ∀ e ∈ file, e.isGlobal = true → Covers (open' origin file).versions[e.origin]? e.cursor := by
  induction file using List.reverseRecOn with
  | nil => simp
  | append_singleton file entry ih =>
      intro e mem global
      rw [open_concat]
      dsimp only
      rw [absorb_versions]
      rcases List.mem_append.mp mem with mem | mem
      · obtain ⟨h, held, behind⟩ := ih e mem global
        rw [held]
        split
        · dsimp only
          split
          · rename_i newer
            rw [cursorNewer_iff] at newer
            exact covers_some.mpr fun late => behind (newer.trans late)
          · exact covers_some.mpr behind
        · exact covers_some.mpr behind
      · obtain rfl := List.mem_singleton.mp mem
        rw [if_pos ⟨global, rfl⟩]
        split
        · split
          · exact covers_some.mpr Earlier.irrefl
          · rename_i notNewer
            exact covers_some.mpr fun late => notNewer (cursorNewer_iff.mpr late)
        · exact covers_some.mpr Earlier.irrefl

/-- Adding an entry, with the cursor of its origin and the epoch moved as a
restart would move them. -/
theorem Settled.push {log log' : EventLog} (h : Settled log) (entry : LogEntry)
    (origin : log'.origin = log.origin) (entries : log'.entries = log.entries ++ [entry])
    (versions : log'.versions =
      if entry.isGlobal then log.versions.insert entry.origin entry.cursor else log.versions)
    (epoch : log'.epoch =
      if entry.origin = log.origin then max log.epoch entry.epoch else log.epoch)
    (ahead : entry.isGlobal = true →
      ∀ c ∈ log.versions[entry.origin]?, Earlier c entry.cursor) : Settled log' := by
  constructor
  · rw [origin, entries, open_concat, versions]
    refine ExtTreeMap.ext_getElem? fun o => ?_
    dsimp only
    rw [absorb_versions, h.versions]
    split
    · rename_i new
      obtain ⟨global, rfl⟩ := new
      rw [if_pos global, ExtTreeMap.getElem?_insert_self]
      cases held : log.versions[entry.origin]? with
      | none => rfl
      | some c =>
          dsimp only
          rw [if_pos (cursorNewer_iff.mpr (ahead global c held))]
    · rename_i old
      split
      · rename_i global
        rw [ExtTreeMap.getElem?_insert, if_neg]
        exact fun same => old ⟨global, Std.LawfulEqCmp.eq_of_compare same⟩
      · rfl
  · rw [origin, entries, open_concat, epoch]
    dsimp only
    rw [absorb_epoch, h.epoch, open_origin]

end EventLog

end Echo
