import Echo.Engine.Security
import Echo.Lib.Runs
import Mathlib.Data.List.Induction
import Mathlib.Order.Basic

/-!
The sliding windows of the rate detectors against the number of a key's events that each
is to hold.

Events are dropped in three places, each with a cut-off of its own: where a key is hit,
where it is looked at, and at every 1024th hit, when every key is forgotten that had no
event for an hour. An event that a later call should count may have gone in one of them.
-/

namespace Echo

open Std (ExtTreeMap)
open Echo.Lib

namespace Counters

/-- How many events the window holds, recording none. -/
def count (c : Counters) (name : String) (now life : Nat) : Counters × Nat :=
  match c.windows[name]? with
  | some times =>
      let times := times.dropWhile (· < now - life)
      ({ c with windows := c.windows.insert name times }, times.length % 2 ^ 32)
  | none => (c, 0)

/-! ### Histories -/

/-- A call for a key: `hit` if it records an event, `count` if it does not. -/
structure Access where
  records : Bool
  key : String
  now : Nat
  life : Nat

def access (c : Counters) (a : Access) : Counters × Nat :=
  if a.records then c.hit a.key a.now a.life else c.count a.key a.now a.life

def step (c : Counters) (a : Access) : Counters := (c.access a).1

/-- The times of a key's events. -/
def events (key : String) (history : List Access) : List Nat :=
  (history.filter fun a => a.records && a.key == key).map (·.now)

/-- The number a call is to give: the events of its key, its own included, that lie
within its life. -/
def exactly (history : List Access) (a : Access) : Nat :=
  ((events a.key (history ++ [a])).filter (a.now ≤ · + a.life)).length

/-- Every 1024th hit collects. -/
def Collects (before : List Access) (a : Access) : Prop :=
  a.records = true ∧ ((before.filter (·.records)).length + 1) % 1024 = 0

/-- A call leaves an event of the key made at `t`: it is no call for the key with the
event outside its life, nor a collection that finds nothing of the key in the last hour. -/
def Leaves (key : String) (t : Nat) (before : List Access) (a : Access) : Prop :=
  (a.key = key → a.now ≤ t + a.life) ∧
    (Collects before a → a.now ≤ t + 3600 ∨ ∃ e ∈ events key (before ++ [a]), a.now ≤ e + 3600)

/-- No event within the life of the call has been dropped before it. -/
def Unforgotten (history : List Access) (a : Access) : Prop :=
  ∀ t ∈ events a.key history, a.now ≤ t + a.life → Stepwise (Leaves a.key t) history

/-- The clock of a history does not go back. -/
def Ordered (history : List Access) : Prop := history.Pairwise (·.now ≤ ·.now)

/-! ### Events -/

section Events

variable {key : String} {history : List Access} {a : Access} {t t' : Nat}

theorem events_append (first rest : List Access) :
    events key (first ++ rest) = events key first ++ events key rest := by
  unfold events
  rw [List.filter_append, List.map_append]

theorem events_concat :
    events key (history ++ [a]) =
      events key history ++ if a.records && a.key == key then [a.now] else [] := by
  rw [events_append]
  congr 1
  unfold events
  cases own : a.records && a.key == key <;> simp [own]

theorem Ordered.events (ordered : Ordered history) : (events key history).Pairwise (· ≤ ·) :=
  List.Pairwise.map _ (fun _ _ le => le) (ordered.filter _)

/-- What is left of an event is left of a later one. -/
theorem Leaves.later {before : List Access} (leaves : Leaves key t before a) (later : t ≤ t') :
    Leaves key t' before a := by
  refine ⟨fun own => (leaves.1 own).trans (Nat.add_le_add_right later _), fun collects => ?_⟩
  exact (leaves.2 collects).imp_left fun recent => recent.trans (Nat.add_le_add_right later _)

theorem stepwise_later (left : Stepwise (Leaves key t) history) (later : t ≤ t') :
    Stepwise (Leaves key t') history :=
  fun before x rest eq => (left before x rest eq).later later

/-- Calls made by then leave an event that is made later. -/
theorem stepwise_of_past (past : ∀ b ∈ history, b.now ≤ t) : Stepwise (Leaves key t) history := by
  intro before b rest eq
  have bound : b.now ≤ t := past b (eq ▸ by simp)
  exact ⟨fun _ => bound.trans (Nat.le_add_right t _), fun _ => .inl (bound.trans (Nat.le_add_right t _))⟩

theorem dropWhile_eq_filter {l : List Nat} (sorted : l.Pairwise (· ≤ ·)) (cut : Nat) :
    l.dropWhile (· < cut) = l.filter (cut ≤ ·) := by
  induction l with
  | nil => rfl
  | cons x l ih =>
      by_cases early : x < cut
      · rw [List.dropWhile_cons_of_pos (by simpa using early),
          List.filter_cons_of_neg (by simpa using early), ih sorted.of_cons]
      · rw [List.dropWhile_cons_of_neg (by simpa using early)]
        refine (List.filter_eq_self.mpr fun y mem => ?_).symm
        have bound : x ≤ y := by
          rcases List.mem_cons.mp mem with rfl | mem
          · exact le_refl y
          · exact List.rel_of_pairwise_cons sorted mem
        simpa using (not_lt.mp early).trans bound

end Events

/-! ### What is kept -/

section Kept

variable {key : String} {history : List Access} {a : Access}

open scoped Classical in
/-- The events of a key that every call has left. -/
noncomputable def kept (key : String) (history : List Access) : List Nat :=
  (events key history).filter fun t => Stepwise (Leaves key t) history

open scoped Classical in
/-- Those left by a call before it collects. -/
noncomputable def trimmed (key : String) (history : List Access) (a : Access) : List Nat :=
  (events key (history ++ [a])).filter fun t =>
    Stepwise (Leaves key t) history ∧ (a.key = key → a.now ≤ t + a.life)

theorem mem_kept {t : Nat} :
    t ∈ kept key history ↔ t ∈ events key history ∧ Stepwise (Leaves key t) history := by
  simp only [kept, List.mem_filter, decide_eq_true_eq]

theorem mem_trimmed {t : Nat} :
    t ∈ trimmed key history a ↔ t ∈ events key (history ++ [a]) ∧
      Stepwise (Leaves key t) history ∧ (a.key = key → a.now ≤ t + a.life) := by
  simp only [trimmed, List.mem_filter, decide_eq_true_eq]

theorem kept_sorted (ordered : Ordered history) : (kept key history).Pairwise (· ≤ ·) :=
  ordered.events.filter _

theorem trimmed_eq (ordered : Ordered (history ++ [a])) :
    trimmed key history a =
      if a.key = key then
        (kept key history).dropWhile (· < a.now - a.life) ++ if a.records then [a.now] else []
      else kept key history := by
  have front : Ordered history := (List.pairwise_append.mp ordered).1
  have late : Stepwise (Leaves key a.now) history :=
    stepwise_of_past fun b mem => (List.pairwise_append.mp ordered).2.2 b mem a List.mem_cons_self
  unfold trimmed
  rw [events_concat, List.filter_append]
  by_cases own : a.key = key
  · rw [if_pos own, dropWhile_eq_filter (kept_sorted front)]
    congr 1
    · unfold kept
      rw [List.filter_filter]
      refine List.filter_congr fun t _ => ?_
      rw [Bool.eq_iff_iff]
      simp [own, and_comm]
    · cases recorded : a.records <;> simp [own, late]
  · rw [if_neg own, if_neg (by simp [own]), List.filter_nil, List.append_nil]
    refine List.filter_congr fun t _ => decide_eq_decide.mpr ?_
    exact and_iff_left fun same => absurd same own

theorem kept_concat_of_not_collects (none : ¬ Collects history a) :
    kept key (history ++ [a]) = trimmed key history a := by
  unfold kept trimmed
  refine List.filter_congr fun t _ => decide_eq_decide.mpr ?_
  rw [stepwise_concat]
  refine and_congr_right' ⟨fun leaves => leaves.1, fun inside => ⟨inside, fun collects => ?_⟩⟩
  exact absurd collects none

/-- A collection takes nothing of a key that has an event in the last hour, and
everything of one that has not. -/
theorem kept_concat_of_collects (ordered : Ordered (history ++ [a])) (collects : Collects history a) :
    kept key (history ++ [a]) =
      if (trimmed key history a).getLast?.any (· ≥ a.now - 3600) then trimmed key history a
      else [] := by
  by_cases recent : ∃ e ∈ events key (history ++ [a]), a.now ≤ e + 3600
  · have all : kept key (history ++ [a]) = trimmed key history a := by
      refine List.filter_congr fun t _ => decide_eq_decide.mpr ?_
      rw [stepwise_concat]
      exact and_congr_right' ⟨fun leaves => leaves.1, fun inside => ⟨inside, fun _ => .inr recent⟩⟩
    rw [all]
    rcases List.eq_nil_or_concat (trimmed key history a) with none | ⟨front, last, split⟩
    · rw [none]
      rfl
    · -- An event of the last hour is not before the last that is left.
      have late : a.now ≤ last + 3600 := by
        obtain ⟨e, mem, hour⟩ := recent
        by_contra early
        have held : last ∈ trimmed key history a := by simp [split]
        obtain ⟨-, left, inside⟩ := mem_trimmed.mp held
        have later : last ≤ e := by omega
        have also : e ∈ trimmed key history a := by
          refine mem_trimmed.mpr ⟨mem, stepwise_later left later, fun own => ?_⟩
          exact (inside own).trans (Nat.add_le_add_right later _)
        have sorted : (trimmed key history a).Pairwise (· ≤ ·) := ordered.events.filter _
        rw [split, List.concat_eq_append] at also sorted
        have bound : e ≤ last := by
          rcases List.mem_append.mp also with before | same
          · exact (List.pairwise_append.mp sorted).2.2 e before last List.mem_cons_self
          · exact (List.mem_singleton.mp same).le
        omega
      rw [split, if_pos]
      simpa using late
  · have gone : kept key (history ++ [a]) = [] := by
      refine List.eq_nil_iff_forall_not_mem.mpr fun t held => ?_
      obtain ⟨mem, left⟩ := mem_kept.mp held
      rcases (stepwise_concat.mp left).2.2 collects with hour | other
      · exact recent ⟨t, mem, hour⟩
      · exact recent other
    rw [gone]
    rcases List.eq_nil_or_concat (trimmed key history a) with none | ⟨front, last, split⟩
    · rw [none]
      rfl
    · have held : last ∈ trimmed key history a := by simp [split]
      have early : ¬ a.now ≤ last + 3600 := fun hour =>
        recent ⟨last, (mem_trimmed.mp held).1, hour⟩
      rw [split, if_neg]
      simpa using early

end Kept

/-! ### The counters of a history -/

/-- The windows hold what is kept of each key. -/
structure Holds (c : Counters) (history : List Access) : Prop where
  ops : c.ops % 1024 = (history.filter (·.records)).length % 1024
  windows : ∀ key, (c.windows[key]?).getD [] = kept key history

theorem holds_nil : Holds {} [] where
  ops := rfl
  windows key := by
    rw [show ({} : Counters).windows = ∅ from rfl, ExtTreeMap.getElem?_empty]
    rfl

/-- The window a call counts in is what it leaves of its key. -/
theorem Holds.window {c : Counters} {history : List Access} {a : Access} (holds : Holds c history)
    (ordered : Ordered (history ++ [a])) :
    (c.access a).2 = (trimmed a.key history a).length % 2 ^ 32 := by
  rw [trimmed_eq ordered, if_pos rfl, ← holds.windows]
  unfold access
  cases recorded : a.records with
  | true => rfl
  | false =>
      rw [if_neg Bool.false_ne_true, if_neg Bool.false_ne_true, List.append_nil]
      unfold count
      cases c.windows[a.key]? <;> rfl

/-- What is kept of the keys when the call has put its own window back. -/
theorem Holds.insert {c : Counters} {history : List Access} {a : Access} (holds : Holds c history)
    (ordered : Ordered (history ++ [a])) (key : String) :
    ((c.windows.insert a.key (trimmed a.key history a))[key]?).getD [] = trimmed key history a := by
  rw [ExtTreeMap.getElem?_insert]
  split
  · rename_i same
    rw [Std.LawfulEqCmp.eq_of_compare same]
    rfl
  · rename_i other
    have differs : a.key ≠ key := fun same => other (same ▸ Std.ReflCmp.compare_self)
    rw [holds.windows, trimmed_eq ordered, if_neg differs]

theorem Holds.hit {c : Counters} {history : List Access} {a : Access} (holds : Holds c history)
    (ordered : Ordered (history ++ [a])) (recorded : a.records = true) :
    Holds (c.step a) (history ++ [a]) := by
  have times : ((c.windows[a.key]?).getD []).dropWhile (· < a.now - a.life) ++ [a.now] =
      trimmed a.key history a := by
    rw [trimmed_eq ordered, if_pos rfl, holds.windows, if_pos recorded]
  have call : c.step a =
      ({ c with windows := c.windows.insert a.key (trimmed a.key history a) } : Counters).maybeGc
        a.now := by
    unfold Counters.step access
    rw [if_pos recorded, ← times]
    rfl
  have calls : ((history ++ [a]).filter (·.records)).length =
      (history.filter (·.records)).length + 1 := by
    simp [recorded]
  have held := holds.ops
  rw [call]
  unfold maybeGc
  dsimp only
  by_cases due : (c.ops + 1) % 2 ^ 32 % 1024 = 0
  · have collects : Collects history a := ⟨recorded, by omega⟩
    rw [if_neg (not_not.mpr due)]
    constructor
    · rw [calls]
      dsimp only
      omega
    · intro key
      rw [ExtTreeMap.getElem?_filter', kept_concat_of_collects ordered collects,
        ← holds.insert ordered key]
      generalize (c.windows.insert a.key (trimmed a.key history a))[key]? = window
      cases window with
      | none => rfl
      | some times =>
          rw [Option.filter_some, Option.getD_some]
          split <;> rfl
  · have none : ¬ Collects history a := by
      rintro ⟨-, collects⟩
      omega
    rw [if_pos due]
    constructor
    · rw [calls]
      dsimp only
      omega
    · intro key
      rw [kept_concat_of_not_collects none, ← holds.insert ordered key]

theorem Holds.count {c : Counters} {history : List Access} {a : Access} (holds : Holds c history)
    (ordered : Ordered (history ++ [a])) (recorded : a.records = false) :
    Holds (c.step a) (history ++ [a]) := by
  have none : ¬ Collects history a := by
    rintro ⟨yes, -⟩
    rw [recorded] at yes
    contradiction
  have calls : (history ++ [a]).filter (·.records) = history.filter (·.records) := by
    simp [recorded]
  have times : ((c.windows[a.key]?).getD []).dropWhile (· < a.now - a.life) =
      trimmed a.key history a := by
    rw [trimmed_eq ordered, if_pos rfl, holds.windows, recorded, if_neg Bool.false_ne_true,
      List.append_nil]
  have call : c.step a = (c.count a.key a.now a.life).1 := by
    unfold Counters.step access
    rw [recorded, if_neg Bool.false_ne_true]
  rw [call]
  unfold Counters.count
  cases window : c.windows[a.key]? with
  | none =>
      rw [window] at times
      constructor
      · rw [calls]
        exact holds.ops
      · intro key
        rw [kept_concat_of_not_collects none, holds.windows]
        by_cases own : a.key = key
        · subst own
          rw [← holds.windows, window, ← times]
          rfl
        · rw [trimmed_eq ordered, if_neg own]
  | some held =>
      rw [window, Option.getD_some] at times
      constructor
      · rw [calls]
        exact holds.ops
      · intro key
        rw [kept_concat_of_not_collects none]
        dsimp only
        rw [times, holds.insert ordered key]

/-- One call. -/
theorem Holds.step {c : Counters} {history : List Access} {a : Access} (holds : Holds c history)
    (ordered : Ordered (history ++ [a])) : Holds (c.step a) (history ++ [a]) := by
  cases recorded : a.records with
  | true => exact holds.hit ordered recorded
  | false => exact holds.count ordered recorded

/-- Any calls, one after the other. -/
theorem holds_after {history : List Access} (ordered : Ordered history) :
    Holds (after Counters.step {} history) history := by
  induction history using List.reverseRecOn with
  | nil => exact holds_nil
  | append_singleton history a ih =>
      rw [after_concat]
      exact (ih (List.pairwise_append.mp ordered).1).step ordered

/-! ### Exactness -/

section Exactness

variable {history : List Access} {a : Access}

theorem Ordered.now_le (ordered : Ordered (history ++ [a])) {before rest : List Access} {b : Access}
    (split : before ++ b :: rest = history) : b.now ≤ a.now :=
  (List.pairwise_append.mp ordered).2.2 b (by simp [← split]) a List.mem_cons_self

/-- The windows of one life, an hour at most, forget nothing. -/
theorem unforgotten_of_steady (ordered : Ordered (history ++ [a]))
    (steady : ∀ b ∈ history, b.key = a.key → b.life = a.life) (hour : a.life ≤ 3600) :
    Unforgotten history a := by
  intro t _ within before b rest split
  have past : b.now ≤ a.now := ordered.now_le split.symm
  constructor
  · intro own
    have life : b.life = a.life := steady b (by simp [split]) own
    omega
  · intro _
    left
    omega

end Exactness

end Counters

end Echo
