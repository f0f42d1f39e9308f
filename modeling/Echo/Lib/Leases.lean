import Mathlib.Data.List.Induction
import Mathlib.Order.Lattice
import Mathlib.Order.MinMax
import Mathlib.Logic.Function.Basic

/-!
Leases and the board that shows them. A register is a list of leases, each a key
and the moment it runs out; a board shows one such moment for each key it shows.
The board mirrors the register from `now` on when at every later moment it shows
the keys that some lease still holds, and no others.

The board is edited a key at a time while the register loses some leases and
gains one, and nobody compares the two. For each kind of edit, what makes the
board go on mirroring the register is said exactly, of the leases before it.
-/

namespace Echo.Lib

variable {K E : Type _} [LinearOrder E]

/-- Some lease holds the key at `t`. -/
def Due (register : List (K × E)) (t : E) (k : K) : Prop := ∃ e, (k, e) ∈ register ∧ t < e

/-- The board shows the key at `t`. -/
def Shown (board : K → Option E) (t : E) (k : K) : Prop := ∃ e, board k = some e ∧ t < e

def MirrorsFrom (register : List (K × E)) (board : K → Option E) (now : E) : Prop :=
  ∀ t, now ≤ t → ∀ k, Shown board t k ↔ Due register t k

/-- Unless the lease has run out, the register holds its key at least as long. -/
def Covers (register : List (K × E)) (now : E) (lease : K × E) : Prop :=
  now < lease.2 → ∃ e, (lease.1, e) ∈ register ∧ lease.2 ≤ e

variable {register stay gone added : List (K × E)} {board : K → Option E} {now : E} {k : K}

theorem MirrorsFrom.later (h : MirrorsFrom register board now) {t : E} (after : now ≤ t) :
    MirrorsFrom register board t :=
  fun u later => h u (after.trans later)

/-- Only which leases a register holds matters. -/
theorem mirrorsFrom_congr {register' : List (K × E)}
    (same : ∀ x, x ∈ register ↔ x ∈ register') :
    MirrorsFrom register board now ↔ MirrorsFrom register' board now := by
  simp only [MirrorsFrom, Due, same]

/-- The last moment at which a key is held, `now` if it is not. -/
theorem exists_latest (register : List (K × E)) (now : E) (k : K) :
    ∃ m, (∀ e, (k, e) ∈ register → e ≤ m) ∧ (m = now ∨ (k, m) ∈ register) := by
  induction register with
  | nil => exact ⟨now, by simp, .inl rfl⟩
  | cons lease register ih =>
      obtain ⟨m, longest, held⟩ := ih
      obtain ⟨k', e'⟩ := lease
      by_cases same : k' = k ∧ m < e'
      · obtain ⟨rfl, longer⟩ := same
        refine ⟨e', ?_, .inr List.mem_cons_self⟩
        intro e mem
        cases mem with
        | head => exact le_refl e'
        | tail _ mem => exact (longest e mem).trans longer.le
      · refine ⟨m, ?_, held.imp_right (List.mem_cons_of_mem _)⟩
        intro e mem
        cases mem with
        | head => exact not_lt.mp fun longer => same ⟨rfl, longer⟩
        | tail _ mem => exact longest e mem

/-- A register covers a lease when it holds the key at every moment the lease
would. -/
theorem covers_iff {e : E} :
    Covers register now (k, e) ↔ ∀ t, now ≤ t → t < e → Due register t k := by
  constructor
  · intro covered t after live
    obtain ⟨e', mem, longer⟩ := covered (after.trans_lt live)
    exact ⟨e', mem, live.trans_le longer⟩
  · intro held live
    obtain ⟨m, longest, last⟩ := exists_latest register now k
    rcases last with rfl | mem
    · obtain ⟨e', mem, later⟩ := held m le_rfl live
      exact absurd later (longest e' mem).not_gt
    · by_cases longer : e ≤ m
      · exact ⟨m, mem, longer⟩
      · obtain ⟨e', mem', later⟩ := held (max now m) (le_max_left _ _)
          (max_lt live (not_le.mp longer))
        exact absurd ((le_max_right now m).trans_lt later) (longest e' mem').not_gt

theorem due_of_covers {t e : E} (covered : Covers register now (k, e)) (after : now ≤ t)
    (live : t < e) : Due register t k := covers_iff.mp covered t after live

theorem Due.mono {t : E} (h : Due stay t k) (sub : ∀ x, x ∈ stay → x ∈ register) :
    Due register t k := by
  obtain ⟨e, mem, live⟩ := h
  exact ⟨e, sub _ mem, live⟩

/-- A new lease at another key changes nothing. -/
theorem due_cons_of_ne {lease : K × E} (other : k ≠ lease.1) {t : E} :
    Due (lease :: stay) t k ↔ Due stay t k := by
  constructor
  · rintro ⟨e, mem, live⟩
    cases mem with
    | head => exact absurd rfl other
    | tail _ mem => exact ⟨e, mem, live⟩
  · intro due
    exact due.mono fun _ => List.mem_cons_of_mem _

/-! ### What a key shows after an edit -/

section Edits

variable [DecidableEq K]

theorem shown_update_self {shown : Option E} {t : E} :
    Shown (Function.update board k shown) t k ↔ ∃ e, shown = some e ∧ t < e := by
  unfold Shown
  rw [Function.update_self]

theorem shown_update_of_ne {k₀ : K} {shown : Option E} {t : E} (other : k ≠ k₀) :
    Shown (Function.update board k₀ shown) t k ↔ Shown board t k := by
  unfold Shown
  rw [Function.update_of_ne other]

/-- The lease put up for its key. -/
def putUp (board : K → Option E) (lease : K × E) : K → Option E :=
  Function.update board lease.1 (some lease.2)

/-- Put up in turn where none after it at its key is shorter, the leases are shown
just as they are held. -/
theorem shown_putAll_iff {leases : List (K × E)}
    (longer : leases.Pairwise fun x y => x.1 = y.1 → x.2 ≤ y.2) {t : E} :
    Shown (leases.foldl putUp fun _ => none) t k ↔ Due leases t k := by
  induction leases using List.reverseRecOn with
  | nil => simp [Shown, Due]
  | append_singleton leases x ih =>
      obtain ⟨k₀, e₀⟩ := x
      obtain ⟨before, -, last⟩ := List.pairwise_append.mp longer
      rw [List.foldl_append, List.foldl_cons, List.foldl_nil, putUp]
      by_cases same : k = k₀
      · subst same
        rw [shown_update_self]
        constructor
        · rintro ⟨e, shown, live⟩
          cases shown
          exact ⟨e₀, List.mem_append_right _ List.mem_cons_self, live⟩
        · rintro ⟨e, mem, live⟩
          refine ⟨e₀, rfl, ?_⟩
          rcases List.mem_append.mp mem with earlier | final
          · exact live.trans_le (last _ earlier _ List.mem_cons_self rfl)
          · cases List.mem_singleton.mp final
            exact live
      · rw [shown_update_of_ne same, ih before]
        constructor
        · intro due
          exact due.mono fun _ => List.mem_append_left _
        · rintro ⟨e, mem, live⟩
          rcases List.mem_append.mp mem with earlier | final
          · exact ⟨e, earlier, live⟩
          · cases List.mem_singleton.mp final
            exact absurd rfl same

/-- The leases of a register, apart: those that stay and those that go. -/
def Parts (register stay gone : List (K × E)) : Prop :=
  ∀ x, x ∈ register ↔ x ∈ stay ∨ x ∈ gone

/-- A lease put in place of others, and `shown` put up for its key. -/
structure PutFits (now : E) (stay gone : List (K × E)) (lease : K × E) (shown : E) : Prop where
  /-- No other lease at the key runs longer than is shown. -/
  others : ∀ e, (lease.1, e) ∈ stay → now < e → e ≤ shown
  /-- Nor does the new one. -/
  own : now < lease.2 → lease.2 ≤ shown
  /-- Some lease at the key runs as long as is shown. -/
  backed : Covers (lease :: stay) now (lease.1, shown)
  /-- What is replaced under another key is not missed there. -/
  replaced : ∀ x ∈ gone, x.1 ≠ lease.1 → Covers stay now x

/-- Leases taken out, and the key `k` taken down. -/
structure DropFits (now : E) (stay gone : List (K × E)) (k : K) : Prop where
  /-- No other lease holds the key. -/
  others : ∀ e, (k, e) ∈ stay → e ≤ now
  /-- What is removed under another key is not missed there. -/
  removed : ∀ x ∈ gone, x.1 ≠ k → Covers stay now x

/-- Leases put in and taken out without a change to the board. -/
structure SilentFits (now : E) (register stay gone added : List (K × E)) : Prop where
  /-- What is put in was held as long before. -/
  entered : ∀ x ∈ added, Covers register now x
  /-- What is taken out is held as long after. -/
  removed : ∀ x ∈ gone, Covers (added ++ stay) now x

variable (mirrors : MirrorsFrom register board now) (parts : Parts register stay gone)

include mirrors parts

/-- Away from the key that is edited, the board follows exactly if what went is
not missed. -/
theorem shown_iff_due_of_ne {k₀ : K} {shown : Option E} (other : k ≠ k₀)
    (unmissed : ∀ x ∈ gone, x.1 ≠ k₀ → Covers stay now x) {t : E} (after : now ≤ t) :
    Shown (Function.update board k₀ shown) t k ↔ Due stay t k := by
  rw [shown_update_of_ne other, mirrors t after k]
  constructor
  · rintro ⟨e, mem, live⟩
    rcases (parts _).mp mem with kept | went
    · exact ⟨e, kept, live⟩
    · exact due_of_covers (unmissed _ went other) after live
  · intro due
    exact due.mono fun x mem => (parts x).mpr (.inl mem)

theorem covers_of_shown_iff_due {k₀ : K} {shown : Option E}
    (follows : ∀ t, now ≤ t → ∀ k, k ≠ k₀ →
      (Shown (Function.update board k₀ shown) t k ↔ Due stay t k)) :
    ∀ x ∈ gone, x.1 ≠ k₀ → Covers stay now x := by
  rintro ⟨k, e⟩ went other
  refine covers_iff.mpr fun t after live => ?_
  have due : Due register t k := ⟨e, (parts _).mpr (.inr went), live⟩
  exact (follows t after k other).mp ((shown_update_of_ne other).mpr ((mirrors t after k).mpr due))

/-- A put keeps the mirror exactly if it fits. -/
theorem mirrorsFrom_put {lease : K × E} {shown : E} :
    MirrorsFrom (lease :: stay) (Function.update board lease.1 (some shown)) now ↔
      PutFits now stay gone lease shown := by
  obtain ⟨k₀, e₀⟩ := lease
  have up (t : E) : Shown (Function.update board k₀ (some shown)) t k₀ ↔ t < shown := by
    rw [shown_update_self]
    simp
  constructor
  · intro follows
    have longest (e : E) (mem : (k₀, e) ∈ (k₀, e₀) :: stay) (live : now < e) : e ≤ shown := by
      by_contra longer
      have late : max now shown < e := max_lt live (not_le.mp longer)
      have seen := (follows _ (le_max_left now shown) k₀).mpr ⟨e, mem, late⟩
      exact absurd ((up _).mp seen) (le_max_right now shown).not_gt
    exact
      { others := fun e mem => longest e (List.mem_cons_of_mem _ mem)
        own := longest e₀ List.mem_cons_self
        backed := covers_iff.mpr fun t after live =>
          (follows t after k₀).mp ((up t).mpr live)
        replaced := covers_of_shown_iff_due mirrors parts fun t after k other =>
          (follows t after k).trans (due_cons_of_ne other) }
  · intro fits t after k
    by_cases same : k = k₀
    · subst same
      rw [up]
      constructor
      · exact due_of_covers fits.backed after
      · rintro ⟨e, mem, live⟩
        cases mem with
        | head => exact live.trans_le (fits.own (after.trans_lt live))
        | tail _ mem => exact live.trans_le (fits.others e mem (after.trans_lt live))
    · rw [due_cons_of_ne same]
      exact shown_iff_due_of_ne mirrors parts same fits.replaced after

/-- So does taking a key down. -/
theorem mirrorsFrom_drop {k₀ : K} :
    MirrorsFrom stay (Function.update board k₀ none) now ↔ DropFits now stay gone k₀ := by
  have down (t : E) : ¬ Shown (Function.update board k₀ none) t k₀ := by
    rw [shown_update_self]
    simp
  constructor
  · intro follows
    exact
      { others := fun e mem => not_lt.mp fun live =>
          down now ((follows now le_rfl k₀).mpr ⟨e, mem, live⟩)
        removed := covers_of_shown_iff_due mirrors parts fun t after k _ => follows t after k }
  · intro fits t after k
    by_cases same : k = k₀
    · subst same
      constructor
      · intro seen
        exact absurd seen (down t)
      · rintro ⟨e, mem, live⟩
        exact absurd live ((fits.others e mem).trans after).not_gt
    · exact shown_iff_due_of_ne mirrors parts same fits.removed after

omit [DecidableEq K] in
/-- And so does an edit of the register alone. -/
theorem mirrorsFrom_silent :
    MirrorsFrom (added ++ stay) board now ↔ SilentFits now register stay gone added := by
  constructor
  · intro follows
    constructor
    · rintro ⟨k, e⟩ mem
      refine covers_iff.mpr fun t after live => ?_
      have due : Due (added ++ stay) t k := ⟨e, List.mem_append_left _ mem, live⟩
      exact (mirrors t after k).mp ((follows t after k).mpr due)
    · rintro ⟨k, e⟩ went
      refine covers_iff.mpr fun t after live => ?_
      have due : Due register t k := ⟨e, (parts _).mpr (.inr went), live⟩
      exact (follows t after k).mp ((mirrors t after k).mpr due)
  · intro fits t after k
    rw [mirrors t after k]
    constructor
    · rintro ⟨e, mem, live⟩
      rcases (parts _).mp mem with kept | went
      · exact ⟨e, List.mem_append_right _ kept, live⟩
      · exact due_of_covers (fits.removed _ went) after live
    · rintro ⟨e, mem, live⟩
      rcases List.mem_append.mp mem with new | kept
      · exact due_of_covers (fits.entered _ new) after live
      · exact ⟨e, (parts _).mpr (.inl kept), live⟩

end Edits

end Echo.Lib
