import Mathlib.Data.List.Nodup
import Mathlib.Data.List.Perm.Basic

/-!
Lists whose elements are told apart by a key. `DistinctBy` says that no two
elements share one; the ways a program keeps such a list (dropping a key,
replacing and appending, editing the first match in place) preserve it, and
rebuilding the list element by element from nothing gives it back.
-/

namespace Echo.Lib

variable {α β κ : Type}

/-- No two elements of the list share a key. -/
def DistinctBy (keyOf : α → κ) (l : List α) : Prop := (l.map keyOf).Nodup

/-- Edit the first element that satisfies `p`, if there is one. -/
def modifyFirst (p : α → Bool) (f : α → α) : List α → List α
  | [] => []
  | x :: xs => if p x then f x :: xs else x :: modifyFirst p f xs

section Distinct

variable {keyOf : α → κ} {l : List α}

@[simp] theorem distinctBy_nil : DistinctBy keyOf ([] : List α) := List.nodup_nil

theorem DistinctBy.sublist {l' : List α} (h : DistinctBy keyOf l) (sub : l'.Sublist l) :
    DistinctBy keyOf l' := List.Nodup.sublist (sub.map keyOf) h

theorem DistinctBy.filter (p : α → Bool) (h : DistinctBy keyOf l) :
    DistinctBy keyOf (l.filter p) := h.sublist List.filter_sublist

/-- Appending an element whose key is new keeps the keys distinct. -/
theorem DistinctBy.append_new {x : α} (h : DistinctBy keyOf l)
    (fresh : ∀ y ∈ l, keyOf y ≠ keyOf x) : DistinctBy keyOf (l ++ [x]) := by
  unfold DistinctBy
  rw [List.map_append, List.nodup_append]
  refine ⟨h, List.nodup_singleton _, ?_⟩
  intro a ha b hb
  obtain ⟨y, hy, rfl⟩ := List.mem_map.mp ha
  rw [List.map_singleton, List.mem_singleton] at hb
  subst hb
  exact fresh y hy

/-- Dropping a key and appending one element that carries it. -/
theorem DistinctBy.upsert {p : α → Bool} {x : α} (h : DistinctBy keyOf l)
    (drops : ∀ y, keyOf y = keyOf x → p y = false) : DistinctBy keyOf (l.filter p ++ [x]) := by
  refine (h.filter p).append_new fun y hy same => ?_
  have kept := (List.mem_filter.mp hy).2
  rw [drops y same] at kept
  contradiction

theorem DistinctBy.map_same {f : α → α} (h : DistinctBy keyOf l)
    (same : ∀ x, keyOf (f x) = keyOf x) : DistinctBy keyOf (l.map f) := by
  unfold DistinctBy
  rw [List.map_map, show keyOf ∘ f = keyOf from funext same]
  exact h

theorem map_modifyFirst {p : α → Bool} {f : α → α} (same : ∀ x, p x = true → keyOf (f x) = keyOf x) :
    ∀ l : List α, (modifyFirst p f l).map keyOf = l.map keyOf
  | [] => rfl
  | x :: xs => by
      unfold modifyFirst
      by_cases hx : p x = true
      · rw [if_pos hx, List.map_cons, List.map_cons, same x hx]
      · rw [if_neg hx, List.map_cons, List.map_cons, map_modifyFirst same xs]

theorem DistinctBy.modifyFirst {p : α → Bool} {f : α → α} (h : DistinctBy keyOf l)
    (same : ∀ x, p x = true → keyOf (f x) = keyOf x) :
    DistinctBy keyOf (modifyFirst p f l) := by
  unfold DistinctBy
  rw [map_modifyFirst same]
  exact h

theorem DistinctBy.eq_of_key {x y : α} (h : DistinctBy keyOf l) (hx : x ∈ l) (hy : y ∈ l)
    (same : keyOf x = keyOf y) : x = y := List.inj_on_of_nodup_map h hx hy same

/-- Where a test picks out one key, what its first match satisfies is what any
match satisfies. -/
theorem DistinctBy.any_find? {p q : α → Bool} (h : DistinctBy keyOf l)
    (oneKey : ∀ x y, p x = true → p y = true → keyOf x = keyOf y) :
    (l.find? p).any q = l.any fun x => p x && q x := by
  rw [Bool.eq_iff_iff, Option.any_eq_true, List.any_eq_true]
  constructor
  · rintro ⟨x, found, holds⟩
    exact ⟨x, List.mem_of_find?_eq_some found, by rw [List.find?_some found, holds]; rfl⟩
  · rintro ⟨x, mem, both⟩
    obtain ⟨hits, holds⟩ := Bool.and_eq_true_iff.mp both
    obtain ⟨y, found⟩ := Option.isSome_iff_exists.mp (List.find?_isSome.mpr ⟨x, mem, hits⟩)
    obtain rfl := h.eq_of_key mem (List.mem_of_find?_eq_some found)
      (oneKey x y hits (List.find?_some found))
    exact ⟨x, found, holds⟩

/-- Distinct keys make the elements distinct. -/
theorem DistinctBy.nodup (h : DistinctBy keyOf l) : l.Nodup := List.Nodup.of_map keyOf h

end Distinct

/-! ### Editing the first match -/

/-- With no match the list stays as it is. -/
theorem modifyFirst_eq_self {p : α → Bool} {f : α → α} :
    ∀ {l : List α}, (∀ x ∈ l, p x = false) → modifyFirst p f l = l
  | [], _ => rfl
  | x :: xs, absent => by
      unfold modifyFirst
      rw [if_neg (by simp [absent x List.mem_cons_self]),
        modifyFirst_eq_self fun y hy => absent y (List.mem_cons_of_mem x hy)]

/-- What the edit preserves holds of every element afterwards. -/
theorem modifyFirst_forall {P : α → Prop} {p : α → Bool} {f : α → α}
    (keeps : ∀ x, P x → P (f x)) :
    ∀ {l : List α}, (∀ x ∈ l, P x) → ∀ x ∈ modifyFirst p f l, P x
  | [], h, x, hx => h x hx
  | y :: ys, h, x, hx => by
      obtain ⟨head, tail⟩ := List.forall_mem_cons.mp h
      unfold modifyFirst at hx
      by_cases hy : p y = true
      · rw [if_pos hy] at hx
        rcases List.mem_cons.mp hx with rfl | hx
        · exact keeps y head
        · exact tail x hx
      · rw [if_neg hy] at hx
        rcases List.mem_cons.mp hx with rfl | hx
        · exact head
        · exact modifyFirst_forall keeps tail x hx

/-- Where keys are distinct, editing the first element with a key edits every
element with that key. -/
theorem modifyFirst_eq_map {keyOf : α → κ} {p : α → Bool} {f : α → α}
    (byKey : ∀ x y, p x = true → p y = true → keyOf x = keyOf y) :
    ∀ {l : List α}, DistinctBy keyOf l →
      modifyFirst p f l = l.map fun x => if p x then f x else x
  | [], _ => rfl
  | x :: xs, h => by
      have tail : DistinctBy keyOf xs := h.sublist (List.sublist_cons_self x xs)
      unfold modifyFirst
      by_cases hx : p x = true
      · have others : ∀ y ∈ xs, p y = false := by
          intro y hy
          cases hp : p y with
          | false => rfl
          | true =>
              have same := byKey x y hx hp
              have notMem : keyOf x ∉ xs.map keyOf := (List.nodup_cons.mp h).1
              exact absurd (same ▸ List.mem_map_of_mem hy) notMem
        have rest : xs.map (fun y => if p y = true then f y else y) = xs := by
          refine (List.map_congr_left fun y hy => ?_).trans (List.map_id xs)
          simp [others y hy]
        rw [if_pos hx, List.map_cons, if_pos hx, rest]
      · rw [if_neg hx, List.map_cons, if_neg hx, modifyFirst_eq_map byKey tail]

/-- Editing a first match that the edit fixes changes nothing. -/
theorem modifyFirst_fixed {p : α → Bool} {f : α → α} :
    ∀ {l : List α}, (∀ x, l.find? p = some x → f x = x) → modifyFirst p f l = l
  | [], _ => rfl
  | x :: xs, fixed => by
      unfold modifyFirst
      by_cases hx : p x = true
      · rw [if_pos hx, fixed x (List.find?_cons_of_pos hx)]
      · rw [if_neg hx, modifyFirst_fixed fun y found => fixed y ((List.find?_cons_of_neg hx).trans found)]

/-- The first match, edited, is the first match of the edited list. -/
theorem find?_modifyFirst_self {p : α → Bool} {f : α → α} (hits : ∀ x, p x = true → p (f x) = true) :
    ∀ l : List α, (modifyFirst p f l).find? p = (l.find? p).map f
  | [] => rfl
  | x :: xs => by
      unfold modifyFirst
      by_cases hx : p x = true
      · rw [if_pos hx, List.find?_cons_of_pos (hits x hx), List.find?_cons_of_pos hx]
        rfl
      · rw [if_neg hx, List.find?_cons_of_neg hx, List.find?_cons_of_neg hx,
          find?_modifyFirst_self hits xs]

/-- An edit of what no other test matches is not seen by it. -/
theorem find?_modifyFirst_of_disjoint {p q : α → Bool} {f : α → α}
    (apart : ∀ x, p x = true → q x = false ∧ q (f x) = false) :
    ∀ l : List α, (modifyFirst p f l).find? q = l.find? q
  | [] => rfl
  | x :: xs => by
      unfold modifyFirst
      by_cases hx : p x = true
      · obtain ⟨misses, missesEdited⟩ := apart x hx
        rw [if_pos hx, List.find?_cons_of_neg (by simp [missesEdited]),
          List.find?_cons_of_neg (by simp [misses])]
      · rw [if_neg hx, List.find?_cons, List.find?_cons, find?_modifyFirst_of_disjoint apart xs]

/-- Where a test picks out one key, what it finds among some elements is what it
finds among all. -/
theorem DistinctBy.find?_of_filter {keyOf : α → κ} {p q : α → Bool} {l : List α} {x : α}
    (h : DistinctBy keyOf l) (oneKey : ∀ x y, p x = true → p y = true → keyOf x = keyOf y)
    (found : (l.filter q).find? p = some x) : l.find? p = some x := by
  have mem := (List.mem_filter.mp (List.mem_of_find?_eq_some found)).1
  have hits := List.find?_some found
  obtain ⟨y, first⟩ := Option.isSome_iff_exists.mp (List.find?_isSome.mpr ⟨x, mem, hits⟩)
  rw [first, h.eq_of_key (List.mem_of_find?_eq_some first) mem (oneKey y x (List.find?_some first) hits)]

/-! ### Rebuilding a list -/

/-- Replacing by key over a list that lacks the key appends. -/
theorem filter_append_of_fresh {p : α → Bool} {l : List α} (x : α)
    (keeps : ∀ y ∈ l, p y = true) : l.filter p ++ [x] = l ++ [x] := by
  rw [List.filter_eq_self.mpr keeps]

/-- What stands before an element carries other keys. -/
theorem DistinctBy.fresh {keyOf : α → κ} {done rest : List α} {x : α}
    (h : DistinctBy keyOf (done ++ x :: rest)) : ∀ y ∈ done, keyOf y ≠ keyOf x := by
  intro y hy same
  unfold DistinctBy at h
  rw [List.map_append, List.map_cons, List.nodup_append] at h
  exact h.2.2 (keyOf y) (List.mem_map_of_mem hy) (keyOf x) List.mem_cons_self same

/-- Editing by key what was just appended under a new key. -/
theorem modifyFirst_append_of_fresh {p : α → Bool} {f : α → α} {x : α} (hit : p x = true) :
    ∀ {l : List α}, (∀ y ∈ l, p y = false) → modifyFirst p f (l ++ [x]) = l ++ [f x]
  | [], _ => if_pos hit
  | y :: l, fresh => by
      obtain ⟨head, tail⟩ := List.forall_mem_cons.mp fresh
      rw [List.cons_append, modifyFirst, if_neg (by rw [head]; exact Bool.false_ne_true),
        modifyFirst_append_of_fresh hit tail, List.cons_append]

/-! ### Looking up by key -/

/-- A fold over elements with distinct keys, each of which makes one new entry: what is
looked up afterwards. -/
theorem lookup_foldl {σ β γ : Type} [DecidableEq κ] (step : σ → β → σ)
    (look : σ → κ → Option γ) (keyOf : β → κ) (valOf : β → γ)
    (one : ∀ s b k, look s (keyOf b) = none →
      look (step s b) k = if keyOf b = k then some (valOf b) else look s k)
    {l : List β} {s : σ} (distinct : DistinctBy keyOf l)
    (fresh : ∀ b ∈ l, look s (keyOf b) = none) (k : κ) :
    look (l.foldl step s) k = ((l.find? fun b => keyOf b == k).map valOf).or (look s k) := by
  induction l generalizing s with
  | nil => rfl
  | cons b l ih =>
      have head := List.nodup_cons.mp distinct
      have new := fresh b List.mem_cons_self
      have later : ∀ b' ∈ l, look (step s b) (keyOf b') = none := by
        intro b' mem
        rw [one s b _ new, if_neg]
        · exact fresh b' (List.mem_cons_of_mem b mem)
        · intro same
          rw [same] at head
          exact head.1 (List.mem_map_of_mem mem)
      rw [List.foldl_cons, ih head.2 later, one s b k new, List.find?_cons]
      by_cases same : keyOf b = k
      · have absent : (l.find? fun b' => keyOf b' == k) = none := by
          rw [List.find?_eq_none]
          intro b' mem hit
          rw [← beq_iff_eq.mp hit] at same
          rw [same] at head
          exact head.1 (List.mem_map_of_mem mem)
        simp [same, absent]
      · have apart : (keyOf b == k) = false := by simpa using same
        rw [apart, if_neg same]

/-- Looking up by key after the elements of one key were dropped. -/
theorem find?_filter_key {β : Type} [DecidableEq κ] [BEq κ] [LawfulBEq κ] (keyOf : β → κ) {k : κ}
    {same : β → Bool} (picks : ∀ y, same y = true ↔ keyOf y = k) (l : List β) (k' : κ) :
    ((l.filter fun y => !same y).find? fun y => keyOf y == k') =
      if k' = k then none else l.find? fun y => keyOf y == k' := by
  induction l with
  | nil => simp
  | cons y l ih =>
      by_cases hit : keyOf y = k
      · rw [List.filter_cons_of_neg (by simp [(picks y).mpr hit]), ih, List.find?_cons]
        by_cases at' : k' = k
        · rw [if_pos at', if_pos at']
        · have other : (keyOf y == k') = false :=
            beq_eq_false_iff_ne.mpr fun same => at' (same.symm.trans hit)
          rw [if_neg at', if_neg at', other]
      · have kept : same y = false := Bool.eq_false_iff.mpr fun dropped => hit ((picks y).mp dropped)
        rw [List.filter_cons_of_pos (by simp [kept]), List.find?_cons, List.find?_cons, ih]
        by_cases at' : keyOf y = k'
        · have other : k' ≠ k := fun same => hit (at'.trans same)
          rw [beq_iff_eq.mpr at']
          exact (if_neg other).symm
        · rw [beq_eq_false_iff_ne.mpr at']

/-- What is looked up under the key of an element is the element. -/
theorem DistinctBy.find?_key {β : Type} [DecidableEq κ] {keyOf : β → κ} {l : List β} {b : β}
    (distinct : DistinctBy keyOf l) (mem : b ∈ l) :
    (l.find? fun b' => keyOf b' == keyOf b) = some b := by
  obtain ⟨b', hit⟩ : ∃ b', l.find? (fun b' => keyOf b' == keyOf b) = some b' := by
    rw [← Option.isSome_iff_exists, List.find?_isSome]
    exact ⟨b, mem, beq_self_eq_true _⟩
  have same := List.find?_some hit
  rw [hit, distinct.eq_of_key (List.mem_of_find?_eq_some hit) mem (beq_iff_eq.mp same)]

/-- What is found among the elements that pass a test: one key is looked up alone. -/
theorem DistinctBy.find?_filter {β : Type} [DecidableEq κ] {keyOf : β → κ} {l : List β}
    (distinct : DistinctBy keyOf l) (p : β → Bool) (k : κ) :
    ((l.filter p).find? fun y => keyOf y == k) = (l.find? fun y => keyOf y == k).filter p := by
  cases found : l.find? fun y => keyOf y == k with
  | none =>
      rw [Option.filter_none, List.find?_eq_none]
      rw [List.find?_eq_none] at found
      intro y mem
      exact found y (List.mem_filter.mp mem).1
  | some x =>
      have mem := List.mem_of_find?_eq_some found
      have hit := List.find?_some found
      obtain rfl : keyOf x = k := beq_iff_eq.mp hit
      rw [Option.filter_some]
      split
      · rename_i kept
        exact (distinct.filter p).find?_key (List.mem_filter.mpr ⟨mem, kept⟩)
      · rename_i dropped
        rw [List.find?_eq_none]
        intro y mem' hit
        obtain ⟨mem', kept⟩ := List.mem_filter.mp mem'
        rw [distinct.eq_of_key mem' mem (beq_iff_eq.mp hit)] at kept
        exact dropped kept

/-- Distinct keys stay distinct when some elements are left out. -/
theorem DistinctBy.filterMap_of {β γ : Type} {f : α → Option β} {g : α → Option γ}
    {keyOf : β → κ} {keyOf' : γ → κ}
    (under : ∀ a b, f a = some b → ∃ c, g a = some c ∧ keyOf' c = keyOf b) {l : List α}
    (distinct : DistinctBy keyOf' (l.filterMap g)) : DistinctBy keyOf (l.filterMap f) := by
  have sub : ((l.filterMap f).map keyOf).Sublist ((l.filterMap g).map keyOf') := by
    clear distinct
    induction l with
    | nil => exact .slnil
    | cons a l ih =>
        cases made : f a with
        | none =>
            rw [List.filterMap_cons_none made]
            cases also : g a with
            | none =>
                rw [List.filterMap_cons_none also]
                exact ih
            | some c =>
                rw [List.filterMap_cons_some also]
                exact .cons _ ih
        | some b =>
            obtain ⟨c, also, same⟩ := under a b made
            rw [List.filterMap_cons_some made, List.filterMap_cons_some also, List.map_cons,
              List.map_cons, same]
            exact ih.cons_cons _
  exact List.Nodup.sublist sub distinct

end Echo.Lib
