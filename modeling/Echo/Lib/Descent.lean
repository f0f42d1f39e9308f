import Mathlib.Data.Finset.Basic
import Mathlib.Data.Finset.Card
import Mathlib.Logic.Relation

/-!
Reachability in a table of links by a worklist. The list grows at the end while it is
read from the front; a node is put on it once. Whatever the links are, cycles and loops
included, this ends with the nodes reachable from the ones it began with.
-/

namespace Echo.Lib

variable {α : Type} [DecidableEq α]

/-- A link leads from its parent to its child. -/
abbrev Links (α : Type) := List (α × α)

/-- The table has the child under the parent. -/
def Links.Below (links : Links α) (parent child : α) : Prop := (child, parent) ∈ links

/-- Append the children of a node that have not been found. -/
def children (links : Links α) (parent : α) (found : List α) : List α :=
  links.foldl
    (fun found (child, up) => if up = parent ∧ child ∉ found then found ++ [child] else found) found

/-- What one scan of the table appends. -/
structure Appends (links : Links α) (parent : α) (found new : List α) : Prop where
  nodup : new.Nodup
  below : ∀ x ∈ new, links.Below parent x ∧ x ∉ found
  all : ∀ x, links.Below parent x → x ∈ found ∨ x ∈ new

theorem children_appends (links : Links α) (parent : α) (found : List α) :
    ∃ new, children links parent found = found ++ new ∧ Appends links parent found new := by
  induction links using List.reverseRecOn with
  | nil => exact ⟨[], by simp [children], by simp, by simp, by simp [Links.Below]⟩
  | append_singleton links link ih =>
      obtain ⟨new, scanned, nodup, below, all⟩ := ih
      obtain ⟨child, up⟩ := link
      have last : children (links ++ [(child, up)]) parent found =
          if up = parent ∧ child ∉ found ++ new then found ++ new ++ [child] else found ++ new := by
        rw [← scanned]
        exact List.foldl_append
      rw [last]
      by_cases fresh : up = parent ∧ child ∉ found ++ new
      · obtain ⟨rfl, fresh⟩ := fresh
        rw [if_pos ⟨rfl, fresh⟩]
        refine ⟨new ++ [child], by simp, ?_, ?_, ?_⟩
        · refine List.nodup_append.mpr ⟨nodup, by simp, ?_⟩
          rintro x mem y same rfl
          rw [List.mem_singleton.mp same] at mem
          exact fresh (List.mem_append_right _ mem)
        · intro x mem
          rcases List.mem_append.mp mem with old | same
          · exact ⟨List.mem_append_left _ (below x old).1, (below x old).2⟩
          · rw [List.mem_singleton.mp same]
            exact ⟨by simp [Links.Below], fun mem => fresh (List.mem_append_left _ mem)⟩
        · intro x under
          rcases List.mem_append.mp under with old | same
          · exact (all x old).imp_right (List.mem_append_left _)
          · rw [(Prod.mk.inj (List.mem_singleton.mp same)).1]
            exact .inr (by simp)
      · rw [if_neg fresh]
        refine ⟨new, rfl, nodup, ?_, ?_⟩
        · intro x mem
          exact ⟨List.mem_append_left _ (below x mem).1, (below x mem).2⟩
        · intro x under
          rcases List.mem_append.mp under with old | same
          · exact all x old
          · obtain ⟨rfl, rfl⟩ := Prod.mk.inj (List.mem_singleton.mp same)
            have known : x ∈ found ++ new := by
              by_contra other
              exact fresh ⟨rfl, other⟩
            exact List.mem_append.mp known

/-- The nodes of the table that have not been found. -/
def unfound (links : Links α) (found : List α) : Finset α :=
  (links.map Prod.fst).toFinset \ found.toFinset

theorem card_unfound {links : Links α} {parent : α} {found new : List α}
    (appends : Appends links parent found new) :
    (unfound links (found ++ new)).card + new.length = (unfound links found).card := by
  have part : new.toFinset ⊆ unfound links found := by
    intro x mem
    obtain ⟨below, fresh⟩ := appends.below x (List.mem_toFinset.mp mem)
    refine Finset.mem_sdiff.mpr ⟨List.mem_toFinset.mpr ?_, by simpa using fresh⟩
    exact List.mem_map.mpr ⟨_, below, rfl⟩
  have rest : unfound links (found ++ new) = unfound links found \ new.toFinset := by
    unfold unfound
    rw [List.toFinset_append, sdiff_sdiff_left]
    rfl
  rw [rest, Finset.card_sdiff_of_subset part, List.toFinset_card_of_nodup appends.nodup]
  have := Finset.card_le_card part
  rw [List.toFinset_card_of_nodup appends.nodup] at this
  omega

/-- Go through the list from the `i`-th node on, appending what lies below each. -/
def descend (links : Links α) (found : List α) (i : Nat) : List α :=
  if _more : i < found.length then descend links (children links found[i] found) (i + 1) else found
termination_by (unfound links found).card + (found.length - i)
decreasing_by
  obtain ⟨new, scanned, appends⟩ := children_appends links found[i] found
  have shrinks := card_unfound appends
  rw [scanned, List.length_append]
  omega

/-- How the list stands when `i` nodes have been gone through. -/
structure Descended (links : Links α) (roots found : List α) (i : Nat) : Prop where
  nodup : found.Nodup
  rooted : ∀ x ∈ roots, x ∈ found
  reached : ∀ x ∈ found, ∃ root ∈ roots, Relation.ReflTransGen links.Below root x
  closed : ∀ x ∈ found.take i, ∀ y, links.Below x y → y ∈ found

variable {links : Links α} {roots found : List α} {i : Nat}

/-- One node. -/
theorem Descended.step (d : Descended links roots found i) (more : i < found.length) :
    Descended links roots (children links found[i] found) (i + 1) := by
  obtain ⟨new, scanned, nodup, below, all⟩ := children_appends links found[i] found
  rw [scanned]
  constructor
  · refine List.nodup_append.mpr ⟨d.nodup, nodup, ?_⟩
    rintro x old y mem rfl
    exact (below x mem).2 old
  · exact fun x mem => List.mem_append_left _ (d.rooted x mem)
  · intro x mem
    rcases List.mem_append.mp mem with old | mem
    · exact d.reached x old
    · obtain ⟨root, among, path⟩ := d.reached found[i] (List.getElem_mem more)
      exact ⟨root, among, path.tail (below x mem).1⟩
  · intro x mem y under
    rw [List.take_append_of_le_length more, List.take_succ_eq_append_getElem more] at mem
    rcases List.mem_append.mp mem with old | same
    · exact List.mem_append_left _ (d.closed x old y under)
    · rw [List.mem_singleton.mp same] at under
      exact List.mem_append.mpr (all y under)

/-- The whole list. -/
theorem descended_descend (d : Descended links roots found i) :
    Descended links roots (descend links found i) (descend links found i).length := by
  fun_induction descend links found i with
  | case1 found i more ih => exact ih (d.step more)
  | case2 found i done =>
      refine ⟨d.nodup, d.rooted, d.reached, fun x mem => d.closed x ?_⟩
      rw [List.take_length] at mem
      rwa [List.take_of_length_le (not_lt.mp done)]

/-- The list has every node reachable from the first one, once. -/
theorem descend_exact (links : Links α) (root : α) :
    (descend links [root] 0).Nodup ∧
      ∀ x, x ∈ descend links [root] 0 ↔ Relation.ReflTransGen links.Below root x := by
  have start : Descended links [root] [root] 0 :=
    ⟨List.nodup_singleton root, fun _ mem => mem, fun x mem => ⟨x, mem, .refl⟩, by simp⟩
  have done := descended_descend start
  refine ⟨done.nodup, fun x => ⟨fun mem => ?_, fun path => ?_⟩⟩
  · obtain ⟨from_root, among, path⟩ := done.reached x mem
    rwa [List.mem_singleton.mp among] at path
  · induction path with
    | refl => exact done.rooted root List.mem_cons_self
    | tail _ under ih =>
        exact done.closed _ (by rwa [List.take_length]) _ under

end Echo.Lib
