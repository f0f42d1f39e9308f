import Echo.Lib.Bindings

/-!
Tokens listed by the values of a map, each under one key at most. Removing and
shrinking values keeps that; a value put in, or a token added to one, keeps it
exactly when no other key lists what is new.
-/

namespace Echo.Lib

open Std (ExtTreeMap TransCmp LawfulEqCmp)

variable {κ α τ : Type} {cmp : κ → κ → Ordering} [TransCmp cmp] [LawfulEqCmp cmp]
  {tokens : α → List τ} {m m' : ExtTreeMap κ α cmp} {k : κ} {t : τ}

/-- No token is listed under two keys. -/
def Exclusive (tokens : α → List τ) (m : ExtTreeMap κ α cmp) : Prop :=
  ∀ (k : κ) v (k' : κ) v' t, m[k]? = some v → m[k']? = some v' → t ∈ tokens v → t ∈ tokens v' → k = k'

/-- No key but this one lists the token. -/
def OnlyUnder (tokens : α → List τ) (m : ExtTreeMap κ α cmp) (k : κ) (t : τ) : Prop :=
  ∀ (k' : κ) v, m[k']? = some v → t ∈ tokens v → k' = k

namespace Exclusive

omit [LawfulEqCmp cmp] in
theorem empty : Exclusive tokens (∅ : ExtTreeMap κ α cmp) := by
  intro k v k' v' t held
  rw [ExtTreeMap.getElem?_empty] at held
  contradiction

omit [LawfulEqCmp cmp] in
/-- What shrinks stays exclusive. -/
theorem of_sub (h : Exclusive tokens m)
    (sub : ∀ (k : κ) v', m'[k]? = some v' → ∃ v, m[k]? = some v ∧ tokens v' ⊆ tokens v) :
    Exclusive tokens m' := by
  intro k v k' v' t held held' mem mem'
  obtain ⟨w, was, from_w⟩ := sub k v held
  obtain ⟨w', was', from_w'⟩ := sub k' v' held'
  exact h k w k' w' t was was' (from_w mem) (from_w' mem')

omit [LawfulEqCmp cmp] in
theorem erase (h : Exclusive tokens m) : Exclusive tokens (m.erase k) := by
  refine h.of_sub fun k' v held => ?_
  rw [ExtTreeMap.getElem?_erase] at held
  split at held
  · contradiction
  · exact ⟨v, held, List.Subset.refl _⟩

theorem modify {f : α → α} (h : Exclusive tokens m) (sub : ∀ v, tokens (f v) ⊆ tokens v) :
    Exclusive tokens (m.modify k f) := by
  refine h.of_sub fun k' v held => ?_
  rw [ExtTreeMap.getElem?_modify] at held
  split at held
  · rename_i same
    obtain rfl := LawfulEqCmp.eq_of_compare same
    obtain ⟨w, was, rfl⟩ := Option.map_eq_some_iff.mp held
    exact ⟨w, was, sub w⟩
  · exact ⟨v, held, List.Subset.refl _⟩

/-- A value put in keeps its tokens from the other keys, or not. -/
theorem insert_iff {v : α} (h : Exclusive tokens m) :
    Exclusive tokens (m.insert k v) ↔ ∀ t ∈ tokens v, OnlyUnder tokens m k t := by
  constructor
  · intro kept t mem k' w held listed
    by_cases same : k' = k
    · exact same
    · refine (kept k v k' w t ExtTreeMap.getElem?_insert_self ?_ mem listed).symm
      rw [ExtTreeMap.getElem?_insert, if_neg fun eq => same (LawfulEqCmp.eq_of_compare eq).symm]
      exact held
  · intro only k₁ v₁ k₂ v₂ t held₁ held₂ mem₁ mem₂
    rw [ExtTreeMap.getElem?_insert] at held₁ held₂
    split at held₁
    · rename_i same₁
      cases held₁
      split at held₂
      · rename_i same₂
        rw [← LawfulEqCmp.eq_of_compare same₁, ← LawfulEqCmp.eq_of_compare same₂]
      · rw [← LawfulEqCmp.eq_of_compare same₁, only t mem₁ k₂ v₂ held₂ mem₂]
    · split at held₂
      · rename_i same₂
        cases held₂
        rw [← LawfulEqCmp.eq_of_compare same₂, only t mem₂ k₁ v₁ held₁ mem₁]
      · exact h k₁ v₁ k₂ v₂ t held₁ held₂ mem₁ mem₂

/-- One more token under a key is exclusive exactly when no other key lists it. -/
theorem modify_iff {f : α → α} (h : Exclusive tokens m)
    (adds : ∀ v t', t' ∈ tokens (f v) ↔ t' ∈ tokens v ∨ t' = t) :
    Exclusive tokens (m.modify k f) ↔ ∀ v, m[k]? = some v → OnlyUnder tokens m k t := by
  rcases held : m[k]? with _ | v
  · have same : m.modify k f = m.modify k id := modify_congr fun v now => by
      rw [held] at now
      contradiction
    rw [same, modify_id]
    simpa using h
  · rw [modify_eq_insert held, h.insert_iff]
    constructor
    · intro only _ _
      exact only t ((adds v t).mpr (.inr rfl))
    · intro only t' mem
      rcases (adds v t').mp mem with old | rfl
      · exact fun k' w held' listed => h k' w k v t' held' held listed old
      · exact only v rfl

end Exclusive

end Echo.Lib
