import Mathlib.Order.Defs.Unbundled

/-!
Programs over a state: `StateM σ α` for those that always answer,
`ExceptT ε (StateM σ) α` for those that may fail with the state they had reached.

`Keeps R m s` relates the state `m` starts from to the state it ends in,
whatever the outcome. For a preorder `R` it composes: a program keeps `R` when
each of its steps does, so a property of whole programs is proved step by step.
-/

namespace Echo.Lib

variable {σ ε α β : Type} {R : σ → σ → Prop}

/-- Run from `s`, the program ends in a state that `R` relates to `s`. -/
def Keeps (R : σ → σ → Prop) (m : StateM σ α) (s : σ) : Prop := R s (m.run s).2

theorem Keeps.mono {R' : σ → σ → Prop} {m : StateM σ α} {s : σ} (h : Keeps R m s)
    (weaker : ∀ t, R s t → R' s t) : Keeps R' m s := weaker _ h

theorem keeps_get_bind {k : σ → StateM σ β} {s : σ} (h : Keeps R (k s) s) :
    Keeps R (get >>= k) s := h

theorem keeps_get_bindE {k : σ → ExceptT ε (StateM σ) β} {s : σ} (h : Keeps R (k s).run s) :
    Keeps R (get >>= k).run s := h

/-- A step that cannot fail, inside a program that can. -/
theorem keeps_liftE {m : StateM σ α} {s : σ} (h : Keeps R m s) :
    Keeps R (liftM m : ExceptT ε (StateM σ) α).run s := h

section Preorder

variable [IsPreorder σ R] {s : σ}

theorem keeps_pure {a : α} : Keeps R (pure a : StateM σ α) s := refl_of R s

theorem keeps_bind {m : StateM σ α} {k : α → StateM σ β} (first : Keeps R m s)
    (rest : Keeps R (k (m.run s).1) (m.run s).2) : Keeps R (m >>= k) s :=
  trans_of R first rest

/-- A loop keeps `R` when its body does from every state reached so far. -/
theorem keeps_forM {body : α → StateM σ Unit} :
    ∀ {l : List α} {s : σ}, (∀ x ∈ l, ∀ t, R s t → Keeps R (body x) t) →
      Keeps R (l.forM body) s
  | [], s, _ => refl_of R s
  | x :: xs, s, h => by
      have first : Keeps R (body x) s := h x List.mem_cons_self s (refl_of R s)
      refine keeps_bind first (keeps_forM fun y hy t ht => ?_)
      exact h y (List.mem_cons_of_mem x hy) t (trans_of R first ht)

/-- So does a loop that collects its rounds' answers. -/
theorem keeps_mapM {body : α → StateM σ β} :
    ∀ {l : List α} {s : σ}, (∀ x ∈ l, ∀ t, R s t → Keeps R (body x) t) →
      Keeps R (l.mapM body) s
  | [], s, _ => by
      rw [List.mapM_nil]
      exact keeps_pure
  | x :: xs, s, h => by
      have first : Keeps R (body x) s := h x List.mem_cons_self s (refl_of R s)
      rw [List.mapM_cons]
      refine keeps_bind first (keeps_bind (keeps_mapM fun y hy t ht => ?_) keeps_pure)
      exact h y (List.mem_cons_of_mem x hy) t (trans_of R first ht)

end Preorder

/-! ### Programs that may fail -/

section Failing

variable [IsPreorder σ R] {s : σ}

theorem keeps_ok {a : α} : Keeps R (pure a : ExceptT ε (StateM σ) α).run s := refl_of R s

theorem keeps_throw {e : ε} : Keeps R (throw e : ExceptT ε (StateM σ) α).run s := refl_of R s

theorem run_get_bind (k : σ → StateM σ β) (s : σ) : (get >>= k).run s = (k s).run s := rfl

theorem run_get_bindE (k : σ → ExceptT ε (StateM σ) β) (s : σ) :
    (get >>= k).run.run s = (k s).run.run s := rfl

/-- What a failing program's sequel does: it runs from the state the first half
reached, and only where that half answered. -/
theorem run_bindE (m : ExceptT ε (StateM σ) α) (k : α → ExceptT ε (StateM σ) β) (s : σ) :
    (m >>= k).run.run s =
      match m.run.run s with
      | (.ok a, t) => (k a).run.run t
      | (.error e, t) => (.error e, t) := by
  change (ExceptT.bindCont k (m.run.run s).1).run (m.run.run s).2 = _
  rcases m.run.run s with ⟨_ | a, t⟩ <;> rfl

theorem keeps_bindE {m : ExceptT ε (StateM σ) α} {k : α → ExceptT ε (StateM σ) β}
    (first : Keeps R m.run s)
    (rest : ∀ a t, m.run.run s = (.ok a, t) → Keeps R (k a).run t) :
    Keeps R (m >>= k).run s := by
  unfold Keeps at first ⊢
  rw [run_bindE]
  rcases outcome : m.run.run s with ⟨_ | a, t⟩
  · rwa [outcome] at first
  · rw [outcome] at first
    exact trans_of R first (rest a t outcome)

/-- A loop whose body may fail keeps `R` when each round does. -/
theorem keeps_forME {body : α → ExceptT ε (StateM σ) Unit} :
    ∀ {l : List α} {s : σ}, (∀ x ∈ l, ∀ t, R s t → Keeps R (body x).run t) →
      Keeps R (l.forM body).run s
  | [], s, _ => refl_of R s
  | x :: xs, s, h => by
      have first : Keeps R (body x).run s := h x List.mem_cons_self s (refl_of R s)
      refine keeps_bindE first fun _ t outcome => keeps_forME fun y hy u hu => ?_
      have reached : R s t := by
        have := first
        unfold Keeps at this
        rwa [outcome] at this
      exact h y (List.mem_cons_of_mem x hy) u (trans_of R reached hu)

end Failing

end Echo.Lib
