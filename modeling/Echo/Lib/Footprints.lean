/-!
Steps by their footprints: a state is looked at place by place, and what a step writes
depends on what it reads. Two steps neither of which writes what the other reads may come
in either order.
-/

namespace Echo.Lib

variable {σ P : Type} {V : P → Type} {look : σ → (p : P) → V p} {f g : σ → σ}
  {reads writes reads' writes' : P → Prop}

/-- A step that changes only the places it writes, to what the places it reads determine. -/
structure Confined (look : σ → (p : P) → V p) (step : σ → σ) (reads writes : P → Prop) : Prop where
  within : ∀ p, writes p → reads p
  frame : ∀ s p, ¬ writes p → look (step s) p = look s p
  determined : ∀ s t, (∀ p, reads p → look s p = look t p) →
    ∀ p, writes p → look (step s) p = look (step t) p

theorem Confined.congr (h : Confined look f reads writes) (sameReads : ∀ p, reads' p ↔ reads p)
    (sameWrites : ∀ p, writes' p ↔ writes p) : Confined look f reads' writes' := by
  obtain rfl : reads' = reads := funext fun p => propext (sameReads p)
  obtain rfl : writes' = writes := funext fun p => propext (sameWrites p)
  exact h

/-- Where a step writes, another that writes nothing it reads makes no difference. -/
theorem Confined.unmoved (h : Confined look f reads writes) (h' : Confined look g reads' writes')
    (apart : ∀ p, writes' p → ¬ reads p) (s : σ) {p : P} (written : writes p) :
    look (f (g s)) p = look (g (f s)) p := by
  have kept : ¬ writes' p := fun both => apart p both (h.within p written)
  rw [h'.frame (f s) p kept]
  exact h.determined (g s) s (fun q read => h'.frame s q fun both => apart q both read) p written

theorem Confined.comm (all : ∀ s t, (∀ p, look s p = look t p) → s = t)
    (h : Confined look f reads writes) (h' : Confined look g reads' writes')
    (apart : ∀ p, writes p → ¬ reads' p) (apart' : ∀ p, writes' p → ¬ reads p) (s : σ) :
    f (g s) = g (f s) := by
  refine all _ _ fun p => ?_
  by_cases mine : writes p
  · exact h.unmoved h' apart' s mine
  · by_cases yours : writes' p
    · exact (h'.unmoved h apart s yours).symm
    · rw [h.frame _ p mine, h'.frame _ p yours, h'.frame _ p yours, h.frame _ p mine]

end Echo.Lib
