import Echo.Lib.Stateful

/-!
What a program over a state establishes. `Ensures P m Q`: run from a state of `P`, the
program ends with an answer and in a state that `Q` holds of. `Upholds I m Q` is an
invariant with a fact about the answer, and what a guard answers is known in its sequel.
-/

namespace Echo.Lib

variable {σ α β : Type} {P I : σ → Prop} {Q : β → σ → Prop} {A : α → Prop} {B : β → Prop}

def Ensures (P : σ → Prop) (m : StateM σ α) (Q : α → σ → Prop) : Prop :=
  ∀ s, P s → Q (m.run s).1 (m.run s).2

/-- From every state of `I` the program ends in one, with an answer of `A`. -/
def Upholds (I : σ → Prop) (m : StateM σ α) (A : α → Prop) : Prop :=
  Ensures I m fun a s => I s ∧ A a

/-! ### Steps -/

theorem upholds_pure {a : α} (answer : A a) : Upholds I (pure a) A := fun _ holds => ⟨holds, answer⟩

theorem upholds_modify {f : σ → σ} (kept : ∀ s, I s → I (f s)) :
    Upholds I (modify f) fun _ => True :=
  fun s holds => ⟨kept s holds, trivial⟩

/-- A branch of the program: what its condition says may be used. -/
theorem upholds_ite {p : Prop} [Decidable p] {m n : StateM σ α} (yes : p → Upholds I m A)
    (no : ¬ p → Upholds I n A) : Upholds I (if p then m else n) A := by
  split
  · rename_i holds
    exact yes holds
  · rename_i fails
    exact no fails

/-! ### One after the other -/

theorem Ensures.bind {m : StateM σ α} {k : α → StateM σ β} {R : α → σ → Prop}
    (first : Ensures P m R) (rest : ∀ a, Ensures (R a) (k a) Q) : Ensures P (m >>= k) Q :=
  fun s holds => rest _ _ (first s holds)

theorem ensures_bind {m : StateM σ α} {k : α → StateM σ β} (first : Upholds I m A)
    (rest : ∀ a, A a → Ensures I (k a) Q) : Ensures I (m >>= k) Q :=
  Ensures.bind first fun a s ⟨holds, answer⟩ => rest a answer s holds

theorem upholds_bind {m : StateM σ α} {k : α → StateM σ β} (first : Upholds I m A)
    (rest : ∀ a, A a → Upholds I (k a) B) : Upholds I (m >>= k) B :=
  ensures_bind first rest

/-- A program that reads the state: what holds of the state holds of what is read. -/
theorem ensures_read {f : σ → α} {k : α → StateM σ β}
    (rest : ∀ s, I s → Ensures I (k (f s)) Q) : Ensures I ((do return f (← get)) >>= k) Q :=
  fun s holds => rest s holds s holds

theorem upholds_read {f : σ → α} {k : α → StateM σ β}
    (rest : ∀ s, I s → Upholds I (k (f s)) B) : Upholds I ((do return f (← get)) >>= k) B :=
  ensures_read rest

/-- A loop upholds what each of its rounds does. -/
theorem upholds_forM {body : α → StateM σ PUnit} {l : List α}
    (round : ∀ x ∈ l, Upholds I (body x) fun _ => True) :
    Upholds I (l.forM body) fun _ => True := by
  induction l with
  | nil => exact upholds_pure trivial
  | cons x l ih =>
      rw [List.forM_eq_forM, List.forM_cons]
      refine upholds_bind (round x List.mem_cons_self) fun _ _ => ?_
      exact ih fun y mem => round y (List.mem_cons_of_mem x mem)

end Echo.Lib
