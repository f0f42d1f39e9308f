/-!
Runs of a machine whose step is a function of the state and an action. `after`
is the state a run ends in; `Along` asks something of every action where the run
takes it. An invariant that each admitted step keeps holds at the end of every
admitted run.
-/

namespace Echo.Lib

variable {σ α : Type _} {step : σ → α → σ} {P Q : σ → α → Prop}

/-- The state after taking the actions in turn. -/
def after (step : σ → α → σ) (s : σ) (actions : List α) : σ := actions.foldl step s

/-- Every action of the run meets `P` in the state it is taken from. -/
def Along (step : σ → α → σ) (P : σ → α → Prop) : σ → List α → Prop
  | _, [] => True
  | s, a :: actions => P s a ∧ Along step P (step s a) actions

@[simp] theorem after_nil (s : σ) : after step s [] = s := rfl

@[simp] theorem after_cons (s : σ) (a : α) (actions : List α) :
    after step s (a :: actions) = after step (step s a) actions := rfl

theorem after_append (s : σ) (first rest : List α) :
    after step s (first ++ rest) = after step (after step s first) rest := List.foldl_append

theorem after_concat (s : σ) (actions : List α) (a : α) :
    after step s (actions ++ [a]) = step (after step s actions) a := List.foldl_append

theorem Along.mono {s : σ} {actions : List α} (h : Along step P s actions)
    (weaker : ∀ s a, P s a → Q s a) : Along step Q s actions := by
  induction actions generalizing s with
  | nil => trivial
  | cons a actions ih => exact ⟨weaker s a h.1, ih h.2⟩

theorem along_map {β : Type _} {f : β → α} (all : ∀ s b, P s (f b)) :
    ∀ {l : List β} {s : σ}, Along step P s (l.map f)
  | [], _ => trivial
  | b :: _, s => ⟨all s b, along_map all⟩

theorem along_append {s : σ} {first rest : List α} :
    Along step P s (first ++ rest) ↔
      Along step P s first ∧ Along step P (after step s first) rest := by
  induction first generalizing s with
  | nil => exact ⟨fun h => ⟨trivial, h⟩, fun h => h.2⟩
  | cons a first ih =>
      constructor
      · rintro ⟨now, later⟩
        obtain ⟨front, back⟩ := ih.mp later
        exact ⟨⟨now, front⟩, back⟩
      · rintro ⟨⟨now, front⟩, back⟩
        exact ⟨now, ih.mpr ⟨front, back⟩⟩

/-- Where two conditions on a step agree, so do they along a run. -/
theorem along_congr {J : σ → Prop} (steps : ∀ s a, J s → J (step s a))
    (same : ∀ s a, J s → (P s a ↔ Q s a)) {s : σ} {actions : List α} (start : J s) :
    Along step P s actions ↔ Along step Q s actions := by
  induction actions generalizing s with
  | nil => exact Iff.rfl
  | cons a actions ih => exact and_congr (same s a start) (ih (steps s a start))

/-- What every admitted step keeps, an admitted run keeps. -/
theorem Along.invariant {I : σ → Prop} {s : σ} {actions : List α}
    (run : Along step P s actions) (keeps : ∀ s a, I s → P s a → I (step s a)) (start : I s) :
    I (after step s actions) := by
  induction actions generalizing s with
  | nil => exact start
  | cons a actions ih => exact ih run.2 (keeps s a start run.1)

/-- What an admitted step has where an invariant holds, every step of an admitted
run has. -/
theorem Along.of_invariant {I : σ → Prop} {s : σ} {actions : List α} (run : Along step P s actions)
    (keeps : ∀ s a, I s → P s a → I (step s a)) (gives : ∀ s a, I s → P s a → Q s a) (start : I s) :
    Along step Q s actions := by
  induction actions generalizing s with
  | nil => trivial
  | cons a actions ih => exact ⟨gives s a start run.1, ih run.2 (keeps s a start run.1)⟩

/-- What every step keeps, every run keeps. -/
theorem invariant {I : σ → Prop} (keeps : ∀ s a, I s → I (step s a)) {s : σ} (start : I s)
    (actions : List α) : I (after step s actions) := by
  induction actions generalizing s with
  | nil => exact start
  | cons a actions ih => exact ih (keeps s a start)

theorem along_of_forall (all : ∀ s a, P s a) {s : σ} {actions : List α} : Along step P s actions := by
  induction actions generalizing s with
  | nil => trivial
  | cons a actions ih => exact ⟨all s a, ih⟩

/-- What holds all along a run holds on both sides of each of its steps. -/
theorem along_of_throughout {K : σ → Prop} {s : σ} {actions : List α}
    (held : ∀ before, before <+: actions → K (after step s before)) :
    Along step (fun s a => K s ∧ K (step s a)) s actions := by
  induction actions generalizing s with
  | nil => trivial
  | cons a actions ih =>
      refine ⟨⟨held [] (List.nil_prefix), held [a] (List.prefix_append [a] actions)⟩, ?_⟩
      refine ih fun before is_prefix => ?_
      exact held (a :: before) (List.cons_prefix_cons.mpr ⟨rfl, is_prefix⟩)

/-- Where, of the steps of a run within `Q`, the admitted are those that keep `I`,
the run is admitted exactly when `I` holds all along it. -/
theorem Along.iff_throughout {I J : σ → Prop} {s : σ} {actions : List α}
    (within : Along step Q s actions) (steps : ∀ s a, J s → J (step s a))
    (exact_step : ∀ s a, J s → I s → Q s a → (I (step s a) ↔ P s a)) (always : J s) (start : I s) :
    Along step P s actions ↔ ∀ before, before <+: actions → I (after step s before) := by
  induction actions generalizing s with
  | nil =>
      constructor
      · intro _ before is_prefix
        rw [List.prefix_nil.mp is_prefix]
        exact start
      · intro _
        trivial
  | cons a actions ih =>
      obtain ⟨first, rest⟩ := within
      constructor
      · rintro ⟨now, later⟩ before is_prefix
        cases before with
        | nil => exact start
        | cons b before =>
            obtain ⟨rfl, shorter⟩ := List.cons_prefix_cons.mp is_prefix
            have moved := (exact_step s b always start first).mpr now
            exact (ih rest (steps s b always) moved).mp later before shorter
      · intro held
        have moved : I (step s a) := held [a] (List.prefix_append [a] actions)
        refine ⟨(exact_step s a always start first).mp moved, ?_⟩
        refine (ih rest (steps s a always) moved).mpr fun before is_prefix => ?_
        exact held (a :: before) (List.cons_prefix_cons.mpr ⟨rfl, is_prefix⟩)

theorem along_iff_throughout {I J : σ → Prop} (steps : ∀ s a, J s → J (step s a))
    (exact_step : ∀ s a, J s → I s → (I (step s a) ↔ P s a)) {s : σ} (always : J s) (start : I s)
    {actions : List α} :
    Along step P s actions ↔ ∀ before, before <+: actions → I (after step s before) :=
  (along_of_forall (P := fun _ _ => True) fun _ _ => trivial).iff_throughout steps
    (fun s a always now _ => exact_step s a always now) always start

/-! ### Lists element by element -/

/-- Every element of the list stands to those before it as `R` says. -/
def Stepwise (R : List α → α → Prop) (l : List α) : Prop :=
  ∀ before x rest, l = before ++ x :: rest → R before x

variable {R : List α → α → Prop}

theorem stepwise_nil : Stepwise R ([] : List α) := by
  intro before x rest eq
  exact absurd eq.symm (by simp)

theorem stepwise_concat {l : List α} {x : α} :
    Stepwise R (l ++ [x]) ↔ Stepwise R l ∧ R l x := by
  constructor
  · intro h
    constructor
    · intro before y rest eq
      exact h before y (rest ++ [x]) (by rw [eq, List.append_assoc, List.cons_append])
    · exact h l x [] rfl
  · rintro ⟨front, last⟩ before y rest eq
    rcases List.eq_nil_or_concat rest with rfl | ⟨rest', z, rfl⟩
    · obtain ⟨rfl, same⟩ := List.append_inj' eq rfl
      cases same
      exact last
    · have shorter : l ++ [x] = (before ++ y :: rest') ++ [z] := by
        rw [eq, List.concat_eq_append, List.append_assoc, List.cons_append]
      exact front before y rest' (List.append_inj' shorter rfl).1

end Echo.Lib
