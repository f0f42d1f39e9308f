import Echo.Net.State

/-!
One ChanFix sample, identity by identity. An identity with two opped sessions in a
channel gains twice.
-/

namespace Echo.Net

open Echo.Lib

abbrev Scores := Assoc String (Assoc String Nat)

/-- The score of an identity in a channel, 0 if none is stored. -/
def Scores.score (scores : Scores) (chan id : String) : Nat :=
  ((scores.lookup chan).bind (·.lookup id)).getD 0

namespace Network

/-- How many sessions of an identity hold op in a channel. -/
def opped (n : Network) (chan id : String) : Nat :=
  (((n.channels.lookup chan).map (·.ops.keys)).getD []).countP fun uid => n.identity uid = some id

/-- Every stored score is between one and the maximum. -/
def InRange (n : Network) : Prop :=
  ∀ chan scores id v, n.chanfix.lookup chan = some scores → scores.lookup id = some v →
    1 ≤ v ∧ v ≤ chanfixMax

/-! ### The passes of a sample -/

section Passes

variable {scores : Scores} {chan id : String}

theorem score_decayed :
    Scores.score (Assoc.mapValues (fun _ own => Assoc.mapValues (fun _ v => v - 1) own) scores) chan id =
      scores.score chan id - 1 := by
  unfold Scores.score
  rw [Assoc.lookup_mapValues]
  cases scores.lookup chan with
  | none => rfl
  | some own =>
      rw [Option.map_some, Option.bind_some, Option.bind_some, Assoc.lookup_mapValues]
      cases own.lookup id <;> rfl

theorem score_bump (sample : String × String) :
    Scores.score (bump scores sample) chan id =
      if sample = (chan, id) then min (scores.score chan id + chanfixBump) chanfixMax
      else scores.score chan id := by
  obtain ⟨chan', id'⟩ := sample
  unfold Scores.score bump
  dsimp only
  rw [Assoc.lookup_insert_eq]
  by_cases channel : chan = chan'
  · subst channel
    rw [if_pos rfl, Option.bind_some, Assoc.lookup_insert_eq]
    by_cases own : id = id'
    · subst own
      rw [if_pos rfl, if_pos rfl]
      cases scores.lookup chan <;> rfl
    · rw [if_neg own, if_neg fun same => own (Prod.mk.inj same).2.symm]
      cases scores.lookup chan <;> rfl
  · rw [if_neg channel, if_neg fun same => channel (Prod.mk.inj same).1.symm]

/-- An identity gains once a sample, up to the maximum. -/
theorem score_bumps (samples : List (String × String)) (scores : Scores) :
    Scores.score (samples.foldl bump scores) chan id =
      if samples.count (chan, id) = 0 then scores.score chan id
      else min (scores.score chan id + chanfixBump * samples.count (chan, id)) chanfixMax := by
  induction samples generalizing scores with
  | nil => rfl
  | cons sample samples ih =>
      rw [List.foldl_cons, ih, score_bump]
      by_cases own : sample = (chan, id)
      · subst own
        rw [if_pos rfl, List.count_cons_self, if_neg (Nat.succ_ne_zero _)]
        unfold chanfixBump chanfixMax
        split <;> omega
      · rw [if_neg own, List.count_cons_of_ne own]

theorem score_positive :
    Scores.score (Assoc.mapValues (fun _ own => Assoc.retain (fun _ v => 0 < v) own) scores) chan id =
      scores.score chan id := by
  unfold Scores.score
  rw [Assoc.lookup_mapValues]
  cases scores.lookup chan with
  | none => rfl
  | some own =>
      rw [Option.map_some, Option.bind_some, Option.bind_some, Assoc.lookup_retain]
      cases own.lookup id with
      | none => rfl
      | some v =>
          rw [Option.filter_some]
          by_cases positive : 0 < v
          · rw [if_pos (decide_eq_true positive)]
          · rw [if_neg (by simpa using positive)]
            exact (Nat.eq_zero_of_not_pos positive).symm

theorem score_nonempty :
    Scores.score (Assoc.retain (fun _ own => !own.entries.isEmpty) scores) chan id =
      scores.score chan id := by
  unfold Scores.score
  rw [Assoc.lookup_retain]
  cases scores.lookup chan with
  | none => rfl
  | some own =>
      rw [Option.filter_some]
      by_cases empty : own = ∅
      · subst empty
        rfl
      · have some_entry : (!own.entries.isEmpty) = true := by
          simpa using fun none : own.entries = [] => empty (AList.ext none)
        rw [if_pos some_entry]

end Passes

/-! ### The samples -/

section Samples

variable (n : Network) (chan id : String)

theorem count_ops (chan' : String) (ops : List String) :
    ((ops.filterMap fun uid => (n.identity uid).map fun id => (chan', id)).count (chan, id)) =
      if chan' = chan then ops.countP fun uid => n.identity uid = some id else 0 := by
  induction ops with
  | nil => simp
  | cons uid ops ih =>
      rw [List.filterMap_cons, List.countP_cons]
      cases known : n.identity uid with
      | none => simpa using ih
      | some id' =>
          rw [Option.map_some]
          dsimp only
          rw [List.count_cons, ih]
          by_cases channel : chan' = chan
          · by_cases own : id' = id <;> simp [channel, own]
          · simp [channel]

/-- The opped sessions of an identity are its samples. -/
theorem count_samples : n.samples.count (chan, id) = n.opped chan id := by
  have others (entries : List (Sigma fun _ : String => Channel))
      (none : ∀ e ∈ entries, e.1 ≠ chan) :
      (entries.flatMap fun e => e.2.ops.keys.filterMap fun uid =>
        (n.identity uid).map fun id => (e.1, id)).count (chan, id) = 0 := by
    induction entries with
    | nil => rfl
    | cons e entries ih =>
        rw [List.flatMap_cons, List.count_append, count_ops, if_neg (none e List.mem_cons_self),
          ih fun e mem => none e (List.mem_cons_of_mem _ mem)]
  unfold samples opped
  cases held : n.channels.lookup chan with
  | none =>
      refine others _ fun e mem same => ?_
      have known := Assoc.mem_entries_iff.mp (show ⟨e.1, e.2⟩ ∈ n.channels.entries from mem)
      rw [same, held] at known
      contradiction
  | some c =>
      rw [((Assoc.perm_erase held).flatMap_right _).count_eq, List.flatMap_cons, List.count_append,
        count_ops, if_pos rfl, others _ ?_]
      · rfl
      · intro e mem same
        have known := Assoc.mem_entries_iff.mp
          (show ⟨e.1, e.2⟩ ∈ (n.channels.erase chan).entries from mem)
        rw [same, AList.lookup_erase] at known
        contradiction

/-- The score of an identity after a sample. -/
theorem score_chanfixSample :
    Scores.score n.chanfixSample.chanfix chan id =
      if n.opped chan id = 0 then Scores.score n.chanfix chan id - 1
      else min (Scores.score n.chanfix chan id - 1 + chanfixBump * n.opped chan id) chanfixMax := by
  unfold chanfixSample
  dsimp only
  rw [score_nonempty, score_positive, score_bumps, score_decayed, count_samples]

end Samples

/-- What is stored after a sample is positive. -/
theorem pos_of_sampled {n : Network} {chan id : String} {scores : Assoc String Nat} {v : Nat}
    (held : n.chanfixSample.chanfix.lookup chan = some scores) (stored : scores.lookup id = some v) :
    0 < v := by
  unfold chanfixSample at held
  dsimp only at held
  rw [Assoc.lookup_retain] at held
  obtain ⟨positive, -⟩ := Option.filter_eq_some_iff.mp held
  rw [Assoc.lookup_mapValues] at positive
  obtain ⟨own, -, rfl⟩ := Option.map_eq_some_iff.mp positive
  rw [Assoc.lookup_retain] at stored
  exact of_decide_eq_true (Option.filter_eq_some_iff.mp stored).2

theorem InRange.sample {n : Network} (range : n.InRange) : n.chanfixSample.InRange := by
  intro chan scores id v held stored
  refine ⟨pos_of_sampled held stored, ?_⟩
  have value : Scores.score n.chanfixSample.chanfix chan id = v := by
    unfold Scores.score
    rw [held, Option.bind_some, stored]
    rfl
  have old : Scores.score n.chanfix chan id ≤ chanfixMax := by
    unfold Scores.score
    cases own : n.chanfix.lookup chan with
    | none => exact Nat.zero_le _
    | some scores =>
        rw [Option.bind_some]
        cases before : scores.lookup id with
        | none => exact Nat.zero_le _
        | some v => exact (range chan scores id v own before).2
  rw [← value, score_chanfixSample]
  split <;> omega

/-- A sample raises a score by one gain at most, and lowers that of an absent identity by
the decay only, just where the identity has one opped session or the gain reaches the
maximum. Scores stay in range. -/
theorem chanfixSample_single_iff (n : Network) :
    (∀ chan id,
      (Scores.score n.chanfixSample.chanfix chan id ≤ Scores.score n.chanfix chan id - 1 + chanfixBump ∧
        (n.opped chan id = 0 →
          Scores.score n.chanfixSample.chanfix chan id = Scores.score n.chanfix chan id - 1)) ↔
      (n.opped chan id ≤ 1 ∨ chanfixMax ≤ Scores.score n.chanfix chan id - 1 + chanfixBump)) ∧
    (n.InRange → n.chanfixSample.InRange) := by
  refine ⟨fun chan id => ?_, InRange.sample⟩
  rw [score_chanfixSample]
  unfold chanfixBump
  by_cases absent : n.opped chan id = 0
  · rw [if_pos absent]
    omega
  · rw [if_neg absent]
    omega

/-- One account holds op in a channel twice over. -/
def twiceOpped : Network :=
  (((({} : Network).setAccount "0IRAAAAAB" "alice").setAccount "0IRAAAAAC" "alice").setOp "#a"
    "0IRAAAAAB" true).setOp "#a" "0IRAAAAAC" true

theorem twiceOpped_gains :
    Scores.score twiceOpped.chanfix "#a" "alice" = 0 ∧
      Scores.score twiceOpped.chanfixSample.chanfix "#a" "alice" = 4 ∧ twiceOpped.InRange := by
  refine ⟨by decide +kernel, by decide +kernel, ?_⟩
  intro chan scores id v held
  contradiction

end Network

end Echo.Net
