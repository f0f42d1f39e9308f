import Echo.Db.Compact

/-!
Rebuilding: the fold of a snapshot, piece by piece. Each group of events turns
the part of the store it is about into what the snapshot was taken of and leaves
the rest alone; a channel's group does so up to what the snapshot leaves out.
-/

namespace Echo

open Std (ExtTreeMap)
open Echo.Lib

/-! ### Folding in pieces -/

/-- Folding the events takes the one store to the other. -/
def Rebuilds (s : Store) (events : List Event) (s' : Store) : Prop := fold s events = s'

theorem Rebuilds.append {a b c : Store} {events events' : List Event} (first : Rebuilds a events b)
    (second : Rebuilds b events' c) : Rebuilds a (events ++ events') c := by
  unfold Rebuilds at *
  rw [fold_append, first, second]

/-- Rebuilding a list element by element, `f` giving the store after each
part of it. -/
theorem rebuilds_each {α : Type} {events : α → List Event} {f : List α → Store} {l : List α}
    (step : ∀ done x rest, l = done ++ x :: rest →
      Rebuilds (f done) (events x) (f (done ++ [x]))) :
    Rebuilds (f []) (l.flatMap events) (f l) := by
  suffices h : ∀ rest done, l = done ++ rest → Rebuilds (f done) (rest.flatMap events) (f l)
    from h l [] rfl
  intro rest
  induction rest with
  | nil =>
      intro done eq
      rw [eq, List.append_nil]
      exact rfl
  | cons x rest ih =>
      intro done eq
      rw [List.flatMap_cons]
      refine (step done x rest eq).append (ih (done ++ [x]) ?_)
      rw [eq, List.append_assoc, List.singleton_append]

/-! ### Folding into a part of the store -/

section Part

variable {α β : Type} (hold : β → Store) {x y : β}

/-- A field at its default is not written. -/
theorem rebuilds_oneIf {p : Prop} [Decidable p] {e : Event}
    (acts : p → apply (hold x) e = hold y) (idle : ¬ p → x = y) :
    Rebuilds (hold x) (oneIf p e) (hold y) := by
  unfold Rebuilds oneIf
  split
  · rename_i some
    exact acts some
  · rename_i none
    rw [fold_nil, idle none]

/-- An optional field that is empty is not written. -/
theorem rebuilds_oneFor {value : Option α} {e : α → Event} (f : Option α → β)
    (acts : ∀ a ∈ value, apply (hold x) (e a) = hold (f (some a))) (idle : x = f none) :
    Rebuilds (hold x) (oneFor value e) (hold (f value)) := by
  unfold Rebuilds oneFor
  rcases value with _ | a
  · rw [← idle]
    rfl
  · rw [Option.map_some, Option.toList_some, fold_cons, fold_nil, acts a rfl]

/-- A list with distinct keys, rebuilt from nothing: no element meets one of its
own key. -/
theorem rebuilds_keyed {κ : Type} {keyOf : α → κ} {l : List α} (events : α → List Event)
    (distinct : DistinctBy keyOf l) (f : List α → β)
    (step : ∀ done a, (∀ b ∈ done, keyOf b ≠ keyOf a) → a ∈ l →
      Rebuilds (hold (f done)) (events a) (hold (f (done ++ [a])))) :
    Rebuilds (hold (f [])) (l.flatMap events) (hold (f l)) := by
  refine rebuilds_each (f := fun done => hold (f done)) fun done a rest eq => ?_
  rw [eq] at distinct
  exact step done a distinct.fresh (eq ▸ List.mem_append_right done List.mem_cons_self)

/-- The same for a list whose events replace by key. -/
theorem rebuilds_listed {κ : Type} {keyOf : α → κ} {e : α → Event} {l : List α}
    {keep : α → α → Bool} (distinct : DistinctBy keyOf l) (get : β → List α)
    (put : List α → β → β)
    (acts : ∀ b a, apply (hold b) (e a) = hold (put ((get b).filter (keep a) ++ [a]) b))
    (keeps : ∀ a a', keyOf a' ≠ keyOf a → keep a a' = true) (gets : ∀ l, get (put l x) = l)
    (puts : ∀ l l', put l' (put l x) = put l' x) (empty : put [] x = x) :
    Rebuilds (hold x) (l.map e) (hold (put l x)) := by
  have built : Rebuilds (hold (put [] x)) (l.flatMap fun a => [e a]) (hold (put l x)) := by
    refine rebuilds_keyed hold (fun a => [e a]) distinct (put · x) fun done a fresh _ => ?_
    unfold Rebuilds
    rw [fold_cons, fold_nil, acts, gets, puts,
      filter_append_of_fresh a fun b hb => keeps a b (fresh b hb)]
  rwa [empty, ← List.map_eq_flatMap] at built

/-- A map, rebuilt from the empty one in whatever order it is visited. -/
theorem rebuilds_bindings (env : Env) {m : Table α} (events : String × α → List Event)
    (f : Table α → β)
    (step : ∀ (t : Table α) (k : String) a, m[k]? = some a → t[k]? = none →
      Rebuilds (hold (f t)) (events (k, a)) (hold (f (t.insert k a)))) :
    Rebuilds (hold (f ∅)) ((env.entries m).flatMap events) (hold (f m)) := by
  have order : (env.entries m).Perm m.toList := env.iter_perm m.toList
  have built : Rebuilds (hold (f (insertAll ∅ []))) ((env.entries m).flatMap events)
      (hold (f (insertAll ∅ (env.entries m)))) := by
    refine rebuilds_keyed hold (κ := String) events (nodup_keys_of_perm order)
      (fun done => f (insertAll ∅ done)) fun done a fresh mem => ?_
    rw [insertAll_concat]
    refine step (insertAll ∅ done) a.1 a.2 (Env.mem_entries.mp mem) ?_
    rw [getElem?_insertAll_of_absent fresh, ExtTreeMap.getElem?_empty]
  rwa [insertAll_of_perm order] at built

end Part

theorem differs_of_key {a b : String} (h : key a ≠ key b) : (!eqIgnoreAsciiCase a b) = true := by
  rw [Bool.not_eq_true', Bool.eq_false_iff]
  exact fun same => h (eqIgnoreAsciiCase_iff_key.mp same)

/-! ### One channel -/

/-- A channel as its snapshot rebuilds it: a parameter lock without a mode lock
and a topic setter without a topic are dropped. -/
def ChannelInfo.recovered (c : ChannelInfo) : ChannelInfo :=
  { c with
    lockParams := if c.lockOn ≠ "" ∨ c.lockOff ≠ "" then c.lockParams else []
    topicSetter := if c.topic ≠ "" then c.topicSetter else ""
    badwordsRev := if c.badwords ≠ [] then 1 else 0
    triggersRev := if c.triggers ≠ [] then 1 else 0 }

/-- The store with a channel held under a name. -/
def Store.holding (s : Store) (name : String) (c : ChannelInfo) : Store :=
  { s with channels := s.channels.insert (key name) c }

theorem Store.adjustChannel_holding {s : Store} {name : String} {c : ChannelInfo}
    (f : ChannelInfo → ChannelInfo) :
    (s.holding name c).adjustChannel name f = s.holding name (f c) := by
  unfold adjustChannel holding
  simp only [modify_insert_self]

section Channel

variable {s : Store} {n : String} {x y : ChannelInfo}

theorem rebuilds_field {f : ChannelInfo → ChannelInfo} {p : Prop} [Decidable p] {e : Event}
    (acts : ∀ s : Store, apply s e = s.adjustChannel n f) (result : f x = y)
    (idle : ¬ p → x = y) :
    Rebuilds (s.holding n x) (oneIf p e) (s.holding n y) :=
  rebuilds_oneIf (s.holding n)
    (fun _ => by rw [acts, Store.adjustChannel_holding, result]) idle

theorem rebuilds_option {α : Type} {value : Option α} {e : α → Event}
    (f : Option α → ChannelInfo → ChannelInfo)
    (acts : ∀ (s : Store) a, apply s (e a) = s.adjustChannel n (f (some a)))
    (idle : x = f none x) :
    Rebuilds (s.holding n x) (oneFor value e) (s.holding n (f value x)) :=
  rebuilds_oneFor (s.holding n) (f · x) (fun _ _ => by rw [acts, Store.adjustChannel_holding]) idle

theorem rebuilds_entries {α : Type} {keyOf : α → String} {e : α → Event} {l : List α}
    {keep : α → α → Bool} (distinct : DistinctBy keyOf l) (get : ChannelInfo → List α)
    (put : List α → ChannelInfo → ChannelInfo)
    (acts : ∀ (s : Store) a, apply s (e a) =
      s.adjustChannel n fun c => put ((get c).filter (keep a) ++ [a]) c)
    (keeps : ∀ a a', keyOf a' ≠ keyOf a → keep a a' = true) (gets : ∀ l, get (put l x) = l)
    (puts : ∀ l l', put l' (put l x) = put l' x) (empty : put [] x = x) :
    Rebuilds (s.holding n x) (l.map e) (s.holding n (put l x)) :=
  rebuilds_listed (s.holding n) distinct get put (fun _ _ => by rw [acts, Store.adjustChannel_holding])
    keeps gets puts empty

end Channel

namespace ChannelInfo

variable {k : String} {c : ChannelInfo}

theorem rebuilds_base (wf : c.Wf k) (s : Store) :
    Rebuilds s c.snapshotBase (s.holding c.name
      { newChannel c.name c.founder c.ts with
        lastUsed := c.lastUsed, lockOn := c.lockOn, lockOff := c.lockOff
        lockParams := if c.lockOn ≠ "" ∨ c.lockOff ≠ "" then c.lockParams else [] }) := by
  have registered : Rebuilds s [.channelRegistered c.name c.founder c.ts]
      (s.holding c.name (newChannel c.name c.founder c.ts)) := rfl
  refine (registered.append (rebuilds_oneIf _
    (y := { newChannel c.name c.founder c.ts with lastUsed := c.lastUsed })
    (fun later => ?_) fun none => ?_)).append (rebuilds_oneIf _ (fun locked => ?_) fun none => ?_)
  · refine (Store.adjustChannel_holding _).trans ?_
    simp only [newChannel, Nat.max_eq_right (Nat.le_of_lt later)]
  · simp only [newChannel]
    rw [Nat.le_antisymm wf.used (Nat.le_of_not_lt none)]
  · rw [if_pos locked]
    exact Store.adjustChannel_holding _
  · rw [if_neg none]
    rw [not_or, not_not, not_not] at none
    rw [none.1, none.2]
    rfl

variable {s : Store} {x : ChannelInfo}

theorem rebuilds_lists (wf : c.Wf k)
    (empty : (x.access, x.levels, x.akick) = ([], [], [])) :
    Rebuilds (s.holding c.name x) c.snapshotLists (s.holding c.name
      { x with access := c.access, levels := c.levels, akick := c.akick }) := by
  simp only [Prod.mk.injEq] at empty
  unfold snapshotLists
  refine .append (.append
    (rebuilds_entries wf.access (·.access) (fun l x => { x with access := l })
      (fun _ _ => rfl) (fun _ _ => differs_of_key) (fun _ => rfl) (fun _ _ => rfl) ?_)
    (rebuilds_entries wf.levels (·.levels) (fun l x => { x with levels := l })
      (fun _ _ => rfl) (fun _ _ => differs_of_key) (fun _ => rfl) (fun _ _ => rfl) ?_))
    (rebuilds_entries wf.akick (·.akick) (fun l x => { x with akick := l })
      (fun _ _ => rfl) (fun _ _ => differs_of_key) (fun _ => rfl) (fun _ _ => rfl) ?_)
  · rw [← empty.1]
  · rw [← empty.2.1]
  · rw [← empty.2.2]

theorem rebuilds_texts
    (empty : (x.desc, x.entrymsg, x.url, x.email, x.successor) = ("", "", "", "", none)) :
    Rebuilds (s.holding c.name x) c.snapshotTexts (s.holding c.name
      { x with
        desc := c.desc, entrymsg := c.entrymsg, url := c.url, email := c.email
        successor := c.successor }) := by
  simp only [Prod.mk.injEq] at empty
  unfold snapshotTexts
  refine .append (.append (.append (.append
    (rebuilds_field (y := { x with desc := c.desc }) (fun _ => rfl) rfl fun none => ?_)
    (rebuilds_field (y := { x with desc := c.desc, entrymsg := c.entrymsg })
      (fun _ => rfl) rfl fun none => ?_))
    (rebuilds_field (y := { x with desc := c.desc, entrymsg := c.entrymsg, url := c.url })
      (fun _ => rfl) rfl fun none => ?_))
    (rebuilds_field
      (y := { x with
        desc := c.desc, entrymsg := c.entrymsg, url := c.url, email := c.email })
      (fun _ => rfl) rfl fun none => ?_))
    (rebuilds_option (fun v x => { x with successor := v }) (fun _ _ => rfl) ?_)
  · rw [not_not.mp none, ← empty.1]
  · rw [not_not.mp none, ← empty.2.1]
  · rw [not_not.mp none, ← empty.2.2.1]
  · rw [not_not.mp none, ← empty.2.2.2.1]
  · rw [← empty.2.2.2.2]

theorem rebuilds_flags
    (empty : (x.noexpire, x.expiryWarned, x.settings, x.topic, x.topicSetter, x.suspension) =
      (false, false, {}, "", "", none)) :
    Rebuilds (s.holding c.name x) c.snapshotFlags (s.holding c.name
      { x with
        noexpire := c.noexpire, expiryWarned := c.expiryWarned, settings := c.settings
        topic := c.topic, topicSetter := if c.topic ≠ "" then c.topicSetter else ""
        suspension := c.suspension }) := by
  simp only [Prod.mk.injEq] at empty
  unfold snapshotFlags
  refine .append (.append (.append (.append
    (rebuilds_oneIf _ (y := { x with noexpire := c.noexpire }) (fun on => ?_) fun off => ?_)
    (rebuilds_oneIf _ (y := { x with noexpire := c.noexpire, expiryWarned := c.expiryWarned })
      (fun on => ?_) fun off => ?_))
    (rebuilds_field
      (y := { x with
        noexpire := c.noexpire, expiryWarned := c.expiryWarned, settings := c.settings })
      (fun _ => rfl) rfl fun none => ?_))
    (rebuilds_oneIf _
      (y := { x with
        noexpire := c.noexpire, expiryWarned := c.expiryWarned, settings := c.settings
        topic := c.topic, topicSetter := if c.topic ≠ "" then c.topicSetter else "" })
      (fun some => ?_) fun none => ?_))
    (rebuilds_option (fun v x => { x with suspension := v }) (fun _ _ => rfl) ?_)
  · rw [on]
    exact Store.adjustChannel_holding _
  · rw [Bool.eq_false_iff.mpr off, ← empty.1]
  · rw [on]
    exact Store.adjustChannel_holding _
  · rw [Bool.eq_false_iff.mpr off, ← empty.2.1]
  · rw [not_not.mp none, ← empty.2.2.1]
  · rw [if_pos some]
    exact Store.adjustChannel_holding _
  · rw [if_neg none, not_not.mp none, empty.2.2.2.1, empty.2.2.2.2.1]
  · rw [← empty.2.2.2.2.2]

theorem rebuilds_bot
    (empty : (x.assignedBot, x.kickers, x.badwords, x.badwordsRev, x.triggers, x.triggersRev,
      x.operNote) = (none, {}, [], 0, [], 0, none)) :
    Rebuilds (s.holding c.name x) c.snapshotBot (s.holding c.name
      { x with
        assignedBot := c.assignedBot, kickers := c.kickers, badwords := c.badwords
        badwordsRev := if c.badwords ≠ [] then 1 else 0, triggers := c.triggers
        triggersRev := if c.triggers ≠ [] then 1 else 0, operNote := c.operNote }) := by
  simp only [Prod.mk.injEq] at empty
  unfold snapshotBot
  refine .append (.append (.append (.append
    (rebuilds_option (fun v x => { x with assignedBot := v }) (fun _ _ => rfl) ?_)
    (rebuilds_field (y := { x with assignedBot := c.assignedBot, kickers := c.kickers })
      (fun _ => rfl) rfl fun none => ?_))
    (rebuilds_oneIf _
      (y := { x with
        assignedBot := c.assignedBot, kickers := c.kickers, badwords := c.badwords
        badwordsRev := if c.badwords ≠ [] then 1 else 0 })
      (fun some => ?_) fun none => ?_))
    (rebuilds_oneIf _
      (y := { x with
        assignedBot := c.assignedBot, kickers := c.kickers, badwords := c.badwords
        badwordsRev := if c.badwords ≠ [] then 1 else 0, triggers := c.triggers
        triggersRev := if c.triggers ≠ [] then 1 else 0 })
      (fun some => ?_) fun none => ?_))
    (rebuilds_option (fun v x => { x with operNote := v }) (fun _ _ => rfl) ?_)
  · rw [← empty.1]
  · rw [not_not.mp none, ← empty.2.1]
  · refine (Store.adjustChannel_holding _).trans ?_
    rw [if_pos some, empty.2.2.2.1]
  · rw [if_neg none, not_not.mp none, ← empty.2.2.1, ← empty.2.2.2.1]
  · refine (Store.adjustChannel_holding _).trans ?_
    rw [if_pos some, empty.2.2.2.2.2.1]
  · rw [if_neg none, not_not.mp none, ← empty.2.2.2.2.1, ← empty.2.2.2.2.2.1]
  · rw [← empty.2.2.2.2.2.2]

/-- A channel's snapshot rebuilds it, whatever else the store holds. -/
theorem rebuilds_snapshot (wf : c.Wf k) (s : Store) :
    Rebuilds s c.snapshot (s.holding c.name c.recovered) :=
  .append (.append (.append (.append (rebuilds_base wf s) (rebuilds_lists wf rfl))
    (rebuilds_texts rfl)) (rebuilds_flags rfl)) (rebuilds_bot rfl)

end ChannelInfo

end Echo
