import Echo.Engine.Bots

/-!
The bots' clients over runs: what `reconcile_bots` leaves, and which bots come back.

What is introduced and joined is settled by the registry alone, whatever the tables were. A
bot that was kicked comes back exactly if the event names the channel as the registration
did when the bot joined it.
-/

namespace Echo

open Std (ExtTreeMap)
open Echo.Lib

namespace Progress

variable {l : Uplink} {db : Db} {p : Progress} {b : Bot} {k : String} {n : Nat}

/-! ### One client -/

/-- A bot is introduced with an identity of this hash. -/
def Shown (p : Progress) (k : String) (n : Nat) : Prop :=
  p.uids.contains k = true ∧ p.idents[k]? = some n

/-- A step only adds to what is sent, and joins no channel. -/
structure Stays (p p' : Progress) : Prop where
  out : p.out <+: p'.out
  channels : ∀ bc ∈ p'.channels, bc ∈ p.channels

theorem Stays.refl : Stays p p := ⟨List.prefix_refl _, fun _ mem => mem⟩

theorem Stays.trans {q r : Progress} (first : Stays p q) (second : Stays q r) : Stays p r :=
  ⟨first.out.trans second.out, fun bc mem => first.channels bc (second.channels bc mem)⟩

theorem stays_change : Stays p (p.change l b) := by
  unfold change
  dsimp only
  split
  · exact .refl
  · split
    · exact .refl
    · exact ⟨List.prefix_append .., fun _ mem => (List.mem_filter.mp mem).1⟩

theorem stays_introduce : Stays p (p.introduce l b) := by
  unfold introduce
  dsimp only
  split
  · exact .refl
  · exact ⟨List.prefix_append .., fun _ mem => mem⟩

theorem stays_remove : Stays p (p.remove k) :=
  ⟨List.prefix_append .., fun _ mem => (List.mem_filter.mp mem).1⟩

theorem change_of_shown (shown : Shown p (key b.nick) (l.hashOf b)) : p.change l b = p := by
  unfold change
  dsimp only
  split
  · rfl
  · exact if_pos shown.2

theorem introduce_of_held (held : p.uids.contains (key b.nick) = true) : p.introduce l b = p := if_pos held

/-- Either a bot is introduced as it is registered, or it is not introduced once a stale client
has quit. -/
theorem change_cases : Shown (p.change l b) (key b.nick) (l.hashOf b) ∨
    (p.change l b).uids.contains (key b.nick) = false := by
  unfold change
  dsimp only
  cases held : p.uids[key b.nick]? with
  | none =>
      refine .inr ?_
      exact Table.contains_of_none held
  | some uid =>
      dsimp only
      by_cases same : p.idents[key b.nick]? = some (l.hashOf b)
      · rw [if_pos same]
        exact .inl ⟨Table.contains_of_some held, same⟩
      · rw [if_neg same]
        exact .inr (by simp)

/-- After its turn a bot is introduced as it is registered. -/
theorem shown_turn : Shown ((p.change l b).introduce l b) (key b.nick) (l.hashOf b) := by
  rcases change_cases (p := p) (l := l) (b := b) with shown | absent
  · rwa [introduce_of_held shown.1]
  · unfold introduce Shown
    dsimp only
    rw [absent]
    simp

/-- Another bot's turn leaves a bot's client alone. -/
theorem turn_other (other : key b.nick ≠ k) : ((p.change l b).introduce l b).uids[k]? = p.uids[k]? ∧
    ((p.change l b).introduce l b).idents[k]? = p.idents[k]? := by
  have changed : (p.change l b).uids[k]? = p.uids[k]? ∧ (p.change l b).idents = p.idents := by
    unfold change
    dsimp only
    split
    · exact ⟨rfl, rfl⟩
    · split
      · exact ⟨rfl, rfl⟩
      · refine ⟨?_, rfl⟩
        rw [ExtTreeMap.getElem?_erase, if_neg (by simpa using other)]
  rw [← changed.1, ← changed.2]
  unfold introduce
  dsimp only
  split
  · exact ⟨rfl, rfl⟩
  · constructor
    · rw [ExtTreeMap.getElem?_insert, if_neg (by simpa using other)]
    · rw [ExtTreeMap.getElem?_insert, if_neg (by simpa using other)]

/-- A bot that is introduced as it is registered stays so. -/
theorem shown_kept (shown : Shown p k n) (same : key b.nick = k → l.hashOf b = n) :
    Shown ((p.change l b).introduce l b) k n := by
  by_cases mine : key b.nick = k
  · subst mine
    rw [← same rfl]
    exact shown_turn
  · obtain ⟨uids, idents⟩ := turn_other (p := p) (l := l) mine
    unfold Shown
    rw [ExtTreeMap.contains_eq_isSome_getElem?, uids, idents, ← ExtTreeMap.contains_eq_isSome_getElem?]
    exact shown

/-! ### All clients -/

variable {bots : List Bot} {gone : List String} {bcs : List (String × String)} {bc : String × String}

theorem shown_fold (shown : Shown p k n) (same : ∀ b ∈ bots, key b.nick = k → l.hashOf b = n) :
    Shown (bots.foldl (fun p b => (p.change l b).introduce l b) p) k n := by
  induction bots generalizing p with
  | nil => exact shown
  | cons b bots ih =>
      refine ih (shown_kept shown (same b List.mem_cons_self)) fun b' mem => ?_
      exact same b' (List.mem_cons_of_mem b mem)

theorem shown_of_mem (mem : b ∈ bots) (same : ∀ b' ∈ bots, key b'.nick = key b.nick → l.hashOf b' = l.hashOf b) :
    Shown (bots.foldl (fun p b => (p.change l b).introduce l b) p) (key b.nick) (l.hashOf b) := by
  induction bots generalizing p with
  | nil => exact absurd mem List.not_mem_nil
  | cons b' bots ih =>
      have later : ∀ b'' ∈ bots, key b''.nick = key b.nick → l.hashOf b'' = l.hashOf b := fun b'' m =>
        same b'' (List.mem_cons_of_mem b' m)
      rw [List.foldl_cons]
      rcases List.mem_cons.mp mem with rfl | mem
      · exact shown_fold shown_turn later
      · exact ih mem later

theorem stays_turns : Stays p (bots.foldl (fun p b => (p.change l b).introduce l b) p) := by
  induction bots generalizing p with
  | nil => exact .refl
  | cons b bots ih => exact (stays_change.trans stays_introduce).trans ih

theorem turns_of_shown (shown : ∀ b ∈ bots, Shown p (key b.nick) (l.hashOf b)) :
    bots.foldl (fun p b => (p.change l b).introduce l b) p = p := by
  induction bots with
  | nil => rfl
  | cons b bots ih =>
      have first : Shown p (key b.nick) (l.hashOf b) := shown b List.mem_cons_self
      rw [List.foldl_cons, change_of_shown first, introduce_of_held first.1]
      exact ih fun b' mem => shown b' (List.mem_cons_of_mem b mem)

theorem removes_eq : (gone.foldl remove p).uids[k]? = (if k ∈ gone then none else p.uids[k]?) ∧
    (gone.foldl remove p).idents[k]? = if k ∈ gone then none else p.idents[k]? := by
  induction gone generalizing p with
  | nil => exact ⟨rfl, rfl⟩
  | cons g gone ih =>
      rw [List.foldl_cons, ih.1, ih.2]
      unfold remove
      dsimp only
      rw [ExtTreeMap.getElem?_erase, ExtTreeMap.getElem?_erase]
      by_cases same : g = k
      · subst same
        simp
      · simp [same, Ne.symm same]

theorem stays_removes : Stays p (gone.foldl remove p) := by
  induction gone generalizing p with
  | nil => exact .refl
  | cons g gone ih => exact stays_remove.trans ih

/-! ### The channels -/

theorem join_cases (l : Uplink) (db : Db) (p : Progress) (bc : String × String) :
    (p.channels.contains bc = true ∨ p.uids.contains bc.1 = false) ∧ p.join l db bc = p ∨
    p.channels.contains bc = false ∧ ∃ uid sent, p.uids[bc.1]? = some uid ∧
      p.join l db bc =
        { p with channels := p.channels ++ [bc], out := p.out ++ .serviceJoin uid bc.2 "ao" :: sent } := by
  unfold join
  cases joined : p.channels.contains bc with
  | true => exact .inl ⟨.inl rfl, rfl⟩
  | false =>
      cases held : p.uids[bc.1]? with
      | none =>
          refine .inl ⟨.inr ?_, rfl⟩
          exact Table.contains_of_none held
      | some uid => exact .inr ⟨rfl, uid, _, rfl, rfl⟩

theorem clients_joins : (bcs.foldl (join l db) p).uids = p.uids ∧ (bcs.foldl (join l db) p).idents = p.idents ∧
    p.out <+: (bcs.foldl (join l db) p).out := by
  induction bcs generalizing p with
  | nil => exact ⟨rfl, rfl, List.prefix_refl _⟩
  | cons bc bcs ih =>
      rw [List.foldl_cons, ih.1, ih.2.1]
      refine ⟨?_, ?_, List.IsPrefix.trans ?_ ih.2.2⟩
      all_goals rcases join_cases l db p bc with ⟨-, same⟩ | ⟨-, uid, sent, -, same⟩
      all_goals rw [same]
      exact List.prefix_append ..

theorem uids_join : (p.join l db bc).uids = p.uids := by
  rcases join_cases l db p bc with ⟨-, same⟩ | ⟨-, uid, sent, -, same⟩
  all_goals rw [same]

theorem mem_join {x : String × String} : x ∈ (p.join l db bc).channels ↔
    x ∈ p.channels ∨ x = bc ∧ p.uids.contains bc.1 = true := by
  rcases join_cases l db p bc with ⟨idle, same⟩ | ⟨-, uid, sent, held, same⟩
  · rw [same]
    refine ⟨.inl, ?_⟩
    rintro (mem | ⟨rfl, live⟩)
    · exact mem
    · rcases idle with joined | dead
      · simpa using joined
      · rw [dead] at live
        cases live
  · rw [same, Table.contains_of_some held]
    simp

theorem mem_joins {x : String × String} : x ∈ (bcs.foldl (join l db) p).channels ↔
    x ∈ p.channels ∨ x ∈ bcs ∧ p.uids.contains x.1 = true := by
  induction bcs generalizing p with
  | nil => simp
  | cons bc bcs ih =>
      rw [List.foldl_cons, ih, mem_join, uids_join, List.mem_cons, or_assoc]
      refine or_congr_right ?_
      constructor
      · rintro (⟨rfl, live⟩ | ⟨mem, live⟩)
        · exact ⟨.inl rfl, live⟩
        · exact ⟨.inr mem, live⟩
      · rintro ⟨rfl | mem, live⟩
        · exact .inl ⟨rfl, live⟩
        · exact .inr ⟨mem, live⟩

/-- A bot joins each channel that it is to be in and is not. -/
theorem joined_of_mem {uid : String} (mem : bc ∈ bcs) (out : bc ∉ p.channels) (held : p.uids[bc.1]? = some uid) :
    .serviceJoin uid bc.2 "ao" ∈ (bcs.foldl (join l db) p).out := by
  induction bcs generalizing p with
  | nil => exact absurd mem List.not_mem_nil
  | cons bc' bcs ih =>
      rw [List.foldl_cons]
      by_cases now : bc = bc'
      · subst now
        refine clients_joins.2.2.subset ?_
        rcases join_cases l db p bc with ⟨idle, -⟩ | ⟨-, uid', sent, held', same⟩
        · rw [Table.contains_of_some held] at idle
          simp [out] at idle
        · obtain rfl := Option.some.inj (held.symm.trans held')
          rw [same]
          simp
      · refine ih ((List.mem_cons.mp mem).resolve_left now) ?_ (by rwa [uids_join])
        rw [mem_join]
        rintro (mem | ⟨same, -⟩)
        · exact out mem
        · exact now same

theorem joins_of_joined (joined : ∀ bc ∈ bcs, bc ∈ p.channels) : bcs.foldl (join l db) p = p := by
  induction bcs with
  | nil => rfl
  | cons bc bcs ih =>
      have first : p.join l db bc = p := if_pos (by simpa using joined bc List.mem_cons_self)
      rw [List.foldl_cons, first]
      exact ih fun bc' mem => joined bc' (List.mem_cons_of_mem bc mem)

theorem parts_eq : (bcs.foldl part p).uids = p.uids ∧ (bcs.foldl part p).idents = p.idents ∧
    p.out <+: (bcs.foldl part p).out ∧ (bcs.foldl part p).channels = p.channels.filter (· ∉ bcs) := by
  induction bcs generalizing p with
  | nil => exact ⟨rfl, rfl, List.prefix_refl _, by simp⟩
  | cons bc bcs ih =>
      obtain ⟨uids, idents, out, channels⟩ := ih (p := p.part bc)
      rw [List.foldl_cons]
      refine ⟨uids, idents, (List.prefix_append ..).trans out, channels.trans ?_⟩
      unfold part
      rw [List.filter_filter]
      refine List.filter_congr fun x _ => ?_
      simp [Bool.and_comm]

end Progress

namespace Bots

/-! ### What a reconciliation leaves -/

/-- The introduced bots are the registered ones, and each has joined the registered channels
that are assigned to it. -/
structure Settled (l : Uplink) (db : Db) (s : Bots) : Prop where
  introduced : ∀ k : String, s.uids.contains k = db.bots.contains k
  known : ∀ (k : String) b, db.bots[k]? = some b → s.idents[k]? = some (l.hashOf b)
  joined : ∀ k c, (k, c) ∈ s.channels ↔ ∃ info, db.channels[key c]? = some info ∧ info.name = c ∧
    info.assignedBot.map key = some k ∧ db.bots.contains k = true

variable {env : Env} {l : Uplink} {db : Db} {s : Bots} {k : String}

theorem live_iff (wf : db.Wf) : k ∈ (env.values db.bots).map (key ·.nick) ↔ db.bots.contains k = true := by
  rw [ExtTreeMap.contains_eq_isSome_getElem?, Option.isSome_iff_exists, List.mem_map]
  constructor
  · rintro ⟨b, mem, rfl⟩
    obtain ⟨k, held⟩ := Env.mem_values.mp mem
    exact ⟨b, (wf.bots k b held).symm ▸ held⟩
  · rintro ⟨b, held⟩
    exact ⟨b, Env.mem_values.mpr ⟨k, held⟩, wf.bots k b held⟩

theorem held_iff (uids : Table String) : uids.contains k = true ↔ ∃ uid, uids[k]? = some uid := by
  rw [ExtTreeMap.contains_eq_isSome_getElem?, Option.isSome_iff_exists]

/-- The clients that no registered bot has. -/
def gone (env : Env) (db : Db) (p : Progress) : List String :=
  ((env.entries p.uids).map Prod.fst).filter fun k => !((env.values db.bots).map (key ·.nick)).contains k

theorem mem_gone (wf : db.Wf) {p : Progress} :
    k ∈ gone env db p ↔ p.uids.contains k = true ∧ db.bots.contains k = false := by
  have live : ((env.values db.bots).map (key ·.nick)).contains k = db.bots.contains k := by
    rw [Bool.eq_iff_iff, List.contains_iff_mem]
    exact live_iff wf
  unfold gone
  rw [List.mem_filter, live, Bool.not_eq_true', List.mem_map]
  refine and_congr_left' (Iff.trans ⟨?_, ?_⟩ (held_iff p.uids).symm)
  · rintro ⟨⟨k, uid⟩, mem, rfl⟩
    exact ⟨uid, Env.mem_entries.mp mem⟩
  · rintro ⟨uid, held⟩
    exact ⟨(k, uid), Env.mem_entries.mpr held, rfl⟩

/-- The registered bots have had their turns. -/
def turns (env : Env) (l : Uplink) (db : Db) (s : Bots) : Progress :=
  (env.values db.bots).foldl (fun p b => (p.change l b).introduce l b) { s with }

theorem roster_eq : s.roster env l db = (gone env db (turns env l db s)).foldl Progress.remove (turns env l db s) := rfl

theorem turns_shown (wf : db.Wf) {b : Bot} (held : db.bots[k]? = some b) :
    (turns env l db s).Shown k (l.hashOf b) := by
  obtain rfl := wf.bots k b held
  refine Progress.shown_of_mem (Env.mem_values.mpr ⟨_, held⟩) fun b' mem same => ?_
  obtain ⟨k', held'⟩ := Env.mem_values.mp mem
  obtain rfl := wf.bots k' b' held'
  rw [same, held] at held'
  rw [Option.some.inj held']

theorem roster_shown (wf : db.Wf) {b : Bot} (held : db.bots[k]? = some b) :
    (s.roster env l db).Shown k (l.hashOf b) := by
  have shown : (turns env l db s).Shown k (l.hashOf b) := turns_shown wf held
  have live : db.bots.contains k = true := by
    exact Table.contains_of_some held
  have stays : k ∉ gone env db (turns env l db s) := by
    rw [mem_gone wf, live]
    simp
  unfold Progress.Shown
  rw [roster_eq, ExtTreeMap.contains_eq_isSome_getElem?, Progress.removes_eq.1, Progress.removes_eq.2,
    if_neg stays, if_neg stays, ← ExtTreeMap.contains_eq_isSome_getElem?]
  exact shown

theorem roster_introduced (wf : db.Wf) : (s.roster env l db).uids.contains k = db.bots.contains k := by
  cases live : db.bots.contains k with
  | true =>
      rw [ExtTreeMap.contains_eq_isSome_getElem?, Option.isSome_iff_exists] at live
      obtain ⟨b, held⟩ := live
      exact (roster_shown wf held).1
  | false =>
      rw [roster_eq, ExtTreeMap.contains_eq_isSome_getElem?, Progress.removes_eq.1]
      by_cases mem : k ∈ gone env db (turns env l db s)
      · rw [if_pos mem]
        rfl
      · rw [if_neg mem, ← ExtTreeMap.contains_eq_isSome_getElem?]
        rw [mem_gone wf, live, and_iff_left rfl] at mem
        exact Bool.eq_false_iff.mpr mem

theorem roster_stays : Progress.Stays { s with } (s.roster env l db) :=
  Progress.stays_turns.trans Progress.stays_removes

theorem mem_desired (wf : db.Wf) {uids : Table String} {c : String} :
    (k, c) ∈ desired env db uids ↔ uids.contains k = true ∧ ∃ info, db.channels[key c]? = some info ∧
      info.name = c ∧ info.assignedBot.map key = some k := by
  unfold desired
  rw [List.mem_filter, List.mem_filterMap, and_comm]
  refine and_congr_right fun _ => ⟨?_, ?_⟩
  · rintro ⟨info, mem, assigned⟩
    obtain ⟨k', held⟩ := Env.mem_values.mp mem
    obtain ⟨b, bot, same⟩ := Option.map_eq_some_iff.mp assigned
    obtain ⟨rfl, rfl⟩ := Prod.mk.inj same
    refine ⟨info, ?_, rfl, by rw [bot]; rfl⟩
    rwa [(wf.channels k' info held).name]
  · rintro ⟨info, held, rfl, assigned⟩
    obtain ⟨b, bot, rfl⟩ := Option.map_eq_some_iff.mp assigned
    exact ⟨info, Env.mem_values.mpr ⟨_, held⟩, by rw [bot]; rfl⟩

/-- A reconciliation with the clients brought in line. -/
def seated (env : Env) (l : Uplink) (db : Db) (p : Progress) : Progress :=
  (env.iter (desired env db p.uids)).foldl (Progress.join l db) p

theorem reconcile_eq : s.reconcile env l db =
    (env.iter ((seated env l db (s.roster env l db)).channels.filter fun bc =>
      !(env.iter (desired env db (s.roster env l db).uids)).contains bc)).foldl Progress.part
        (seated env l db (s.roster env l db)) := rfl

theorem mem_reconcile {bc : String × String} : bc ∈ (s.reconcile env l db).channels ↔
    bc ∈ desired env db (s.roster env l db).uids := by
  have live : bc ∈ desired env db (s.roster env l db).uids → (s.roster env l db).uids.contains bc.1 = true :=
    fun mem => (List.mem_filter.mp mem).2
  rw [reconcile_eq, Progress.parts_eq.2.2.2, List.mem_filter, decide_eq_true_iff, (env.iter_perm _).mem_iff,
    List.mem_filter]
  have wanted : (env.iter (desired env db (s.roster env l db).uids)).contains bc = true ↔
      bc ∈ desired env db (s.roster env l db).uids := by
    rw [List.contains_iff_mem, (env.iter_perm _).mem_iff]
  unfold seated
  rw [Progress.mem_joins, (env.iter_perm _).mem_iff, Bool.not_eq_true', ← Bool.not_eq_true, wanted]
  tauto

theorem reconcile_settled (wf : db.Wf) : Settled l db (s.reconcile env l db).toBots := by
  have clients : (s.reconcile env l db).uids = (s.roster env l db).uids ∧
      (s.reconcile env l db).idents = (s.roster env l db).idents := by
    rw [reconcile_eq, Progress.parts_eq.1, Progress.parts_eq.2.1]
    exact ⟨Progress.clients_joins.1, Progress.clients_joins.2.1⟩
  constructor
  · intro k
    rw [clients.1]
    exact roster_introduced wf
  · intro k b held
    rw [clients.2]
    exact (roster_shown wf held).2
  · intro k c
    rw [mem_reconcile, mem_desired wf, roster_introduced wf]
    tauto

/-- What is in line already is left alone. -/
theorem reconcile_of_settled (wf : db.Wf) (settled : Settled l db s) : s.reconcile env l db = { s with } := by
  have shown : ∀ b ∈ env.values db.bots, Progress.Shown { s with } (key b.nick) (l.hashOf b) := by
    intro b mem
    obtain ⟨k, held⟩ := Env.mem_values.mp mem
    obtain rfl := wf.bots k b held
    refine ⟨(settled.introduced _).trans ?_, settled.known _ b held⟩
    exact Table.contains_of_some held
  have turned : turns env l db s = { s with } := Progress.turns_of_shown shown
  have rostered : s.roster env l db = { s with } := by
    have none_gone : gone env db { s with } = [] := by
      refine List.eq_nil_iff_forall_not_mem.mpr fun k mem => ?_
      rw [mem_gone wf] at mem
      have introduced : s.uids.contains k = db.bots.contains k := settled.introduced k
      rw [introduced, mem.2] at mem
      exact Bool.false_ne_true mem.1
    rw [roster_eq, turned, none_gone]
    rfl
  have wanted : ∀ bc : String × String, bc ∈ desired env db s.uids ↔ bc ∈ s.channels := by
    rintro ⟨k, c⟩
    rw [mem_desired wf, settled.joined, settled.introduced]
    tauto
  have seats : seated env l db { s with } = { s with } := by
    refine Progress.joins_of_joined fun bc mem => ?_
    rw [(env.iter_perm _).mem_iff] at mem
    exact (wanted bc).mp mem
  have none_left : (s.channels.filter fun bc => !(env.iter (desired env db s.uids)).contains bc) = [] := by
    refine List.filter_eq_nil_iff.mpr fun bc mem => ?_
    have kept : (env.iter (desired env db s.uids)).contains bc = true := by
      rw [List.contains_iff_mem, (env.iter_perm _).mem_iff]
      exact (wanted bc).mpr mem
    rw [kept]
    simp
  rw [reconcile_eq, rostered, seats]
  dsimp only
  rw [none_left]
  have nothing : env.iter ([] : List (String × String)) = [] := (env.iter_perm _).eq_nil
  rw [nothing]
  rfl

/-- A bot that is to be in a channel and is not joins it. -/
theorem reconcile_joins {c : String} (out : (k, c) ∉ s.channels)
    (wanted : (k, c) ∈ desired env db (s.roster env l db).uids) :
    ∃ uid, (s.reconcile env l db).uids[k]? = some uid ∧
      .serviceJoin uid c "ao" ∈ (s.reconcile env l db).out := by
  obtain ⟨uid, held⟩ := (held_iff _).mp (List.mem_filter.mp wanted).2
  have away : (k, c) ∉ (s.roster env l db).channels := fun mem => out (roster_stays.channels _ mem)
  have joined : .serviceJoin uid c "ao" ∈ (seated env l db (s.roster env l db)).out :=
    Progress.joined_of_mem ((env.iter_perm _).mem_iff.mpr wanted) away held
  refine ⟨uid, ?_, ?_⟩
  · rw [reconcile_eq, Progress.parts_eq.1]
    exact (congrArg (·[k]?) Progress.clients_joins.1).trans held
  · rw [reconcile_eq]
    exact Progress.parts_eq.2.2.1.subset joined

/-! ### What holds of the tables in any run -/

/-- No bot has joined a channel under two spellings, and every client has a bot's uid. -/
structure Orderly (l : Uplink) (s : Bots) : Prop where
  spelled : ∀ k c c', (k, c) ∈ s.channels → (k, c') ∈ s.channels → key c = key c' → c = c'
  minted : ∀ (k : String) uid, s.uids[k]? = some uid → ∃ n, uid = l.botUid n

end Bots

namespace Progress

variable {l : Uplink} {db : Db} {p : Progress} {b : Bot} {k : String}

def Minted (l : Uplink) (p : Progress) : Prop := ∀ (k : String) uid, p.uids[k]? = some uid → ∃ n, uid = l.botUid n

theorem minted_erase {j : String} (minted : Minted l p) {uid : String} (held : (p.uids.erase k)[j]? = some uid) :
    ∃ n, uid = l.botUid n := by
  rw [ExtTreeMap.getElem?_erase] at held
  split at held
  · cases held
  · exact minted j uid held

theorem minted_change (minted : Minted l p) : Minted l (p.change l b) := by
  unfold change
  dsimp only
  split
  · exact minted
  · split
    · exact minted
    · exact fun _ _ held => minted_erase minted held

theorem minted_introduce (minted : Minted l p) : Minted l (p.introduce l b) := by
  unfold introduce
  dsimp only
  split
  · exact minted
  · intro j uid held
    dsimp only at held
    rw [ExtTreeMap.getElem?_insert] at held
    split at held
    · exact ⟨p.nextIndex, (Option.some.inj held).symm⟩
    · exact minted j uid held

theorem minted_turns {bots : List Bot} (minted : Minted l p) :
    Minted l (bots.foldl (fun p b => (p.change l b).introduce l b) p) := by
  induction bots generalizing p with
  | nil => exact minted
  | cons b bots ih => exact ih (minted_introduce (minted_change minted))

theorem minted_removes {gone : List String} (minted : Minted l p) : Minted l (gone.foldl remove p) := by
  intro k uid held
  rw [removes_eq.1] at held
  split at held
  · cases held
  · exact minted k uid held

end Progress

namespace Bots

variable {env : Env} {l : Uplink} {db : Db} {s : Bots} {k : String}

theorem orderly_reconcile (wf : db.Wf)
    (minted : ∀ (k : String) uid, s.uids[k]? = some uid → ∃ n, uid = l.botUid n) :
    Orderly l (s.reconcile env l db).toBots := by
  constructor
  · intro k c c' mem mem' same
    obtain ⟨info, held, rfl, -⟩ := ((reconcile_settled wf).joined k c).mp mem
    obtain ⟨info', held', rfl, -⟩ := ((reconcile_settled wf).joined k c').mp mem'
    rw [same, held'] at held
    rw [Option.some.inj held]
  · have rostered : Progress.Minted l (s.roster env l db) :=
      Progress.minted_removes (Progress.minted_turns minted)
    intro k uid held
    rw [reconcile_eq, Progress.parts_eq.1] at held
    exact rostered k uid ((congrArg (·[k]?) Progress.clients_joins.1).symm.trans held)

theorem minted_forget (orderly : Orderly l s) :
    ∀ (j : String) uid, (s.uids.erase k)[j]? = some uid → ∃ n, uid = l.botUid n :=
  fun _ _ held => @Progress.minted_erase l { s with } k _ orderly.minted _ held

/-- The registry is well formed and the tables in order. -/
structure World.Wf (l : Uplink) (w : World) : Prop where
  db : w.db.Wf
  orderly : Orderly l w.bots

theorem World.wf_step {w : World} (wf : w.Wf l) (a : Act) : (w.step l a).Wf l := by
  cases a with
  | store a => exact ⟨Db.wf_step wf.db a, wf.orderly⟩
  | reconcile env => exact ⟨wf.db, orderly_reconcile wf.db wf.orderly.minted⟩
  | memberLeft env channel uid =>
      refine ⟨wf.db, ?_⟩
      change Orderly l (Bots.memberLeft env l w.db w.bots channel uid).toBots
      unfold Bots.memberLeft
      split
      · exact wf.orderly
      · split
        · exact orderly_reconcile wf.db wf.orderly.minted
        · exact wf.orderly
  | userKilled env uid =>
      refine ⟨wf.db, ?_⟩
      change Orderly l (Bots.userKilled env l w.db w.bots uid).toBots
      unfold Bots.userKilled
      split
      · exact wf.orderly
      · split
        · exact wf.orderly
        · exact orderly_reconcile wf.db (minted_forget wf.orderly)
  | startup env =>
      refine ⟨wf.db, orderly_reconcile wf.db fun k uid held => ?_⟩
      exact absurd held (by simp)

/-! ### Bots that come back -/

/-- A registered bot that is introduced, under a uid of its own, and assigned to a channel. -/
structure Assigned (w : World) (k uid : String) (info : ChannelInfo) : Prop where
  bot : w.db.bots.contains k = true
  channel : w.db.channels[key info.name]? = some info
  assigned : info.assignedBot.map key = some k
  client : w.bots.uids[k]? = some uid
  alone : ∀ j : String, w.bots.uids[j]? = some uid → j = k

/-- A bot is in a channel that it has just joined. -/
def Back (k channel : String) (p : Progress) : Prop :=
  (k, channel) ∈ p.channels ∧ ∃ uid, p.uids[k]? = some uid ∧ .serviceJoin uid channel "ao" ∈ p.out

variable {w : World} {uid channel : String} {info : ChannelInfo}

theorem botOf_assigned (assigned : Assigned w k uid info) : w.bots.botOf env uid = some k := by
  unfold botOf
  cases found : (env.entries w.bots.uids).find? fun e => e.2 == uid with
  | none =>
      have away := List.find?_eq_none.mp found (k, uid) (Env.mem_entries.mpr assigned.client)
      simp at away
  | some e =>
      obtain ⟨k', uid'⟩ := e
      have same : uid' = uid := by simpa using List.find?_some found
      subst same
      rw [assigned.alone k' (Env.mem_entries.mp (List.mem_of_find?_eq_some found))]
      rfl

/-- A bot that has been taken out of its channel is back once the tables are in line. -/
theorem back_reconcile (wf : w.db.Wf) (assigned : Assigned w k uid info) (out : (k, info.name) ∉ s.channels) :
    Back k info.name (s.reconcile env l w.db) := by
  have joined : (k, info.name) ∈ (s.reconcile env l w.db).channels :=
    ((reconcile_settled wf).joined k info.name).mpr ⟨info, assigned.channel, rfl, assigned.assigned, assigned.bot⟩
  exact ⟨joined, reconcile_joins out (mem_reconcile.mp joined)⟩

theorem serviceUid_ne_botUid {a : Agent} {n : Nat} : l.serviceUid a ≠ l.botUid n := by
  intro same
  unfold Uplink.serviceUid Uplink.botUid at same
  have chars : l.sid.toList ++ ('A' :: ("AAAA".toList ++ [a.letter])) = l.sid.toList ++ ('B' :: (padded 5 n).toList) := by
    simpa using congrArg String.toList same
  have heads := List.append_cancel_left chars
  simp at heads

/-- A killed bot comes back. -/
theorem back_killed (wf : w.Wf l) (assigned : Assigned w k uid info) :
    Back k info.name (w.bots.userKilled env l w.db uid) := by
  have none_serves : (l.services.find? fun a => l.serviceUid a == uid) = none := by
    obtain ⟨n, rfl⟩ := wf.orderly.minted k uid assigned.client
    refine List.find?_eq_none.mpr fun a _ same => ?_
    exact serviceUid_ne_botUid (eq_of_beq same)
  unfold userKilled
  rw [none_serves, botOf_assigned assigned]
  refine back_reconcile wf.db assigned fun mem => ?_
  simpa using (List.mem_filter.mp mem).2

/-- A bot that left or was kicked comes back if the event names the channel as the bot joined it. -/
theorem back_left_iff (wf : w.Wf l) (assigned : Assigned w k uid info) (same : key channel = key info.name) :
    Back k info.name (w.bots.memberLeft env l w.db channel uid) ↔ (k, channel) ∈ w.bots.channels := by
  unfold memberLeft
  rw [botOf_assigned assigned]
  dsimp only
  by_cases mem : (k, channel) ∈ w.bots.channels
  · rw [if_pos (List.contains_iff_mem.mpr mem)]
    refine iff_of_true (back_reconcile wf.db assigned fun still => ?_) mem
    obtain ⟨still, other⟩ := List.mem_filter.mp still
    rw [wf.orderly.spelled k channel info.name mem still same] at other
    simp at other
  · rw [if_neg fun held => mem (List.contains_iff_mem.mp held)]
    refine iff_of_false ?_ mem
    rintro ⟨-, uid', -, sent⟩
    exact List.not_mem_nil sent

/-- After any run a reconciliation brings the bots in line with the registry and a second one
sends nothing. An assigned bot that is killed comes back; one that left or was kicked comes
back exactly if the event has the channel's name in the letters in which the bot joined it. -/
theorem bots_reconciled_iff (l : Uplink) (origin : String) (file : List LogEntry) (acts : List Act) :
    let w := after (World.step l) ⟨Db.open' origin file, {}⟩ acts
    (∀ env, Settled l w.db (w.bots.reconcile env l w.db).toBots ∧
      ∀ env', ((w.bots.reconcile env l w.db).toBots.reconcile env' l w.db).out = []) ∧
    ∀ env k uid info, Assigned w k uid info →
      Back k info.name (w.bots.userKilled env l w.db uid) ∧
      ∀ channel, key channel = key info.name →
        (Back k info.name (w.bots.memberLeft env l w.db channel uid) ↔ (k, channel) ∈ w.bots.channels) := by
  intro w
  have wf : w.Wf l := by
    refine invariant (I := World.Wf l) (fun _ a wf => World.wf_step wf a) ⟨Db.wf_open origin file, ?_⟩ acts
    exact ⟨fun k c c' mem => absurd mem List.not_mem_nil, fun k uid held => absurd held (by simp)⟩
  refine ⟨fun env => ⟨reconcile_settled wf.db, fun env' => ?_⟩, fun env k uid info assigned => ?_⟩
  · rw [reconcile_of_settled wf.db (reconcile_settled wf.db)]
  · exact ⟨back_killed wf assigned, fun channel same => back_left_iff wf assigned same⟩

/-! ### A bot that stays away -/

/-- A network of one server. -/
def lone : Uplink := ⟨"42S", [], none, fun _ _ _ => 0⟩

/-- A bot is assigned to a channel, and introduced. -/
def seatedBot : List Act :=
  [.store (.call .still (.registerChannel "#Chan" "alice")),
    .store (.call .still (.botAdd "Botty" "bot" "services.example" "A bot")),
    .store (.call .still (.assignBot "#Chan" "Botty")), .startup .still]

theorem assigned_seated : ∃ info, info.name = "#Chan" ∧
    Assigned (after (World.step lone) ⟨Db.fresh "a", {}⟩ seatedBot) "botty" "42SB00000" info := by
  have clients : (after (World.step lone) ⟨Db.fresh "a", {}⟩ seatedBot).bots.uids.toList =
      [("botty", "42SB00000")] := by decide +kernel
  have registered : ((after (World.step lone) ⟨Db.fresh "a", {}⟩ seatedBot).db.channels["#chan"]?).map
      (fun info => (info.name, info.assignedBot.map key)) = some ("#Chan", some "botty") := by decide +kernel
  obtain ⟨info, held, same⟩ := Option.map_eq_some_iff.mp registered
  obtain ⟨name, assigned⟩ := Prod.mk.inj same
  refine ⟨info, name, by decide +kernel, ?_, assigned, ?_, fun j uid => ?_⟩
  · rw [name]
    exact held
  · exact ExtTreeMap.mem_toList_iff_getElem?_eq_some.mp (clients ▸ List.mem_singleton_self _)
  · have mem := ExtTreeMap.mem_toList_iff_getElem?_eq_some.mpr uid
    rw [clients] at mem
    exact congrArg Prod.fst (List.mem_singleton.mp mem)

/-- A kick that has the channel's name in other letters keeps its bot out. -/
theorem bot_kept_out :
    ¬ ∀ (l : Uplink) (origin : String) (file : List LogEntry) (acts : List Act),
      let w := after (World.step l) ⟨Db.open' origin file, {}⟩ acts
      ∀ env k uid info, Assigned w k uid info → ∀ channel, key channel = key info.name →
        Back k info.name (w.bots.memberLeft env l w.db channel uid) := by
  intro back
  obtain ⟨info, name, assigned⟩ := assigned_seated
  have again := back lone "a" [] seatedBot .still "botty" "42SB00000" info assigned "#chan" (by rw [name]; decide)
  obtain ⟨-, uid, -, sent⟩ := again
  have silent : (Bots.memberLeft .still lone (after (World.step lone) ⟨Db.fresh "a", {}⟩ seatedBot).db
      (after (World.step lone) ⟨Db.fresh "a", {}⟩ seatedBot).bots "#chan" "42SB00000").out = [] := by decide +kernel
  exact List.not_mem_nil (silent ▸ sent)

end Bots

end Echo
