import Echo.Db.Grounded

/-!
What a newly registered name finds. Besides the store, a session holds the codes
it has e-mailed, by account; a drop does not take those away either. A run in
which every grant and every code is for a taken name, and in which no name is
freed that something outlasts, hands a new account nothing.
-/

namespace Echo

open Std (ExtTreeMap)
open Echo.Lib

/-! ### E-mailed codes -/

inductive CodeKind where
  | reset | confirm
  deriving DecidableEq, Repr

structure PendingCode where
  kind : CodeKind
  code : String
  deadline : Nat
  triesLeft : Nat

/-- Wrong guesses before a code is dropped. -/
def codeTries : Nat := 5

/-- A store with the codes e-mailed in this session, by account. -/
structure Session where
  db : Db
  codes : Table PendingCode := ∅

namespace Session

/-- Issue a freshly drawn code to an account, valid for fifteen minutes. -/
def issueCode (now : Nat) (account : String) (kind : CodeKind) (code : String) (s : Session) :
    Session :=
  { s with codes := s.codes.insert (key account) ⟨kind, code, now + 900, codeTries⟩ }

/-- Consume a code: true if purpose and text match in time. A wrong guess burns a
try, and the code is dropped once they run out. -/
def takeCode (now : Nat) (account : String) (kind : CodeKind) (code : String) (s : Session) :
    Session × Bool :=
  let dropped : Session := { s with codes := s.codes.erase (key account) }
  match s.codes[key account]? with
  | none => (s, false)
  | some pc =>
      if pc.deadline ≤ now then (dropped, false)
      else if pc.kind = kind ∧ pc.code = code then (dropped, true)
      else if pc.triesLeft - 1 = 0 then (dropped, false)
      else
        ({ s with
          codes := s.codes.insert (key account) { pc with triesLeft := pc.triesLeft - 1 } }, false)

/-- One thing that happens in a session. -/
inductive Action where
  | store (a : Echo.Action)
  | issueCode (now : Nat) (account : String) (kind : CodeKind) (code : String)
  | takeCode (now : Nat) (account : String) (kind : CodeKind) (code : String)

/-- A restart loses the codes. -/
def step (s : Session) : Action → Session
  | .store .reopen => { db := s.db.step .reopen }
  | .store a => { s with db := s.db.step a }
  | .issueCode now account kind code => s.issueCode now account kind code
  | .takeCode now account kind code => (s.takeCode now account kind code).1

def fresh (origin : String) : Session := { db := .fresh origin }

end Session

/-! ### One step -/

/-- What memory holds, and what a restart would rebuild. -/
def Db.views (db : Db) : List Store := [db.toStore, replay db.log.entries]

namespace Session

/-- Every grant is to a taken name, every code for one, and no name is freed that
something is held in or that a code was e-mailed for. -/
def KeepsGrounded (s : Session) : Action → Prop
  | .store (.call _ c) =>
      (∀ v ∈ s.db.views, c.KeepsGrounded v) ∧
        ∀ k, c.Frees s.db.toStore k → s.codes.contains k = false
  | .store (.ingest _ entry) =>
      s.db.adopts entry = true →
        (∀ v ∈ s.db.views, v.KeepsGrounded entry.event) ∧
          ∀ k, s.db.toStore.Frees entry.event k → s.codes.contains k = false
  | .issueCode _ account _ _ => s.db.toStore.Taken (key account)
  | _ => True

/-- Nothing is held in a free name, in memory or in what a restart would rebuild. -/
structure Grounded (s : Session) : Prop where
  wf : s.db.Wf
  tracked : s.db.Tracked
  views : ∀ v ∈ s.db.views, v.Grounded
  codes : ∀ k, s.codes.contains k = true → s.db.toStore.Taken k

variable {s : Session}

theorem grounded_fresh (origin : String) : (fresh origin).Grounded where
  wf := Db.wf_open origin []
  tracked := Db.tracked_open origin []
  views := by
    have empty : Store.Grounded {} := by
      rintro k (⟨held, -, -⟩ | ⟨held, -, -⟩ | ⟨held, -⟩ | ⟨granted⟩)
      · rw [ExtTreeMap.getElem?_empty] at held
        contradiction
      · exact absurd held List.not_mem_nil
      · rw [ExtTreeMap.getElem?_empty] at held
        contradiction
      · rw [ExtTreeMap.contains_empty] at granted
        contradiction
    intro v mem
    rcases List.mem_pair.mp mem with rfl | rfl
    · exact empty
    · exact empty
  codes := by
    intro k held
    change (∅ : Table PendingCode).contains k = true at held
    rw [ExtTreeMap.contains_empty] at held
    contradiction

theorem Grounded.call (h : s.Grounded) {env : Env} {c : Call}
    (ok : s.KeepsGrounded (.store (.call env c))) :
    Grounded { s with db := s.db.step (.call env c) } := by
  obtain ⟨moved, alongMoved, coreMoved⟩ : Moves c s.db (s.db.step (.call env c)) :=
    Call.moves h.wf
  obtain ⟨logged, logs, alongLogged, -⟩ : Tracks c s.db (s.db.step (.call env c)) :=
    Call.tracks h.wf
  obtain ⟨keeps, uncoded⟩ := ok
  have memory : s.db.toStore ∈ s.db.views := List.mem_cons_self
  have rebuilt : replay s.db.log.entries ∈ s.db.views := List.mem_cons_of_mem _ List.mem_cons_self
  refine ⟨Db.wf_step h.wf _, Db.tracked_step h.wf h.tracked, ?_, ?_⟩
  · intro v mem
    rcases List.mem_pair.mp mem with rfl | rfl
    · refine Store.grounded_core.mp ?_
      rw [coreMoved]
      exact Store.grounded_core.mpr
        (Call.along_grounded alongMoved (keeps _ memory) (h.views _ memory))
    · unfold replay
      rw [logs.events, fold_append]
      exact Call.along_grounded (Call.along_permits_core h.tracked alongLogged) (keeps _ rebuilt)
        (h.views _ rebuilt)
  · intro k held
    refine (Store.taken_core true).mp ?_
    rw [coreMoved, Store.taken_core]
    refine Call.along_taken alongMoved (h.codes k held) fun frees => ?_
    have uncoded_k := uncoded k frees
    rw [held] at uncoded_k
    contradiction

theorem Grounded.ingest (h : s.Grounded) {env : Env} {entry : LogEntry}
    (ok : s.KeepsGrounded (.store (.ingest env entry))) :
    Grounded { s with db := s.db.step (.ingest env entry) } := by
  have memory : s.db.toStore ∈ s.db.views := List.mem_cons_self
  have rebuilt : replay s.db.log.entries ∈ s.db.views := List.mem_cons_of_mem _ List.mem_cons_self
  refine ⟨Db.wf_step h.wf _, Db.tracked_step h.wf h.tracked, ?_, ?_⟩
  · intro v mem
    rcases List.mem_pair.mp mem with rfl | rfl
    · rw [Db.step_ingest_adopts]
      split
      · rename_i adopted
        exact apply_grounded (h.views _ memory) ((ok adopted).1 _ memory)
      · exact h.views _ memory
    · rw [Db.replay_ingest_adopts]
      split
      · rename_i adopted
        exact apply_grounded (h.views _ rebuilt) ((ok adopted).1 _ rebuilt)
      · exact h.views _ rebuilt
  · intro k held
    rw [Db.step_ingest_adopts]
    split
    · rename_i adopted
      refine (h.codes k held).apply fun frees => ?_
      have uncoded := (ok adopted).2 k frees
      rw [held] at uncoded
      contradiction
    · exact h.codes k held

theorem Grounded.compact (h : s.Grounded) (env : Env) :
    Grounded { s with db := s.db.step (.compact env) } := by
  have memory : s.db.toStore ∈ s.db.views := List.mem_cons_self
  have rebuilt : replay s.db.log.entries ∈ s.db.views := List.mem_cons_of_mem _ List.mem_cons_self
  have same : (s.db.step (.compact env)).toStore = s.db.toStore := by rw [Db.step_compact]
  refine ⟨Db.wf_step h.wf _, Db.tracked_step h.wf h.tracked, ?_, ?_⟩
  · intro v mem
    rcases List.mem_pair.mp mem with rfl | rfl
    · rw [same]
      exact h.views _ memory
    · rcases Db.core_replay_compact true h.wf env with taken | kept
      · rw [← Store.grounded_core, taken, Store.grounded_core]
        exact h.views _ memory
      · rw [kept]
        exact h.views _ rebuilt
  · intro k held
    rw [same]
    exact h.codes k held

theorem Grounded.reopen (h : s.Grounded) : Grounded { db := s.db.step .reopen } := by
  have rebuilt : replay s.db.log.entries ∈ s.db.views := List.mem_cons_of_mem _ List.mem_cons_self
  refine ⟨Db.wf_step h.wf _, Db.tracked_step h.wf h.tracked, ?_, ?_⟩
  · intro v mem
    have same : v = replay s.db.log.entries := by
      rcases List.mem_pair.mp mem with rfl | rfl
      · exact Db.replay_reopen s.db
      · exact Db.replay_reopen s.db
    rw [same]
    exact h.views _ rebuilt
  · intro k held
    change (∅ : Table PendingCode).contains k = true at held
    rw [ExtTreeMap.contains_empty] at held
    contradiction

theorem takeCode_db (s : Session) (now : Nat) (account : String) (kind : CodeKind) (code : String) :
    (s.takeCode now account kind code).1.db = s.db := by
  unfold takeCode
  split
  · rfl
  · split
    · rfl
    split
    · rfl
    split <;> rfl

theorem contains_takeCode {now : Nat} {account : String} {kind : CodeKind} {code k : String}
    (held : (s.takeCode now account kind code).1.codes.contains k = true) :
    s.codes.contains k = true := by
  have erased (gone : (s.codes.erase (key account)).contains k = true) :
      s.codes.contains k = true := by
    rw [ExtTreeMap.contains_erase, Bool.and_eq_true] at gone
    exact gone.2
  unfold takeCode at held
  split at held
  · exact held
  · rename_i pc was
    split at held
    · exact erased held
    split at held
    · exact erased held
    split at held
    · exact erased held
    · change (s.codes.insert (key account) _).contains k = true at held
      rw [ExtTreeMap.contains_insert, Bool.or_eq_true] at held
      rcases held with same | old
      · obtain rfl : key account = k := by simpa using same
        exact Table.contains_of_some was
      · exact old

theorem grounded_step {a : Action} (h : s.Grounded) (ok : s.KeepsGrounded a) :
    (s.step a).Grounded := by
  cases a with
  | store a =>
      cases a with
      | call env c => exact h.call ok
      | ingest env entry => exact h.ingest ok
      | compact env => exact h.compact env
      | reopen => exact h.reopen
      | wire signing outbound => exact ⟨h.wf, h.tracked, h.views, h.codes⟩
      | faults outcomes => exact ⟨h.wf, h.tracked, h.views, h.codes⟩
  | issueCode now account kind code =>
      refine ⟨h.wf, h.tracked, h.views, fun k held => ?_⟩
      change (s.codes.insert (key account) _).contains k = true at held
      rw [ExtTreeMap.contains_insert, Bool.or_eq_true] at held
      rcases held with same | old
      · obtain rfl : key account = k := by simpa using same
        exact ok
      · exact h.codes k old
  | takeCode now account kind code =>
      have same := s.takeCode_db now account kind code
      refine ⟨?_, ?_, ?_, fun k held => ?_⟩
      · change (s.takeCode now account kind code).1.db.Wf
        rw [same]
        exact h.wf
      · change (s.takeCode now account kind code).1.db.Tracked
        rw [same]
        exact h.tracked
      · change ∀ v ∈ (s.takeCode now account kind code).1.db.views, v.Grounded
        rw [same]
        exact h.views
      · change (s.takeCode now account kind code).1.db.toStore.Taken k
        rw [same]
        exact h.codes k (contains_takeCode held)

/-! ### Registration -/

/-- What a registration does to the store: it writes to the accounts only, and an
account it creates, under a name nobody holds, has no vhost. -/
theorem registers_store {db : Db} (env : Env) {c : Call} {name : String} {email : Option String}
    (registers : c.registers name email) (free : db.accounts[key name]? = none) :
    let s := (db.step (.call env c)).toStore
    s.channels = db.channels ∧ s.grouped = db.grouped ∧ s.net = db.net ∧
      ∀ a, s.accounts[key name]? = some a → a.vhost = none ∧ ¬ db.toStore.Named name := by
  let I (s : Store) : Prop := s.channels = db.channels ∧ s.grouped = db.grouped ∧ s.net = db.net ∧
    ∀ a, s.accounts[key name]? = some a → a.vhost = none ∧ ¬ db.toStore.Named name
  let P (_ : Store) (e : Event) : Prop :=
    (∃ scram256 scram512, e = .accountPasswordSet name scram256 scram512) ∨
      ¬ db.toStore.Named name ∧ ∃ a, e = .accountRegistered a ∧ key a.name = key name ∧ a.vhost = none
  have keeps : ∀ s e, I s → P s e → I (apply s e) := by
    rintro s e ⟨channels, grouped, net, blank⟩
      (⟨scram256, scram512, rfl⟩ | ⟨unnamed, a, rfl, same, novhost⟩)
    · refine ⟨channels, grouped, net, fun a held => ?_⟩
      change (s.accounts.modify (key name) _)[key name]? = some a at held
      rw [ExtTreeMap.getElem?_modify_self] at held
      obtain ⟨b, was, rfl⟩ := Option.map_eq_some_iff.mp held
      exact blank b was
    · simp only [apply, I]
      split
      · exact ⟨channels, grouped, net, blank⟩
      · refine ⟨channels, grouped, net, fun b held => ?_⟩
        rw [same, ExtTreeMap.getElem?_insert_self] at held
        cases held
        exact ⟨novhost, unnamed⟩
  have start : I db.toStore := ⟨rfl, rfl, rfl, fun a held => by rw [free] at held; contradiction⟩
  have moved : LockstepIn P db (db.step (.call env c)) := by
    have born (unnamed : ¬ db.toStore.Named name) (ts : Nat) (home scram256 : String)
        (scram512 : Option String) (verified : Bool) :
        P db.toStore (.accountRegistered
          (freshAccount name email ts home scram256 scram512 verified)) :=
      .inr ⟨unnamed, _, rfl, rfl, rfl⟩
    rcases registers with ⟨creds, rfl⟩ | ⟨scram256, scram512, rfl⟩
    · exact Db.lockstep_registerPrepared born
    · exact Db.lockstep_provisionAccount (.inl ⟨scram256, scram512, rfl⟩) born
  obtain ⟨events, -, along, stores⟩ := moved
  rw [stores]
  exact along.invariant keeps start

/-- In a run whose grants and codes are for taken names, and that frees no name
that something outlasts, an account registered under a name that had none finds
nothing held for it: no channel access, successorship, group, alias or operator
grant, no code and no vhost. -/
theorem registered_starts_fresh (origin : String) (actions : List Action)
    (run : Along step KeepsGrounded (fresh origin) actions) {env : Env} {c : Call} {name : String}
    {email : Option String} (registers : c.registers name email)
    (free : (after step (fresh origin) actions).db.accounts[key name]? = none) {a : Account}
    (registered : ((after step (fresh origin) actions).step
      (.store (.call env c))).db.accounts[key name]? = some a) :
    let s := (after step (fresh origin) actions).step (.store (.call env c))
    ¬ s.db.toStore.Holds (key name) ∧ s.codes.contains (key name) = false ∧ a.vhost = none := by
  have grounded : (after step (fresh origin) actions).Grounded :=
    run.invariant (fun s a held ok => grounded_step held ok) (grounded_fresh origin)
  generalize after step (fresh origin) actions = s at *
  obtain ⟨channels, grouped, net, blank⟩ := registers_store env registers free
  obtain ⟨novhost, unnamed⟩ := blank a registered
  refine ⟨fun holds => ?_, ?_, novhost⟩
  · have held : s.db.toStore.Holds (key name) := by
      rcases holds with ⟨held, granted, same⟩ | ⟨held, granted, same⟩ | ⟨held, same⟩ | ⟨granted⟩
      · exact .channel (channels ▸ held) granted same
      · exact .group (net ▸ held) granted same
      · exact .grouped (grouped ▸ held) same
      · exact .oper (net ▸ granted)
    exact unnamed (grounded.views _ List.mem_cons_self _ held)
  · rw [Bool.eq_false_iff]
    exact fun coded => unnamed (grounded.codes _ coded)

/-- Register alice, and drop her. -/
def aliceDropped : List Action :=
  [.store (.call .still (.registerPrepared "alice" ⟨"a", "a", @rfl Bool false⟩ none)),
    .store (.call .still (.dropAccount "alice"))]

/-- Nothing was held for alice, so nothing is once she registers again. -/
theorem registered_starts_fresh_alice :
    let s := (after step (fresh "a") aliceDropped).step
      (.store (.call .still (.registerPrepared "alice" ⟨"b", "b", by decide⟩ none)))
    ¬ s.db.toStore.Holds "alice" ∧ s.codes.contains "alice" = false ∧
      (freshAccount "alice" none 0 "a" "b" (some "b") true).vhost = none := by
  refine registered_starts_fresh "a" aliceDropped ?_ (.inl ⟨⟨"b", "b", by decide⟩, rfl⟩)
    (by decide) (by rfl)
  refine ⟨⟨fun v mem => ⟨fun name named => by contradiction, trivial⟩, fun k frees => frees.elim⟩,
    ⟨fun v mem => ⟨fun name named => by contradiction, ?_⟩, fun k frees => rfl⟩, trivial⟩
  have bare : v.net.opers = ∅ ∧ v.grouped = ∅ := by
    rcases List.mem_pair.mp mem with rfl | rfl
    · exact ⟨rfl, rfl⟩
    · exact ⟨rfl, rfl⟩
  constructor
  · rw [bare.1]
    rfl
  · rintro k other (own | ⟨-, a, aliased, -⟩) holds
    · exact other own
    · rw [bare.2] at aliased
      contradiction

/-- Alice is made an operator and e-mailed a code, and then dropped. -/
def operDropped : List Action :=
  [.store (.call .still (.registerPrepared "alice" ⟨"a", "a", @rfl Bool false⟩ none)),
    .store (.call .still (.operGrant "alice" ["admin"] none)),
    .issueCode 0 "alice" .reset "SECRET",
    .store (.call .still (.dropAccount "alice"))]

/-- Whoever registers the name next is an operator, and the code is still good. -/
theorem registered_inherits_oper :
    let dropped := after step (fresh "a") operDropped
    let s := dropped.step
      (.store (.call .still (.registerPrepared "alice" ⟨"b", "b", by decide⟩ none)))
    dropped.db.accounts["alice"]? = none ∧
      s.db.accounts["alice"]? = some (freshAccount "alice" none 0 "a" "b" (some "b") true) ∧
      s.db.toStore.Holds "alice" ∧ (s.takeCode 60 "alice" .reset "SECRET").2 = true := by
  refine ⟨by decide, by rfl, .oper (by decide), by decide⟩

end Session

end Echo
