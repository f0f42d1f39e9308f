import Echo.Db.Offers
import Echo.Db.Run

/-!
The ids of news items, reports and help tickets. Each family counts on from the highest
id it knows of; in memory that is the last one handed out, after a restart the highest
whose filing is still in the file.
-/

namespace Echo

open Echo.Lib

/-- The families that hand out ids. -/
inductive Family where
  | news | report | help
  deriving DecidableEq, Repr

/-- The id the family hands out next. -/
def NetData.nextOf (n : NetData) : Family → Nat
  | .news => n.newsSeq
  | .report => n.reportSeq
  | .help => n.helpSeq

/-- Past the id the event files in the family, if it does. -/
def Event.past (f : Family) : Event → Nat
  | .newsAdded id .. => if f = .news then id + 1 else 0
  | .reportFiled id .. => if f = .report then id + 1 else 0
  | .helpRequested id .. => if f = .help then id + 1 else 0
  | _ => 0

namespace Tickets

variable {s : Store} {db : Db} {f : Family}

/-! ### The counters -/

/-- An event moves a counter past the id it files, and no other way. -/
theorem nextOf_apply (s : Store) (e : Event) (f : Family) :
    (apply s e).net.nextOf f = max (s.net.nextOf f) (e.past f) := by
  cases e with
  | newsAdded | reportFiled | helpRequested =>
      cases f <;> simp [apply, Store.adjustNet, NetData.nextOf, Event.past]
  | accountRegistered | accountProfileSet | channelRenamed | botRemoved =>
      simp only [apply]
      split <;> cases f <;> exact (Nat.max_zero _).symm
  | jupeAdded name sid reason =>
      simp only [apply, Store.adjustNet]
      split <;> cases f <;> exact (Nat.max_zero _).symm
  | _ => cases f <;> exact (Nat.max_zero _).symm

/-- After a run of events a counter is past an id if it was, or if one of them files
that id or a higher one. -/
theorem lt_nextOf_fold {id : Nat} {events : List Event} :
    id < (fold s events).net.nextOf f ↔
      id < s.net.nextOf f ∨ ∃ e ∈ events, id < e.past f := by
  induction events generalizing s with
  | nil => simp [fold]
  | cons e events ih =>
      have past : id < max (s.net.nextOf f) (e.past f) ↔ id < s.net.nextOf f ∨ id < e.past f := by
        omega
      rw [fold_cons, ih, nextOf_apply, past, List.exists_mem_cons_iff, or_assoc]

/-- No counter goes back. -/
def Onward (db db' : Db) : Prop := ∀ f, db.net.nextOf f ≤ db'.net.nextOf f

instance : IsPreorder Db Onward where
  refl _ _ := Nat.le_refl _
  trans _ _ _ first second f := Nat.le_trans (first f) (second f)

theorem onward_of_fold {events : List Event} {db' : Db}
    (stores : db'.toStore = fold db.toStore events) : Onward db db' := by
  intro f
  rw [stores]
  refine Nat.le_of_not_lt fun back => ?_
  exact Nat.lt_irrefl _ (lt_nextOf_fold.mpr (.inl back))

theorem onward_edit {write : Store → Store}
    (same : ∀ s f, (write s).net.nextOf f = s.net.nextOf f) : Keeps Onward (Db.edit write) db :=
  fun f => Nat.le_of_eq (same db.toStore f).symm

theorem onward_append {ε : Type} {e : Event} {onError : IoError → ε} :
    Keeps Onward (Db.append e onError).run db := by
  unfold Keeps
  rw [Db.run_append]
  rcases db.log.append e with ⟨log, err | ⟨⟩⟩ <;> exact refl_of Onward db

theorem onward_logged {ε : Type} {e : Event} {onError : IoError → ε} {write : Store → Store}
    (same : ∀ s f, (write s).net.nextOf f = s.net.nextOf f) :
    Keeps Onward (Db.logged e onError write).run db :=
  keeps_bindE onward_append fun _ _ _ => keeps_liftE (onward_edit same)

theorem onward_appendEach {ε α : Type} {eventOf : α → Event} {onError : IoError → ε}
    {l : List α} : Keeps Onward (Db.appendEach eventOf onError l).run db :=
  keeps_forME fun _ _ _ _ => onward_append

theorem onward_putBot {bot : Bot} : Keeps Onward (Db.putBot bot).run db :=
  onward_logged fun _ _ => rfl

theorem onward_quietly {e : Event} {write : Store → Store}
    (on : ∀ f, db.net.nextOf f ≤ (write db.toStore).net.nextOf f) :
    Keeps Onward (Db.quietly e write) db := by
  unfold Keeps
  rw [Db.run_quietly]
  exact on

theorem onward_fileReport {env : Env} {reporter target reason : String} :
    Keeps Onward (Db.fileReport env reporter target reason) db := by
  refine keeps_bind (onward_edit fun _ f => ?_) (keeps_get_bind (keeps_bind ?_ keeps_pure))
  · cases f <;> rfl
  · refine onward_quietly fun f => ?_
    cases f with
    | report => exact Nat.le_succ _
    | news | help => exact Nat.le_refl _

theorem onward_fileHelp {env : Env} {requester message : String} :
    Keeps Onward (Db.fileHelp env requester message) db := by
  refine keeps_bind (onward_edit fun _ f => ?_) (keeps_get_bind (keeps_bind ?_ keeps_pure))
  · cases f <;> rfl
  · refine onward_quietly fun f => ?_
    cases f with
    | help => exact Nat.le_succ _
    | news | report => exact Nat.le_refl _

/-- A call that edits past the fold of its events turns no counter back. -/
theorem onward_deviates {env : Env} {c : Call} (h : c.deviates = true) :
    Keeps Onward (c.run env) db := by
  cases c with
  | memoSend account sender text receipt =>
      change Keeps Onward (Db.memoSend env account sender text receipt).run db
      refine keeps_get_bindE ?_
      split
      · exact onward_logged fun _ _ => rfl
      · exact keeps_throw
  | botDel nick =>
      change Keeps Onward (Db.botDel nick).run db
      refine keeps_get_bindE ?_
      split
      · exact keeps_bindE (onward_logged fun _ _ => rfl) fun _ _ _ => keeps_ok
      · exact keeps_ok
  | botDelAll =>
      change Keeps Onward (Db.botDelAll env).run db
      refine keeps_get_bindE (keeps_bindE onward_appendEach fun _ _ _ => ?_)
      exact keeps_bindE (keeps_liftE (onward_edit fun _ _ => rfl)) fun _ _ _ => keeps_ok
  | botChange old newNick user host gecos =>
      change Keeps Onward (Db.botChange env old newNick user host gecos).run db
      refine keeps_get_bindE ?_
      split
      · exact keeps_throw
      dsimp only
      split
      · exact onward_putBot
      split
      · exact keeps_throw
      refine keeps_bindE (onward_logged fun _ _ => rfl) fun _ _ _ => ?_
      refine keeps_bindE onward_putBot fun _ _ _ => ?_
      exact keeps_forME fun _ _ _ _ => onward_logged fun _ _ => rfl
  | notifyClear =>
      change Keeps Onward Db.notifyClear.run db
      refine keeps_get_bindE (keeps_bindE onward_appendEach fun _ _ _ => ?_)
      refine keeps_bindE (keeps_liftE (onward_edit fun _ f => ?_)) fun _ _ _ => keeps_ok
      cases f <;> rfl
  | reportFile reporter cooldownKey target reason =>
      refine keeps_bind (Db.keeps_unlessThrottled (fun _ _ => Nat.le_refl _) fun _ _ => ?_) keeps_pure
      exact onward_fileReport
  | helpRequest requester cooldownKey message =>
      refine keeps_bind (Db.keeps_unlessThrottled (fun _ _ => Nat.le_refl _) fun _ _ => ?_) keeps_pure
      exact onward_fileHelp
  | _ => contradiction

/-! ### What a step hands out -/

/-- The id a step answers with, and its family. -/
def assigns (db : Db) : Action → Option (Family × Nat)
  | .call env (.newsAdd kind text setter) =>
      some (.news, ((Db.newsAdd env kind text setter).run db).1)
  | .call env (.reportFile reporter cooldownKey target reason) =>
      (((Db.reportFile env reporter cooldownKey target reason).run db).1).map (.report, ·)
  | .call env (.helpRequest requester cooldownKey message) =>
      (((Db.helpRequest env requester cooldownKey message).run db).1).map (.help, ·)
  | _ => none

theorem fileReport_next (env : Env) (reporter target reason : String) (db : Db) :
    ((Db.fileReport env reporter target reason).run db).1 = db.net.reportSeq ∧
      ((Db.fileReport env reporter target reason).run db).2.net.reportSeq =
        db.net.reportSeq + 1 := by
  have filed := Db.run_quietly (.reportFiled db.net.reportSeq reporter target reason env.now)
    (·.adjustNet fun n =>
      { n with
        reportSeq := db.net.reportSeq + 1
        reports := n.reports ++ [⟨db.net.reportSeq, reporter, target, reason, env.now, true⟩] })
    { db with toStore := db.toStore.adjustNet fun n =>
        { n with reports := pruneQueue (·.open) n.reports } }
  exact ⟨rfl, congrArg (fun d : Db => d.net.reportSeq) filed⟩

theorem fileHelp_next (env : Env) (requester message : String) (db : Db) :
    ((Db.fileHelp env requester message).run db).1 = db.net.helpSeq ∧
      ((Db.fileHelp env requester message).run db).2.net.helpSeq = db.net.helpSeq + 1 := by
  have filed := Db.run_quietly (.helpRequested db.net.helpSeq requester message env.now)
    (·.adjustNet fun n =>
      { n with
        helpSeq := db.net.helpSeq + 1
        help := n.help ++ [⟨db.net.helpSeq, requester, message, env.now, none, true⟩] })
    { db with toStore := db.toStore.adjustNet fun n =>
        { n with help := pruneQueue (·.open) n.help } }
  exact ⟨rfl, congrArg (fun d : Db => d.net.helpSeq) filed⟩

/-- A filing that answers with an id was not throttled: the answer and the state are
those of the filing itself. -/
theorem unlessThrottled_some {env : Env} {who : String} {file : StateM Db Nat} {id : Nat}
    (answered : ((Db.unlessThrottled env who file).run db).1 = some id) :
    let noted : Db := { db with reportTimes := db.reportTimes.insert who env.now }
    (file.run noted).1 = id ∧ ((Db.unlessThrottled env who file).run db).2 = (file.run noted).2 := by
  have ran : (Db.unlessThrottled env who file).run db =
      (if db.filedRecently env who then pure none else do
        set ({ db with reportTimes := db.reportTimes.insert who env.now } : Db)
        return some (← file) : StateM Db (Option Nat)).run db := rfl
  rw [ran] at answered ⊢
  split at answered
  · contradiction
  · rename_i free
    rw [if_neg free]
    exact ⟨Option.some.inj answered, rfl⟩

/-- The id handed out is the family's next, which the family then moves past. -/
theorem assigns_next {a : Action} {id : Nat} (assigned : assigns db a = some (f, id)) :
    id = db.net.nextOf f ∧ id < (db.step a).net.nextOf f := by
  cases a with
  | call env c =>
      cases c with
      | newsAdd kind text setter =>
          cases assigned
          have added := Db.run_quietly
            (.newsAdded db.net.newsSeq kind.wire text setter env.now)
            (·.adjustNet fun n =>
              { n with
                newsSeq := db.net.newsSeq + 1
                news := n.news ++ [⟨db.net.newsSeq, kind.wire, text, setter, env.now⟩] }) db
          have moved : (db.step (.call env (.newsAdd kind text setter))).net.newsSeq =
              db.net.newsSeq + 1 := congrArg (fun d : Db => d.net.newsSeq) added
          refine ⟨rfl, ?_⟩
          change db.net.newsSeq < (db.step (.call env (.newsAdd kind text setter))).net.newsSeq
          rw [moved]
          exact Nat.lt_succ_self _
      | reportFile reporter cooldownKey target reason =>
          obtain ⟨answer, answered, same⟩ := Option.map_eq_some_iff.mp assigned
          cases same
          obtain ⟨first, state⟩ := unlessThrottled_some answered
          obtain ⟨next, moved⟩ := fileReport_next env reporter target reason
            { db with reportTimes := db.reportTimes.insert (toAsciiLowercase cooldownKey) env.now }
          rw [next] at first
          refine ⟨first.symm, ?_⟩
          change id < ((Db.reportFile env reporter cooldownKey target reason).run db).2.net.reportSeq
          unfold Db.reportFile
          rw [state, moved, ← first]
          exact Nat.lt_succ_self _
      | helpRequest requester cooldownKey message =>
          obtain ⟨answer, answered, same⟩ := Option.map_eq_some_iff.mp assigned
          cases same
          obtain ⟨first, state⟩ := unlessThrottled_some answered
          obtain ⟨next, moved⟩ := fileHelp_next env requester message
            { db with reportTimes := db.reportTimes.insert (Db.helpThrottle cooldownKey) env.now }
          rw [next] at first
          refine ⟨first.symm, ?_⟩
          change id < ((Db.helpRequest env requester cooldownKey message).run db).2.net.helpSeq
          unfold Db.helpRequest
          rw [state, moved, ← first]
          exact Nat.lt_succ_self _
      | _ => contradiction
  | _ => contradiction

/-- Only a restart can turn a counter back. -/
theorem onward_step (wf : db.Wf) {a : Action} (running : a ≠ .reopen) : Onward db (db.step a) := by
  cases a with
  | call env c =>
      cases straight : c.deviates with
      | false =>
          refine Call.keeps wf (fun _ _ ⟨_, _, _, stores⟩ => onward_of_fold stores) straight fun e _ => ?_
          exact onward_quietly fun f => by
            rw [nextOf_apply]
            exact Nat.le_max_left _ _
      | true => exact onward_deviates straight
  | ingest env entry =>
      obtain ⟨events, -, stores⟩ : Db.Follows db _ := Db.follows_ingest env entry
      exact onward_of_fold stores
  | compact env =>
      rw [Db.step_compact]
      exact fun _ => Nat.le_refl _
  | reopen => exact absurd rfl running
  | wire => exact fun _ => Nat.le_refl _
  | faults => exact fun _ => Nat.le_refl _

/-! ### Runs -/

/-- A store with the ids it has handed out, oldest first. -/
structure Desk where
  db : Db
  given : List (Family × Nat) := []

namespace Desk

def step (d : Desk) (a : Action) : Desk where
  db := d.db.step a
  given := d.given ++ (assigns d.db a).toList

/-- The ids handed out in a family. -/
def ids (d : Desk) (f : Family) : List Nat :=
  d.given.filterMap fun g => if g.1 = f then some g.2 else none

/-- Each id of a family is greater than those handed out before it, and so will the
next be. -/
structure Rising (d : Desk) : Prop where
  rising : ∀ f, (d.ids f).Pairwise (· < ·)
  next : ∀ f, ∀ id ∈ d.ids f, id < d.db.net.nextOf f

/-- A restart finds, for each id handed out, the filing of it or of a higher one of its
family still in the file. -/
def Refiled (d : Desk) : Action → Prop
  | .reopen => ∀ f, ∀ id ∈ d.ids f, ∃ entry ∈ d.db.log.entries, id < entry.event.past f
  | _ => True

theorem ids_step (d : Desk) (a : Action) (f : Family) :
    (d.step a).ids f = d.ids f ++ ((assigns d.db a).toList.filterMap fun g =>
      if g.1 = f then some g.2 else none) := by
  unfold ids step
  exact List.filterMap_append

/-- A step that hands nothing out in the family leaves its ids alone, any other adds
the family's next. -/
theorem ids_step_cases (d : Desk) (a : Action) (f : Family) :
    (d.step a).ids f = d.ids f ∨
      (d.step a).ids f = d.ids f ++ [d.db.net.nextOf f] ∧
        d.db.net.nextOf f < (d.step a).db.net.nextOf f := by
  rw [ids_step]
  cases assigned : assigns d.db a with
  | none => simp
  | some g =>
      obtain ⟨g, id⟩ := g
      by_cases same : g = f
      · subst same
        obtain ⟨rfl, past⟩ := assigns_next assigned
        right
        refine ⟨?_, past⟩
        simp
      · simp [same]

theorem rising_running {d : Desk} (wf : d.db.Wf) (rising : d.Rising) {a : Action}
    (running : a ≠ .reopen) : (d.step a).Rising := by
  have onward := onward_step wf running
  constructor
  · intro f
    rcases ids_step_cases d a f with same | ⟨added, -⟩
    · rw [same]
      exact rising.rising f
    · rw [added, List.pairwise_append]
      refine ⟨rising.rising f, List.pairwise_singleton _ _, fun id mem next last => ?_⟩
      rw [List.mem_singleton.mp last]
      exact rising.next f id mem
  · intro f id mem
    rcases ids_step_cases d a f with same | ⟨added, past⟩
    · rw [same] at mem
      exact Nat.lt_of_lt_of_le (rising.next f id mem) (onward f)
    · rw [added] at mem
      rcases List.mem_append.mp mem with old | last
      · exact Nat.lt_of_lt_of_le (rising.next f id old) (onward f)
      · rw [List.mem_singleton.mp last]
        exact past

theorem rising_reopen {d : Desk} (rising : d.Rising) :
    (d.step .reopen).Rising ↔ d.Refiled .reopen := by
  have kept (f : Family) : (d.step .reopen).ids f = d.ids f := by
    rw [ids_step]
    exact List.append_nil _
  have next (f : Family) (id : Nat) : id < (d.step .reopen).db.net.nextOf f ↔
      ∃ entry ∈ d.db.log.entries, id < entry.event.past f := by
    change id < (d.db.step .reopen).net.nextOf f ↔ _
    rw [Db.replay_reopen, replay, lt_nextOf_fold]
    have start : ¬ id < ({} : Store).net.nextOf f := by cases f <;> exact Nat.not_lt_zero _
    simp [start, eventsOf]
  constructor
  · intro risen f id mem
    exact (next f id).mp (risen.next f id (by rw [kept]; exact mem))
  · intro refiled
    refine ⟨fun f => ?_, fun f id mem => ?_⟩
    · rw [kept]
      exact rising.rising f
    · rw [kept] at mem
      exact (next f id).mpr (refiled f id mem)

theorem rising_step {d : Desk} (wf : d.db.Wf) (rising : d.Rising) (a : Action) :
    (d.step a).Rising ↔ d.Refiled a := by
  cases a with
  | reopen => exact rising_reopen rising
  | call | ingest | compact | wire | faults =>
      exact iff_of_true (rising_running wf rising (by simp)) trivial

/-- Along a run from any file, every id is greater than those its family handed out
before, and so is the next, exactly when each restart finds the newest of them still
filed in the file. -/
theorem rising_iff (origin : String) (file : List LogEntry) (actions : List Action) :
    (∀ before, before <+: actions →
      (after step { db := Db.open' origin file } before).Rising) ↔
      Along step Refiled { db := Db.open' origin file } actions := by
  refine (along_iff_throughout (I := Rising) (J := fun d : Desk => d.db.Wf) ?_ ?_
    (Db.wf_open origin file) ?_).symm
  · intro d a wf
    exact Db.wf_step wf a
  · intro d a wf rising
    exact rising_step wf rising a
  · exact ⟨fun _ => List.Pairwise.nil, fun _ _ mem => absurd mem List.not_mem_nil⟩

/-- Two items of news, the second is deleted, and services restart over a compacted
log before the third. -/
def retold : List Action :=
  [.call .still (.newsAdd .logon "first" "oper"), .call .still (.newsAdd .logon "second" "oper"),
    .call .still (.newsDel 1), .compact .still, .reopen,
    .call .still (.newsAdd .logon "third" "oper")]

/-- The third item gets the id of the second. -/
theorem retold_id :
    (after step { db := Db.fresh "a" } retold).given = [(.news, 0), (.news, 1), (.news, 1)] ∧
      ¬ (after step { db := Db.fresh "a" } retold).Rising := by
  have given : (after step { db := Db.fresh "a" } retold).given =
      [(.news, 0), (.news, 1), (.news, 1)] := by decide +kernel
  refine ⟨given, fun rising => ?_⟩
  have news := rising.rising .news
  unfold ids at news
  rw [given] at news
  exact absurd news (by decide)

end Desk

end Tickets

end Echo
