import Echo.Db.CoreRun
import Echo.Web.Wire

/-!
A subscriber that loads a snapshot and follows the stream. Each entry the node
commits moves the subscriber's directory as the fold moves the records, except
two kinds: a rename of a channel, which is not streamed, and a registration that
loses to an earlier one, which is streamed although the fold refuses it.
-/

namespace Echo

open Std (ExtTreeMap)
open Echo.Lib
open EventLog (Appends)

/-- The records as a subscriber would hold them. -/
def Store.directory (s : Store) : Directory where
  accounts := s.accounts.map fun _ a => accountRecord a
  channels := s.channels.map fun _ c => channelRecord c

/-! ### Snapshots -/

theorem load_records {α ρ : Type} {record : α → ρ} {nameOf : ρ → String} {m : Table α}
    (named : Bindings (fun k a => key (nameOf (record a)) = k) m) (env : Env) :
    insertAll ∅ (((env.values m).map record).map fun r => (key (nameOf r), r)) =
      m.map fun _ a => record a := by
  have keyed : ((env.values m).map record).map (fun r => (key (nameOf r), r)) =
      (env.entries m).map fun b => (b.1, record b.2) := by
    unfold Env.values
    simp only [List.map_map]
    refine List.map_congr_left fun b hb => ?_
    change (key (nameOf (record b.2)), record b.2) = _
    rw [named b.1 b.2 (Env.mem_entries.mp hb)]
  rw [keyed]
  refine insertAll_of_perm ?_
  rw [ExtTreeMap.toList_map]
  exact (env.iter_perm _).map _

/-- A snapshot loads to the records themselves, in whatever order it lists them. -/
theorem Directory.load_snapshot {s : Store} (wf : s.Wf) (env : Env) :
    load (s.directorySnapshot env) = s.directory := by
  have accounts := @load_records _ _ accountRecord AccountRecord.name s.accounts wf.accounts env
  have channels := @load_records _ _ channelRecord ChannelRecord.name s.channels
    (fun k c held => (wf.channels k c held).name) env
  unfold load Store.directorySnapshot Store.directory
  rw [accounts, channels]

/-- The directory does not see what is outside the core. -/
theorem Store.directory_core (opers : Bool) (s : Store) : (s.core opers).directory = s.directory := by
  unfold directory core
  simp only [map_map]
  rfl

/-! ### One event -/

namespace Directory

/-- What the stream makes of an event. -/
def see (d : Directory) (e : Event) : Directory := (e.wireKind.map d.take).getD d

theorem follow_streamed (d : Directory) (entries : List LogEntry) :
    d.follow (entries.filterMap toWire) = (entries.map (·.event)).foldl see d := by
  induction entries generalizing d with
  | nil => rfl
  | cons entry entries ih =>
      rw [List.map_cons, List.foldl_cons, ← ih]
      unfold see
      cases said : entry.event.wireKind with
      | none =>
          have unsaid : toWire entry = none := by simp [toWire, said]
          rw [List.filterMap_cons_none unsaid]
          rfl
      | some kind =>
          have sent : toWire entry = some ⟨entry.origin, entry.seq, entry.lamport, kind⟩ := by
            simp [toWire, said]
          rw [List.filterMap_cons_some sent]
          rfl

theorem follow_append (d : Directory) (first rest : List ReplicationEvent) :
    d.follow (first ++ rest) = (d.follow first).follow rest := List.foldl_append

end Directory

theorem EventLog.streamed_eq {log : EventLog} {sent entries : List LogEntry}
    (outbound : log.outbound = some (sent ++ entries)) :
    log.streamed sent = entries.filterMap toWire := by
  unfold streamed
  rw [outbound, Option.getD_some, List.drop_left]

/-- The stream tells of an event what the fold makes of it: a registration does
not lose its name to an earlier one, and a rename leaves the channel the name it has. -/
def Store.Tells (s : Store) : Event → Prop
  | .accountRegistered a => (s.accounts[key a.name]?).any (ownsOver · a) = false
  | .channelRenamed old new => ∀ c ∈ s.channels[key old]?, c.name = new
  | _ => True

section Fold

variable {s : Store} {e : Event}

theorem directory_adjustAccount {account : String} {f : Account → Account}
    {g : AccountRecord → AccountRecord} (through : ∀ a, accountRecord (f a) = g (accountRecord a)) :
    (s.adjustAccount account f).directory =
      { s.directory with accounts := s.directory.accounts.modify (key account) g } := by
  unfold Store.directory Store.adjustAccount
  rw [map_modify through]

theorem directory_adjustChannel {channel : String} {f : ChannelInfo → ChannelInfo}
    {g : ChannelRecord → ChannelRecord} (through : ∀ c, channelRecord (f c) = g (channelRecord c)) :
    (s.adjustChannel channel f).directory =
      { s.directory with channels := s.directory.channels.modify (key channel) g } := by
  unfold Store.directory Store.adjustChannel
  rw [map_modify through]

theorem directory_adjustAccount_same {account : String} {f : Account → Account}
    (same : ∀ a, accountRecord (f a) = accountRecord a) :
    (s.adjustAccount account f).directory = s.directory := by
  unfold Store.directory Store.adjustAccount
  rw [map_modify_of_same same]

theorem directory_adjustChannel_same {channel : String} {f : ChannelInfo → ChannelInfo}
    (same : ∀ c, channelRecord (f c) = channelRecord c) :
    (s.adjustChannel channel f).directory = s.directory := by
  unfold Store.directory Store.adjustChannel
  rw [map_modify_of_same same]

theorem directory_purge (account : String) :
    (s.purgeAccountRefs account).directory = s.directory := by
  unfold Store.directory Store.purgeAccountRefs
  simp only [map_map]
  rfl

/-- An earlier registration differs from the one that loses to it in the
directory too. -/
theorem accountRecord_ne {held claim : Account} (loses : ownsOver held claim = true) :
    accountRecord held ≠ accountRecord claim := by
  intro same
  have ts : held.ts = claim.ts := congrArg AccountRecord.registeredAt same
  have home : held.home = claim.home := congrArg AccountRecord.home same
  unfold ownsOver precedes at loses
  rw [ts, home] at loses
  simp at loses

theorem see_registered (a : Account) :
    s.directory.see (.accountRegistered a) = (apply s (.accountRegistered a)).directory ↔
      s.Tells (.accountRegistered a) := by
  simp only [apply, Store.Tells]
  split
  · rename_i loses
    rw [loses]
    simp only [Bool.true_eq_false, iff_false]
    intro same
    obtain ⟨held, stored, earlier⟩ := Option.any_eq_true .. |>.mp loses
    have recorded : (s.directory.see (.accountRegistered a)).accounts[key a.name]? =
        s.directory.accounts[key a.name]? := by
      rw [same]
    have new : (s.directory.see (.accountRegistered a)).accounts[key a.name]? =
        some (accountRecord a) := ExtTreeMap.getElem?_insert_self
    have old : s.directory.accounts[key a.name]? = some (accountRecord held) := by
      change (s.accounts.map fun _ a => accountRecord a)[key a.name]? = _
      rw [ExtTreeMap.getElem?_map, stored]
      rfl
    rw [new, old] at recorded
    exact accountRecord_ne earlier (Option.some.inj recorded).symm
  · rename_i stands
    rw [Bool.not_eq_true] at stands
    refine iff_of_true ?_ stands
    unfold Store.directory
    rw [map_insert]
    rfl

theorem directory_renamed {old new : String} {c : ChannelInfo} (stored : s.channels[key old]? = some c) :
    (apply s (.channelRenamed old new)).directory =
      { s.directory with
        channels := (s.directory.channels.erase (key old)).insert (key new)
          (channelRecord { c with name := new }) } := by
  unfold Store.directory
  simp only [apply, stored, map_insert, map_erase]

theorem see_renamed (wf : s.Wf) (old new : String) :
    s.directory.see (.channelRenamed old new) = (apply s (.channelRenamed old new)).directory ↔
      s.Tells (.channelRenamed old new) := by
  change s.directory = _ ↔ ∀ c ∈ s.channels[key old]?, c.name = new
  cases stored : s.channels[key old]? with
  | none =>
      refine iff_of_true ?_ fun c hc => by contradiction
      simp only [apply, stored]
  | some c =>
      have held : s.directory.channels[key old]? = some (channelRecord c) := by
        change (s.channels.map fun _ c => channelRecord c)[key old]? = _
        rw [ExtTreeMap.getElem?_map, stored]
        rfl
      have folded : key c.name = key old := (wf.channels _ c stored).name
      rw [directory_renamed stored, eq_comm, Directory.mk.injEq, insert_erase_eq_self_iff held]
      constructor
      · rintro ⟨-, -, same⟩ d hd
        cases hd
        exact congrArg ChannelRecord.name same
      · intro named
        obtain rfl := named c rfl
        exact ⟨rfl, folded.symm, rfl⟩

/-- The stream and the fold agree on exactly the events that are told. -/
theorem see_iff (wf : s.Wf) : s.directory.see e = (apply s e).directory ↔ s.Tells e := by
  cases e with
  | accountRegistered a => exact see_registered a
  | channelRenamed old new => exact see_renamed wf old new
  | accountEmailSet | accountVerified =>
      exact iff_of_true (directory_adjustAccount fun _ => rfl).symm trivial
  | channelFounderSet | channelDescSet =>
      exact iff_of_true (directory_adjustChannel fun _ => rfl).symm trivial
  | accountDropped account =>
      refine iff_of_true ?_ trivial
      simp only [apply]
      rw [directory_purge]
      unfold Store.directory
      rw [map_erase]
      rfl
  | channelRegistered name founder ts =>
      refine iff_of_true ?_ trivial
      unfold Store.directory
      simp only [apply]
      rw [map_insert]
      rfl
  | channelDropped name =>
      refine iff_of_true ?_ trivial
      unfold Store.directory
      simp only [apply]
      rw [map_erase]
      rfl
  | accountProfileSet =>
      refine iff_of_true ?_ trivial
      simp only [apply]
      split
      · refine (directory_adjustAccount_same fun a => ?_).symm
        rfl
      · rfl
  | certAdded | memoSent | memoIgnoreAdd =>
      refine iff_of_true (directory_adjustAccount_same fun a => ?_).symm trivial
      split <;> rfl
  | memoRead | memoDeleted | certRemoved | accountGreetSet | accountLanguageSet | accountSwhoisSet
  | accountSignoreSet | accountPubkeySet | accountAutoOpSet | accountKillSet | accountHideStatusSet
  | accountSnoticeSet | accountPasswordSet | ajoinAdded | ajoinRemoved | vhostSet | vhostDeleted
  | vhostRequested | vhostRequestCleared | accountSuspended | accountUnsuspended | memoIgnoreDel
  | memoPrefsSet | accountSeen | accountNoExpire | accountExpiryWarned | accountOperNoteSet =>
      refine iff_of_true (directory_adjustAccount_same fun a => ?_).symm trivial
      rfl
  | channelMlock | channelAccessAdd | channelAccessDel | channelAkickAdd | channelAkickDel
  | channelLevelSet | channelLevelReset | channelSuccessorSet | channelEntryMsgSet | channelUrlSet
  | channelEmailSet | channelSettingsSet | channelKickerSet | channelBadwordsSet | channelTriggersSet
  | channelTopicSet | channelSuspended | channelUnsuspended | channelBotAssigned
  | channelBotUnassigned | channelUsed | channelNoExpire | channelExpiryWarned
  | channelOperNoteSet =>
      refine iff_of_true (directory_adjustChannel_same fun c => ?_).symm trivial
      rfl
  | _ => exact iff_of_true rfl trivial

theorem foldl_see (wf : s.Wf) {events : List Event} (told : Along apply Store.Tells s events) :
    events.foldl Directory.see s.directory = (fold s events).directory := by
  induction events generalizing s with
  | nil => rfl
  | cons e events ih =>
      rw [List.foldl_cons, fold_cons, (see_iff wf).mpr told.1]
      exact ih (apply_wf wf e) told.2

end Fold

/-! ### One step of a serving node -/

/-- Whether the node streams what a step does to the directory. A rename that
goes through must leave the channel's name as it is; an account registered at
another node must not lose its name to an earlier registration here. -/
def Db.Streams (db : Db) : Service → Prop
  | .call _ (.renameChannel old new) =>
      db.log.writable = true → (key old = key new ∨ db.channels.contains (key new) = false) →
        db.Tells (.channelRenamed old new)
  | .ingest _ entry => db.adopts entry = true → db.Tells entry.event
  | _ => True

/-- What was pushed to the subscribers is what was logged. -/
theorem EventLog.Appends.pushed {log log' : EventLog} {events : List Event}
    (h : Appends log events log') :
    ∃ entries : List LogEntry, entries.map (·.event) = events ∧
      log'.outbound = log.outbound.map (· ++ entries) := by
  induction h with
  | refl => exact ⟨[], rfl, by simp⟩
  | ok first written ih =>
      rename_i mid log' events event
      obtain ⟨entries, same, pushed⟩ := ih
      refine ⟨entries ++ [mid.stamped event], by simp [same], ?_⟩
      rw [append_ok written]
      change mid.outbound.map _ = _
      simp [pushed, Function.comp_def]
  | failed first refused ih =>
      rcases append_error refused with rfl | rfl
      · exact ih
      · exact ih
  | lockdown on first ih => exact ih

section Step

variable {db : Db}

theorem Call.tells {c : Call} {s : Store} {e : Event} (permitted : c.permits s e)
    (other : ∀ old new, c ≠ .renameChannel old new) : s.Tells e := by
  cases e with
  | accountRegistered a =>
      change (s.accounts[key a.name]?).any _ = false
      rw [Store.getElem?_eq_none_of_not_named permitted.1]
      rfl
  | channelRenamed old new => exact absurd permitted (other old new)
  | _ => trivial

/-- The entries that a step pushed bring an up-to-date directory to this state of
the records, and it is the right one or not. -/
def Db.Pushes (db db' : Db) (right : Prop) : Prop :=
  ∃ entries : List LogEntry, db'.log.outbound = db.log.outbound.map (· ++ entries) ∧
    ((entries.map (·.event)).foldl Directory.see db.directory = db'.directory ↔ right)

theorem pushes_none {db' : Db} {right : Prop} (holds : right)
    (outbound : db'.log.outbound = db.log.outbound) (stores : db'.toStore = db.toStore) :
    db.Pushes db' right := by
  refine ⟨[], by simp [outbound], iff_of_true ?_ holds⟩
  rw [stores]
  rfl

theorem pushes_one (wf : db.Wf) {db' : Db} {entry : LogEntry}
    (outbound : db'.log.outbound = db.log.outbound.map (· ++ [entry]))
    (stores : db'.toStore = apply db.toStore entry.event) :
    db.Pushes db' (db.Tells entry.event) := by
  refine ⟨[entry], outbound, ?_⟩
  rw [stores]
  exact see_iff wf

theorem Tracks.pushes (wf : db.Wf) {c : Call} {db' : Db} (h : Tracks c db db')
    (other : ∀ old new, c ≠ .renameChannel old new) : db.Pushes db' True := by
  obtain ⟨events, logs, permitted, cores⟩ := h
  obtain ⟨entries, same, pushed⟩ := logs.pushed
  refine ⟨entries, pushed, iff_of_true ?_ trivial⟩
  rw [same, foldl_see wf (permitted.mono fun s e allowed => Call.tells allowed other),
    ← Store.directory_core false, ← cores, Store.directory_core]

theorem pushes_rename (wf : db.Wf) (env : Env) (old new : String) :
    db.Pushes (db.serve (.call env (.renameChannel old new)))
      (db.Streams (.call env (.renameChannel old new))) := by
  change db.Pushes ((Db.renameChannel old new).run.run db).2
    (db.log.writable = true → (key old = key new ∨ db.channels.contains (key new) = false) →
      ∀ c ∈ db.channels[key old]?, c.name = new)
  unfold Db.renameChannel
  rw [run_get_bindE]
  cases stored : db.channels[key old]? with
  | none => exact pushes_none (fun _ _ c hc => by contradiction) rfl rfl
  | some c =>
      dsimp only
      split
      · rename_i taken
        refine pushes_none (fun _ free => ?_) rfl rfl
        rcases free with same | free
        · exact absurd same taken.1
        · rw [taken.2] at free
          contradiction
      · rename_i free
        have free : key old = key new ∨ db.channels.contains (key new) = false := by
          by_cases same : key old = key new
          · exact .inl same
          · exact .inr (Bool.not_eq_true _ ▸ fun taken => free ⟨same, taken⟩)
        rw [Db.run_logged]
        cases writable : db.log.writable with
        | true =>
            rw [EventLog.append_of_writable writable]
            let renamed : Db := { db with
              toStore := apply db.toStore (.channelRenamed old new)
              log := db.log.committed (.channelRenamed old new) }
            have stores : renamed.toStore =
                apply db.toStore (db.log.stamped (.channelRenamed old new)).event := by
              rw [EventLog.stamped_event]
            obtain ⟨entries, outbound, exact_when⟩ := @pushes_one db wf renamed _ rfl stores
            refine ⟨entries, outbound, exact_when.trans ?_⟩
            rw [EventLog.stamped_event]
            change (∀ c ∈ db.channels[key old]?, c.name = new) ↔ _
            rw [stored]
            exact ⟨fun told _ _ => told, fun told => told rfl free⟩
        | false =>
            obtain ⟨err, log', refused, -⟩ := EventLog.append_of_not_writable writable
              (.channelRenamed old new)
            rw [refused]
            refine pushes_none (fun h => by contradiction) ?_ rfl
            rcases EventLog.append_error refused with rfl | rfl
            · rfl
            · rfl

/-- A step of a serving node keeps an up-to-date directory so exactly when the
node streams what the step does. -/
theorem pushes_serve (wf : db.Wf) (a : Service) : db.Pushes (db.serve a) (db.Streams a) := by
  cases a with
  | call env c =>
      by_cases rename : ∃ old new, c = .renameChannel old new
      · obtain ⟨old, new, rfl⟩ := rename
        exact pushes_rename wf env old new
      · have other : ∀ old new, c ≠ .renameChannel old new := fun old new same =>
          rename ⟨old, new, same⟩
        have streams : db.Streams (.call env c) = True := by
          cases c with
          | renameChannel old new => exact absurd rfl (other old new)
          | _ => rfl
        rw [streams]
        exact (Call.tracks wf).pushes wf other
  | ingest env entry =>
      change db.Pushes (db.step (.ingest env entry)) (db.adopts entry = true → db.Tells entry.event)
      rw [Db.step_ingest, EventLog.ingest_eq]
      unfold Db.adopts
      cases db.log.acceptable entry with
      | false => exact pushes_none (fun h => by contradiction) rfl rfl
      | true =>
          cases db.log.faults.headD false with
          | true => exact pushes_none (fun h => by contradiction) rfl rfl
          | false =>
              let taken : Db := { db with
                toStore := apply db.toStore entry.event, log := db.log.accepted entry }
              obtain ⟨entries, outbound, exact_when⟩ := @pushes_one db wf taken entry rfl rfl
              exact ⟨entries, outbound, exact_when.trans ⟨fun told _ => told, fun told => told rfl⟩⟩
  | compact env =>
      change db.Pushes (db.step (.compact env)) True
      rw [Db.step_compact]
      refine pushes_none trivial ?_ rfl
      rw [EventLog.compact_eq]
      split
      · rfl
      · dsimp only
        split <;> rfl
  | faults outcomes => exact pushes_none trivial rfl rfl

end Step

/-! ### Runs -/

/-- What a subscriber holds that loaded a snapshot of `db` and followed the stream
until the node came to be `db'`. -/
def Db.replica (env : Env) (db db' : Db) : Directory :=
  (Directory.load (db.directorySnapshot env)).follow
    (db'.log.streamed (db.log.outbound.getD []))

/-- Whatever came before the snapshot, a subscriber holds at every moment what a
fresh snapshot would return exactly when every step on the way is streamed. -/
theorem Db.mirror_faithful_iff (origin : String) (file : List LogEntry) (past : List Action)
    (wired : (after Db.step (Db.open' origin file) past).log.outbound.isSome = true)
    (actions : List Service) :
    Along Db.serve Db.Streams (after Db.step (Db.open' origin file) past) actions ↔
      ∀ before, before <+: actions → ∀ env env' : Env,
        Db.replica env (after Db.step (Db.open' origin file) past)
            (after Db.serve (after Db.step (Db.open' origin file) past) before) =
          Directory.load ((after Db.serve (after Db.step (Db.open' origin file) past)
            before).directorySnapshot env') := by
  have wf : (after Db.step (Db.open' origin file) past).Wf := Db.wf_after past
  generalize after Db.step (Db.open' origin file) past = start at *
  obtain ⟨sent, outbound⟩ := Option.isSome_iff_exists.mp wired
  -- How far the subscribers have been sent what was logged since the snapshot.
  let Ready (db : Db) : Prop := db.Wf ∧ ∃ entries, db.log.outbound = some (sent ++ entries)
  let UpToDate (db : Db) : Prop :=
    start.directory.follow (db.log.streamed sent) = db.directory
  have ready (db : Db) (a : Service) (h : Ready db) : Ready (db.serve a) := by
    obtain ⟨wf, entries, pushed⟩ := h
    obtain ⟨more, outbound, -⟩ := pushes_serve wf a
    refine ⟨Db.wf_serve wf a, entries ++ more, ?_⟩
    rw [outbound, pushed, Option.map_some, List.append_assoc]
  have moves (db : Db) (a : Service) (h : Ready db) (now : UpToDate db) :
      UpToDate (db.serve a) ↔ db.Streams a := by
    obtain ⟨wf, entries, pushed⟩ := h
    obtain ⟨more, outbound, exact_when⟩ := pushes_serve wf a
    have pushed' : (db.serve a).log.outbound = some (sent ++ (entries ++ more)) := by
      rw [outbound, pushed, Option.map_some, List.append_assoc]
    rw [← exact_when]
    change start.directory.follow ((db.serve a).log.streamed sent) = _ ↔ _
    change start.directory.follow (db.log.streamed sent) = _ at now
    rw [EventLog.streamed_eq pushed] at now
    rw [EventLog.streamed_eq pushed', List.filterMap_append, Directory.follow_append, now,
      Directory.follow_streamed]
  have begun : start.log.outbound = some (sent ++ []) := by rw [outbound, List.append_nil]
  have current : UpToDate start := by
    change start.directory.follow (start.log.streamed sent) = _
    rw [EventLog.streamed_eq begun]
    rfl
  rw [along_iff_throughout ready moves ⟨wf, [], begun⟩ current]
  refine forall₂_congr fun before _ => ?_
  have wf' : (after Db.serve start before).Wf := (invariant ready ⟨wf, [], begun⟩ before).1
  unfold Db.replica
  rw [outbound, Option.getD_some]
  constructor
  · intro held env env'
    rw [Directory.load_snapshot wf, Directory.load_snapshot wf']
    exact held
  · intro held
    have seen := held Env.still Env.still
    rwa [Directory.load_snapshot wf, Directory.load_snapshot wf'] at seen

/-- A renamed channel stays in the replica under its old name, and a registration
that loses to an earlier one replaces it there. -/
theorem Db.mirror_stale :
    let alice : Event := .accountRegistered (freshAccount "alice" none 1 "b" "" none true)
    let rival : Event := .accountRegistered (freshAccount "Alice" none 9 "c" "" none true)
    let start := after Db.step (Db.fresh "a")
      [.wire none (some []), .call Env.still (.registerChannel "#old" "alice"),
        .ingest Env.still ⟨"b", 0, 1, 0, none, alice⟩]
    let renamed := start.serve (.call Env.still (.renameChannel "#old" "#new"))
    let rivalled := start.serve (.ingest Env.still ⟨"c", 0, 1, 0, none, rival⟩)
    (Db.replica Env.still start renamed).channels[key "#old"]? = some ⟨"#old", "alice", 0, ""⟩ ∧
      (Directory.load (renamed.directorySnapshot Env.still)).channels[key "#old"]? = none ∧
      (Db.replica Env.still start rivalled).accounts[key "alice"]? =
        some ⟨"Alice", "", true, 9, "c"⟩ ∧
      (Directory.load (rivalled.directorySnapshot Env.still)).accounts[key "alice"]? =
        some ⟨"alice", "", true, 1, "b"⟩ := by
  decide +kernel

/-- A node that serves a registration and a change of founder keeps its replica. -/
theorem Db.mirror_faithful_founder :
    let start := after Db.step (Db.fresh "a") [.wire none (some [])]
    let actions : List Service :=
      [.call Env.still (.registerChannel "#a" "alice"), .call Env.still (.setFounder "#a" "bob")]
    ∀ before, before <+: actions → ∀ env env' : Env,
      Db.replica env start (after Db.serve start before) =
        Directory.load ((after Db.serve start before).directorySnapshot env') :=
  (Db.mirror_faithful_iff "a" [] [.wire none (some [])] (by decide +kernel) _).mp
    ⟨trivial, trivial, trivial⟩

end Echo
