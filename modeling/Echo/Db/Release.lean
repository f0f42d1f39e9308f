import Echo.Db.Founders

/-!
The release of the channels an account founded. Each goes to its successor, if
that is another name and resolves, with two writes, or else is dropped with one;
a refused write leaves what it was to change. So what becomes of each channel
follows from which of the next writes the file takes.
-/

namespace Echo

open Std (ExtTreeMap)
open Echo.Lib

/-! ### Which writes are taken -/

namespace EventLog

/-- Whether the append after the next `i` ones will succeed. -/
def takes (log : EventLog) (i : Nat) : Bool := !log.readonly && !log.faults.getD i false

theorem takes_zero (log : EventLog) : log.takes 0 = log.writable := by
  unfold takes writable
  cases log.faults <;> rfl

theorem takes_append (log : EventLog) (event : Event) (i : Nat) :
    (log.append event).1.takes i = log.takes (i + 1) := by
  have next : log.faults.tail.getD i false = log.faults.getD (i + 1) false := by
    cases log.faults <;> rfl
  unfold takes
  rw [append_eq, ← next]
  by_cases ro : log.readonly = true
  · have refused : ¬ log.writable = true := by simp [writable, ro]
    rw [if_neg refused, if_pos ro]
    simp [ro]
  · rw [if_neg ro]
    split <;> rfl

end EventLog

namespace Db

variable {db : Db} {chan account : String}

/-! ### One write -/

/-- Writes to one channel: everything else stands, and the log has seen so many
appends. -/
structure Around (chan : String) (n : Nat) (db db' : Db) : Prop where
  accounts : db'.accounts = db.accounts
  grouped : db'.grouped = db.grouped
  elsewhere : ∀ k : String, k ≠ key chan → db'.channels[k]? = db.channels[k]?
  takes : ∀ i, db'.log.takes i = db.log.takes (i + n)

theorem Around.trans {n m : Nat} {db' db'' : Db} (first : Around chan n db db')
    (second : Around chan m db' db'') : Around chan (n + m) db db'' where
  accounts := second.accounts.trans first.accounts
  grouped := second.grouped.trans first.grouped
  elsewhere k other := (second.elsewhere k other).trans (first.elsewhere k other)
  takes i := by rw [second.takes, first.takes, Nat.add_assoc, Nat.add_comm m n]

/-- What logging an event and then editing a channel does: a refused event leaves
the channel. -/
theorem run_loggedChannel {ε : Type} (event : Event) (onError : IoError → ε)
    (write : Store → Store) (accounts : (write db.toStore).accounts = db.accounts)
    (grouped : (write db.toStore).grouped = db.grouped)
    (elsewhere : ∀ k : String, k ≠ key chan →
      (write db.toStore).channels[k]? = db.channels[k]?) :
    ∃ answer db', (logged event onError write).run.run db = (answer, db') ∧
      Around chan 1 db db' ∧ answer.isOk = db.log.takes 0 ∧
      db'.channels[key chan]? =
        if db.log.takes 0 then (write db.toStore).channels[key chan]? else db.channels[key chan]? := by
  have seen := EventLog.takes_append db.log event
  rw [run_logged]
  cases writable : db.log.writable with
  | true =>
      rw [EventLog.append_of_writable writable] at seen ⊢
      rw [← EventLog.takes_zero] at writable
      rw [writable]
      exact ⟨_, _, rfl, ⟨accounts, grouped, elsewhere, seen⟩, rfl, rfl⟩
  | false =>
      obtain ⟨err, log', refused, -⟩ := EventLog.append_of_not_writable writable event
      rw [refused] at seen ⊢
      rw [← EventLog.takes_zero] at writable
      rw [writable]
      exact ⟨_, _, rfl, ⟨rfl, rfl, fun k other => rfl, seen⟩, rfl, rfl⟩

theorem run_writeChannel {c : ChannelInfo} (was : db.channels[key chan]? = some c) (event : Event)
    (write : ChannelInfo → ChannelInfo) :
    ∃ answer db', (writeChannel chan event write).run.run db = (answer, db') ∧
      Around chan 1 db db' ∧ answer.isOk = db.log.takes 0 ∧
      db'.channels[key chan]? = some (if db.log.takes 0 then write c else c) := by
  have ran : (writeChannel chan event write).run.run db =
      (logged event (fun _ => ChanError.internal) (·.adjustChannel chan write)).run.run db := by
    unfold writeChannel
    rw [run_bindE]
    change (if db.channels.contains (key chan) = true then _ else _ : DbM ChanError Unit).run.run
      db = _
    rw [if_pos (Table.contains_of_some was)]
  have kept (k : String) (other : k ≠ key chan) :
      (db.toStore.adjustChannel chan write).channels[k]? = db.channels[k]? := by
    change (db.channels.modify (key chan) write)[k]? = _
    rw [ExtTreeMap.getElem?_modify]
    exact if_neg (by simpa using other.symm)
  obtain ⟨answer, db', same, around, ok, left⟩ :=
    run_loggedChannel event (fun _ => ChanError.internal)
      (·.adjustChannel chan write) rfl rfl kept
  refine ⟨answer, db', ran.trans same, around, ok, left.trans ?_⟩
  have written : (db.toStore.adjustChannel chan write).channels[key chan]? = some (write c) := by
    change (db.channels.modify (key chan) write)[key chan]? = _
    rw [ExtTreeMap.getElem?_modify_self, was]
    rfl
  rw [written, was]
  split <;> rfl

theorem run_dropChannel {c : ChannelInfo} (was : db.channels[key chan]? = some c) :
    ∃ answer db', (dropChannel chan).run.run db = (answer, db') ∧
      Around chan 1 db db' ∧ answer.isOk = db.log.takes 0 ∧
      db'.channels[key chan]? = if db.log.takes 0 then none else some c := by
  have ran : (dropChannel chan).run.run db =
      (logged (.channelDropped chan) (fun _ => ChanError.internal) fun s =>
        { s with channels := s.channels.erase (key chan) }).run.run db := by
    unfold dropChannel
    rw [run_bindE]
    change (if db.channels.contains (key chan) = true then _ else _ : DbM ChanError Unit).run.run
      db = _
    rw [if_pos (Table.contains_of_some was)]
  have kept (k : String) (other : k ≠ key chan) :
      (db.channels.erase (key chan))[k]? = db.channels[k]? := by
    rw [ExtTreeMap.getElem?_erase]
    exact if_neg (by simpa using other.symm)
  obtain ⟨answer, db', same, around, ok, left⟩ :=
    run_loggedChannel (.channelDropped chan) (fun _ => ChanError.internal)
      (fun s => { s with channels := s.channels.erase (key chan) }) rfl rfl kept
  refine ⟨answer, db', ran.trans same, around, ok, left.trans ?_⟩
  have gone : (db.channels.erase (key chan))[key chan]? = none := ExtTreeMap.getElem?_erase_self
  change (if _ then (db.channels.erase (key chan))[key chan]? else _) = _
  rw [gone, was]

/-! ### One channel -/

/-- Who a channel goes to when the account that founded it does: its successor, if
that is another name and resolves. -/
def heir (db : Db) (account chan : String) : Option String :=
  ((db.channels[key chan]?).bind (·.successor)).filter fun s =>
    !eqIgnoreAsciiCase s account && db.exists s

/-- The writes a release of the channel makes. -/
def writes (db : Db) (account chan : String) : Nat := if (db.heir account chan).isSome then 2 else 1

/-- Whether the channel, once released, is gone or has a founder that fits, when
`takes` says which writes are taken. -/
def ReleasedTo (db : Db) (Fit : String → Prop) (account chan : String) (takes : Nat → Bool) : Prop :=
  let stays := ∀ c ∈ db.channels[key chan]?, Fit c.founder
  match db.heir account chan with
  | some successor => if takes 0 then Fit successor else takes 1 = true ∨ stays
  | none => takes 0 = true ∨ stays

/-- Hand a channel to its successor, or drop it when that is refused. -/
def handChannel (chan successor : String) : StateM Db (List (String × String) × List String) := do
  match ← (setFounder chan successor).run with
  | .error _ => abandonChannel chan
  | .ok () =>
      effect (setSuccessor chan none)
      return ([(chan, successor)], [])

theorem run_releaseChannel_heir (account chan : String) (db : Db) :
    (releaseChannel account chan).run db =
      match db.heir account chan with
      | none => (abandonChannel chan).run db
      | some successor => (handChannel chan successor).run db := by
  unfold releaseChannel heir
  rw [StateT.run_bind]
  change StateT.run (match ((db.channels[key chan]?).bind (·.successor)).filter (fun s =>
    !eqIgnoreAsciiCase s account && db.exists s) with
    | none => abandonChannel chan
    | some successor => handChannel chan successor) db = _
  cases ((db.channels[key chan]?).bind (·.successor)).filter fun s =>
    !eqIgnoreAsciiCase s account && db.exists s <;> rfl

theorem run_handChannel_written (chan successor : String) (db : Db) :
    (handChannel chan successor).run db =
      match (setFounder chan successor).run.run db with
      | (.error _, db') => (abandonChannel chan).run db'
      | (.ok (), db') => (([(chan, successor)], []), ((setSuccessor chan none).run.run db').2) := by
  unfold handChannel
  rw [StateT.run_bind]
  rcases (setFounder chan successor).run.run db with ⟨err | ⟨⟩, db'⟩ <;> rfl

theorem run_handChannel (successor : String) {c : ChannelInfo}
    (was : db.channels[key chan]? = some c) :
    Around chan 2 db ((handChannel chan successor).run db).2 ∧
      ((handChannel chan successor).run db).2.channels[key chan]? =
        if db.log.takes 0 then
          some { c with founder := successor, successor := if db.log.takes 1 then none else c.successor }
        else if db.log.takes 1 then none else some c := by
  obtain ⟨answer, db', ran, handed, ok, left⟩ := run_writeChannel was
    (.channelFounderSet chan successor) ({ · with founder := successor })
  rw [run_handChannel_written,
    show (setFounder chan successor).run.run db = (answer, db') from ran]
  cases answer with
  | ok done =>
      have taken : db.log.takes 0 = true := ok.symm
      rw [taken, if_pos rfl] at left ⊢
      obtain ⟨answer', db'', cleared, around, -, after⟩ := run_writeChannel left
        (.channelSuccessorSet chan none) ({ · with successor := none })
      have ran' : ((setSuccessor chan none).run.run db').2 = db'' := congrArg Prod.snd cleared
      change Around chan 2 db ((setSuccessor chan none).run.run db').2 ∧
        ((setSuccessor chan none).run.run db').2.channels[key chan]? = _
      rw [ran']
      refine ⟨handed.trans around, after.trans ?_⟩
      rw [handed.takes]
      cases db.log.takes (0 + 1) <;> rfl
  | error err =>
      have refused : db.log.takes 0 = false := ok.symm
      rw [refused, if_neg Bool.false_ne_true] at left ⊢
      obtain ⟨answer', db'', dropped, around, -, after⟩ := run_dropChannel left
      have ran' : ((abandonChannel chan).run db').2 = db'' := congrArg Prod.snd dropped
      change Around chan 2 db ((abandonChannel chan).run db').2 ∧
        ((abandonChannel chan).run db').2.channels[key chan]? = _
      rw [ran']
      refine ⟨handed.trans around, after.trans ?_⟩
      rw [handed.takes]

/-- A released channel is gone or has a founder that fits, exactly when `ReleasedTo`
says so of the writes the file takes. -/
theorem run_releaseChannel (account : String) (Fit : String → Prop) {c : ChannelInfo}
    (was : db.channels[key chan]? = some c) :
    Around chan (db.writes account chan) db ((releaseChannel account chan).run db).2 ∧
      ((∀ c ∈ ((releaseChannel account chan).run db).2.channels[key chan]?, Fit c.founder) ↔
        db.ReleasedTo Fit account chan db.log.takes) := by
  unfold writes ReleasedTo
  rw [run_releaseChannel_heir]
  cases db.heir account chan with
  | none =>
      obtain ⟨answer, db', dropped, around, -, after⟩ := run_dropChannel was
      have ran : ((abandonChannel chan).run db).2 = db' := congrArg Prod.snd dropped
      change Around chan 1 db ((abandonChannel chan).run db).2 ∧
        ((∀ c ∈ ((abandonChannel chan).run db).2.channels[key chan]?, Fit c.founder) ↔ _)
      rw [ran, after, was]
      refine ⟨around, ?_⟩
      cases db.log.takes 0 <;> simp
  | some successor =>
      obtain ⟨around, after⟩ := run_handChannel successor was
      change Around chan 2 db ((handChannel chan successor).run db).2 ∧
        ((∀ c ∈ ((handChannel chan successor).run db).2.channels[key chan]?, Fit c.founder) ↔ _)
      rw [after, was]
      refine ⟨around, ?_⟩
      cases db.log.takes 0 with
      | true => simp
      | false => cases db.log.takes 1 <;> simp

/-! ### All of them -/

/-- Whether every channel in turn is released to nobody or to a founder that fits. -/
def Releases (db : Db) (Fit : String → Prop) (account : String) : (Nat → Bool) → List String → Prop
  | _, [] => True
  | takes, chan :: chans =>
      db.ReleasedTo Fit account chan takes ∧
        Releases db Fit account (fun i => takes (i + db.writes account chan)) chans

theorem heir_congr {db' : Db} (accounts : db'.accounts = db.accounts)
    (grouped : db'.grouped = db.grouped)
    (channel : db'.channels[key chan]? = db.channels[key chan]?) :
    db'.heir account chan = db.heir account chan := by
  unfold heir Db.exists resolvedKey
  rw [accounts, grouped, channel]

theorem releases_congr {db' : Db} {Fit : String → Prop} (accounts : db'.accounts = db.accounts)
    (grouped : db'.grouped = db.grouped) {chans : List String}
    (channels : ∀ chan ∈ chans, db'.channels[key chan]? = db.channels[key chan]?)
    {takes : Nat → Bool} :
    db'.Releases Fit account takes chans ↔ db.Releases Fit account takes chans := by
  induction chans generalizing takes with
  | nil => exact Iff.rfl
  | cons chan chans ih =>
      have channel := channels chan List.mem_cons_self
      have goes : db'.heir account chan = db.heir account chan :=
        heir_congr accounts grouped channel
      have same : db'.ReleasedTo Fit account chan takes ↔ db.ReleasedTo Fit account chan takes := by
        unfold ReleasedTo
        rw [goes, channel]
      unfold Releases writes
      rw [goes, same]
      exact and_congr_right fun _ => ih fun other mem => channels other (List.mem_cons_of_mem _ mem)

theorem run_mapM_cons (chan : String) (chans : List String) (db : Db) :
    (((chan :: chans).mapM (releaseChannel account)).run db).2 =
      ((chans.mapM (releaseChannel account)).run ((releaseChannel account chan).run db).2).2 := by
  rw [List.mapM_cons]
  rfl

/-- The writes that releasing them all makes. -/
def allWrites (db : Db) (account : String) (chans : List String) : Nat :=
  (chans.map (db.writes account)).sum

/-- Where the channels are distinct and there, releasing them leaves the rest, and
makes every founder fit exactly when `Releases` says so. -/
theorem run_releaseChannels (account : String) (Fit : String → Prop) {chans : List String} {db : Db}
    (distinct : (chans.map key).Nodup)
    (there : ∀ chan ∈ chans, ∃ c, db.channels[key chan]? = some c) :
    let db' := ((chans.mapM (releaseChannel account)).run db).2
    db'.accounts = db.accounts ∧
      (∀ i, db'.log.takes i = db.log.takes (i + db.allWrites account chans)) ∧
      (∀ k : String, k ∉ chans.map key → db'.channels[k]? = db.channels[k]?) ∧
      ((∀ chan ∈ chans, ∀ c ∈ db'.channels[key chan]?, Fit c.founder) ↔
        db.Releases Fit account db.log.takes chans) := by
  induction chans generalizing db with
  | nil =>
      exact ⟨rfl, fun _ => rfl, fun _ _ => rfl,
        iff_of_true (fun _ mem => absurd mem List.not_mem_nil) trivial⟩
  | cons chan chans ih =>
      obtain ⟨c, was⟩ := there chan List.mem_cons_self
      obtain ⟨around, fits⟩ := run_releaseChannel account Fit was
      rw [List.map_cons, List.nodup_cons] at distinct
      rw [run_mapM_cons]
      generalize ((releaseChannel account chan).run db).2 = mid at around fits
      have other (chan' : String) (mem : chan' ∈ chans) :
          mid.channels[key chan']? = db.channels[key chan']? := by
        refine around.elsewhere (key chan') fun same => distinct.1 ?_
        rw [← same]
        exact List.mem_map_of_mem mem
      obtain ⟨accounts, later, elsewhere, rest⟩ := ih distinct.2 fun chan' mem => by
        rw [other chan' mem]
        exact there chan' (List.mem_cons_of_mem chan mem)
      have takes : mid.log.takes = fun i => db.log.takes (i + db.writes account chan) :=
        funext around.takes
      have writes : mid.allWrites account chans = db.allWrites account chans := by
        unfold allWrites
        refine congrArg List.sum (List.map_congr_left fun chan' mem => ?_)
        unfold Db.writes
        rw [heir_congr around.accounts around.grouped (other chan' mem)]
      refine ⟨accounts.trans around.accounts, fun i => ?_, fun k absent => ?_, ?_⟩
      · rw [later, around.takes, writes]
        unfold allWrites
        rw [List.map_cons, List.sum_cons, Nat.add_assoc, Nat.add_comm (List.sum _)]
      · rw [List.map_cons, List.mem_cons, not_or] at absent
        rw [elsewhere k absent.2, around.elsewhere k absent.1]
      · rw [takes, releases_congr around.accounts around.grouped other] at rest
        unfold Releases
        rw [List.forall_mem_cons, rest, elsewhere _ distinct.1, fits]

/-! ### What an account founded -/

theorem mem_channelsOwnedBy {env : Env} {k : String} (wf : db.Wf) :
    k ∈ (channelsOwnedBy env db account).map key ↔
      ∃ c, db.channels[k]? = some c ∧ key c.founder = key account := by
  unfold channelsOwnedBy
  rw [List.map_map, List.mem_map]
  constructor
  · rintro ⟨c, mem, rfl⟩
    obtain ⟨listed, founded⟩ := List.mem_filter.mp mem
    obtain ⟨k, held⟩ := Env.mem_values.mp listed
    obtain rfl := (wf.channels k c held).name
    exact ⟨c, held, eqIgnoreAsciiCase_iff.mp founded⟩
  · rintro ⟨c, held, founded⟩
    refine ⟨c, List.mem_filter.mpr ⟨Env.mem_values.mpr ⟨k, held⟩, ?_⟩, (wf.channels k c held).name⟩
    exact eqIgnoreAsciiCase_iff.mpr founded

theorem nodup_channelsOwnedBy (env : Env) (wf : db.Wf) :
    ((channelsOwnedBy env db account).map key).Nodup := by
  have keyed : (channelsOwnedBy env db account).map key =
      ((env.entries db.channels).filter fun b =>
        eqIgnoreAsciiCase b.2.founder account).map Prod.fst := by
    unfold channelsOwnedBy Env.values
    rw [List.filter_map, List.map_map, List.map_map]
    refine List.map_congr_left fun b mem => ?_
    exact (wf.channels b.1 b.2 (Env.mem_entries.mp (List.mem_of_mem_filter mem))).name
  rw [keyed]
  have distinct : ((env.entries db.channels).map Prod.fst).Nodup :=
    nodup_keys_of_perm (env.iter_perm db.channels.toList)
  exact distinct.sublist (List.filter_sublist.map Prod.fst)

/-- After the release of the channels an account founded every founder fits
exactly when those of all other channels do and the release sees to the rest. -/
theorem run_releaseFoundedChannels (Fit : String → Prop) (env : Env) (account : String)
    (wf : db.Wf) :
    let db' := ((releaseFoundedChannels env account).run db).2
    db'.accounts = db.accounts ∧
      (∀ i, db'.log.takes i =
        db.log.takes (i + db.allWrites account (channelsOwnedBy env db account))) ∧
      ((∀ (k : String) (c : ChannelInfo), db'.channels[k]? = some c → Fit c.founder) ↔
        (∀ (k : String) (c : ChannelInfo), db.channels[k]? = some c →
            key c.founder ≠ key account → Fit c.founder) ∧
          db.Releases Fit account db.log.takes (channelsOwnedBy env db account)) := by
  have ran : ((releaseFoundedChannels env account).run db).2 =
      (((channelsOwnedBy env db account).mapM (releaseChannel account)).run db).2 := rfl
  rw [ran]
  obtain ⟨accounts, takes, elsewhere, fits⟩ := run_releaseChannels account Fit
    (nodup_channelsOwnedBy env wf) fun chan mem => by
      obtain ⟨c, held, -⟩ := (mem_channelsOwnedBy wf).mp (List.mem_map_of_mem mem)
      exact ⟨c, held⟩
  refine ⟨accounts, takes, ?_⟩
  rw [← fits]
  constructor
  · intro all
    constructor
    · intro k c held other
      refine all k c ((elsewhere k fun owned => ?_).trans held)
      obtain ⟨c', held', founded⟩ := (mem_channelsOwnedBy wf).mp owned
      rw [held] at held'
      cases held'
      exact other founded
    · exact fun chan _ c held => all (key chan) c held
  · rintro ⟨others, released⟩ k c held
    by_cases owned : k ∈ (channelsOwnedBy env db account).map key
    · obtain ⟨chan, mem, rfl⟩ := List.mem_map.mp owned
      exact released chan mem c held
    · rw [elsewhere k owned] at held
      refine others k c held fun founded => ?_
      exact owned ((mem_channelsOwnedBy wf).mpr ⟨c, held, founded⟩)

/-! ### The writes of an owner -/

theorem owned_of_around {db' : Db} {n : Nat} {c' : ChannelInfo} (around : Around chan n db db')
    (now : db'.channels[key chan]? = some c') (h : db.toStore.Owned) :
    db'.toStore.Owned ↔ db.toStore.Canonical c'.founder := by
  have canonical (name : String) : db'.toStore.Canonical name ↔ db.toStore.Canonical name := by
    unfold Store.Canonical Store.spelling
    rw [around.accounts]
  constructor
  · intro owned
    exact (canonical c'.founder).mp (owned (key chan) c' now)
  · intro written k d held
    by_cases same : k = key chan
    · subst same
      rw [now] at held
      cases held
      exact (canonical c'.founder).mpr written
    · rw [around.elsewhere k same] at held
      exact (canonical d.founder).mpr (h k d held)

theorem owned_congr {s s' : Store} (accounts : s'.accounts = s.accounts)
    (founders : ∀ k : String, (s'.channels[k]?).map ChannelInfo.founder = (s.channels[k]?).map ChannelInfo.founder) :
    s'.Owned ↔ s.Owned := by
  have named (s : Store) : s.Owned ↔
      ∀ k founder : String, (s.channels[k]?).map ChannelInfo.founder = some founder → s.Canonical founder := by
    constructor
    · intro owned k founder held
      obtain ⟨c, was, rfl⟩ := Option.map_eq_some_iff.mp held
      exact owned k c was
    · intro owned k c held
      exact owned k c.founder (congrArg (Option.map _) held)
  rw [named, named]
  unfold Store.Canonical Store.spelling
  simp only [accounts, founders]

/-- A write to a channel that leaves its founder leaves who is owned. -/
theorem owned_writeChannel (event : Event) (write : ChannelInfo → ChannelInfo)
    (kept : ∀ c, (write c).founder = c.founder) :
    ((writeChannel chan event write).run.run db).2.toStore.Owned ↔ db.toStore.Owned := by
  cases was : db.channels[key chan]? with
  | none =>
      have absent : ¬ db.channels.contains (key chan) = true := by
        rw [ExtTreeMap.contains_eq_isSome_getElem?, was]
        simp
      unfold writeChannel
      rw [run_bindE]
      change ((if db.channels.contains (key chan) = true then _ else _ :
        DbM ChanError Unit).run.run db).2.toStore.Owned ↔ _
      rw [if_neg absent]
      exact Iff.rfl
  | some c =>
      obtain ⟨answer, db', ran, around, -, now⟩ := run_writeChannel was event write
      rw [ran]
      refine owned_congr around.accounts fun k => ?_
      by_cases same : k = key chan
      · subst same
        rw [now, was]
        cases db.log.takes 0 with
        | true => exact congrArg some (kept c)
        | false => rfl
      · rw [around.elsewhere k same]

theorem owned_setFounder {c : ChannelInfo} (was : db.channels[key chan]? = some c)
    (founder : String) (h : db.toStore.Owned) :
    ((setFounder chan founder).run.run db).2.toStore.Owned ↔
      (db.log.writable = true → db.toStore.Canonical founder) := by
  obtain ⟨answer, db', ran, around, -, now⟩ :=
    run_writeChannel was (.channelFounderSet chan founder) ({ · with founder })
  have ran' : (setFounder chan founder).run.run db = (answer, db') := ran
  rw [ran']
  refine (owned_of_around around now h).trans ?_
  rw [EventLog.takes_zero]
  cases db.log.writable with
  | true => exact ⟨fun written _ => written, fun written => written rfl⟩
  | false => exact iff_of_true (h (key chan) c was) fun taken => by contradiction

theorem owned_registerChannel (env : Env) (name founder : String) (h : db.toStore.Owned) :
    ((registerChannel env name founder).run.run db).2.toStore.Owned ↔
      (db.channels.contains (key name) = false → db.log.writable = true →
        db.toStore.Canonical founder) := by
  unfold registerChannel
  rw [run_bindE]
  change ((if db.channels.contains (key name) = true then _ else _ :
    DbM ChanError Unit).run.run db).2.toStore.Owned ↔ _
  cases db.channels.contains (key name) with
  | true => exact iff_of_true h fun absent => by contradiction
  | false =>
      rw [if_neg Bool.false_ne_true, run_logged]
      cases writable : db.log.writable with
      | true =>
          rw [EventLog.append_of_writable writable]
          refine Iff.trans (h.apply_iff (e := .channelRegistered name founder env.now)) ?_
          exact ⟨fun written _ _ => written, fun written => written rfl rfl⟩
      | false =>
          obtain ⟨err, log', refused, -⟩ :=
            EventLog.append_of_not_writable writable (.channelRegistered name founder env.now)
          rw [refused]
          exact iff_of_true h fun _ taken => by contradiction

/-! ### The drop of an account -/

theorem run_dropAccount (account : String) (db : Db) :
    ∃ answer db', (dropAccount account).run.run db = (answer, db') ∧
      if db.accounts.contains (key account) && db.log.takes 0 then
        answer = .ok true ∧ db'.toStore = apply db.toStore (.accountDropped account) ∧
          ∀ i, db'.log.takes i = db.log.takes (i + 1)
      else answer ≠ .ok true ∧ db'.toStore = db.toStore := by
  unfold dropAccount
  rw [run_bindE]
  change ∃ answer db', (if db.accounts.contains (key account) = true then _ else _ :
    DbM RegError Bool).run.run db = (answer, db') ∧ _
  cases held : db.accounts.contains (key account) with
  | false => exact ⟨_, _, rfl, by simp, rfl⟩
  | true =>
      have seen := EventLog.takes_append db.log (.accountDropped account)
      rw [if_pos rfl, run_bindE, run_logged]
      cases writable : db.log.writable with
      | true =>
          rw [EventLog.append_of_writable writable] at seen ⊢
          rw [EventLog.takes_zero, writable]
          exact ⟨_, _, rfl, rfl, rfl, seen⟩
      | false =>
          obtain ⟨err, log', refused, -⟩ :=
            EventLog.append_of_not_writable writable (.accountDropped account)
          rw [refused]
          rw [EventLog.takes_zero, writable]
          exact ⟨_, _, rfl, by simp, rfl⟩

/-! ### An entry that drops an account -/

theorem ownerEffect_self (event : Event) (db : Db) : ownerEffect (db.watched event) db = none := by
  unfold ownerEffect watched
  cases event with
  | accountRegistered a =>
      dsimp only
      cases held : db.accounts[key a.name]? with
      | none => rfl
      | some c =>
          dsimp only [Option.map_some]
          rw [held]
          simp
  | accountDropped account =>
      dsimp only
      cases held : db.accounts[key account]? with
      | none => rfl
      | some c =>
          dsimp only [Option.map_some]
          rw [held]
          simp
  | _ => rfl

/-- What the fold of an event takes away. -/
theorem ownerEffect_dropped (event : Event) {db' : Db} (store : db'.toStore = apply db.toStore event)
    (account : String) :
    ownerEffect (db.watched event) db' = some (.dropped account) ↔
      event = .accountDropped account ∧ db.accounts.contains (key account) = true := by
  unfold ownerEffect watched
  rw [store]
  cases event with
  | accountRegistered a =>
      have present : ((apply db.toStore (.accountRegistered a)).accounts[key a.name]?).isSome := by
        simp only [apply]
        split
        · rename_i stands
          exact Option.isSome_of_any stands
        · simp
      obtain ⟨cur, now⟩ := Option.isSome_iff_exists.mp present
      dsimp only
      cases db.accounts[key a.name]? with
      | none => simp
      | some c =>
          dsimp only [Option.map_some]
          rw [now]
          dsimp only
          split <;> simp
  | accountDropped name =>
      have gone : (apply db.toStore (.accountDropped name)).accounts[key name]? = none :=
        ExtTreeMap.getElem?_erase_self
      dsimp only
      cases held : db.accounts[key name]? with
      | none =>
          refine iff_of_false (by simp) ?_
          rintro ⟨same, there⟩
          cases same
          rw [ExtTreeMap.contains_eq_isSome_getElem?, held] at there
          contradiction
      | some c =>
          dsimp only [Option.map_some]
          rw [gone]
          constructor
          · intro same
            cases same
            refine ⟨rfl, ?_⟩
            exact Table.contains_of_some held
          · rintro ⟨same, -⟩
            cases same
            rfl
  | _ => simp

theorem other_effects (env : Env) (event : Event) (db : Db) (account : String) :
    (suspendEffect env db event).or (banEffect env event) ≠ some (.dropped account) := by
  unfold suspendEffect banEffect
  cases event with
  | accountSuspended =>
      dsimp only
      split <;> simp
  | akillAdded =>
      dsimp only
      split <;> simp
  | _ => simp

/-- What an ingest answers: what the entry brings about, if it is adopted. -/
theorem answer_ingest (env : Env) (entry : LogEntry) (db : Db) :
    let db' := db.step (.ingest env entry)
    let answer := ((ingest env entry).run.run db).1
    (db.adopts entry = true ∧ answer = .ok ((ownerEffect (db.watched entry.event) db').or
        ((suspendEffect env db' entry.event).or (banEffect env entry.event)))) ∨
      (db.adopts entry = false ∧ (answer = .ok none ∨ ∃ err, answer = .error err)) := by
  intro db' answer
  have came := EventLog.ingest_eq db.log entry
  have stepped := step_ingest env entry db
  have answered : answer = ((ingest env entry).run.run db).1 := rfl
  unfold ingest at answered
  rw [run_get_bindE] at answered
  unfold adopts
  cases acceptable : db.log.acceptable entry with
  | false =>
      rw [acceptable, if_neg Bool.false_ne_true] at came
      rw [came] at answered
      refine .inr ⟨rfl, .inl (answered.trans ?_)⟩
      exact congrArg Except.ok (ownerEffect_self entry.event db)
  | true =>
      rw [acceptable, if_pos rfl] at came
      cases refused : db.log.faults.headD false with
      | true =>
          rw [refused, if_pos rfl] at came
          rw [came] at answered
          exact .inr ⟨rfl, .inr ⟨_, answered⟩⟩
      | false =>
          rw [refused, if_neg Bool.false_ne_true] at came
          rw [came] at answered stepped
          refine .inl ⟨rfl, answered.trans ?_⟩
          rw [show db' = _ from stepped]
          rfl

/-- An entry that is taken in and drops an account there was is told as such, and no
other. -/
theorem run_ingest (env : Env) (entry : LogEntry) (db : Db) :
    ∃ answer, (ingest env entry).run.run db = (answer, db.step (.ingest env entry)) ∧
      ∀ account, answer = .ok (some (.dropped account)) ↔
        db.adopts entry = true ∧ entry.event = .accountDropped account ∧
          db.accounts.contains (key account) = true := by
  refine ⟨((ingest env entry).run.run db).1, rfl, fun account => ?_⟩
  rcases answer_ingest env entry db with ⟨adopted, answered⟩ | ⟨ignored, answered | ⟨err, answered⟩⟩
  · have stores : (db.step (.ingest env entry)).toStore = apply db.toStore entry.event := by
      rw [step_ingest_adopts, if_pos adopted]
    rw [answered, Except.ok.injEq, Option.or_eq_some_iff, ownerEffect_dropped entry.event stores]
    have others := other_effects env entry.event
    simp [others, adopted]
  · simp [answered, ignored]
  · simp [answered, ignored]

/-- The store without an account. -/
def without (db : Db) (account : String) : Db :=
  { db with toStore := apply db.toStore (.accountDropped account) }

/-- Whether the release that follows the drop of an account leaves every channel to
nobody or to an account, written right: each has an heir that is one, or its own
drop is written. -/
def ReleasesGone (db : Db) (env : Env) (account : String) : Prop :=
  (db.without account).Releases (db.without account).toStore.Canonical account
    (fun i => db.log.takes (i + 1)) (channelsOwnedBy env (db.without account) account)

/-- Whether the release that comes before the drop of an account does, where the drop
is the next write after those of the release. -/
def ReleasesFirst (db : Db) (env : Env) (account : String) : Prop :=
  let chans := channelsOwnedBy env db account
  let dropped := db.accounts.contains (key account) && db.log.takes (db.allWrites account chans)
  db.Releases
    (fun founder =>
      db.toStore.Canonical founder ∧ (dropped = true → key founder ≠ key account))
    account db.log.takes chans

theorem owned_release_gone (env : Env) {account : String} {db' : Db} (wf : db.Wf)
    (h : db.toStore.Owned) (store : db'.toStore = apply db.toStore (.accountDropped account))
    (takes : ∀ i, db'.log.takes i = db.log.takes (i + 1)) :
    ((releaseFoundedChannels env account).run db').2.toStore.Owned ↔
      db.ReleasesGone env account := by
  have wf' : db'.Wf := by
    rw [store]
    exact apply_wf wf _
  obtain ⟨accounts, -, fits⟩ :=
    run_releaseFoundedChannels db'.toStore.Canonical env account wf'
  have same : ((releaseFoundedChannels env account).run db').2.toStore.Owned ↔
      ∀ (k : String) (c : ChannelInfo),
        ((releaseFoundedChannels env account).run db').2.channels[k]? = some c →
          db'.toStore.Canonical c.founder := by
    unfold Store.Owned Store.Canonical Store.spelling
    rw [accounts]
  have owned : channelsOwnedBy env db' account = channelsOwnedBy env (db.without account) account := by
    unfold channelsOwnedBy without
    rw [store]
  have others (k : String) (c : ChannelInfo) (held : db'.channels[k]? = some c)
      (other : key c.founder ≠ key account) : db'.toStore.Canonical c.founder := by
    rw [store] at held ⊢
    obtain ⟨k', c', was, founded⟩ := founder_apply (by simp) (by simp) held
    rw [← founded] at other ⊢
    exact canonical_dropped.mpr ⟨h k' c' was, other⟩
  have released : db'.Releases db'.toStore.Canonical account db'.log.takes
      (channelsOwnedBy env db' account) ↔ db.ReleasesGone env account := by
    unfold ReleasesGone
    rw [owned, funext takes, show db'.toStore = (db.without account).toStore from store]
    refine releases_congr ?_ ?_ fun chan _ => ?_
    · rw [store]
      rfl
    · rw [store]
      rfl
    · rw [store]
      rfl
  rw [same, fits, released]
  exact ⟨And.right, fun ok => ⟨others, ok⟩⟩

/-- Releasing the channels of an account and then dropping it leaves an owned store
owned exactly when `ReleasesFirst` says so. -/
theorem owned_release_drop (env : Env) (account : String) (wf : db.Wf) (h : db.toStore.Owned) :
    ((dropAccount account).run.run
        ((releaseFoundedChannels env account).run db).2).2.toStore.Owned ↔
      db.ReleasesFirst env account := by
  unfold ReleasesFirst
  dsimp only
  obtain ⟨accounts, takes, fits⟩ := run_releaseFoundedChannels
    (fun founder => db.toStore.Canonical founder ∧
      ((db.accounts.contains (key account) &&
        db.log.takes (db.allWrites account (channelsOwnedBy env db account))) = true →
          key founder ≠ key account)) env account wf
  generalize ((releaseFoundedChannels env account).run db).2 = released at *
  obtain ⟨answer, db', ran, outcome⟩ := run_dropAccount account released
  rw [ran]
  rw [accounts, takes, Nat.zero_add] at outcome
  have canonical (name : String) : released.toStore.Canonical name ↔ db.toStore.Canonical name := by
    unfold Store.Canonical Store.spelling
    rw [accounts]
  cases dropped : db.accounts.contains (key account) &&
      db.log.takes (db.allWrites account (channelsOwnedBy env db account)) with
  | true =>
      rw [dropped, if_pos rfl] at outcome
      rw [dropped] at fits
      change db'.toStore.Owned ↔ _
      rw [outcome.2.1, owned_dropped_iff]
      simp only [canonical]
      simp only [true_imp_iff] at fits ⊢
      rw [fits]
      exact ⟨And.right, fun ok => ⟨fun k c held other => ⟨h k c held, other⟩, ok⟩⟩
  | false =>
      rw [dropped, if_neg Bool.false_ne_true] at outcome
      rw [dropped] at fits
      change db'.toStore.Owned ↔ _
      rw [outcome.2]
      unfold Store.Owned
      simp only [canonical]
      simp only [Bool.false_eq_true, false_imp_iff, and_true] at fits ⊢
      rw [fits]
      exact ⟨And.right, fun ok => ⟨fun k c held _ => h k c held, ok⟩⟩

end Db

end Echo
