import Echo.Engine.Statuses

/-!
Whom RESTRICTED, the auto-kick list and ENFORCE may kick. What spares a user is a status
mode: on a join and on a nick change one that any of the user's entries confers, with
ENFORCE one that the account's own does. Access without a status mode spares no one.
-/

namespace Echo

open Echo.Lib

open Dispatcher (NetAction)

/-- A level that grants something. -/
def ChanAccess.grantsAny (a : ChanAccess) : Bool :=
  let c := levelCaps a.level
  c.auto.isSome || c.op || c.topic || c.invite || c.access || c.set || c.greet

/-- Channel staff: an entry that applies to the account grants something. -/
def Db.Staff (db : Db) (c : ChannelInfo) (account : String) : Prop :=
  ∃ a ∈ c.access, db.entryApplies account a = true ∧ a.grantsAny = true

/-- The action kicks the user from the channel. -/
def Dispatcher.NetAction.Kicks (uid channel : String) : NetAction → Prop
  | .kick _ chan target _ => key chan = key channel ∧ target = uid
  | _ => False

namespace Scene

variable {s : Scene} {uid channel account : String} {c : ChannelInfo}

/-- Nothing kicks the user from the channel but a person. -/
structure Spared (s : Scene) (uid channel : String) : Prop where
  join : ∀ op, ¬ ∃ a ∈ s.onJoin uid channel op, a.Kicks uid channel
  nick : ¬ ∃ a ∈ s.onNick uid, a.Kicks uid channel
  enforce : ∀ me sender caller, ¬ ∃ a ∈ s.enforce me sender caller channel, a.Kicks uid channel

/-! ### Joins -/

theorem akickHit_kicks (chan : String) :
    (∃ a ∈ s.akickHit uid chan, a.Kicks uid channel) ↔
      key chan = key channel ∧ (s.akicked uid chan).isSome = true := by
  unfold akickHit
  cases s.akicked uid chan with
  | none => simp
  | some k => simp [NetAction.Kicks]

theorem akickHit_isEmpty : (s.akickHit uid channel).isEmpty = (s.akicked uid channel).isNone := by
  unfold akickHit
  cases s.akicked uid channel <;> rfl

theorem received_kicks (mode : Option String) :
    (∃ a ∈ s.received uid channel mode, a.Kicks uid channel) ↔
      mode = none ∧ (s.akicked uid channel).isSome = true := by
  unfold received
  dsimp only
  rw [akickHit_isEmpty]
  constructor
  · rintro ⟨a, mem, kicks⟩
    rcases List.mem_append.mp mem with met | greeted
    · cases mode with
      | none =>
          dsimp only at met
          split at met
          · obtain ⟨text, rfl⟩ := mem_entryNotice met
            exact kicks.elim
          · exact ⟨rfl, ((akickHit_kicks channel).mp ⟨a, met, kicks⟩).2⟩
      | some m =>
          rcases List.mem_append.mp met with noticed | given
          · obtain ⟨text, rfl⟩ := mem_entryNotice noticed
            exact kicks.elim
          · split at given
            · cases List.mem_singleton.mp given
              exact kicks.elim
            · cases given
    · obtain ⟨line, rfl⟩ := mem_greetOnJoin greeted
      exact kicks.elim
  · rintro ⟨rfl, akicked⟩
    obtain ⟨a, mem, kicks⟩ := (akickHit_kicks channel).mpr ⟨rfl, akicked⟩
    refine ⟨a, List.mem_append_left _ ?_, kicks⟩
    rw [Option.isNone_eq_false_iff.mpr akicked, if_neg Bool.false_ne_true]
    exact mem

/-- A user who joins is kicked exactly where no entry confers a status mode and the
channel is restricted to others, or has the user on its auto-kick list. -/
theorem onJoin_kicks (op : Bool) :
    (∃ a ∈ s.onJoin uid channel op, a.Kicks uid channel) ↔
      s.suspended channel = false ∧ s.joinMode uid channel = none ∧
        (s.restricts uid channel = true ∨ (s.akicked uid channel).isSome = true) := by
  rw [s.exists_onJoin fun _ => id]
  by_cases turned : s.restricts uid channel = true
  · rw [if_pos turned, s.joinMode_of_restricts turned]
    constructor
    · rintro ⟨running, _⟩
      exact ⟨running, rfl, .inl turned⟩
    · rintro ⟨running, _⟩
      exact ⟨running, rfl, rfl⟩
  · rw [if_neg turned, received_kicks]
    constructor
    · rintro ⟨running, unstatused, akicked⟩
      exact ⟨running, unstatused, .inr akicked⟩
    · rintro ⟨running, unstatused, bites | akicked⟩
      · exact absurd bites turned
      · exact ⟨running, unstatused, akicked⟩

/-! ### Nick changes -/

/-- Whoever is matched by a mask was matched by it before leaving a channel. -/
theorem akickMatches_part {u : Unicode} {mask : String} {t : BanTarget} {p : String → Bool}
    (hit : akickMatches u mask { t with channels := t.channels.filter p } = true) :
    akickMatches u mask t = true := by
  unfold akickMatches at hit ⊢
  dsimp only at hit ⊢
  split at hit
  · exact hit
  · rename_i ban v parsed
    split at hit
    all_goals first | exact hit | skip
    obtain ⟨chan, mem, glob⟩ := List.any_eq_true.mp hit
    exact List.any_eq_true.mpr ⟨chan, List.mem_of_mem_filter mem, glob⟩
  · exact hit

theorem akicked_part {chan : String} (hit : ((s.part uid chan).akicked uid channel).isSome = true) :
    (s.akicked uid channel).isSome = true := by
  unfold akicked part at hit
  dsimp only at hit
  rw [if_pos rfl] at hit
  unfold akicked
  cases target : s.net.banTarget uid with
  | none => simp [target] at hit
  | some t =>
      cases held : s.db.channel channel with
      | none => simp [target, held] at hit
      | some c =>
          simp only [target, held, Option.map_some, Option.bind_some, ChannelInfo.akickMatch,
            List.find?_isSome] at hit ⊢
          obtain ⟨k, mem, hit⟩ := hit
          exact ⟨k, mem, akickMatches_part hit⟩

/-- Whom the sweep over the channels kicks, the join check would have. -/
theorem akickSweep_kicks (channels : List String)
    (kicked : ∃ a ∈ s.akickSweep uid channels, a.Kicks uid channel) :
    ∃ chan, key chan = key channel ∧ s.suspended chan = false ∧ s.joinMode uid chan = none ∧
      (s.akicked uid chan).isSome = true := by
  induction channels generalizing s with
  | nil =>
      obtain ⟨a, mem, _⟩ := kicked
      cases mem
  | cons chan rest ih =>
      obtain ⟨a, mem, kicks⟩ := kicked
      unfold akickSweep at mem
      split at mem
      · exact ih ⟨a, mem, kicks⟩
      · rename_i exposed
        simp only [Bool.or_eq_true, not_or, Bool.not_eq_true, Option.isSome_eq_false_iff,
          Option.isNone_iff_eq_none] at exposed
        rcases List.mem_append.mp mem with hit | later
        · obtain ⟨same, akicked⟩ := (akickHit_kicks chan).mp ⟨a, hit, kicks⟩
          exact ⟨chan, same, exposed.1, exposed.2, akicked⟩
        · split at later
          · exact ih ⟨a, later, kicks⟩
          · obtain ⟨chan', same, running, unstatused, akicked⟩ := ih ⟨a, later, kicks⟩
            exact ⟨chan', same, running, unstatused, akicked_part akicked⟩

/-! ### ENFORCE -/

theorem enforceMember_kicks (me : String) {x : String} (held : s.db.channel channel = some c) :
    (∃ a ∈ s.enforceMember me channel c x, a.Kicks uid channel) ↔
      x = uid ∧ (s.net.accountOf x).bind c.joinMode = none ∧
        (s.akicked x channel).isSome = true := by
  have own : (s.net.accountOf x).bind c.view.joinMode = (s.net.accountOf x).bind c.joinMode := by
    congr 1
    funext account
    exact c.view_joinMode account
  have hit : s.akicked x channel = (s.net.banTarget x).bind (c.akickMatch s.unicode) := by
    unfold akicked
    rw [held]
    rfl
  unfold enforceMember
  dsimp only
  rw [own, hit]
  cases (s.net.accountOf x).bind c.joinMode with
  | some m => simp [NetAction.Kicks]
  | none =>
      cases (s.net.banTarget x).bind (c.akickMatch s.unicode) with
      | none => simp
      | some k => simp [NetAction.Kicks]

theorem founder_requireOp (running : s.suspended channel = false)
    (held : s.db.channel channel = some c) : s.requireOp (some c.founder) channel = .ok () := by
  have op : (c.view.capsOf (some c.founder)).op = true := by
    rw [ChannelInfo.capsOf_op]
    simp
  unfold requireOp
  rw [running, held, if_neg Bool.false_ne_true]
  dsimp only
  rw [Option.any_some, op, if_pos rfl]

/-- Some ENFORCE kicks a user exactly where the user is in the channel, has no status mode
by an own entry, and is on the auto-kick list. -/
theorem enforce_kicks (held : s.db.channel channel = some c) :
    (∃ me sender caller, ∃ a ∈ s.enforce me sender caller channel, a.Kicks uid channel) ↔
      s.suspended channel = false ∧ uid ∈ s.net.channelMembers channel ∧
        (s.net.accountOf uid).bind c.joinMode = none ∧ (s.akicked uid channel).isSome = true := by
  constructor
  · rintro ⟨me, sender, caller, a, mem, kicks⟩
    have running : s.suspended channel = false := by
      by_contra suspended
      rw [Bool.not_eq_false] at suspended
      unfold enforce requireOp at mem
      rw [if_pos suspended] at mem
      cases List.mem_singleton.mp mem
      exact kicks.elim
    unfold enforce at mem
    split at mem
    · cases List.mem_singleton.mp mem
      exact kicks.elim
    · cases mem
    · rename_i c' _ held'
      cases held.symm.trans held'
      dsimp only at mem
      rcases List.mem_append.mp mem with mem | noticed
      · rcases List.mem_append.mp mem with mem | member
        · rcases List.mem_cons.mp mem with rfl | banned
          · exact kicks.elim
          · obtain ⟨k, _, rfl⟩ := List.mem_map.mp banned
            exact kicks.elim
        · obtain ⟨x, present, mem⟩ := List.mem_flatMap.mp member
          obtain ⟨rfl, unstatused, akicked⟩ := (enforceMember_kicks me held).mp ⟨a, mem, kicks⟩
          exact ⟨running, present, unstatused, akicked⟩
      · cases List.mem_singleton.mp noticed
        exact kicks.elim
  · rintro ⟨running, present, unstatused, akicked⟩
    obtain ⟨a, mem, kicks⟩ :=
      (enforceMember_kicks "" held).mpr ⟨rfl, unstatused, akicked⟩
    refine ⟨"", "", some c.founder, a, ?_, kicks⟩
    unfold enforce
    rw [founder_requireOp running held, held]
    dsimp only
    refine List.mem_append_left _ (List.mem_append_right _ ?_)
    exact List.mem_flatMap.mpr ⟨uid, present, mem⟩

/-! ### Who is spared -/

/-- What can still kick a user: the check of a join, and ENFORCE. -/
theorem spared_iff_checks (held : s.db.channel channel = some c) :
    s.Spared uid channel ↔ s.suspended channel = true ∨
      (s.joinMode uid channel = none →
        s.restricts uid channel = false ∧ s.akicked uid channel = none) ∧
      ((s.net.accountOf uid).bind c.joinMode = none →
        s.akicked uid channel = none ∨ uid ∉ s.net.channelMembers channel) := by
  constructor
  · intro spared
    by_cases suspended : s.suspended channel = true
    · exact .inl suspended
    · rw [Bool.not_eq_true] at suspended
      have join := mt (onJoin_kicks false).mpr (spared.join false)
      have enforce := mt (enforce_kicks held).mpr fun ⟨me, sender, caller, kicked⟩ =>
        spared.enforce me sender caller kicked
      refine .inr ⟨fun unstatused => ?_, fun unstatused => ?_⟩
      · simp only [suspended, unstatused, true_and, not_or, Bool.not_eq_true,
          Option.isSome_eq_false_iff, Option.isNone_iff_eq_none] at join
        exact join
      · by_cases present : uid ∈ s.net.channelMembers channel
        · simp only [suspended, present, unstatused, true_and, Bool.not_eq_true,
            Option.isSome_eq_false_iff, Option.isNone_iff_eq_none] at enforce
          exact .inl enforce
        · exact .inr present
  · intro safe
    constructor
    · intro op kicked
      obtain ⟨running, unstatused, bites⟩ := (onJoin_kicks op).mp kicked
      rcases safe with suspended | ⟨join, _⟩
      · rw [suspended] at running
        cases running
      · obtain ⟨free, unmatched⟩ := join unstatused
        rw [free, unmatched] at bites
        simp at bites
    · intro kicked
      obtain ⟨chan, same, running, unstatused, akicked⟩ := akickSweep_kicks _ kicked
      have looked : s.db.channel chan = s.db.channel channel := by
        unfold Db.channel
        rw [same]
      rcases safe with suspended | ⟨join, _⟩
      · unfold Scene.suspended at suspended running
        rw [looked, suspended] at running
        cases running
      · have mode : s.joinMode uid channel = none := by
          unfold joinMode Db.channelJoinMode Db.channelCaps at unstatused ⊢
          rwa [looked] at unstatused
        have unmatched := (join mode).2
        unfold Scene.akicked at akicked unmatched
        rw [looked, unmatched] at akicked
        cases akicked
    · intro me sender caller kicked
      obtain ⟨running, present, unstatused, akicked⟩ :=
        (enforce_kicks held).mp ⟨me, sender, caller, kicked⟩
      rcases safe with suspended | ⟨_, enforce⟩
      · rw [suspended] at running
        cases running
      · rcases enforce unstatused with unmatched | absent
        · rw [unmatched] at akicked
          cases akicked
        · exact absent present

theorem joinMode_eq_none_iff : c.joinMode account = none ↔
    ¬ eqIgnoreAsciiCase c.founder account = true ∧
      (c.ownEntry account).any (·.givesStatus) = false := by
  unfold ChannelInfo.joinMode
  by_cases founder : eqIgnoreAsciiCase c.founder account = true
  · rw [if_pos founder]
    simp only [founder, not_true, false_and, iff_false]
    decide
  · rw [if_neg founder]
    cases c.ownEntry account with
    | none => simp [founder]
    | some a => simp [founder, ChanAccess.givesStatus]

/-- A user with an account is never kicked by a check exactly where the channel is
suspended, or else
- an entry that applies to the account confers a status mode, or no auto-kick entry
  matches the user and RESTRICTED, if it is on, spares a bot or an operator; and
- the account's own entry confers one, or no auto-kick entry matches, or the user is not
  in the channel. -/
theorem spared_iff (logged : s.net.accountOf uid = some account)
    (held : s.db.channel channel = some c) :
    s.Spared uid channel ↔ s.suspended channel = true ∨
      ((eqIgnoreAsciiCase c.founder account = true ∨
          (∃ a ∈ c.access, s.db.entryApplies account a = true ∧ a.givesStatus = true) ∨
          s.akicked uid channel = none ∧
            (c.settings.restricted = true → s.isBot uid = true ∨ s.operPrivs account = true)) ∧
        (eqIgnoreAsciiCase c.founder account = true ∨
          (c.ownEntry account).any (·.givesStatus) = true ∨
          s.akicked uid channel = none ∨ uid ∉ s.net.channelMembers channel)) := by
  have mode : s.joinMode uid channel = s.db.channelJoinMode channel account := by
    unfold joinMode
    rw [logged]
    rfl
  have entitled : s.joinMode uid channel = none ↔ ¬ (eqIgnoreAsciiCase c.founder account = true ∨
      ∃ a ∈ c.access, s.db.entryApplies account a = true ∧ a.givesStatus = true) := by
    rw [mode, ← Db.channelJoinMode_isSome held, Bool.not_eq_true, Option.isSome_eq_false_iff,
      Option.isNone_iff_eq_none]
  have restricts : s.joinMode uid channel = none → (s.restricts uid channel = false ↔
      (c.settings.restricted = true → s.isBot uid = true ∨ s.operPrivs account = true)) := by
    intro unstatused
    unfold Scene.restricts
    rw [unstatused, held, logged, Option.any_some, Option.any_some]
    cases c.settings.restricted <;> cases s.isBot uid <;> cases s.operPrivs account <;> simp
  rw [spared_iff_checks held, logged, Option.bind_some, joinMode_eq_none_iff]
  refine or_congr_right (and_congr ?_ ?_)
  · by_cases unstatused : s.joinMode uid channel = none
    · obtain ⟨other, none'⟩ := not_or.mp (entitled.mp unstatused)
      simp only [unstatused, restricts unstatused, true_implies, other, none', false_or,
        Bool.false_eq_true]
      exact and_comm
    · have statused := not_not.mp (mt entitled.mpr unstatused)
      simp only [unstatused, false_implies, true_iff]
      exact statused.imp_right .inl
  · cases (c.ownEntry account).any (·.givesStatus) <;> simp [or_iff_not_imp_left]

/-- A channel that is restricted, where bob's entry says what he may do. -/
def restricting (level : String) : List Action :=
  [.call .still (.registerChannel "#chan" "alice"), .call .still (.accessAdd "#chan" "bob" level),
    .call .still (.setChannelSetting "#chan" .restricted true)]

def restrictedTo (level : String) : ChannelInfo :=
  { newChannel "#chan" "alice" 0 with
    access := [⟨"bob", level⟩], settings := { restricted := true } }

theorem voice_spared : (bobAt (restricting "v")).Spared "0B" "#chan" :=
  have logged : (bobAt (restricting "v")).net.accountOf "0B" = some "bob" := rfl
  have held : (bobAt (restricting "v")).db.channel "#chan" = some (restrictedTo "v") := by
    decide +kernel
  (spared_iff logged held).mpr (.inr ⟨.inr (.inl (by decide)), .inr (.inl (by decide))⟩)

/-- One who may set the topic and invite is kicked from a restricted channel. -/
theorem topic_kicked :
    let s := bobAt (restricting "ti")
    s.db.channel "#chan" = some (restrictedTo "ti") ∧ s.db.Staff (restrictedTo "ti") "bob" ∧
      s.onJoin "0B" "#chan" false = [.kick "" "#chan" "0B" Dispatcher.restricted] ∧
      ¬ s.Spared "0B" "#chan" := by
  intro s
  have kicked : s.onJoin "0B" "#chan" false = [.kick "" "#chan" "0B" Dispatcher.restricted] := by
    decide +kernel
  refine ⟨by decide +kernel, ⟨⟨"bob", "ti"⟩, by decide, by decide, by decide⟩, kicked,
    fun spared => spared.join false ?_⟩
  rw [kicked]
  exact ⟨_, List.mem_singleton_self _, rfl, rfl⟩

end Scene

end Echo
