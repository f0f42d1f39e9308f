import Echo.Db.Deciders
import Echo.Engine.Joins

/-!
Who is given a status mode without asking. UP and ENFORCE go by the account's own entry,
so the deny flag bars their way; a join adds up the entries of the account's groups, and
one that confers status confers it whatever the own entry says.
-/

namespace Echo

open Echo.Lib

open Dispatcher (NetAction)

/-! ### Status modes -/

/-- The status modes that access confers. -/
def autoModes : List String := ["+qo", "+ao", "+o", "+h", "+v"]

/-- A level that confers a status mode. -/
def ChanAccess.givesStatus (a : ChanAccess) : Bool := (levelCaps a.level).auto.isSome

theorem statusMode_toList (modes target : String) :
    (statusMode modes target).toList =
      modes.toList ++ (modes.toList.filter Char.isAlpha).flatMap fun _ => ' ' :: target.toList := by
  unfold statusMode
  rw [String.toList_append, String.toList_join, List.flatMap_map]
  congr 1
  exact List.flatMap_congr fun c _ => by rw [String.toList_append]; rfl

theorem statusMode_modes {m : String} (auto : m ∈ autoModes) (target : String) :
    (statusMode m target).toList.takeWhile (· ≠ ' ') = m.toList := by
  rw [statusMode_toList]
  simp only [autoModes, List.mem_cons, List.not_mem_nil, or_false] at auto
  rcases auto with rfl | rfl | rfl | rfl | rfl <;> rfl

/-- A change that sets status modes tells whom it sets them on. -/
theorem statusMode_inj {m m' target target' : String} (auto : m ∈ autoModes) (auto' : m' ∈ autoModes)
    (same : statusMode m target = statusMode m' target') : target = target' := by
  have modes : m = m' := by
    have front : (statusMode m target).toList.takeWhile (· ≠ ' ') =
        (statusMode m' target').toList.takeWhile (· ≠ ' ') := by rw [same]
    rw [statusMode_modes auto, statusMode_modes auto'] at front
    exact String.toList_inj.mp front
  subst modes
  have named := congrArg String.toList same
  rw [statusMode_toList, statusMode_toList, List.append_cancel_left_eq] at named
  -- The name is repeated as often on both sides, so it has the same length.
  have once : ∀ n (t t' : List Char),
      (List.replicate (n + 1) (' ' :: t)).flatten = (List.replicate (n + 1) (' ' :: t')).flatten →
        t = t' := by
    intro n t t' same
    have lengths := congrArg List.length same
    simp only [List.length_flatten, List.map_replicate, List.sum_replicate_nat, List.length_cons] at lengths
    have length := Nat.eq_of_mul_eq_mul_left n.succ_pos lengths
    rw [List.replicate_succ, List.flatten_cons, List.replicate_succ, List.flatten_cons] at same
    exact (List.cons.inj (List.append_inj_left same (by simpa using length))).2
  apply String.toList_inj.mp
  simp only [autoModes, List.mem_cons, List.not_mem_nil, or_false] at auto
  rcases auto with rfl | rfl | rfl | rfl | rfl
  · exact once 1 _ _ named
  · exact once 1 _ _ named
  · exact once 0 _ _ named
  · exact once 0 _ _ named
  · exact once 0 _ _ named

theorem levelCaps_auto {level m : String} (auto : (levelCaps level).auto = some m) :
    m ∈ autoModes := by
  unfold levelCaps at auto
  split at auto
  · cases auto
    decide
  · unfold Flags.caps at auto
    dsimp only at auto
    split_ifs at auto <;> cases auto <;> decide

theorem strength_pos {m : String} (auto : m ∈ autoModes) : 0 < Caps.strength (some m) := by
  simp only [autoModes, List.mem_cons, List.not_mem_nil, or_false] at auto
  rcases auto with rfl | rfl | rfl | rfl | rfl <;> decide

/-! ### Capabilities together -/

/-- A status mode, where there is one, is one that access confers. -/
def Caps.Ranked (c : Caps) : Prop := ∀ m, c.auto = some m → m ∈ autoModes

theorem Caps.Ranked.union {a b : Caps} (ha : a.Ranked) (hb : b.Ranked) : (a.union b).Ranked := by
  intro m auto
  unfold Caps.union at auto
  dsimp only at auto
  split at auto
  · exact ha m auto
  · exact hb m auto

/-- Two capability sets together give no status exactly where neither does. -/
theorem Caps.union_auto {a b : Caps} (hb : b.Ranked) :
    (a.union b).auto = none ↔ a.auto = none ∧ b.auto = none := by
  unfold Caps.union
  dsimp only
  constructor
  · intro none'
    split at none'
    · rename_i stronger
      rw [none'] at stronger
      refine ⟨none', ?_⟩
      cases auto : b.auto with
      | none => rfl
      | some m =>
          have pos := strength_pos (hb m auto)
          rw [auto] at stronger
          exact absurd stronger (by simp [Caps.strength] at pos ⊢; omega)
    · rename_i weaker
      rw [none'] at weaker
      exact absurd (Nat.zero_le _) weaker
  · rintro ⟨ha, hb⟩
    rw [ha, hb, if_pos (Nat.le_refl _)]

theorem foldl_union_auto {α : Type} (applies : α → Bool) (capsOf : α → Caps) (l : List α)
    (ranked : ∀ a ∈ l, (capsOf a).Ranked) (caps : Caps) :
    (l.foldl (fun caps a => if applies a then caps.union (capsOf a) else caps) caps).auto = none ↔
      caps.auto = none ∧ ∀ a ∈ l, applies a → (capsOf a).auto = none := by
  induction l generalizing caps with
  | nil => simp
  | cons a l ih =>
      rw [List.foldl_cons, ih fun b mem => ranked b (List.mem_cons_of_mem a mem)]
      cases applied : applies a with
      | false => simp [applied]
      | true => simp [applied, Caps.union_auto (ranked a List.mem_cons_self), and_assoc]

theorem grantLevels_auto (levels : List (LevelCap × AccessRole)) (role : AccessRole) (caps : Caps) :
    (grantLevels levels role caps).auto = caps.auto := by
  unfold grantLevels
  induction levels generalizing caps with
  | nil => rfl
  | cons l levels ih =>
      rw [List.foldl_cons, ih]
      split
      · cases l.1 <;> rfl
      · rfl

variable {c : ChannelInfo} {db : Db} {account channel : String}

/-- The LEVELS overrides never make for a status mode: the commands and the engine read
the same one off an account's own entry. -/
theorem ChannelInfo.view_joinMode (c : ChannelInfo) (account : String) :
    c.view.joinMode account = c.joinMode account := by
  unfold ChannelView.joinMode ChannelView.capsOf ChannelInfo.joinMode ChannelInfo.ownEntry
  change (if eqIgnoreAsciiCase c.founder account then levelCaps "founder" else _).auto = _
  by_cases founder : eqIgnoreAsciiCase c.founder account = true
  · rw [if_pos founder, if_pos founder]
  · rw [if_neg founder, if_neg founder]
    have entries : c.view.access = c.access := rfl
    rw [entries]
    cases c.access.find? fun a => eqIgnoreAsciiCase a.account account with
    | none => rfl
    | some entry => exact grantLevels_auto ..

/-- On a join an account gets a status mode where it is the founder or one of the entries
that apply to it confers one. -/
theorem Db.channelJoinMode_isSome (held : db.channel channel = some c) :
    (db.channelJoinMode channel account).isSome = true ↔
      eqIgnoreAsciiCase c.founder account = true ∨
        ∃ a ∈ c.access, db.entryApplies account a = true ∧ a.givesStatus = true := by
  unfold Db.channelJoinMode Db.channelCaps
  rw [held]
  dsimp only
  by_cases founder : eqIgnoreAsciiCase c.founder account = true
  · rw [if_pos founder]
    exact ⟨fun _ => .inl founder, fun _ => rfl⟩
  · rw [if_neg founder, Option.isSome_iff_ne_none, ne_eq, foldl_union_auto
      (db.entryApplies account) (fun a => levelCaps a.level) c.access fun a _ m => levelCaps_auto]
    simp only [true_and, founder, Bool.false_eq_true, false_or, ChanAccess.givesStatus,
      Option.isSome_iff_ne_none]
    push Not
    rfl

theorem Db.channelJoinMode_auto {m : String} (mode : db.channelJoinMode channel account = some m) :
    m ∈ autoModes := by
  have ranked : ∀ (l : List ChanAccess) (caps : Caps), caps.Ranked →
      (l.foldl (fun caps a =>
        if db.entryApplies account a then caps.union (levelCaps a.level) else caps) caps).Ranked := by
    intro l
    induction l with
    | nil => exact fun _ ranked => ranked
    | cons a l ih =>
        intro caps ranked
        rw [List.foldl_cons]
        apply ih
        split
        · exact ranked.union fun m => levelCaps_auto
        · exact ranked
  unfold Db.channelJoinMode Db.channelCaps at mode
  split at mode
  · cases mode
  · split at mode
    · exact levelCaps_auto mode
    · exact ranked _ _ (fun _ none => by cases none) m mode

theorem ChannelInfo.joinMode_auto {m : String} (mode : c.joinMode account = some m) :
    m ∈ autoModes := by
  unfold ChannelInfo.joinMode at mode
  split at mode
  · exact levelCaps_auto mode
  · obtain ⟨a, _, auto⟩ := Option.bind_eq_some_iff.mp mode
    exact levelCaps_auto auto

/-- The deny flag leaves no status mode to a level. -/
theorem givesStatus_of_noStatus {a : ChanAccess}
    (denied : (Flags.fromLevel a.level).has .noStatus = true) : a.givesStatus = false := by
  unfold ChanAccess.givesStatus levelCaps
  split
  · rename_i owner
    rw [beq_iff_eq.mp owner] at denied
    exact absurd denied (by decide)
  · unfold Flags.caps
    dsimp only
    rw [if_pos denied]
    rfl

/-! ### Whom an action raises -/

/-- The action sets a status mode on the user. -/
def Dispatcher.NetAction.Raises (uid : String) : NetAction → Prop
  | .channelMode _ _ modes => ∃ m ∈ autoModes, modes = statusMode m uid
  | _ => False

theorem not_raises_of_front {uid «from» chan text : String} (front : List Char)
    (starts : text.toList.take 2 = front) (other : ∀ m ∈ autoModes, m.toList.take 2 ≠ front) :
    ¬ (NetAction.channelMode «from» chan text).Raises uid := by
  rintro ⟨m, auto, rfl⟩
  apply other m auto
  rw [← starts, statusMode_toList]
  simp only [autoModes, List.mem_cons, List.not_mem_nil, or_false] at auto
  rcases auto with rfl | rfl | rfl | rfl | rfl <;> rfl

theorem not_raises_ban {uid «from» chan mask : String} :
    ¬ (NetAction.channelMode «from» chan ("+b " ++ mask)).Raises uid := by
  apply not_raises_of_front ['+', 'b']
  · rw [String.toList_append]
    rfl
  · decide

theorem not_raises_deop {uid «from» chan : String} :
    ¬ (NetAction.channelMode «from» chan ("-o " ++ uid)).Raises uid := by
  apply not_raises_of_front ['-', 'o']
  · rw [String.toList_append]
    rfl
  · decide

theorem not_raises_lockModes {uid «from» chan : String} :
    ¬ (NetAction.channelMode «from» chan c.lockModes).Raises uid := by
  apply not_raises_of_front ['+', 'r']
  · rw [ChannelInfo.lockModes, String.toList_ofList]
    rfl
  · decide

theorem raises_statusMode {uid uid' «from» chan m : String} (auto : m ∈ autoModes) :
    (NetAction.channelMode «from» chan (statusMode m uid)).Raises uid' ↔ uid = uid' := by
  constructor
  · rintro ⟨m', auto', same⟩
    exact statusMode_inj auto auto' same
  · rintro rfl
    exact ⟨m, auto, rfl⟩

namespace Scene

variable {s : Scene} {uid : String}

theorem joinMode_auto {m : String} (mode : s.joinMode uid channel = some m) : m ∈ autoModes := by
  obtain ⟨account, _, mode⟩ := Option.bind_eq_some_iff.mp mode
  exact Db.channelJoinMode_auto mode

theorem not_raises_akickHit : ∀ a ∈ s.akickHit uid channel, ¬ a.Raises uid := by
  intro a mem
  unfold akickHit at mem
  split at mem
  · cases mem
  · rcases List.mem_pair.mp mem with rfl | rfl
    · exact not_raises_ban
    · exact id

theorem mem_entryNotice {a : NetAction} (mem : a ∈ s.entryNotice uid channel) :
    ∃ text, a = .notice (s.channelModeSource channel) uid text := by
  obtain ⟨text, _, rfl⟩ := List.mem_map.mp mem
  exact ⟨text, rfl⟩

theorem mem_greetOnJoin {a : NetAction} (mem : a ∈ s.greetOnJoin uid channel) :
    ∃ line, a = .other line := by
  have said := Option.mem_toList.mp mem
  obtain ⟨account, _, said⟩ := Option.bind_eq_some_iff.mp said
  obtain ⟨c, _, said⟩ := Option.bind_eq_some_iff.mp said
  split at said
  · obtain ⟨bot, _, said⟩ := Option.bind_eq_some_iff.mp said
    obtain ⟨greeter, _, said⟩ := Option.bind_eq_some_iff.mp said
    obtain ⟨botUid, _, said⟩ := Option.bind_eq_some_iff.mp said
    split at said
    · cases said
    · cases said
      exact ⟨_, rfl⟩
  · cases said

/-- What is met with on a join raises the user just where there is a status mode to give. -/
theorem received_raises (mode : Option String) (auto : ∀ m, mode = some m → m ∈ autoModes) :
    (∃ a ∈ s.received uid channel mode, a.Raises uid) ↔
      mode.isSome = true ∧ s.autoop uid channel = true := by
  unfold received
  dsimp only
  constructor
  · rintro ⟨a, mem, raises⟩
    rcases List.mem_append.mp mem with met | greeted
    · cases mode with
      | none =>
          dsimp only at met
          split at met
          · obtain ⟨text, rfl⟩ := mem_entryNotice met
            exact raises.elim
          · exact absurd raises (not_raises_akickHit a met)
      | some m =>
          rcases List.mem_append.mp met with noticed | given
          · obtain ⟨text, rfl⟩ := mem_entryNotice noticed
            exact raises.elim
          · split at given
            · rename_i autoop
              exact ⟨rfl, autoop⟩
            · cases given
    · obtain ⟨line, rfl⟩ := mem_greetOnJoin greeted
      exact raises.elim
  · rintro ⟨some', autoop⟩
    obtain ⟨m, rfl⟩ := Option.isSome_iff_exists.mp some'
    refine ⟨.channelMode (s.channelModeSource channel) channel (statusMode m uid), ?_,
      (raises_statusMode (auto m rfl)).mpr rfl⟩
    dsimp only
    rw [if_pos autoop]
    simp

/-- Services set a status mode on a user who joins exactly where the user is entitled to
one, and the channel gives it and the user takes it. -/
theorem onJoin_raises (op : Bool) :
    (∃ a ∈ s.onJoin uid channel op, a.Raises uid) ↔
      s.suspended channel = false ∧ (s.joinMode uid channel).isSome = true ∧
        s.autoop uid channel = true := by
  rw [s.exists_onJoin fun _ => not_raises_deop]
  by_cases turned : s.restricts uid channel = true
  · rw [if_pos turned, s.joinMode_of_restricts turned]
    constructor
    · rintro ⟨_, raises⟩
      exact raises.elim
    · rintro ⟨_, entitled, _⟩
      cases entitled
  · rw [if_neg turned, received_raises _ fun m => joinMode_auto]

/-- UP sets the mode that the sender's own entry confers. -/
theorem up_raises {me : String} (raised : ∃ a ∈ s.up me uid channel, a.Raises uid) :
    ∃ account c, s.net.accountOf uid = some account ∧ s.db.channel channel = some c ∧
      (c.joinMode account).isSome = true := by
  obtain ⟨a, mem, raises⟩ := raised
  unfold up at mem
  split at mem
  · cases List.mem_singleton.mp mem
    exact raises.elim
  · rename_i account logged
    split at mem
    · cases List.mem_singleton.mp mem
      exact raises.elim
    · rename_i c held
      split at mem
      · cases List.mem_singleton.mp mem
        exact raises.elim
      · split at mem
        · rename_i m mode
          rw [ChannelInfo.view_joinMode] at mode
          exact ⟨account, c, logged, held, by rw [mode]; rfl⟩
        · cases List.mem_singleton.mp mem
          exact raises.elim

/-- ENFORCE sets on everyone present the mode that the own entry confers. -/
theorem enforce_raises {me sender : String} {caller : Option String}
    (raised : ∃ a ∈ s.enforce me sender caller channel, a.Raises uid) :
    ∃ account c, s.net.accountOf uid = some account ∧ s.db.channel channel = some c ∧
      (c.joinMode account).isSome = true := by
  obtain ⟨a, mem, raises⟩ := raised
  unfold enforce at mem
  split at mem
  · cases List.mem_singleton.mp mem
    exact raises.elim
  · cases mem
  · rename_i c _ held
    dsimp only at mem
    rcases List.mem_append.mp mem with mem | noticed
    · rcases List.mem_append.mp mem with mem | member
      · rcases List.mem_cons.mp mem with rfl | banned
        · exact absurd raises not_raises_lockModes
        · obtain ⟨k, _, rfl⟩ := List.mem_map.mp banned
          exact absurd raises not_raises_ban
      · obtain ⟨x, _, mem⟩ := List.mem_flatMap.mp member
        unfold enforceMember at mem
        dsimp only at mem
        split at mem
        · rename_i m mode
          obtain ⟨account, logged, own⟩ := Option.bind_eq_some_iff.mp mode
          rw [ChannelInfo.view_joinMode] at own
          cases List.mem_singleton.mp mem
          cases (raises_statusMode (ChannelInfo.joinMode_auto own)).mp raises
          exact ⟨account, c, logged, held, by rw [own]; rfl⟩
        · split at mem
          · cases mem
          · rcases List.mem_pair.mp mem with rfl | rfl
            · exact absurd raises not_raises_ban
            · exact raises.elim
    · cases List.mem_singleton.mp noticed
      exact raises.elim

/-! ### The deny flag -/

/-- No path sets a status mode on the user of its own accord. -/
structure Unraised (s : Scene) (uid channel : String) : Prop where
  join : ∀ op, ¬ ∃ a ∈ s.onJoin uid channel op, a.Raises uid
  up : ∀ me, ¬ ∃ a ∈ s.up me uid channel, a.Raises uid
  enforce : ∀ me sender caller, ¬ ∃ a ∈ s.enforce me sender caller channel, a.Raises uid

/-- An account with the deny flag has no status mode of its own. -/
theorem joinMode_of_denied (other : ¬ eqIgnoreAsciiCase c.founder account = true)
    (denied : c.denied account = true) : c.joinMode account = none := by
  obtain ⟨a, own, flag⟩ := (Option.any_eq_true _ _).mp denied
  have unstatused := givesStatus_of_noStatus flag
  unfold ChannelInfo.joinMode
  rw [if_neg other, own]
  simpa [ChanAccess.givesStatus] using unstatused

/-- On a join only the groups of an account with the deny flag can raise it. -/
theorem channelJoinMode_of_denied (held : db.channel channel = some c)
    (access : DistinctBy (fun a => key a.account) c.access)
    (other : ¬ eqIgnoreAsciiCase c.founder account = true) (denied : c.denied account = true) :
    (db.channelJoinMode channel account).isSome = true ↔
      ∃ a ∈ c.access, a.forGroup = true ∧
        db.groupGrantsChannelAccess a.account account = true ∧ a.givesStatus = true := by
  obtain ⟨own, found, flag⟩ := (Option.any_eq_true _ _).mp denied
  rw [Db.channelJoinMode_isSome held]
  constructor
  · rintro (founder | ⟨a, mem, applies, status⟩)
    · exact absurd founder other
    · unfold Db.entryApplies at applies
      split at applies
      · rename_i group
        exact ⟨a, mem, group, applies, status⟩
      · -- The only entry under the account's own name is the one with the flag.
        have keys : key a.account = key own.account := by
          unfold ChannelInfo.ownEntry at found
          have named := List.find?_some found
          exact (eqIgnoreAsciiCase_iff_key.mp applies).trans (eqIgnoreAsciiCase_iff_key.mp named).symm
        have same : a = own := access.eq_of_key mem (List.mem_of_find?_eq_some found) keys
        rw [same, givesStatus_of_noStatus flag] at status
        cases status
  · rintro ⟨a, mem, group, grants, status⟩
    refine .inr ⟨a, mem, ?_, status⟩
    unfold Db.entryApplies
    rw [if_pos group]
    exact grants

/-- In every reachable store, an account whose own entry carries the deny flag is set no
status mode exactly where no group whose access it inherits confers one, or the channel
is suspended, gives no status on join, or the user takes none. -/
theorem unraised_iff {origin : String} {file : List LogEntry} {actions : List Action}
    (reached : s.db = after Db.step (Db.open' origin file) actions)
    (logged : s.net.accountOf uid = some account) (held : s.db.channel channel = some c)
    (other : ¬ eqIgnoreAsciiCase c.founder account = true) (denied : c.denied account = true) :
    s.Unraised uid channel ↔
      s.suspended channel = true ∨ s.autoop uid channel = false ∨
        ∀ a ∈ c.access, a.forGroup = true →
          s.db.groupGrantsChannelAccess a.account account = true → a.givesStatus = false := by
  have access : DistinctBy (fun a => key a.account) c.access :=
    Db.channel_access actions (reached ▸ held)
  have entitled := channelJoinMode_of_denied held access other denied
  have own := joinMode_of_denied other denied
  have mode : s.joinMode uid channel = s.db.channelJoinMode channel account := by
    unfold joinMode
    rw [logged]
    rfl
  constructor
  · intro unraised
    by_contra given
    push Not at given
    obtain ⟨running, autoop, a, mem, group, grants, status⟩ := given
    apply unraised.join false
    rw [onJoin_raises, mode]
    exact ⟨by simpa using running, entitled.mpr ⟨a, mem, group, grants, by simpa using status⟩,
      by simpa using autoop⟩
  · intro barred
    constructor
    · intro op raised
      obtain ⟨running, statused, autoop⟩ := (onJoin_raises op).mp raised
      rw [mode] at statused
      obtain ⟨a, mem, group, grants, status⟩ := entitled.mp statused
      rcases barred with suspended | refused | groups
      · rw [suspended] at running
        cases running
      · rw [refused] at autoop
        cases autoop
      · rw [groups a mem group grants] at status
        cases status
    · intro me raised
      obtain ⟨account', c', logged', held', statused⟩ := up_raises raised
      cases logged.symm.trans logged'
      cases held.symm.trans held'
      rw [own] at statused
      cases statused
    · intro me sender caller raised
      obtain ⟨account', c', logged', held', statused⟩ := enforce_raises raised
      cases logged.symm.trans logged'
      cases held.symm.trans held'
      rw [own] at statused
      cases statused

/-- A network where one user is online, logged in and in a channel. -/
def oneOnline (uid account channel : String) (target : BanTarget) : NetView where
  accountOf x := if x = uid then some account else none
  banTarget x := if x = uid then some target else none
  channelsOf x := if x = uid then [channel] else []
  channelMembers x := if x = channel then [uid] else []
  uidByNick _ := none

def bob : BanTarget :=
  { nick := "bob", ident := "u", host := "h", realhost := "h", ip := "10.0.0.1", gecos := ""
    account := some "bob", server := "", fingerprint := none, channels := ["#chan"] }

/-- Bob is online, and the store has come to this. -/
def bobAt (actions : List Action) : Scene where
  db := after Db.step (Db.fresh "a") actions
  net := oneOnline "0B" "bob" "#chan" bob
  now := 0
  unicode := { alphabetic := Char.isAlpha, lowercase := fun c => [c.toLower] }
  operPrivs _ := false

/-- A channel where bob has the deny flag. -/
def barring : List Action :=
  [.call .still (.registerChannel "#chan" "alice"), .call .still (.accessAdd "#chan" "bob" "d")]

def barred : ChannelInfo :=
  { newChannel "#chan" "alice" 0 with access := [⟨"bob", "d"⟩] }

theorem barring_unraised : (bobAt barring).Unraised "0B" "#chan" :=
  have logged : (bobAt barring).net.accountOf "0B" = some "bob" := rfl
  have held : (bobAt barring).db.channel "#chan" = some barred := by decide +kernel
  (unraised_iff rfl logged held (by decide) (by decide)).mpr (.inr (.inr (by decide)))

/-- The founder of a group with op access is opped on join, deny flag or not. -/
theorem denied_raised :
    let s := bobAt (barring ++ [.call .still (.groupRegister "!ops" "bob"),
      .call .still (.accessAdd "#chan" "!ops" "op")])
    (s.db.channel "#chan").any (fun c => c.founder == "alice" && c.denied "bob") = true ∧
      s.onJoin "0B" "#chan" false = [.channelMode "" "#chan" "+o 0B"] ∧
      ¬ s.Unraised "0B" "#chan" := by
  intro s
  have given : s.onJoin "0B" "#chan" false = [.channelMode "" "#chan" "+o 0B"] := by decide +kernel
  refine ⟨by decide +kernel, given, fun unraised => unraised.join false ?_⟩
  rw [given]
  exact ⟨_, List.mem_singleton_self _, "+o", by decide, by decide⟩

end Scene

end Echo
