import Echo.Db.Access
import Echo.Db.Run

/-!
Agreement of the three deciders of operator access. They read the same access
list, but only the join looks through a group entry, and only the commands apply
the LEVELS overrides; they agree exactly when neither matters.
-/

namespace Echo

open Echo.Lib

/-! ### Op access, decider by decider -/

/-- A level whose capabilities include op. -/
def ChanAccess.givesOp (a : ChanAccess) : Bool := (levelCaps a.level).op

/-- Whether a LEVELS override gives op to the tier of a level. -/
def opGranted (levels : List (LevelCap × AccessRole)) (role : AccessRole) : Bool :=
  levels.any fun l => l.1 == .op && decide (role.rank ≥ l.2.rank)

namespace ChannelInfo

/-- The account's own entry gives op. -/
def ownOp (c : ChannelInfo) (account : String) : Bool := (c.ownEntry account).any (·.givesOp)

/-- The account's own entry gives op, and is not taken for a group's. -/
def plainOp (c : ChannelInfo) (account : String) : Bool :=
  (c.ownEntry account).any fun a => !a.forGroup && a.givesOp

/-- The account's own entry gives op, but is taken for that of a group of the
account's name. -/
def namesakeOp (c : ChannelInfo) (account : String) : Bool :=
  (c.ownEntry account).any fun a => a.forGroup && a.givesOp

/-- A LEVELS override gives op to the tier of the account's own entry. -/
def levelsOp (c : ChannelInfo) (account : String) : Bool :=
  (c.ownEntry account).any fun a => opGranted c.view.levels (accessRole a.level)

end ChannelInfo

/-- The account inherits op through a group on the access list. -/
def Db.groupOp (db : Db) (c : ChannelInfo) (account : String) : Bool :=
  c.access.any fun a =>
    a.forGroup && db.groupGrantsChannelAccess a.account account && a.givesOp

@[simp] theorem levelCaps_founder_op : (levelCaps "founder").op = true := rfl

theorem LevelCap.grant_op (cap : LevelCap) (caps : Caps) :
    (cap.grant caps).op = (caps.op || cap == .op) := by
  cases cap <;> simp [LevelCap.grant]

theorem grantLevels_op (levels : List (LevelCap × AccessRole)) (role : AccessRole) (caps : Caps) :
    (grantLevels levels role caps).op = (caps.op || opGranted levels role) := by
  unfold grantLevels opGranted
  induction levels generalizing caps with
  | nil => simp
  | cons l levels ih =>
      rw [List.foldl_cons, ih, List.any_cons]
      by_cases reaches : role.rank ≥ l.2.rank
      · simp [reaches, LevelCap.grant_op, Bool.or_assoc]
      · simp [reaches]

/-- Joining the capabilities of the entries that apply. -/
theorem foldl_union_op {α : Type} (applies : α → Bool) (capsOf : α → Caps) (l : List α)
    (caps : Caps) :
    (l.foldl (fun caps a => if applies a then caps.union (capsOf a) else caps) caps).op =
      (caps.op || l.any fun a => applies a && (capsOf a).op) := by
  induction l generalizing caps with
  | nil => simp
  | cons a l ih =>
      rw [List.foldl_cons, ih, List.any_cons]
      cases applies a <;> simp [Caps.union, Bool.or_assoc]

theorem any_or_any {α : Type} (p q : α → Bool) (l : List α) :
    (l.any fun a => p a || q a) = (l.any p || l.any q) := by
  induction l with
  | nil => rfl
  | cons a l ih => simp only [List.any_cons, ih, Bool.or_assoc, Bool.or_left_comm]

variable {db : Db} {c : ChannelInfo} {channel account : String}

theorem ChannelInfo.isOp_eq :
    c.isOp account = (eqIgnoreAsciiCase c.founder account || c.ownOp account) := rfl

theorem ChannelInfo.capsOf_op :
    (c.view.capsOf (some account)).op =
      (eqIgnoreAsciiCase c.founder account || c.ownOp account || c.levelsOp account) := by
  unfold ChannelView.capsOf ownOp levelsOp ownEntry
  change (if eqIgnoreAsciiCase c.founder account then levelCaps "founder" else _).op = _
  cases eqIgnoreAsciiCase c.founder account with
  | true => rfl
  | false =>
      rw [if_neg Bool.false_ne_true]
      have entries : c.view.access = c.access := rfl
      rw [entries]
      cases c.access.find? fun a : ChanAccess => eqIgnoreAsciiCase a.account account with
      | none => rfl
      | some entry => exact grantLevels_op _ _ _

/-- The joined entries give op through a group, or as the account's own entry
when that is not itself taken for a group. -/
theorem Db.channelCaps_op (held : db.channel channel = some c)
    (access : DistinctBy (fun a => key a.account) c.access) :
    (db.channelCaps channel account).op =
      (eqIgnoreAsciiCase c.founder account ||
        (db.groupOp c account || c.plainOp account)) := by
  unfold Db.channelCaps Db.groupOp ChannelInfo.plainOp ChannelInfo.ownEntry
  rw [held]
  change (if eqIgnoreAsciiCase c.founder account then levelCaps "founder" else _).op = _
  cases eqIgnoreAsciiCase c.founder account with
  | true => rfl
  | false =>
      have oneEntry : ∀ a b : ChanAccess, eqIgnoreAsciiCase a.account account = true →
          eqIgnoreAsciiCase b.account account = true → key a.account = key b.account := by
        intro a b ha hb
        exact (eqIgnoreAsciiCase_iff_key.mp ha).trans (eqIgnoreAsciiCase_iff_key.mp hb).symm
      rw [Bool.false_or, access.any_find? oneEntry]
      change (c.access.foldl _ ({} : Caps)).op = _
      rw [foldl_union_op, Bool.false_or, ← any_or_any]
      congr 1
      funext a
      unfold Db.entryApplies ChanAccess.givesOp
      cases a.forGroup <;> simp

/-! ### When they agree -/

/-- The three deciders give the same answer. An account that is not registered
is one more string to them, and a channel that is not registered gives nothing. -/
structure DecidersAgree (db : Db) (channel account : String) : Prop where
  secureops : (db.channel channel).any (·.isOp account) = (db.channelCaps channel account).op
  commands : ((db.channel channel).elim {} fun c => c.view.capsOf (some account)).op =
    (db.channelCaps channel account).op

/-- Nothing but the account's own entry, or being founder, decides op. The last
field is about an account whose very name is taken for a group's. -/
structure OpByOwnEntry (db : Db) (c : ChannelInfo) (account : String) : Prop where
  group : db.groupOp c account = true → c.ownOp account = true
  levels : c.levelsOp account = true → c.ownOp account = true
  name : c.namesakeOp account = true → db.groupOp c account = true

/-- How the six conditions bear on one another. An own entry that gives op is
either taken for a group's or not. -/
theorem agreement_table : ∀ founder own levels group plain namesake : Bool,
    own = (plain || namesake) → (plain && namesake) = false →
      ((founder || own) = (founder || (group || plain)) ∧
          (founder || own || levels) = (founder || (group || plain)) ↔
        founder = true ∨ (group = true → own = true) ∧ (levels = true → own = true) ∧
          (namesake = true → group = true)) := by decide

theorem deciders_agree_iff (held : db.channel channel = some c)
    (access : DistinctBy (fun a => key a.account) c.access) :
    DecidersAgree db channel account ↔
      eqIgnoreAsciiCase c.founder account = true ∨ OpByOwnEntry db c account := by
  have own : c.ownOp account = (c.plainOp account || c.namesakeOp account) := by
    unfold ChannelInfo.ownOp ChannelInfo.plainOp ChannelInfo.namesakeOp
    cases c.ownEntry account with
    | none => rfl
    | some a => cases forGroup : a.forGroup <;> simp [forGroup]
  have apart : (c.plainOp account && c.namesakeOp account) = false := by
    unfold ChannelInfo.plainOp ChannelInfo.namesakeOp
    cases c.ownEntry account with
    | none => rfl
    | some a => cases forGroup : a.forGroup <;> simp [forGroup]
  have table := agreement_table (eqIgnoreAsciiCase c.founder account) (c.ownOp account)
    (c.levelsOp account) (db.groupOp c account) (c.plainOp account) (c.namesakeOp account) own apart
  rw [← ChannelInfo.capsOf_op, ← ChannelInfo.isOp_eq, ← Db.channelCaps_op held access] at table
  constructor
  · rintro ⟨secureops, commands⟩
    rw [held] at secureops commands
    exact (table.mp ⟨secureops, commands⟩).imp_right fun ⟨group, levels, name⟩ =>
      ⟨group, levels, name⟩
  · intro settled
    obtain ⟨secureops, commands⟩ :=
      table.mpr (settled.imp_right fun own => ⟨own.group, own.levels, own.name⟩)
    constructor
    · rw [held]
      exact secureops
    · rw [held]
      exact commands

/-! ### Opped on join -/

/-- A status mode that makes its target an operator. -/
def opMode (mode : Option String) : Bool := mode.any fun m => m.toList.contains 'o'

/-- A join mode that ops comes with op access. -/
def Caps.Sound (caps : Caps) : Prop := opMode caps.auto = true → caps.op = true

theorem Caps.sound_empty : Caps.Sound {} := by
  intro opped
  exact absurd opped (by decide)

theorem Flags.sound_caps (flags : Flags) : flags.caps.Sound := by
  intro opped
  unfold Flags.caps at opped ⊢
  cases auto : flags.has .autoOp with
  | true => simp
  | false =>
      -- Without the auto-op flag the join mode is half-op, voice or none.
      exfalso
      revert opped
      simp only [auto, Bool.false_eq_true, if_false]
      split
      · decide
      · split
        · decide
        · split <;> decide

theorem sound_levelCaps (level : String) : (levelCaps level).Sound := by
  unfold levelCaps
  split
  · exact fun _ => rfl
  · exact Flags.sound_caps _

theorem Caps.Sound.union {a b : Caps} (ha : a.Sound) (hb : b.Sound) : (a.union b).Sound := by
  intro opped
  unfold Caps.union at opped ⊢
  rw [Bool.or_eq_true]
  dsimp only at opped
  split at opped
  · exact .inl (ha opped)
  · exact .inr (hb opped)

theorem Db.sound_channelCaps (db : Db) (channel account : String) :
    (db.channelCaps channel account).Sound := by
  unfold Db.channelCaps
  cases db.channel channel with
  | none => exact Caps.sound_empty
  | some c =>
      dsimp only
      split
      · exact sound_levelCaps "founder"
      · refine List.foldlRecOn c.access _ Caps.sound_empty ?_
        intro caps sound a _
        split
        · exact sound.union (sound_levelCaps a.level)
        · exact sound

namespace Db

/-- The access lists of a reachable store hold each account once. -/
theorem channel_access {origin : String} {file : List LogEntry} (actions : List Action)
    (held : (after Db.step (Db.open' origin file) actions).channel channel = some c) :
    DistinctBy (fun a => key a.account) c.access :=
  ((wf_after actions).channels _ _ held).access

/-- In every reachable store the deciders agree about an account of a channel
exactly when it is the founder or its own access entry decides, and where they
agree SECUREOPS leaves alone whom the services op on join. -/
theorem deciders_agree_exactly (origin : String) (file : List LogEntry) (actions : List Action)
    (channel account : String) :
    let db := after Db.step (Db.open' origin file) actions
    (DecidersAgree db channel account ↔
      ∀ c, db.channel channel = some c →
        eqIgnoreAsciiCase c.founder account = true ∨ OpByOwnEntry db c account) ∧
      (DecidersAgree db channel account → opMode (db.channelJoinMode channel account) = true →
        db.secureopsStrips channel (some account) = false) := by
  intro db
  constructor
  · cases held : db.channel channel with
    | none =>
        have agree : DecidersAgree db channel account := by
          constructor <;> simp [channelCaps, held]
        exact ⟨fun _ c absurdly => (by contradiction), fun _ => agree⟩
    | some c =>
        rw [deciders_agree_iff held (channel_access actions held)]
        constructor
        · rintro settled _ ⟨⟩
          exact settled
        · intro settled
          exact settled c rfl
  · intro agree opped
    have op := db.sound_channelCaps channel account opped
    have isOp := agree.secureops.trans op
    unfold secureopsStrips
    cases held : db.channel channel with
    | none => rfl
    | some c =>
        rw [held, Option.any_some] at isOp
        simp [isOp]

/-- A channel with SECUREOPS on whose access list holds a group. -/
def groupOpped : List Action :=
  [.call .still (.registerChannel "#chan" "alice"), .call .still (.groupRegister "!ops" "bob"),
    .call .still (.accessAdd "#chan" "!ops" "op"),
    .call .still (.setChannelSetting "#chan" .secureOps true)]

/-- The group's founder is opped on join, and SECUREOPS deops him. -/
theorem deciders_disagree_group :
    let db := after Db.step (.fresh "a") groupOpped
    ¬ DecidersAgree db "#chan" "bob" ∧ opMode (db.channelJoinMode "#chan" "bob") = true ∧
      db.secureopsStrips "#chan" (some "bob") = true := by
  refine ⟨?_, by decide, by decide⟩
  rintro ⟨secureops, -⟩
  exact absurd secureops (by decide)

end Db

end Echo
