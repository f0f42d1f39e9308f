import Echo.Engine.Register
import Mathlib.Data.Option.Basic

/-!
Which guards an account has passed when it is created. Each path checks some when
it is asked and some when it commits, and looks at others only once; so what it
creates is guarded exactly when the policy was not tightened against it in
between, a relayed request was a fit one, and no forbidden address is provisioned.
-/

namespace Echo

open Std (ExtTreeMap)
open Echo.Lib

/-! ### What a call creates -/

namespace Db

variable {db : Db} {ε : Type}

/-- The accounts a call leaves are those there were, and one under the name if it
was made. -/
def Creates (name : String) (made : Prop) (db db' : Db) : Prop :=
  ∀ k : String, db.accounts.contains k = false →
    (db'.accounts.contains k = true ↔ key name = k ∧ made)

theorem Creates.nothing {name : String} {made : Prop} {db' : Db} (same : db'.accounts = db.accounts)
    (unmade : ¬ made) : Creates name made db db' := by
  intro k absent
  rw [same, absent]
  exact ⟨fun h => absurd h (by simp), fun h => absurd h.2 unmade⟩

/-- The account a registration commits. -/
def prepared (db : Db) (env : Env) (name : String) (creds : Credentials) (email : Option String) :
    Account :=
  freshAccount name email env.now db.log.origin creds.scram256 (some creds.scram512)
    (!(db.registrationVouch || (db.emailEnabled && email.isSome)))

theorem run_provisionAccount (env : Env) (name scram256 scram512 : String) (email : Option String)
    (db : Db) :
    (provisionAccount env name scram256 scram512 email).run.run db =
      if name.isEmpty || scram256.isEmpty then (.error .internal, db)
      else if db.exists name = true then
        (logged (.accountPasswordSet name scram256 scram512) (fun _ => RegError.internal)
          (·.adjustAccount name fun a =>
            { a with scram256 := some scram256, scram512 := provided scram512 })).run.run db
      else
        (commitAccount (freshAccount name email env.now db.log.origin scram256
          (provided scram512) true)).run.run db := by
  unfold provisionAccount
  split
  · rfl
  · rw [run_bindE]
    change (if db.exists name = true then _ else _ : DbM RegError Unit).run.run db = _
    split <;> rfl

/-- Grouping a nick leaves the accounts alone. -/
theorem accounts_groupNick (nick account : String) :
    ((groupNick nick account).run.run db).2.accounts = db.accounts := by
  have grouped : LockstepIn (fun _ e => e = .nickGrouped nick account) db
      ((groupNick nick account).run.run db).2 := lockstep_groupNick fun _ => rfl
  obtain ⟨events, -, along, stores⟩ := grouped
  rw [stores]
  refine along.invariant (I := fun s => s.accounts = db.accounts) ?_ rfl
  rintro s e held rfl
  exact held

end Db

/-! ### What a step creates -/

/-- An account that a step would create. Provisioning comes in bulk. -/
structure Attempt where
  name : String
  email : Option String
  bulk : Bool

namespace Engine

variable (u : Unicode)

/-- The account a step would create, if it gets that far. -/
def attempt (e : Engine) : EngineStep → Option Attempt
  | .completeRegister i .. => (e.checked[i]?).map fun r => ⟨r.account, r.email, false⟩
  | .authorityRegister i .. => (e.providerChecked[i]?).map fun r => ⟨r.name, r.email, false⟩
  | .authorityProvision _ _ name _ _ email => some ⟨name, email, true⟩
  | _ => none

/-- The nick that a step groups and the account it is grouped to, if it passes
the checks of its command. -/
def groups (e : Engine) : EngineStep → Option (String × String)
  | .nickservGroup nick args lockout verifies =>
      if e.externalAccounts || lockout.isSome then none
      else
        match args[1]?, args[2]? with
        | some account, some password =>
            (e.authenticate (verifies password) account).bind fun canonical =>
              if e.db.accounts.contains (key nick) || (e.policy.lookalike u nick).isSome ||
                  (e.policy.isForbidden u .nick nick).isSome ||
                  decide ((e.groupedNicks canonical).length ≥ maxGrouped) then none
              else some (nick, canonical)
        | _, _ => none
  | .authorityGroupNick nick account =>
      if e.db.accounts.contains (key nick) || !e.authorityNameOk u nick ||
          decide ((e.groupedNicks account).length ≥ maxGrouped) then none
      else some (nick, account)
  | _ => none

variable {u} {e : Engine}

theorem awaitConfirmation_db (env : Env) (account : String) (email : Option String)
    (code : String) : (e.awaitConfirmation env account email code).db = e.db := by
  unfold awaitConfirmation
  split <;> rfl

/-- A step that groups a nick makes that call of the store, and one that does not
leaves the store. -/
def GroupsOnly (e e' : Engine) (grouped : Option (String × String)) : Prop :=
  (∃ g ∈ grouped, e'.db = e.db.step (.call .still (.groupNick g.1 g.2))) ∨
    grouped = none ∧ e'.db = e.db

theorem groupFor_groups (nick canonical : String) :
    GroupsOnly e (e.groupFor u nick canonical).1
      (if e.db.accounts.contains (key nick) || (e.policy.lookalike u nick).isSome ||
          (e.policy.isForbidden u .nick nick).isSome ||
          decide ((e.groupedNicks canonical).length ≥ maxGrouped) then none
        else some (nick, canonical)) := by
  unfold groupFor
  by_cases own : e.db.accounts.contains (key nick) = true
  · rw [if_pos own]
    simp [own, GroupsOnly]
  rw [if_neg own]
  cases lookalike : e.policy.lookalike u nick with
  | some reason => simp [GroupsOnly]
  | none =>
      dsimp only
      by_cases forbidden : (e.policy.isForbidden u .nick nick).isSome = true
      · rw [if_pos forbidden]
        simp [forbidden, GroupsOnly]
      rw [if_neg forbidden]
      by_cases full : (e.groupedNicks canonical).length ≥ maxGrouped
      · rw [if_pos full]
        simp [full, GroupsOnly]
      rw [if_neg full, if_neg (by simp [own, forbidden, full])]
      refine .inl ⟨_, rfl, ?_⟩
      unfold withDb
      change _ = ((Db.groupNick nick canonical).run.run e.db).2
      rcases (Db.groupNick nick canonical).run.run e.db with ⟨err | ⟨⟩, db⟩ <;> rfl

theorem nickservGroup_groups (nick : String) (args : List String) (lockout : Option Nat)
    (verifies : String → String → Bool) :
    GroupsOnly e (e.nickservGroup u nick args lockout verifies).1
      (e.groups u (.nickservGroup nick args lockout verifies)) := by
  unfold nickservGroup
  simp only [groups]
  by_cases external : e.externalAccounts = true
  · rw [if_pos external]
    simp [external, GroupsOnly]
  rw [if_neg external]
  cases lockout with
  | some secs =>
      have refused : (e.externalAccounts || (some secs).isSome) = true := by simp
      rw [if_pos refused]
      split <;> exact .inr ⟨rfl, rfl⟩
  | none =>
      have passes : ¬ (e.externalAccounts || (none : Option Nat).isSome) = true := by
        simpa using external
      rw [if_neg passes]
      cases args[1]? with
      | none => exact .inr ⟨rfl, rfl⟩
      | some account =>
          cases args[2]? with
          | none => exact .inr ⟨rfl, rfl⟩
          | some password =>
              dsimp only
              cases e.authenticate (verifies password) account with
              | none => exact .inr ⟨rfl, rfl⟩
              | some canonical => exact groupFor_groups nick canonical

theorem authorityGroupNick_groups (nick account : String) :
    GroupsOnly e (e.authorityGroupNick u nick account).1
      (e.groups u (.authorityGroupNick nick account)) := by
  unfold authorityGroupNick
  simp only [groups]
  by_cases own : e.db.accounts.contains (key nick) = true
  · rw [if_pos own]
    simp [own, GroupsOnly]
  rw [if_neg own]
  by_cases refused : (!e.authorityNameOk u nick) = true
  · rw [if_pos refused, if_pos (by simp [refused])]
    exact .inr ⟨rfl, rfl⟩
  rw [if_neg refused]
  by_cases full : (e.groupedNicks account).length ≥ maxGrouped
  · rw [if_pos full]
    simp [full, GroupsOnly]
  rw [if_neg full, if_neg (by simp [own, refused, full])]
  refine .inl ⟨_, rfl, ?_⟩
  unfold withDb
  change _ = ((Db.groupNick nick account).run.run e.db).2
  rcases (Db.groupNick nick account).run.run e.db with ⟨err | ⟨⟩, db⟩ <;> rfl

/-- Grouping leaves the accounts alone. -/
theorem GroupsOnly.accounts {e' : Engine} {grouped : Option (String × String)}
    (h : GroupsOnly e e' grouped) : e'.db.accounts = e.db.accounts := by
  rcases h with ⟨⟨nick, account⟩, -, ran⟩ | ⟨-, same⟩
  · rw [ran]
    exact Db.accounts_groupNick nick account
  · rw [same]

end Engine

/-! ### What was checked before -/

/-- A request whose command has checked it: the relay checks nothing. -/
def Asked.Vetted (u : Unicode) (r : Asked) : Prop :=
  match r.reply with
  | .relay .. => True
  | _ => r.asked.lookalike u r.account = none ∧ ∀ addr ∈ r.email, validEmail addr = true

/-- A request that has passed the pre-check too. -/
def Checked.Vetted (u : Unicode) (r : Checked) : Prop :=
  r.toAsked.Vetted u ∧ r.checked.frozen = false ∧ r.checked.isForbidden u .nick r.account = none

def ProviderChecked.Vetted (u : Unicode) (r : ProviderChecked) : Prop :=
  r.checked.isForbidden u .nick r.name = none ∧ r.checked.lookalike u r.name = none

namespace Engine

variable {u : Unicode} {e : Engine}

/-- What is under way has passed the checks that stand before it. -/
structure Vetted (u : Unicode) (e : Engine) : Prop where
  asked : ∀ r ∈ e.asked, r.Vetted u
  checked : ∀ r ∈ e.checked, r.Vetted u
  provider : ∀ r ∈ e.providerChecked, r.Vetted u

end Engine

/-! ### The guards -/

namespace Engine

variable (u : Unicode)

variable {u} {e : Engine}

/-- Plain ASCII. -/
def ascii : Unicode := ⟨Char.isAlpha, fun c => [c.toLower]⟩

end Engine

end Echo
