import Echo.Db.CoreRun
import Echo.Engine.Register

/-!
What the account authority is answered when it writes to an account. A name is looked
up with its aliases to ask whether the account exists, and without them to write: on an
alias two of the writes answer that they are done and change nothing.
-/

namespace Echo

open Std (ExtTreeMap)
open Echo.Lib

/-- The account that a login under the name is a login to. -/
def Db.loginAccount (db : Db) (name : String) : Option Account :=
  (db.resolvedKey name).bind fun k => db.accounts[k]?

namespace Engine

variable (u : Unicode)

def authoritySetPassword (e : Engine) (account : String) (creds : Option Credentials) :
    Engine × AuthorityStatus :=
  match creds with
  | none => (e, .internal)
  | some creds =>
      match e.withDb (Db.setCredentials account creds) with
      | (e, .ok ()) => (e, .ok)
      | (e, .error _) => (e, .notFound)

def authoritySetEmail (e : Engine) (account : String) (email : Option String) :
    Engine × AuthorityStatus :=
  if email.any fun addr => !validEmail addr || (e.policy.isForbidden u .email addr).isSome then
    (e, .invalid)
  else
    match e.withDb (Db.setEmail account email) with
    | (e, .ok ()) => (e, .ok)
    | (e, .error _) => (e, .notFound)

def authorityConfirm (e : Engine) (now : Nat) (account code : String) : Engine × AuthorityStatus :=
  if !e.db.exists account then (e, .notFound)
  else if e.isVerified account then (e, .ok)
  else
    match e.toSession.takeCode now account .confirm code with
    | (s, false) => ({ e with toSession := s }, .invalid)
    | (s, true) =>
        match { e with toSession := s : Engine }.withDb (Db.verifyAccount account) with
        | (e, .ok ()) => (e, .ok)
        | (e, .error _) => (e, .internal)

end Engine

/-! ### The writes as one -/

/-- A write of the authority to the account of a name. -/
inductive ProviderWrite where
  | provision (env : Env) (verifierOk : String → Bool) (name scram256 scram512 : String)
      (email : Option String)
  | setPassword (account : String) (creds : Option Credentials)
  | setEmail (account : String) (email : Option String)
  | confirm (now : Nat) (account code : String)

namespace ProviderWrite

def name : ProviderWrite → String
  | .provision _ _ name .. => name
  | .setPassword account _ | .setEmail account _ | .confirm _ account _ => account

/-- The account has what the write is to give it. -/
def Done : ProviderWrite → Account → Prop
  | .provision _ _ _ scram256 scram512 _, a =>
      a.scram256 = some scram256 ∧ a.scram512 = Db.provided scram512
  | .setPassword _ creds, a =>
      creds.map (·.scram256) = a.scram256 ∧ creds.map (·.scram512) = a.scram512
  | .setEmail _ email, a => a.email = email
  | .confirm .., a => a.verified = true

def answer (u : Unicode) (e : Engine) : ProviderWrite → Engine × AuthorityStatus
  | .provision env verifierOk name scram256 scram512 email =>
      e.authorityProvision u env verifierOk name scram256 scram512 email
  | .setPassword account creds => e.authoritySetPassword account creds
  | .setEmail account email => e.authoritySetEmail u account email
  | .confirm now account code => e.authorityConfirm now account code

/-- The account of the name has it, in memory and after a restart. -/
def Told (w : ProviderWrite) (e : Engine) : Prop :=
  ∀ db ∈ [e.db, e.db.step .reopen], ∃ a, db.loginAccount w.name = some a ∧ w.Done a

/-- The name is not just an alias, or the account it is an alias of has it already. -/
def Direct (w : ProviderWrite) (e : Engine) : Prop :=
  e.db.accounts.contains (key w.name) = false → ∀ owner, e.db.grouped[key w.name]? = some owner →
    ∃ a, e.db.accounts[key owner]? = some a ∧ w.Done a

variable {u : Unicode} {e : Engine} {w : ProviderWrite} {db : Db} {name : String}

/-! ### Looking a name up -/

theorem loginAccount_account (held : db.accounts.contains (key name) = true) :
    db.loginAccount name = db.accounts[key name]? := by
  unfold Db.loginAccount Db.resolvedKey
  rw [if_pos held]
  rfl

theorem loginAccount_alias (free : db.accounts.contains (key name) = false) :
    db.loginAccount name = (db.grouped[key name]?).bind fun owner => db.accounts[key owner]? := by
  unfold Db.loginAccount Db.resolvedKey
  rw [free, if_neg Bool.false_ne_true]
  cases db.grouped[key name]? <;> rfl

/-- A restart gives the name the same account, up to what is not of its core. -/
theorem loginAccount_reopen (name : String) (tracked : db.Tracked) :
    ((db.step .reopen).loginAccount name).map Account.core =
      (db.loginAccount name).map Account.core := by
  have same : (db.step .reopen).toStore.core false = db.toStore.core false := by
    rw [Db.replay_reopen]
    exact tracked.symm
  have accounts (k : String) :
      ((db.step .reopen).accounts[k]?).map Account.core = (db.accounts[k]?).map Account.core := by
    have both := congrArg (fun s : Store => s.accounts[k]?) same
    rwa [Store.core_getElem?_accounts, Store.core_getElem?_accounts] at both
  have aliases := congrArg (fun s : Store => s.grouped) same
  have grouped : (db.step .reopen).grouped = db.grouped := aliases
  have contains : (db.step .reopen).accounts.contains (key name) =
      db.accounts.contains (key name) := by
    have both := congrArg Option.isSome (accounts (key name))
    rw [Option.isSome_map, Option.isSome_map] at both
    rw [ExtTreeMap.contains_eq_isSome_getElem?, ExtTreeMap.contains_eq_isSome_getElem?, both]
  cases held : db.accounts.contains (key name) with
  | true =>
      rw [loginAccount_account held, loginAccount_account (contains.trans held)]
      exact accounts (key name)
  | false =>
      rw [loginAccount_alias held, loginAccount_alias (contains.trans held), grouped]
      cases db.grouped[key name]? with
      | none => rfl
      | some owner => exact accounts (key owner)

theorem Done.of_core {a b : Account} (done : w.Done a) (same : a.core = b.core) : w.Done b := by
  have scram256 : a.scram256 = b.scram256 := congrArg (·.scram256) same
  have scram512 : a.scram512 = b.scram512 := congrArg (·.scram512) same
  have email : a.email = b.email := congrArg (·.email) same
  have verified : a.verified = b.verified := congrArg (·.verified) same
  cases w with
  | provision => exact ⟨scram256 ▸ done.1, scram512 ▸ done.2⟩
  | setPassword => exact ⟨scram256 ▸ done.1, scram512 ▸ done.2⟩
  | setEmail => exact email.symm.trans done
  | confirm => exact verified.symm.trans done

/-- What is told in memory is told after a restart. -/
theorem told_iff (tracked : e.db.Tracked) :
    w.Told e ↔ ∃ a, e.db.loginAccount w.name = some a ∧ w.Done a := by
  unfold Told
  constructor
  · intro told
    exact told e.db List.mem_cons_self
  · rintro ⟨a, found, done⟩ db mem
    rcases List.mem_pair.mp mem with rfl | rfl
    · exact ⟨a, found, done⟩
    · have same := loginAccount_reopen w.name tracked
      rw [found] at same
      obtain ⟨b, again, core⟩ := Option.map_eq_some_iff.mp same
      exact ⟨b, again, done.of_core core.symm⟩

/-! ### What a write that succeeds has done -/

/-- The write gave it to the account of the name, or the name was an alias and it
changed nothing. -/
inductive Reaches (w : ProviderWrite) (e e' : Engine) : Prop
  | account (direct : e.db.accounts.contains (key w.name) = true ∨ e.db.grouped[key w.name]? = none)
      (a : Account) (held : e'.db.accounts[key w.name]? = some a) (done : w.Done a)
  | nothing (free : e.db.accounts.contains (key w.name) = false) (owner : String)
      (grouped : e.db.grouped[key w.name]? = some owner)
      (accounts : ∀ k : String, e'.db.accounts[k]? = e.db.accounts[k]?)
      (aliases : e'.db.grouped = e.db.grouped)

theorem Reaches.told_iff {e' : Engine} (reaches : w.Reaches e e') (tracked : e'.db.Tracked) :
    w.Told e' ↔ w.Direct e := by
  rw [ProviderWrite.told_iff tracked]
  cases reaches with
  | account direct a held done =>
      have login : e'.db.loginAccount w.name = some a := by
        rw [loginAccount_account, held]
        rw [ExtTreeMap.contains_eq_isSome_getElem?, held]
        rfl
      refine iff_of_true ⟨a, login, done⟩ fun free owner grouped => ?_
      rcases direct with held | none_
      · rw [free] at held
        contradiction
      · rw [none_] at grouped
        contradiction
  | nothing free owner grouped accounts aliases =>
      have free' : e'.db.accounts.contains (key w.name) = false := by
        rw [ExtTreeMap.contains_eq_isSome_getElem?] at free ⊢
        rw [accounts, free]
      have login : e'.db.loginAccount w.name = e.db.accounts[key owner]? := by
        rw [loginAccount_alias free', aliases, grouped, ← accounts]
        rfl
      rw [login]
      constructor
      · rintro has - other same
        rw [grouped] at same
        cases same
        exact has
      · intro direct
        exact direct free owner grouped

/-- A logged write that succeeds edits the records. -/
theorem logged_ok {event : Event} {onError : IoError → RegError} {write : Store → Store}
    (ok : ((Db.logged event onError write).run.run db).1 = .ok ()) :
    ((Db.logged event onError write).run.run db).2.toStore = write db.toStore := by
  rw [Db.run_logged] at ok ⊢
  rcases outcome : db.log.append event with ⟨log, err | ⟨⟩⟩
  · rw [outcome] at ok
    contradiction
  · rfl

theorem run_writeAccount (account : String) (event : Event) (write : Account → Account) (db : Db) :
    (Db.writeAccount account event write).run.run db =
      if db.accounts.contains (key account) = true then
        (Db.logged event (fun _ => RegError.internal)
          (·.adjustAccount account write)).run.run db
      else (.error .internal, db) := by
  unfold Db.writeAccount
  rw [run_bindE]
  change (if db.accounts.contains (key account) = true then _ else (throw RegError.internal) :
    DbM RegError Unit).run.run db = _
  split <;> rfl

/-- A write to an account that succeeds found the account, and wrote it. -/
theorem writeAccount_ok {account : String} {event : Event} {write : Account → Account}
    (ok : ((Db.writeAccount account event write).run.run db).1 = .ok ()) :
    db.accounts.contains (key account) = true ∧
      ∃ a, ((Db.writeAccount account event write).run.run db).2.accounts[key account]? =
        some (write a) := by
  rw [run_writeAccount] at ok ⊢
  split at ok
  · rename_i held
    rw [if_pos held, logged_ok ok]
    refine ⟨held, ?_⟩
    rw [ExtTreeMap.contains_eq_isSome_getElem?] at held
    obtain ⟨a, was⟩ := Option.isSome_iff_exists.mp held
    refine ⟨a, ?_⟩
    change (db.accounts.modify (key account) write)[key account]? = _
    rw [ExtTreeMap.getElem?_modify_self, was]
    rfl
  · contradiction

theorem adjustAccount_absent {s : Store} {f : Account → Account}
    (free : s.accounts.contains (key name) = false) (k : String) :
    (s.adjustAccount name f).accounts[k]? = s.accounts[k]? := by
  change (s.accounts.modify (key name) f)[k]? = _
  rw [ExtTreeMap.getElem?_modify]
  split
  · rename_i same
    obtain rfl : key name = k := Std.LawfulEqCmp.eq_of_compare same
    rw [ExtTreeMap.contains_eq_isSome_getElem?] at free
    rw [Option.isSome_eq_false_iff.mp free |> Option.isNone_iff_eq_none.mp]
    rfl
  · rfl

/-- A name that does not exist is neither an account nor an alias. -/
theorem not_exists (free : ¬ db.exists name = true) :
    db.accounts.contains (key name) = false ∧ db.grouped[key name]? = none := by
  unfold Db.exists Db.resolvedKey at free
  cases held : db.accounts.contains (key name) with
  | true =>
      rw [held, if_pos rfl] at free
      exact absurd rfl free
  | false =>
      rw [held, if_neg Bool.false_ne_true, Option.isSome_map] at free
      exact ⟨rfl, Option.not_isSome_iff_eq_none.mp free⟩

theorem run_provisionAccount (env : Env) (name scram256 scram512 : String) (email : Option String)
    (db : Db) :
    (Db.provisionAccount env name scram256 scram512 email).run.run db =
      if (name.isEmpty || scram256.isEmpty) = true then (.error .internal, db)
      else if db.exists name = true then
        (Db.logged (.accountPasswordSet name scram256 scram512) (fun _ => RegError.internal)
          (·.adjustAccount name fun a =>
            { a with scram256 := some scram256, scram512 := Db.provided scram512 })).run.run db
      else
        (Db.commitAccount (freshAccount name email env.now db.log.origin scram256
          (Db.provided scram512) true)).run.run db := by
  unfold Db.provisionAccount
  split
  · rfl
  · rw [run_bindE]
    change (if db.exists name = true then _ else _ : DbM RegError Unit).run.run db = _
    split <;> rfl

/-- Provisioning that succeeds sets the verifiers of the account, or makes it, unless
the name is an alias. -/
theorem provisionAccount_ok {env : Env} {verifierOk : String → Bool}
    {name scram256 scram512 : String} {email : Option String} {e' : Engine}
    (ok : ((Db.provisionAccount env name scram256 scram512 email).run.run e.db).1 = .ok ())
    (left : e'.db = ((Db.provisionAccount env name scram256 scram512 email).run.run e.db).2) :
    Reaches (.provision env verifierOk name scram256 scram512 email) e e' := by
  rw [run_provisionAccount] at ok left
  split at ok
  · contradiction
  rename_i named
  rw [if_neg named] at left
  by_cases taken : e.db.exists name = true
  · rw [if_pos taken] at ok left
    have store := logged_ok ok
    rw [← left] at store
    cases held : e.db.accounts.contains (key name) with
    | true =>
        have has := held
        rw [ExtTreeMap.contains_eq_isSome_getElem?] at has
        obtain ⟨a, was⟩ := Option.isSome_iff_exists.mp has
        refine .account (.inl held)
          { a with scram256 := some scram256, scram512 := Db.provided scram512 } ?_ ⟨rfl, rfl⟩
        change e'.db.toStore.accounts[key name]? = _
        rw [store]
        change (e.db.accounts.modify (key name) _)[key name]? = _
        rw [ExtTreeMap.getElem?_modify_self, was]
        rfl
    | false =>
        unfold Db.exists Db.resolvedKey at taken
        rw [held, if_neg Bool.false_ne_true, Option.isSome_map] at taken
        obtain ⟨owner, grouped⟩ := Option.isSome_iff_exists.mp taken
        refine .nothing held owner grouped (fun k => ?_) ?_
        · rw [store]
          exact adjustAccount_absent held k
        · rw [store]
          rfl
  · rw [if_neg taken] at ok left
    have store := logged_ok ok
    have made : ((Db.commitAccount (freshAccount name email env.now e.db.log.origin scram256
      (Db.provided scram512) true)).run.run e.db).2.toStore = _ := store
    rw [← left] at made
    refine .account (.inr ?_) (freshAccount name email env.now e.db.log.origin scram256
      (Db.provided scram512) true) ?_ ⟨rfl, rfl⟩
    · exact (not_exists taken).2
    · change e'.db.toStore.accounts[key name]? = _
      rw [made]
      exact ExtTreeMap.getElem?_insert_self

/-- A write that the store is asked for, and that succeeds, has reached the account. -/
theorem writeAccount_reaches (w : ProviderWrite) {event : Event} {write : Account → Account} {e' : Engine}
    (ok : ((Db.writeAccount w.name event write).run.run e.db).1 = .ok ())
    (left : e'.db = ((Db.writeAccount w.name event write).run.run e.db).2)
    (does : ∀ a, w.Done (write a)) : w.Reaches e e' := by
  obtain ⟨held, a, now⟩ := writeAccount_ok ok
  rw [← left] at now
  exact .account (.inl held) (write a) now (does a)

theorem setPassword_ok {account : String} {creds : Option Credentials}
    (ok : (e.authoritySetPassword account creds).2 = .ok) :
    Reaches (.setPassword account creds) e (e.authoritySetPassword account creds).1 := by
  unfold Engine.authoritySetPassword at ok ⊢
  cases creds with
  | none => contradiction
  | some creds =>
      dsimp only [Engine.withDb] at ok ⊢
      rcases outcome : (Db.setCredentials account creds).run.run e.db with ⟨err | ⟨⟩, db'⟩
      · rw [outcome] at ok
        contradiction
      · refine writeAccount_reaches (.setPassword account (some creds))
          (congrArg Prod.fst outcome) (congrArg Prod.snd outcome).symm ?_
        exact fun _ => ⟨rfl, rfl⟩

theorem setEmail_ok {account : String} {email : Option String}
    (ok : (e.authoritySetEmail u account email).2 = .ok) :
    Reaches (.setEmail account email) e (e.authoritySetEmail u account email).1 := by
  unfold Engine.authoritySetEmail at ok ⊢
  split at ok
  · contradiction
  rename_i allowed
  rw [if_neg allowed]
  dsimp only [Engine.withDb] at ok ⊢
  rcases outcome : (Db.setEmail account email).run.run e.db with ⟨err | ⟨⟩, db'⟩
  · rw [outcome] at ok
    contradiction
  · refine writeAccount_reaches (.setEmail account email)
      (congrArg Prod.fst outcome) (congrArg Prod.snd outcome).symm ?_
    exact fun _ => rfl

/-- Confirming answers that it is done for a confirmed account, for an alias, and where
the code was right. -/
theorem confirm_ok {now : Nat} {account code : String}
    (ok : (e.authorityConfirm now account code).2 = .ok) :
    Reaches (.confirm now account code) e (e.authorityConfirm now account code).1 := by
  unfold Engine.authorityConfirm at ok ⊢
  by_cases known : e.db.exists account = true
  · rw [known, Bool.not_true, if_neg Bool.false_ne_true] at ok ⊢
    by_cases verified : e.isVerified account = true
    · rw [if_pos verified]
      unfold Engine.isVerified at verified
      cases held : e.db.accounts[key account]? with
      | some a =>
          rw [held] at verified
          refine .account (.inl ?_) a held verified
          change e.db.accounts.contains (key account) = true
          rw [ExtTreeMap.contains_eq_isSome_getElem?, held]
          rfl
      | none =>
          have free : e.db.accounts.contains (key account) = false := by
            rw [ExtTreeMap.contains_eq_isSome_getElem?, held]
            rfl
          unfold Db.exists Db.resolvedKey at known
          rw [free, if_neg Bool.false_ne_true, Option.isSome_map] at known
          obtain ⟨owner, grouped⟩ := Option.isSome_iff_exists.mp known
          exact .nothing free owner grouped (fun _ => rfl) rfl
    · rw [if_neg verified] at ok ⊢
      have same := e.toSession.takeCode_db now account .confirm code
      rcases taken : e.toSession.takeCode now account .confirm code with ⟨s, _ | _⟩
      · rw [taken] at ok
        contradiction
      · rw [taken] at ok same
        dsimp only [Engine.withDb] at ok same ⊢
        rw [same] at ok ⊢
        rcases outcome : (Db.verifyAccount account).run.run e.db with ⟨err | ⟨⟩, db'⟩
        · rw [outcome] at ok
          contradiction
        · refine writeAccount_reaches (.confirm now account code)
            (congrArg Prod.fst outcome) (congrArg Prod.snd outcome).symm ?_
          exact fun _ => rfl
  · rw [Bool.not_eq_true] at known
    rw [known] at ok
    contradiction

theorem provision_ok {env : Env} {verifierOk : String → Bool} {name scram256 scram512 : String}
    {email : Option String}
    (ok : (e.authorityProvision u env verifierOk name scram256 scram512 email).2 = .ok) :
    Reaches (.provision env verifierOk name scram256 scram512 email) e
      (e.authorityProvision u env verifierOk name scram256 scram512 email).1 := by
  unfold Engine.authorityProvision at ok ⊢
  split at ok
  · contradiction
  rename_i named
  rw [if_neg named]
  split at ok
  · contradiction
  rename_i addressed
  rw [if_neg addressed]
  split at ok
  · contradiction
  rename_i verifiers
  rw [if_neg verifiers]
  dsimp only [Engine.withDb] at ok ⊢
  rcases outcome : (Db.provisionAccount env name scram256 scram512 email).run.run e.db with
    ⟨err | ⟨⟩, db'⟩
  · rw [outcome] at ok
    cases err <;> contradiction
  · exact provisionAccount_ok (congrArg Prod.fst outcome) (congrArg Prod.snd outcome).symm

theorem answer_reaches (ok : (w.answer u e).2 = .ok) : w.Reaches e (w.answer u e).1 := by
  cases w with
  | provision => exact provision_ok ok
  | setPassword => exact setPassword_ok ok
  | setEmail => exact setEmail_ok ok
  | confirm => exact confirm_ok ok

/-- The store is the same, or as one call left it. -/
def Called (e e' : Engine) : Prop :=
  e'.db = e.db ∨ ∃ env c, e'.db = e.db.step (.call env c)

theorem called_provision {env : Env} {verifierOk : String → Bool}
    {name scram256 scram512 : String} {email : Option String} :
    Called e (e.authorityProvision u env verifierOk name scram256 scram512 email).1 := by
  unfold Engine.authorityProvision
  split
  · exact .inl rfl
  split
  · exact .inl rfl
  split
  · exact .inl rfl
  refine .inr ⟨env, .provisionAccount name scram256 scram512 email, ?_⟩
  dsimp only [Engine.withDb]
  rcases outcome : (Db.provisionAccount env name scram256 scram512 email).run.run e.db with
    ⟨err | ⟨⟩, db'⟩
  · cases err <;> exact (congrArg Prod.snd outcome).symm
  · exact (congrArg Prod.snd outcome).symm

theorem called_setPassword {account : String} {creds : Option Credentials} :
    Called e (e.authoritySetPassword account creds).1 := by
  unfold Engine.authoritySetPassword
  cases creds with
  | none => exact .inl rfl
  | some creds =>
      refine .inr ⟨.still, .setCredentials account creds, ?_⟩
      dsimp only [Engine.withDb]
      rcases outcome : (Db.setCredentials account creds).run.run e.db with ⟨err | ⟨⟩, db'⟩ <;>
        exact (congrArg Prod.snd outcome).symm

theorem called_setEmail {account : String} {email : Option String} :
    Called e (e.authoritySetEmail u account email).1 := by
  unfold Engine.authoritySetEmail
  split
  · exact .inl rfl
  refine .inr ⟨.still, .setEmail account email, ?_⟩
  dsimp only [Engine.withDb]
  rcases outcome : (Db.setEmail account email).run.run e.db with ⟨err | ⟨⟩, db'⟩ <;>
    exact (congrArg Prod.snd outcome).symm

theorem called_confirm {now : Nat} {account code : String} :
    Called e (e.authorityConfirm now account code).1 := by
  unfold Engine.authorityConfirm
  split
  · exact .inl rfl
  split
  · exact .inl rfl
  have same := e.toSession.takeCode_db now account .confirm code
  rcases taken : e.toSession.takeCode now account .confirm code with ⟨s, _ | _⟩
  · rw [taken] at same
    exact .inl same
  · rw [taken] at same
    refine .inr ⟨.still, .verifyAccount account, ?_⟩
    dsimp only [Engine.withDb] at same ⊢
    rw [same]
    rcases outcome : (Db.verifyAccount account).run.run e.db with ⟨err | ⟨⟩, db'⟩ <;>
      exact (congrArg Prod.snd outcome).symm

theorem called_answer (u : Unicode) (e : Engine) (w : ProviderWrite) :
    Called e (w.answer u e).1 := by
  cases w with
  | provision => exact called_provision
  | setPassword => exact called_setPassword
  | setEmail => exact called_setEmail
  | confirm => exact called_confirm

/-- A store that a run from some file reaches, with any setting of e-mail and
vouching. -/
def Reached (db : Db) : Prop :=
  ∃ origin file emailEnabled registrationVouch actions,
    db = after Db.step { Db.open' origin file with emailEnabled, registrationVouch } actions

theorem Reached.sound (reached : Reached db) : db.Wf ∧ db.Tracked := by
  obtain ⟨origin, file, emailEnabled, registrationVouch, actions, rfl⟩ := reached
  refine invariant (I := fun db : Db => db.Wf ∧ db.Tracked) ?_ ?_ actions
  · rintro db a ⟨wf, tracked⟩
    exact ⟨Db.wf_step wf a, Db.tracked_step wf tracked⟩
  · exact ⟨Db.wf_open origin file, Db.tracked_open origin file⟩

/-- In every store that a run reaches, a write that answers that it is done has given
the account of the name what it was to give exactly when the name is not just an alias,
or the account it is an alias of had it already. -/
theorem told_iff_direct (u : Unicode) (e : Engine) (w : ProviderWrite) (reached : Reached e.db)
    (ok : (w.answer u e).2 = .ok) : w.Told (w.answer u e).1 ↔ w.Direct e := by
  obtain ⟨wf, tracked⟩ := reached.sound
  refine (answer_reaches ok).told_iff ?_
  rcases called_answer u e w with same | ⟨env, c, same⟩
  · rw [same]
    exact tracked
  · rw [same]
    exact Db.tracked_step wf tracked

/-- Alice, who is still to confirm her address, has the alias ally. -/
def allied : Engine where
  db := after Db.step { Db.fresh "a" with emailEnabled := true }
    [.call .still (.registerPrepared "Alice" ⟨"old", "old", by decide⟩ (some "alice@a.example")),
      .call .still (.groupNick "ally" "Alice")]

def ascii : Unicode := ⟨Char.isAlpha, fun c => [c.toLower]⟩

/-- Her own name in another case is not just an alias. -/
theorem told_iff_direct_alice :
    Told (.provision .still (fun _ => true) "ALICE" "new" "" none)
        (answer ascii allied (.provision .still (fun _ => true) "ALICE" "new" "" none)).1 ↔
      Direct (.provision .still (fun _ => true) "ALICE" "new" "" none) allied :=
  told_iff_direct ascii allied _ ⟨"a", [], true, false, _, rfl⟩ (by decide +kernel)

/-- Provisioning the alias, and confirming it, are answered as done; the verifier stays
and the address unconfirmed. -/
theorem ally_untold :
    let provision := ProviderWrite.provision .still (fun _ => true) "ally" "new" "" none
    let confirm := ProviderWrite.confirm 0 "ally" "code"
    Reached allied.db ∧
      ((provision.answer ascii allied).2 = .ok ∧ ¬ provision.Told (provision.answer ascii allied).1) ∧
      (confirm.answer ascii allied).2 = .ok ∧ ¬ confirm.Told (confirm.answer ascii allied).1 := by
  intro provision confirm
  refine ⟨⟨"a", [], true, false, _, rfl⟩, ⟨by decide +kernel, fun told => ?_⟩, by decide +kernel,
    fun told => ?_⟩
  · have verifier : ((provision.answer ascii allied).1.db.loginAccount "ally").map (·.scram256) =
        some (some "old") := by decide +kernel
    obtain ⟨a, found, done, -⟩ := told _ List.mem_cons_self
    rw [show provision.name = "ally" from rfl] at found
    rw [found, Option.map_some, done] at verifier
    exact absurd verifier (by decide)
  · have unconfirmed : ((confirm.answer ascii allied).1.db.loginAccount "ally").map (·.verified) =
        some false := by decide +kernel
    obtain ⟨a, found, done⟩ := told _ List.mem_cons_self
    rw [show confirm.name = "ally" from rfl] at found
    rw [found, Option.map_some, show a.verified = true from done] at unconfirmed
    exact absurd unconfirmed (by decide)

end ProviderWrite

end Echo
