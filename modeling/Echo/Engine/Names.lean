import Echo.Db.Aliases
import Echo.Engine.Guards

/-!
Whom a grouped nick belongs to. Registration and provisioning look at accounts and
aliases alike before they take a name; grouping looks at accounts only. So an
alias keeps resolving to its account, while the two are there, until somebody
groups the nick to another account or a peer's entry does.
-/

namespace Echo

open Std (ExtTreeMap)
open Echo.Lib

/-! ### The calls of a registration -/

/-- The calls by which an account is registered or provisioned. -/
def Call.registering : Call → Bool
  | .registerPrepared .. | .provisionAccount .. | .verifyAccount .. => true
  | _ => false

def Action.registering : Action → Bool
  | .call _ c => c.registering
  | _ => false

namespace Db

variable {db : Db} {n k : String}

theorem registering_step (wf : db.Wf) (tracked : db.Tracked) {a : Action}
    (registering : a.registering = true) (kept : db.toStore.Kept n k)
    (h : db.toStore.Resolves n k) :
    (db.step a).toStore.Kept n k ∧ (db.step a).toStore.Resolves n k := by
  cases a with
  | call env c =>
      have still : (db.step (.call env c)).toStore.Kept n k := by
        refine core_invariant_step (I := fun s => s.Kept n k) (fun _ => Store.kept_core) wf tracked
          ?_ kept
        intro s e allowed held
        refine held.apply (fun account dropped => ?_) fun nick ungrouped => ?_
        · subst dropped
          cases allowed
          contradiction
        · subst ungrouped
          cases allowed
          contradiction
      refine ⟨still, (resolves_step wf tracked kept h still).mpr fun diverts => ?_⟩
      unfold Diverts at diverts
      split at diverts
      · rename_i same
        cases same
        contradiction
      · contradiction
      · exact diverts
  | _ => contradiction

/-- The runs of a store start and stay well-formed and tracked. -/
structure Sound (db : Db) : Prop where
  wf : db.Wf
  tracked : db.Tracked

theorem Sound.step (h : db.Sound) (a : Action) : (db.step a).Sound :=
  ⟨wf_step h.wf a, tracked_step h.wf h.tracked⟩

theorem Sound.after (h : db.Sound) (actions : List Action) : (after Db.step db actions).Sound :=
  invariant (I := Sound) (fun _ a sound => sound.step a) h actions

theorem registering_after (sound : db.Sound) {actions : List Action}
    (registering : ∀ a ∈ actions, a.registering = true)
    (kept : db.toStore.Kept n k) (h : db.toStore.Resolves n k) :
    (after Db.step db actions).toStore.Kept n k ∧
      (after Db.step db actions).toStore.Resolves n k := by
  induction actions generalizing db with
  | nil => exact ⟨kept, h⟩
  | cons a actions ih =>
      have now := registering_step sound.wf sound.tracked (registering a List.mem_cons_self) kept h
      exact ih (sound.step a) (fun b mem => registering b (List.mem_cons_of_mem a mem)) now.1 now.2

end Db

/-! ### Steps of the engine -/

namespace Engine

variable (u : Unicode)

/-- Whether a step makes the name with key `n` resolve to another account than the
one with key `k`. -/
def Diverts (e : Engine) (n k : String) : EngineStep → Prop
  | .session (.store a) _ => e.db.Diverts n k a
  | step => ∃ g ∈ e.groups u step, e.db.Diverts n k (.call .still (.groupNick g.1 g.2))

variable {u} {e : Engine} {n k : String}

/-- The store went through calls of a registration. -/
def ThroughRegistering (db db' : Db) : Prop :=
  ∃ actions, (∀ a ∈ actions, Action.registering a = true) ∧ db' = after Db.step db actions

theorem throughRegistering_refl (db : Db) : ThroughRegistering db db :=
  ⟨[], fun _ mem => absurd mem List.not_mem_nil, rfl⟩

theorem ThroughRegistering.call {db db' : Db} (h : ThroughRegistering db db') (env : Env) {c : Call}
    (registering : c.registering = true) : ThroughRegistering db ((c.run env).run db').2 := by
  obtain ⟨actions, all, rfl⟩ := h
  have ran : after Db.step db (actions ++ [.call env c]) =
      ((c.run env).run (after Db.step db actions)).2 := after_concat db actions _
  refine ⟨actions ++ [.call env c], fun a mem => ?_, ran.symm⟩
  rcases List.mem_append.mp mem with old | new
  · exact all a old
  · rw [List.mem_singleton.mp new]
    exact registering

theorem throughRegistering_completeRegister (env : Env) (request : DeferRegister)
    (creds : Option Credentials) (code : String) :
    ThroughRegistering e.db (e.completeRegister u env request creds code).1.db := by
  unfold completeRegister
  cases creds with
  | none => exact throughRegistering_refl e.db
  | some creds =>
      dsimp only
      split
      · exact throughRegistering_refl e.db
      have registered := (throughRegistering_refl e.db).call env
        (c := .registerPrepared request.account creds request.email) rfl
      change ThroughRegistering e.db
        ((Db.registerPrepared env request.account creds request.email).run.run e.db).2 at registered
      unfold withDb
      generalize (Db.registerPrepared env request.account creds request.email).run.run e.db = result
        at registered ⊢
      rcases result with ⟨err | ⟨⟩, db⟩
      · cases err <;> exact registered
      · dsimp only
        split
        · exact registered
        split
        · exact registered.call env (c := .verifyAccount request.account) rfl
        split
        · exact registered
        · rw [awaitConfirmation_db]
          exact registered

theorem throughRegistering_authorityRegister (env : Env) (name : String) (creds : Option Credentials)
    (email : Option String) (code : String) :
    ThroughRegistering e.db (e.authorityRegister u env name creds email code).1.db := by
  unfold authorityRegister
  cases creds with
  | none => exact throughRegistering_refl e.db
  | some creds =>
      dsimp only
      split
      · exact throughRegistering_refl e.db
      split
      · exact throughRegistering_refl e.db
      have registered := (throughRegistering_refl e.db).call env
        (c := .registerPrepared name creds email) rfl
      change ThroughRegistering e.db
        ((Db.registerPrepared env name creds email).run.run e.db).2 at registered
      unfold withDb
      generalize (Db.registerPrepared env name creds email).run.run e.db = result
        at registered ⊢
      rcases result with ⟨err | ⟨⟩, db⟩
      · cases err <;> exact registered
      · dsimp only
        split
        · exact registered
        · rw [awaitConfirmation_db]
          exact registered

theorem throughRegistering_authorityProvision (env : Env) (verifierOk : String → Bool)
    (name scram256 scram512 : String) (email : Option String) :
    ThroughRegistering e.db
      (e.authorityProvision u env verifierOk name scram256 scram512 email).1.db := by
  unfold authorityProvision
  split
  · exact throughRegistering_refl e.db
  split
  · exact throughRegistering_refl e.db
  split
  · exact throughRegistering_refl e.db
  have provisioned := (throughRegistering_refl e.db).call env
    (c := .provisionAccount name scram256 scram512 email) rfl
  change ThroughRegistering e.db
    ((Db.provisionAccount env name scram256 scram512 email).run.run e.db).2 at provisioned
  unfold withDb
  generalize (Db.provisionAccount env name scram256 scram512 email).run.run e.db = result
    at provisioned ⊢
  rcases result with ⟨err | ⟨⟩, db⟩
  · cases err <;> exact provisioned
  · exact provisioned

/-- How a step uses the store: it is one of the store's own actions, or groups a
nick, or goes through the calls of a registration; and it diverts what those do. -/
inductive UsesStore (u : Unicode) (e : Engine) (step : EngineStep) (db' : Db) : Prop
  | own (a : Action) (outside : (Session.Action.store a).commanded = false)
      (same : step = .session (.store a) outside) (ran : db' = e.db.step a)
      (diverts : ∀ n k, e.Diverts u n k step ↔ e.db.Diverts n k a)
  | group (nick account : String) (ran : db' = e.db.step (.call .still (.groupNick nick account)))
      (diverts : ∀ n k, e.Diverts u n k step ↔
        e.db.Diverts n k (.call .still (.groupNick nick account)))
  | register (calls : ThroughRegistering e.db db') (quiet : ∀ n k, ¬ e.Diverts u n k step)

theorem step_store (step : EngineStep) : UsesStore u e step (e.step u step).db := by
  have unchanged {step : EngineStep} (same : (e.step u step).db = e.db)
      (quiet : ∀ n k, ¬ e.Diverts u n k step) : UsesStore u e step (e.step u step).db := by
    rw [same]
    exact .register (throughRegistering_refl e.db) quiet
  have grouping {step : EngineStep} (h : GroupsOnly e (e.step u step) (e.groups u step))
      (diverts : ∀ n k, e.Diverts u n k step ↔
        ∃ g ∈ e.groups u step, e.db.Diverts n k (.call .still (.groupNick g.1 g.2))) :
      UsesStore u e step (e.step u step).db := by
    rcases h with ⟨⟨nick, account⟩, grouped, ran⟩ | ⟨none, same⟩
    · refine .group nick account ran fun n k => ?_
      rw [Option.mem_def] at grouped
      simp [diverts, grouped]
    · refine unchanged same fun n k diverted => ?_
      obtain ⟨g, grouped, -⟩ := (diverts n k).mp diverted
      rw [none] at grouped
      contradiction
  have quietly {step : EngineStep} (none : e.groups u step = none)
      (diverts : ∀ n k, e.Diverts u n k step ↔
        ∃ g ∈ e.groups u step, e.db.Diverts n k (.call .still (.groupNick g.1 g.2))) (n k : String) :
      ¬ e.Diverts u n k step := by
    rw [diverts, none]
    simp
  cases step with
  | session a outside =>
      cases a with
      | store a =>
          refine .own a outside rfl ?_ fun n k => Iff.rfl
          cases a <;> rfl
      | issueCode now account kind code =>
          exact unchanged rfl (quietly rfl fun n k => Iff.rfl)
      | takeCode now account kind code =>
          refine unchanged ?_ (quietly rfl fun n k => Iff.rfl)
          exact e.toSession.takeCode_db now account kind code
  | nickservRegister me uid nick args =>
      refine unchanged ?_ (quietly rfl fun n k => Iff.rfl)
      simp only [Engine.step, defer]
      split <;> rfl
  | nickservSaregister me uid admin args =>
      refine unchanged ?_ (quietly rfl fun n k => Iff.rfl)
      simp only [Engine.step, defer]
      split <;> rfl
  | relayRegister => exact unchanged rfl (quietly rfl fun n k => Iff.rfl)
  | preRegisterCheck i allows flood =>
      refine unchanged ?_ (quietly rfl fun n k => Iff.rfl)
      simp only [Engine.step]
      split
      · rfl
      · split <;> rfl
  | completeRegister i env creds code =>
      refine .register ?_ (quietly rfl fun n k => Iff.rfl)
      simp only [Engine.step]
      split
      · exact throughRegistering_refl e.db
      · exact throughRegistering_completeRegister env _ creds code
  | rejectRegisterEmail i => exact unchanged rfl (quietly rfl fun n k => Iff.rfl)
  | authorityPreCheck name email allows =>
      refine unchanged ?_ (quietly rfl fun n k => Iff.rfl)
      simp only [Engine.step]
      split <;> rfl
  | authorityRegister i env creds code =>
      refine .register ?_ (quietly rfl fun n k => Iff.rfl)
      simp only [Engine.step]
      split
      · exact throughRegistering_refl e.db
      · exact throughRegistering_authorityRegister env _ creds _ code
  | authorityProvision env verifierOk name scram256 scram512 email =>
      exact .register
        (throughRegistering_authorityProvision env verifierOk name scram256 scram512 email)
        (quietly rfl fun n k => Iff.rfl)
  | nickservGroup nick args lockout verifies =>
      exact grouping (nickservGroup_groups nick args lockout verifies) fun n k => Iff.rfl
  | authorityGroupNick nick account =>
      exact grouping (authorityGroupNick_groups nick account) fun n k => Iff.rfl
  | setDefcon | setConfusableCheck | setExternalAccounts =>
      exact unchanged rfl (quietly rfl fun n k => Iff.rfl)

theorem sound_step (sound : e.db.Sound) (step : EngineStep) : (e.step u step).db.Sound := by
  cases step_store (u := u) (e := e) step with
  | own a outside same ran diverts =>
      rw [ran]
      exact sound.step a
  | group nick account ran diverts =>
      rw [ran]
      exact sound.step _
  | register calls quiet =>
      obtain ⟨actions, -, ran⟩ := calls
      rw [ran]
      exact sound.after actions

/-- While account and alias stay, a step leaves a name resolving to the account
exactly when it does not divert it. -/
theorem resolves_step (sound : e.db.Sound) {step : EngineStep} (before : e.db.toStore.Kept n k)
    (h : e.db.toStore.Resolves n k) (kept : (e.step u step).db.toStore.Kept n k) :
    (e.step u step).db.toStore.Resolves n k ↔ ¬ e.Diverts u n k step := by
  cases step_store (u := u) (e := e) step with
  | own a outside same ran diverts =>
      rw [ran] at kept ⊢
      rw [diverts]
      exact Db.resolves_step sound.wf sound.tracked before h kept
  | group nick account ran diverts =>
      rw [ran] at kept ⊢
      rw [diverts]
      exact Db.resolves_step sound.wf sound.tracked before h kept
  | register calls quiet =>
      obtain ⟨actions, registering, ran⟩ := calls
      rw [ran]
      exact iff_of_true (Db.registering_after sound registering before h).2 (quiet n k)

theorem resolvedKey_iff {db : Db} {name : String} :
    db.resolvedKey name = some k ↔ db.toStore.Resolves (key name) k := by
  unfold Db.resolvedKey Store.Resolves
  split
  · exact Option.some_inj
  · exact Iff.rfl

/-- From any state that is reached, while an account is there and a nick grouped,
the nick keeps resolving to the account exactly when no step diverts it: groups it
to another account, or takes in a peer's entry that does or that registers it. -/
theorem alias_keeps_account_iff (u : Unicode) (origin : String) (past steps : List EngineStep)
    (nick account : String)
    (kept : ∀ before, before <+: steps →
      (after (Engine.step u) (fresh origin) (past ++ before)).db.toStore.Kept (key nick) (key account))
    (resolves : (after (Engine.step u) (fresh origin) past).db.resolvedKey nick = some (key account)) :
    Along (Engine.step u) (fun e step => ¬ e.Diverts u (key nick) (key account) step)
        (after (Engine.step u) (fresh origin) past) steps ↔
      ∀ before, before <+: steps →
        (after (Engine.step u) (fresh origin) (past ++ before)).db.resolvedKey nick =
          some (key account) := by
  simp only [after_append] at kept ⊢
  have sound : (after (Engine.step u) (fresh origin) past).db.Sound :=
    invariant (I := fun e : Engine => e.db.Sound) (fun _ step sound => sound_step sound step)
      ⟨Db.wf_open origin [], Db.tracked_open origin []⟩ past
  generalize after (Engine.step u) (fresh origin) past = e at *
  refine (along_of_throughout
      (K := fun e : Engine => e.db.toStore.Kept (key nick) (key account)) kept).iff_throughout
    (I := fun e : Engine => e.db.resolvedKey nick = some (key account))
    (J := fun e : Engine => e.db.Sound)
    (fun _ step sound => sound_step sound step) ?_ sound resolves
  rintro e step sound now ⟨here, there⟩
  rw [resolvedKey_iff] at now ⊢
  exact resolves_step sound here now there

/-- The accounts of alice and bob, and a nick of alice's. -/
def aliceGrouped : List EngineStep :=
  [.authorityProvision .still (fun _ => true) "alice" "a" "" none,
    .authorityProvision .still (fun _ => true) "bob" "b" "" none,
    .authorityGroupNick "al" "alice"]

/-- Provisioning an account of that name is refused, and leaves the nick hers. -/
theorem alias_keeps_account_alice :
    Along (Engine.step ascii) (fun e step => ¬ e.Diverts ascii (key "al") (key "alice") step)
        (after (Engine.step ascii) (fresh "a") aliceGrouped)
        [.authorityProvision .still (fun _ => true) "AL" "c" "" none] ↔
      ∀ before, before <+: [.authorityProvision .still (fun _ => true) "AL" "c" "" none] →
        (after (Engine.step ascii) (fresh "a") (aliceGrouped ++ before)).db.resolvedKey "al" =
          some (key "alice") := by
  refine alias_keeps_account_iff ascii "a" aliceGrouped _ "al" "alice" ?_ (by decide +kernel)
  intro before is_prefix
  cases before with
  | nil => exact ⟨by decide +kernel, by decide +kernel⟩
  | cons step before =>
      obtain ⟨rfl, rest⟩ := List.cons_prefix_cons.mp is_prefix
      obtain rfl := List.prefix_nil.mp rest
      exact ⟨by decide +kernel, by decide +kernel⟩

/-- Whoever uses the nick and knows bob's password groups it to bob, and it resolves
to bob from then on. -/
theorem alias_taken_over :
    let e := after (Engine.step ascii) (fresh "a") aliceGrouped
    let e' := e.step ascii (.nickservGroup "al" ["GROUP", "bob", "hunter2"] none
      fun password verifier => password == "hunter2" && verifier == "b")
    e.db.resolvedKey "al" = some "alice" ∧ e'.db.accounts.contains "alice" = true ∧
      e'.db.grouped.contains "al" = true ∧ e'.db.resolvedKey "al" = some "bob" := by
  decide +kernel

end Engine

end Echo
