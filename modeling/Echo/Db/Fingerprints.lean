import Echo.Lib.Exclusive
import Echo.Db.CoreRun
import Mathlib.Data.List.Find

/-!
Who a TLS fingerprint belongs to. A local `certfp_add` looks through the accounts
it knows, but an entry of another node is folded as it stands, so a fingerprint
is listed by one account exactly as long as no entry taken in adds one that
another account lists.
-/

namespace Echo

open Std (ExtTreeMap)
open Echo.Lib

/-- No fingerprint is listed by two accounts. -/
def Store.FpExclusive (s : Store) : Prop := Exclusive Account.certfps s.accounts

/-- Whether no account but this one lists a fingerprint. -/
def Store.FpFree (s : Store) (account fp : String) : Prop :=
  OnlyUnder Account.certfps s.accounts (key account) fp

/-- Whether an event adds no fingerprint that another account lists. -/
def Store.AddsFreeFps (s : Store) : Event → Prop
  | .certAdded account fp => s.accounts.contains (key account) = true → s.FpFree account fp
  | .accountRegistered a =>
      (s.accounts[key a.name]?).any (ownsOver · a) = false → ∀ fp ∈ a.certfps, s.FpFree a.name fp
  | _ => True

section Fold

variable {opers : Bool} {s : Store}

theorem Store.fpExclusive_core : (s.core opers).FpExclusive ↔ s.FpExclusive := by
  constructor
  · intro h
    refine h.of_sub fun k a held => ⟨a.core, ?_, List.Subset.refl _⟩
    rw [Store.core_getElem?_accounts, held]
    rfl
  · intro h
    refine h.of_sub fun k a held => ?_
    rw [Store.core_getElem?_accounts] at held
    obtain ⟨b, stored, rfl⟩ := Option.map_eq_some_iff.mp held
    exact ⟨b, stored, List.Subset.refl _⟩

theorem Store.FpExclusive.adjustAccount {account : String} {f : Account → Account}
    (h : s.FpExclusive) (sub : ∀ a, (f a).certfps ⊆ a.certfps) :
    (s.adjustAccount account f).FpExclusive := h.modify sub

/-- An event keeps every fingerprint to one account exactly when it adds none
that another account lists. -/
theorem apply_fpExclusive_iff (h : s.FpExclusive) (e : Event) :
    (apply s e).FpExclusive ↔ s.AddsFreeFps e := by
  cases e with
  | accountRegistered a =>
      simp only [apply, Store.AddsFreeFps]
      cases (s.accounts[key a.name]?).any (ownsOver · a) with
      | true => exact iff_of_true h fun lost => by contradiction
      | false => exact (Exclusive.insert_iff h).trans ⟨fun only _ => only, fun free => free rfl⟩
  | certAdded account fp =>
      have adds (a : Account) (t : String) :
          t ∈ (if a.certfps.contains fp then a else { a with certfps := a.certfps ++ [fp] }).certfps ↔
            t ∈ a.certfps ∨ t = fp := by
        split
        · rename_i listed
          constructor
          · exact .inl
          · rintro (old | rfl)
            · exact old
            · exact List.contains_iff_mem.mp listed
        · rw [List.mem_append, List.mem_singleton]
      refine (Exclusive.modify_iff h adds).trans ?_
      constructor
      · intro only known
        rw [ExtTreeMap.contains_eq_isSome_getElem?] at known
        obtain ⟨a, held⟩ := Option.isSome_iff_exists.mp known
        exact only a held
      · intro free a held
        refine free ?_
        exact Table.contains_of_some held
  | accountDropped account => exact iff_of_true (Exclusive.erase h) trivial
  | accountProfileSet account field value =>
      refine iff_of_true ?_ trivial
      simp only [apply]
      split
      · exact h.adjustAccount fun _ => List.Subset.refl _
      · exact h
  | certRemoved account fp =>
      exact iff_of_true (h.adjustAccount fun a _ listed => List.mem_of_mem_filter listed) trivial
  | memoSent | memoIgnoreAdd =>
      refine iff_of_true (h.adjustAccount fun a => ?_) trivial
      split <;> exact List.Subset.refl _
  | accountEmailSet | accountGreetSet | accountLanguageSet | accountSwhoisSet
  | accountSignoreSet | accountPubkeySet | accountAutoOpSet | accountKillSet | accountHideStatusSet
  | accountSnoticeSet | accountPasswordSet | accountVerified | ajoinAdded | ajoinRemoved | vhostSet
  | vhostDeleted | vhostRequested | vhostRequestCleared | accountSuspended | accountUnsuspended
  | memoRead | memoDeleted | memoIgnoreDel | memoPrefsSet | accountSeen | accountNoExpire
  | accountExpiryWarned | accountOperNoteSet =>
      exact iff_of_true (h.adjustAccount fun _ => List.Subset.refl _) trivial
  | channelRenamed old new =>
      refine iff_of_true ?_ trivial
      simp only [apply]
      split <;> exact h
  | _ => exact iff_of_true h trivial

/-- What a call may log adds no fingerprint that another account lists. -/
theorem Call.permits_addsFreeFps {c : Call} {e : Event} (permitted : c.permits s e) :
    s.AddsFreeFps e := by
  cases e with
  | accountRegistered a =>
      obtain ⟨-, email, -, ts, home, scram256, scram512, verified, fresh⟩ := permitted
      intro _ fp listed
      rw [fresh] at listed
      exact absurd listed List.not_mem_nil
  | certAdded account fp =>
      intro _ k a held listed
      exact absurd listed (permitted.2 k a held)
  | _ => trivial

end Fold

/-- Surroundings in which maps are visited the other way round. -/
def Env.backward : Env :=
  { Env.still with iter := List.reverse, iter_perm := fun l => List.reverse_perm l }

namespace Db

/-- No entry taken in adds a fingerprint that another account lists. -/
def AddsFreeFps (db : Db) : Action → Prop
  | .ingest _ entry => db.adopts entry = true → db.toStore.AddsFreeFps entry.event
  | _ => True

variable {db : Db}

theorem fpExclusive_step_iff (wf : db.Wf) (tracked : db.Tracked) (h : db.toStore.FpExclusive)
    (a : Action) : (db.step a).toStore.FpExclusive ↔ db.AddsFreeFps a := by
  have kept (free : ∀ s e, db.permits a s e → s.AddsFreeFps e) :
      (db.step a).toStore.FpExclusive := by
    refine core_invariant_step (fun s => Store.fpExclusive_core) wf tracked ?_ h
    exact fun s e allowed held => (apply_fpExclusive_iff held e).mpr (free s e allowed)
  cases a with
  | call env c => exact iff_of_true (kept fun s e => Call.permits_addsFreeFps) trivial
  | ingest env entry =>
      rw [step_ingest_adopts]
      by_cases adopted : db.adopts entry = true
      · rw [if_pos adopted, apply_fpExclusive_iff h]
        exact ⟨fun free _ => free, fun free => free adopted⟩
      · rw [if_neg adopted]
        exact iff_of_true h fun now => absurd now adopted
  | _ => exact iff_of_true (kept fun s e none => none.elim) trivial

/-- Who owns a fingerprint that one account lists does not hang on the order in
which the accounts are visited. -/
theorem certfpOwner_of_exclusive (h : db.toStore.FpExclusive) (env env' : Env) (fp : String) :
    db.certfpOwner env fp = db.certfpOwner env' fp := by
  unfold certfpOwner
  refine congrArg (Option.map Account.name) (List.find?_eq_find?_of_perm ?_ ?_)
  · exact ((env.iter_perm _).trans (env'.iter_perm _).symm).map Prod.snd
  · rintro a ⟨mem, lists⟩ b ⟨mem', lists'⟩
    obtain ⟨k, held⟩ := Env.mem_values.mp mem
    obtain ⟨k', held'⟩ := Env.mem_values.mp mem'
    obtain rfl := h k a k' b _ held held' (List.contains_iff_mem.mp lists)
      (List.contains_iff_mem.mp lists')
    exact Option.some.inj (held.symm.trans held')

/-- All along a run each fingerprint is listed by one account at most, and its
owner does not hang on the order of the accounts, exactly when no entry taken in
adds a fingerprint that another account lists. -/
theorem fingerprints_exclusive_iff (origin : String) (actions : List Action) :
    (∀ before, before <+: actions →
      let db := after Db.step (.fresh origin) before
      db.toStore.FpExclusive ∧
        ∀ env env' fp, db.certfpOwner env fp = db.certfpOwner env' fp) ↔
      Along Db.step AddsFreeFps (.fresh origin) actions := by
  have steps (db : Db) (a : Action) (h : db.Wf ∧ db.Tracked) :
      (db.step a).Wf ∧ (db.step a).Tracked := ⟨wf_step h.1 a, tracked_step h.1 h.2⟩
  have throughout : Along Db.step AddsFreeFps (.fresh origin) actions ↔
      ∀ before, before <+: actions → (after Db.step (.fresh origin) before).toStore.FpExclusive := by
    refine along_iff_throughout (I := fun db : Db => db.toStore.FpExclusive) steps ?_
      ⟨wf_open origin [], tracked_open origin []⟩ Exclusive.empty
    exact fun db a h held => fpExclusive_step_iff h.1 h.2 held a
  constructor
  · intro held
    exact throughout.mpr fun before is_prefix => (held before is_prefix).1
  · intro run before is_prefix
    have exclusive := throughout.mp run before is_prefix
    exact ⟨exclusive, certfpOwner_of_exclusive exclusive⟩

/-- A fingerprint of 32 digits. -/
def sharedFp : String := "0123456789abcdef0123456789abcdef"

/-- Alice registers a fingerprint here, while another node lets bob have it. -/
def fpAddedTwice : List Action :=
  [.call .still (.registerPrepared "alice" ⟨"a", "a", @rfl Bool false⟩ none),
    .call .still (.registerPrepared "bob" ⟨"b", "b", @rfl Bool false⟩ none),
    .call .still (.certfpAdd "alice" sharedFp),
    .ingest .still ⟨"b", 0, 1, 0, none, .certAdded "bob" sharedFp⟩]

/-- Both accounts list the fingerprint, and who owns it hangs on the order. -/
theorem fingerprint_shared :
    ¬ (after Db.step (.fresh "a") fpAddedTwice).toStore.FpExclusive ∧
      (after Db.step (.fresh "a") fpAddedTwice).certfpOwner .still sharedFp = some "alice" ∧
      (after Db.step (.fresh "a") fpAddedTwice).certfpOwner .backward sharedFp = some "bob" := by
  have forward : (after Db.step (.fresh "a") fpAddedTwice).certfpOwner .still sharedFp =
      some "alice" := by decide
  have backward : (after Db.step (.fresh "a") fpAddedTwice).certfpOwner .backward sharedFp =
      some "bob" := by decide
  refine ⟨fun exclusive => ?_, forward, backward⟩
  have same := certfpOwner_of_exclusive exclusive .still .backward sharedFp
  rw [forward, backward] at same
  contradiction

end Db

end Echo
