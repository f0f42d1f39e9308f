import Echo.Db.CoreRun
import Echo.Db.Grounded

/-!
What an alias resolves to. Accounts and grouped nicks share one namespace, where
an account comes first. While the account is there and the nick grouped, a name
comes to resolve elsewhere only when an account of that name is registered or the
nick is grouped again, to another.
-/

namespace Echo

open Std (ExtTreeMap)
open Echo.Lib

/-! ### The fold -/

namespace Store

/-- The name with key `n` resolves to the account with key `k`. -/
def Resolves (s : Store) (n k : String) : Prop :=
  if s.accounts.contains n then n = k else (s.grouped[n]?).map key = some k

/-- The account with key `k` is there, and the nick with key `n` is grouped. -/
structure Kept (s : Store) (n k : String) : Prop where
  account : s.accounts.contains k = true
  nick : s.grouped.contains n = true

/-- Whether an event makes the name resolve to another account. -/
def Diverts (s : Store) (n k : String) : Event → Prop
  | .accountRegistered claim => key claim.name = n ∧ n ≠ k
  | .nickGrouped nick account =>
      key nick = n ∧ key account ≠ k ∧ s.accounts.contains n = false
  | _ => False

end Store

section Fold

variable {s : Store} {e : Event} {n k : String}

/-- Accounts come only with their registration. -/
theorem accounts_added (h : (apply s e).accounts.contains k = true) :
    s.accounts.contains k = true ∨ ∃ claim, e = .accountRegistered claim ∧ key claim.name = k := by
  cases e with
  | accountRegistered claim =>
      simp only [apply] at h
      split at h
      · exact .inl h
      · rw [ExtTreeMap.contains_insert, Bool.or_eq_true] at h
        rcases h with same | old
        · exact .inr ⟨claim, rfl, by simpa using same⟩
        · exact .inl old
  | accountDropped account =>
      change (s.accounts.erase (key account)).contains k = true at h
      rw [ExtTreeMap.contains_erase, Bool.and_eq_true] at h
      exact .inl h.2
  | accountProfileSet account field value =>
      simp only [apply] at h
      split at h
      · exact .inl (contains_modify.symm.trans h)
      · exact .inl h
  | channelRenamed old new =>
      simp only [apply] at h
      split at h <;> exact .inl h
  | memoSent | memoIgnoreAdd | certAdded | certRemoved | accountEmailSet | accountGreetSet
  | accountLanguageSet | accountSwhoisSet | accountSignoreSet | accountPubkeySet | accountAutoOpSet
  | accountKillSet | accountHideStatusSet | accountSnoticeSet | accountPasswordSet
  | accountVerified | ajoinAdded | ajoinRemoved | vhostSet | vhostDeleted | vhostRequested
  | vhostRequestCleared | accountSuspended | accountUnsuspended | memoRead | memoDeleted
  | memoIgnoreDel | memoPrefsSet | accountSeen | accountNoExpire | accountExpiryWarned
  | accountOperNoteSet => exact .inl (contains_modify.symm.trans h)
  | _ => exact .inl h

theorem accounts_same (registered : ∀ claim, e ≠ .accountRegistered claim)
    (dropped : ∀ account, e ≠ .accountDropped account) :
    (apply s e).accounts.contains k = s.accounts.contains k := by
  rw [Bool.eq_iff_iff]
  constructor
  · intro held
    rcases accounts_added held with old | ⟨claim, same, -⟩
    · exact old
    · exact absurd same (registered claim)
  · exact accounts_apply dropped

/-- Only grouping, ungrouping and the drop of an account touch the aliases. -/
theorem grouped_same (dropped : ∀ account, e ≠ .accountDropped account)
    (grouped : ∀ nick account, e ≠ .nickGrouped nick account)
    (ungrouped : ∀ nick, e ≠ .nickUngrouped nick) :
    (apply s e).grouped = s.grouped := by
  cases e with
  | accountDropped account => exact absurd rfl (dropped account)
  | nickUngrouped nick => exact absurd rfl (ungrouped nick)
  | nickGrouped nick account => exact absurd rfl (grouped nick account)
  | accountRegistered | accountProfileSet | channelRenamed =>
      simp only [apply]
      split <;> rfl
  | _ => rfl

theorem Store.resolves_congr {s' : Store} (accounts : s'.accounts.contains n = s.accounts.contains n)
    (grouped : s'.grouped = s.grouped) : s'.Resolves n k ↔ s.Resolves n k := by
  unfold Store.Resolves
  rw [accounts, grouped]

/-- A name that resolves to another account than its own is no account. -/
theorem Store.Resolves.unowned (h : s.Resolves n k) (other : n ≠ k) :
    s.accounts.contains n = false := by
  unfold Store.Resolves at h
  split at h
  · exact absurd h other
  · rename_i unowned
    exact (Bool.not_eq_true _).mp unowned

/-- While account and alias stay, an event leaves the name resolving to the
account exactly when it does not divert it. -/
theorem Store.Resolves.apply_iff (h : s.Resolves n k) (kept : (apply s e).Kept n k) :
    (apply s e).Resolves n k ↔ ¬ s.Diverts n k e := by
  have stays (registered : ∀ claim, e ≠ .accountRegistered claim)
      (dropped : ∀ account, e ≠ .accountDropped account)
      (grouped : ∀ nick account, e ≠ .nickGrouped nick account)
      (ungrouped : ∀ nick, e ≠ .nickUngrouped nick) : (apply s e).Resolves n k :=
    (Store.resolves_congr (accounts_same registered dropped)
      (grouped_same dropped grouped ungrouped)).mpr h
  cases e with
  | accountRegistered claim =>
      simp only [apply]
      split
      · rename_i stands
        refine iff_of_true h ?_
        rintro ⟨rfl, other⟩
        have held : s.accounts.contains (key claim.name) = true := by
          rw [← ExtTreeMap.isSome_getElem?_eq_contains]
          exact Option.isSome_of_any stands
        rw [h.unowned other] at held
        contradiction
      · unfold Store.Resolves Store.Diverts
        by_cases own : key claim.name = n
        · subst own
          simp
        · have same : (s.accounts.insert (key claim.name) claim).contains n =
              s.accounts.contains n := by
            rw [ExtTreeMap.contains_insert]
            simp [own]
          rw [same]
          exact iff_of_true h fun diverts => own diverts.1
  | accountDropped account =>
      refine iff_of_true ?_ id
      have other : key account ≠ k := by
        rintro rfl
        have held : (s.accounts.erase (key account)).contains (key account) = true := kept.account
        simp at held
      have stays {a : String} (aliased : s.grouped[n]? = some a) (owner : key a = k) :
          (s.grouped.filter fun _ a => !eqIgnoreAsciiCase a account)[n]? = some a := by
        rw [ExtTreeMap.getElem?_filter', Option.filter_eq_some_iff]
        refine ⟨aliased, ?_⟩
        rw [Bool.not_eq_true', Bool.eq_false_iff]
        intro same
        exact other ((eqIgnoreAsciiCase_iff.mp same).symm.trans owner)
      change (if (s.accounts.erase (key account)).contains n then n = k
        else ((s.grouped.filter fun _ a => !eqIgnoreAsciiCase a account)[n]?).map key = some k)
      unfold Store.Resolves at h
      by_cases own : s.accounts.contains n = true
      · rw [if_pos own] at h
        subst h
        have held : (s.accounts.erase (key account)).contains n = true := kept.account
        rw [if_pos held]
      · rw [if_neg own] at h
        have gone : ¬ (s.accounts.erase (key account)).contains n = true := by
          rw [ExtTreeMap.contains_erase, Bool.and_eq_true]
          exact fun held => own held.2
        rw [if_neg gone]
        obtain ⟨a, aliased, owner⟩ := Option.map_eq_some_iff.mp h
        rw [stays aliased owner, Option.map_some, owner]
  | nickGrouped nick account =>
      change (if s.accounts.contains n then n = k
        else ((s.grouped.insert (key nick) account)[n]?).map key = some k) ↔
          ¬ (key nick = n ∧ key account ≠ k ∧ s.accounts.contains n = false)
      unfold Store.Resolves at h
      by_cases own : s.accounts.contains n = true
      · rw [if_pos own] at h
        rw [if_pos own]
        exact iff_of_true h fun diverts => by
          rw [own] at diverts
          exact absurd diverts.2.2 (by simp)
      · rw [if_neg own] at h
        rw [if_neg own]
        by_cases same : key nick = n
        · subst same
          simp [own]
        · rw [ExtTreeMap.getElem?_insert, if_neg (by simpa using same)]
          exact iff_of_true h fun diverts => same diverts.1
  | nickUngrouped nick =>
      refine iff_of_true ?_ id
      have other : key nick ≠ n := by
        rintro rfl
        have held : (s.grouped.erase (key nick)).contains (key nick) = true := kept.nick
        simp at held
      change (if s.accounts.contains n then n = k
        else ((s.grouped.erase (key nick))[n]?).map key = some k)
      have same : (s.grouped.erase (key nick))[n]? = s.grouped[n]? := by
        rw [ExtTreeMap.getElem?_erase]
        exact if_neg (by simpa using other)
      rw [same]
      exact h
  | _ => exact iff_of_true (stays (by simp) (by simp) (by simp) (by simp)) id

theorem grouped_added (h : (apply s e).grouped.contains n = true)
    (ungrouping : ∀ nick account, e ≠ .nickGrouped nick account) :
    s.grouped.contains n = true := by
  cases e with
  | accountDropped account =>
      change (s.grouped.filter fun _ a => !eqIgnoreAsciiCase a account).contains n = true at h
      rw [← ExtTreeMap.isSome_getElem?_eq_contains, ExtTreeMap.getElem?_filter'] at h
      rw [← ExtTreeMap.isSome_getElem?_eq_contains]
      exact Option.isSome_of_isSome_filter _ _ h
  | nickUngrouped nick =>
      change (s.grouped.erase (key nick)).contains n = true at h
      rw [ExtTreeMap.contains_erase, Bool.and_eq_true] at h
      exact h.2
  | nickGrouped nick account => exact absurd rfl (ungrouping nick account)
  | _ =>
      rw [grouped_same (by simp) (by simp) (by simp)] at h
      exact h

/-- Only a drop or an ungrouping takes either away. -/
theorem Store.Kept.apply (h : s.Kept n k) (dropped : ∀ account, e ≠ .accountDropped account)
    (ungrouped : ∀ nick, e ≠ .nickUngrouped nick) : (apply s e).Kept n k := by
  refine ⟨accounts_apply dropped h.account, ?_⟩
  cases e with
  | nickGrouped nick account =>
      change (s.grouped.insert (key nick) account).contains n = true
      rw [ExtTreeMap.contains_insert, h.nick, Bool.or_true]
  | accountDropped account => exact absurd rfl (dropped account)
  | nickUngrouped nick => exact absurd rfl (ungrouped nick)
  | _ =>
      rw [grouped_same (by simp) (by simp) (by simp)]
      exact h.nick

end Fold

theorem Store.resolves_core {s : Store} {n k : String} :
    (s.core false).Resolves n k ↔ s.Resolves n k :=
  resolves_congr (Store.core_contains n) rfl

theorem Store.kept_core {s : Store} {n k : String} : (s.core false).Kept n k ↔ s.Kept n k := by
  constructor
  · intro h
    exact ⟨(Store.core_contains k).symm.trans h.account, h.nick⟩
  · intro h
    exact ⟨(Store.core_contains k).trans h.account, h.nick⟩

/-! ### Calls -/

namespace Call

/-- Whether a call takes names away. -/
def Unnames (c : Call) : Prop :=
  (∃ account, c = .dropAccount account) ∨ ∃ nick, c = .ungroupNick nick

variable {c : Call} {s : Store} {n k : String}

/-- A call other than one that groups leaves a name resolving where it did, as
long as it leaves account and alias. -/
theorem along_resolves (ungrouping : ∀ nick account, c ≠ .groupNick nick account)
    {events : List Event} (permitted : Along apply c.permits s events) (before : s.Kept n k)
    (h : s.Resolves n k) (kept : (fold s events).Kept n k) : (fold s events).Resolves n k := by
  have ended := permitted.invariant
    (I := fun s => s.Kept n k ∧ s.Resolves n k ∨ ¬ s.Kept n k ∧ c.Unnames) ?_ (.inl ⟨before, h⟩)
  · rcases ended with ⟨-, resolves⟩ | ⟨gone, -⟩
    · exact resolves
    · exact absurd kept gone
  rintro s e (⟨was, resolves⟩ | ⟨gone, unnames⟩) allowed
  · by_cases still : (apply s e).Kept n k
    · refine .inl ⟨still, (resolves.apply_iff still).mpr fun diverts => ?_⟩
      cases e with
      | accountRegistered claim =>
          obtain ⟨rfl, -⟩ := diverts
          exact allowed.1 (.inr was.nick)
      | nickGrouped nick account => exact ungrouping nick account allowed.1
      | _ => exact diverts
    · refine .inr ⟨still, ?_⟩
      by_contra names
      refine still (was.apply (fun account dropped => ?_) fun nick ungrouped => ?_)
      · subst dropped
        exact names (.inl ⟨account, allowed⟩)
      · subst ungrouped
        exact names (.inr ⟨nick, allowed⟩)
  · refine .inr ⟨fun still => gone ⟨?_, ?_⟩, unnames⟩
    · rcases accounts_added still.account with old | ⟨claim, rfl, -⟩
      · exact old
      · obtain ⟨-, email, registers, -⟩ := allowed
        rcases registers with ⟨creds, rfl⟩ | ⟨scram256, scram512, rfl⟩ <;>
          rcases unnames with ⟨account, other⟩ | ⟨nick, other⟩ <;> contradiction
    · refine grouped_added still.nick fun nick account grouped => ?_
      subst grouped
      exact ungrouping nick account allowed.1

end Call

/-! ### Steps of the store -/

namespace Db

variable {db : Db} {n k : String}

/-- What grouping a nick does to the records. -/
theorem groupNick_store (nick account : String) (db : Db) :
    ((groupNick nick account).run.run db).2.toStore =
      if db.accounts.contains (key account) && db.log.writable then
        apply db.toStore (.nickGrouped nick account)
      else db.toStore := by
  unfold groupNick
  rw [run_bindE]
  change ((if db.accounts.contains (key account) = true then _ else _ : DbM RegError Unit).run.run
    db).2.toStore = _
  cases held : db.accounts.contains (key account) with
  | false => rfl
  | true =>
      rw [if_pos rfl, run_logged]
      cases writable : db.log.writable with
      | true =>
          rw [EventLog.append_of_writable writable]
          rfl
      | false =>
          obtain ⟨err, log', refused, -⟩ :=
            EventLog.append_of_not_writable writable (.nickGrouped nick account)
          rw [refused]
          rfl

/-- Whether an action of the store makes a name resolve to another account. -/
def Diverts (db : Db) (n k : String) : Action → Prop
  | .call _ (.groupNick nick account) =>
      (db.accounts.contains (key account) && db.log.writable) = true ∧
        db.toStore.Diverts n k (.nickGrouped nick account)
  | .ingest _ entry => db.adopts entry = true ∧ db.toStore.Diverts n k entry.event
  | _ => False

/-- While account and alias are kept, an action of the store leaves a name
resolving to the account exactly when it does not divert it. -/
theorem resolves_step (wf : db.Wf) (tracked : db.Tracked) {a : Action}
    (before : db.toStore.Kept n k) (h : db.toStore.Resolves n k)
    (kept : (db.step a).toStore.Kept n k) :
    (db.step a).toStore.Resolves n k ↔ ¬ db.Diverts n k a := by
  have unmoved (same : (db.step a).toStore.core false = db.toStore.core false) :
      (db.step a).toStore.Resolves n k := by
    rw [← Store.resolves_core, same, Store.resolves_core]
    exact h
  cases a with
  | call env c =>
      by_cases grouping : ∃ nick account, c = .groupNick nick account
      · obtain ⟨nick, account, rfl⟩ := grouping
        have ran : (db.step (.call env (.groupNick nick account))).toStore = _ :=
          groupNick_store nick account db
        rw [ran] at kept ⊢
        unfold Diverts
        split
        · rename_i passes
          rw [if_pos passes] at kept
          rw [h.apply_iff kept]
          simp [passes]
        · rename_i refused
          exact iff_of_true h fun diverts => refused diverts.1
      · have ungrouping (nick account : String) : c ≠ .groupNick nick account :=
          fun same => grouping ⟨nick, account, same⟩
        refine iff_of_true ?_ fun diverts => ?_
        · obtain ⟨events, permitted, cores⟩ := core_step (a := .call env c) wf tracked
          rw [← Store.kept_core, cores, Store.kept_core] at kept
          rw [← Store.resolves_core, cores, Store.resolves_core]
          exact Call.along_resolves ungrouping permitted before h kept
        · unfold Diverts at diverts
          split at diverts
          · rename_i same
            cases same
            exact ungrouping _ _ rfl
          · contradiction
          · exact diverts
  | ingest env entry =>
      rw [step_ingest_adopts] at kept ⊢
      unfold Diverts
      split
      · rename_i adopted
        rw [if_pos adopted] at kept
        rw [h.apply_iff kept]
        simp [adopted]
      · rename_i refused
        exact iff_of_true h fun diverts => refused diverts.1
  | compact env =>
      refine iff_of_true (unmoved ?_) id
      rw [step_compact]
  | reopen =>
      refine iff_of_true (unmoved ?_) id
      rw [replay_reopen]
      exact tracked.symm
  | wire signing outbound => exact iff_of_true h id
  | faults outcomes => exact iff_of_true h id

end Db

end Echo
