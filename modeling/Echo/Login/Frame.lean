import Echo.Db.Aliases
import Echo.Login.Doors

/-!
What other steps of the store leave to a login that is under way. A name goes on
resolving to its account until the account is dropped or the alias is taken away
or given to another; an account goes on holding the credential until it is
dropped, registered anew, given another one or suspended.
-/

namespace Echo

open Std (ExtTreeMap)
open Echo.Lib

/-! ### Names -/

/-- The name with key `n` resolves to the account with key `k`, which is there. -/
def Store.Bound (s : Store) (n k : String) : Prop :=
  s.accounts.contains k = true ∧ s.Resolves n k

/-- Whether an event takes the name away from the account, or the account. -/
def Event.Unbinds (n k : String) : Event → Prop
  | .accountRegistered claim => key claim.name = n ∧ n ≠ k
  | .nickGrouped nick account => key nick = n ∧ n ≠ k ∧ key account ≠ k
  | .nickUngrouped nick => key nick = n ∧ n ≠ k
  | .accountDropped account => key account = k
  | _ => False

def Call.Unbinds (n k : String) : Call → Prop
  | .groupNick nick account => key nick = n ∧ n ≠ k ∧ key account ≠ k
  | .ungroupNick nick => key nick = n ∧ n ≠ k
  | .dropAccount account => key account = k
  | _ => False

/-- Whether a step of a serving node takes the name away, or the account. -/
def Db.Unbinds (db : Db) (n k : String) : Service → Prop
  | .call _ c => c.Unbinds n k
  | .ingest _ entry => db.adopts entry = true ∧ entry.event.Unbinds n k
  | _ => False

section Names

variable {s : Store} {e : Event} {n k : String}

theorem Store.Bound.own (known : s.accounts.contains k = true) : s.Bound k k := by
  refine ⟨known, ?_⟩
  unfold Resolves
  rw [if_pos known]

theorem Store.Bound.alias_iff (other : n ≠ k) :
    s.Bound n k ↔ s.accounts.contains k = true ∧ s.accounts.contains n = false ∧
      (s.grouped[n]?).map key = some k := by
  unfold Bound Resolves
  refine and_congr_right fun _ => ?_
  cases s.accounts.contains n with
  | true => simp [other]
  | false => simp

theorem Store.Bound.apply (h : s.Bound n k) (kept : ¬ e.Unbinds n k) : (apply s e).Bound n k := by
  by_cases own : n = k
  · subst own
    refine Bound.own ?_
    by_cases dropped : ∃ account, e = .accountDropped account
    · obtain ⟨account, rfl⟩ := dropped
      change (s.accounts.erase (key account)).contains n = true
      have apart : key account ≠ n := kept
      rw [ExtTreeMap.contains_erase, h.1, Bool.and_true]
      simpa using apart
    · exact accounts_apply (fun account same => dropped ⟨account, same⟩) h.1
  · obtain ⟨known, unowned, grouped⟩ := (alias_iff own).mp h
    refine (alias_iff own).mpr ?_
    have stays (registered : ∀ claim, e ≠ .accountRegistered claim)
        (dropped : ∀ account, e ≠ .accountDropped account) :
        (Echo.apply s e).accounts.contains k = true ∧ (Echo.apply s e).accounts.contains n = false := by
      rw [accounts_same registered dropped, accounts_same registered dropped]
      exact ⟨known, unowned⟩
    cases e with
    | accountRegistered claim =>
        have apart : key claim.name ≠ n := fun same => kept ⟨same, own⟩
        refine ⟨accounts_apply (by simp) known, ?_, ?_⟩
        · simp only [Echo.apply]
          split
          · exact unowned
          · rw [ExtTreeMap.contains_insert, unowned, Bool.or_false]
            simpa using apart
        · rw [grouped_same (by simp) (by simp) (by simp)]
          exact grouped
    | accountDropped account =>
        have apart : key account ≠ k := kept
        refine ⟨?_, ?_, ?_⟩
        · change (s.accounts.erase (key account)).contains k = true
          rw [ExtTreeMap.contains_erase, known, Bool.and_true]
          simpa using apart
        · change (s.accounts.erase (key account)).contains n = false
          rw [ExtTreeMap.contains_erase, unowned, Bool.and_false]
        · obtain ⟨v, held, rfl⟩ := Option.map_eq_some_iff.mp grouped
          change ((s.grouped.filter fun _ a => !eqIgnoreAsciiCase a account)[n]?).map key = _
          rw [ExtTreeMap.getElem?_filter', held, Option.filter_some, if_pos]
          · rfl
          · rw [Bool.not_eq_true', ← Bool.not_eq_true, eqIgnoreAsciiCase_iff_key]
            exact apart.symm
    | nickGrouped nick account =>
        refine ⟨(stays (by simp) (by simp)).1, (stays (by simp) (by simp)).2, ?_⟩
        change ((s.grouped.insert (key nick) account)[n]?).map key = _
        rw [ExtTreeMap.getElem?_insert]
        split
        · rename_i here
          have same := Std.LawfulEqCmp.eq_of_compare here
          by_contra elsewhere
          exact kept ⟨same, own, fun there => elsewhere (congrArg some there)⟩
        · exact grouped
    | nickUngrouped nick =>
        have apart : key nick ≠ n := fun same => kept ⟨same, own⟩
        refine ⟨(stays (by simp) (by simp)).1, (stays (by simp) (by simp)).2, ?_⟩
        change ((s.grouped.erase (key nick))[n]?).map key = _
        rw [ExtTreeMap.getElem?_erase, if_neg fun here => apart (Std.LawfulEqCmp.eq_of_compare here)]
        exact grouped
    | _ =>
        refine ⟨(stays (by simp) (by simp)).1, (stays (by simp) (by simp)).2, ?_⟩
        rw [grouped_same (by simp) (by simp) (by simp)]
        exact grouped

theorem Store.bound_core {s : Store} : (s.core false).Bound n k ↔ s.Bound n k := by
  unfold Bound
  rw [core_contains, resolves_core]

/-- A name that resolves is nobody's to register. -/
theorem Store.Bound.named {name : String} (h : s.Bound (key name) k) : s.Named name := by
  by_cases own : key name = k
  · exact .inl (own ▸ h.1)
  · obtain ⟨-, -, grouped⟩ := (alias_iff own).mp h
    obtain ⟨v, held, -⟩ := Option.map_eq_some_iff.mp grouped
    refine .inr ?_
    exact Table.contains_of_some held

theorem Call.not_unbinds {c : Call} (permitted : c.permits s e) (h : s.Bound n k)
    (kept : ¬ c.Unbinds n k) : ¬ e.Unbinds n k := by
  intro unbinds
  cases e with
  | accountRegistered claim =>
      obtain ⟨rfl, -⟩ := unbinds
      exact permitted.1 h.named
  | accountDropped account =>
      cases permitted
      exact kept unbinds
  | nickGrouped nick account =>
      obtain ⟨rfl, -⟩ := permitted
      exact kept unbinds
  | nickUngrouped nick =>
      cases permitted
      exact kept unbinds
  | _ => exact unbinds

end Names

theorem Db.bound_serve {db : Db} (wf : db.Wf) (tracked : db.Tracked) {n k : String} {a : Service}
    (kept : ¬ db.Unbinds n k a) (h : db.Bound n k) : (db.serve a).Bound n k := by
  refine core_invariant_step (I := fun s => s.Bound n k) (fun s => Store.bound_core) wf tracked ?_ h
  intro s e allowed held
  cases a with
  | call env c => exact held.apply (Call.not_unbinds allowed held kept)
  | ingest env entry =>
      obtain ⟨adopted, -, rfl⟩ := allowed
      exact held.apply fun unbinds => kept ⟨adopted, unbinds⟩
  | compact env => exact allowed.elim
  | faults outcomes => exact allowed.elim

/-! ### Records -/

/-- A login under way: the door has looked the account up. `rechecked` is whether
it looks for a suspension again before it lets the visitor in. -/
structure Pending where
  account : String
  credential : Credential
  rechecked : Bool

/-- The account is there, holds the credential and is not suspended, unless that
is still to be looked for. -/
def Store.Stands (s : Store) (now : Nat) (p : Pending) : Prop :=
  ∃ a, s.accounts[key p.account]? = some a ∧ a.Holds p.credential ∧
    (p.rechecked = false → a.suspension.any (fun s => s.expires.all (· > now)) = false)

def Credential.isVerifier : Credential → Bool
  | .verifier .. => true
  | _ => false

def Credential.isPubkey : Credential → Bool
  | .pubkey _ => true
  | _ => false

def Credential.isCertfp : Credential → Bool
  | .certfp _ => true
  | _ => false

/-- Whether an event takes from under a login what it rests on. A registration that
loses to the account there takes nothing. -/
def Store.Unseats (s : Store) (p : Pending) : Event → Prop
  | .accountRegistered claim =>
      key claim.name = key p.account ∧ (s.accounts[key claim.name]?).any (ownsOver · claim) = false
  | .accountDropped account => key account = key p.account
  | .accountPasswordSet account .. => key account = key p.account ∧ p.credential.isVerifier = true
  | .accountPubkeySet account _ => key account = key p.account ∧ p.credential.isPubkey = true
  | .accountSuspended account .. => key account = key p.account ∧ p.rechecked = false
  | _ => False

def Call.Unseats (p : Pending) : Call → Prop
  | .dropAccount account => key account = key p.account
  | .setCredentials account _ | .provisionAccount account .. =>
      key account = key p.account ∧ p.credential.isVerifier = true
  | .setPubkey account _ => key account = key p.account ∧ p.credential.isPubkey = true
  | .suspendAccount account .. => key account = key p.account ∧ p.rechecked = false
  | _ => False

/-- Whether a step of a serving node takes from under a login what it rests on. -/
def Db.Unseats (db : Db) (p : Pending) : Service → Prop
  | .call _ c => c.Unseats p
  | .ingest _ entry => db.adopts entry = true ∧ db.toStore.Unseats p entry.event
  | _ => False

section Records

variable {s : Store} {e : Event} {now : Nat} {p : Pending}

theorem stands_adjustAccount {account : String} {f : Account → Account} (h : s.Stands now p)
    (keeps : key account = key p.account → ∀ a : Account, a.Holds p.credential →
      (f a).Holds p.credential)
    (free : key account = key p.account → p.rechecked = false → ∀ a : Account,
      a.suspension.any (fun s => s.expires.all (· > now)) = false →
        (f a).suspension.any (fun s => s.expires.all (· > now)) = false) :
    (s.adjustAccount account f).Stands now p := by
  obtain ⟨a, held, holds, unsuspended⟩ := h
  unfold Store.Stands
  change ∃ b, (s.accounts.modify (key account) f)[key p.account]? = some b ∧ _
  rw [ExtTreeMap.getElem?_modify]
  split
  · rename_i here
    have same := Std.LawfulEqCmp.eq_of_compare here
    rw [same, held]
    exact ⟨f a, rfl, keeps same a holds, fun once => free same once a (unsuspended once)⟩
  · exact ⟨a, held, holds, unsuspended⟩

/-- An edit that leaves verifiers, key and suspension as they are. -/
theorem stands_adjustAccount_same {account : String} {f : Account → Account} (h : s.Stands now p)
    (typed : p.credential.isCertfp = false)
    (same : ∀ a, (f a).scram256 = a.scram256 ∧ (f a).scram512 = a.scram512 ∧
      (f a).pubkey = a.pubkey ∧ (f a).suspension = a.suspension) :
    (s.adjustAccount account f).Stands now p := by
  refine stands_adjustAccount h (fun _ a holds => ?_) fun _ _ a free => ?_
  · obtain ⟨first, second, third, -⟩ := same a
    cases shape : p.credential with
    | verifier hash encoded =>
        rw [shape] at holds
        cases hash with
        | sha256 => exact first.trans holds
        | sha512 => exact second.trans holds
    | pubkey pubkey =>
        rw [shape] at holds
        exact third.trans holds
    | certfp fp =>
        rw [shape] at typed
        contradiction
    | keycard => trivial
  · rw [(same a).2.2.2]
    exact free

theorem Store.Stands.apply (h : s.Stands now p) (typed : p.credential.isCertfp = false)
    (kept : ¬ s.Unseats p e) : (apply s e).Stands now p := by
  cases e with
  | accountRegistered claim =>
      simp only [Echo.apply]
      split
      · exact h
      · rename_i stands
        have apart : key claim.name ≠ key p.account := fun same =>
          kept ⟨same, (Bool.not_eq_true _).mp stands⟩
        obtain ⟨a, held, rest⟩ := h
        refine ⟨a, ?_, rest⟩
        change (s.accounts.insert (key claim.name) claim)[key p.account]? = _
        rw [ExtTreeMap.getElem?_insert, if_neg fun here => apart (Std.LawfulEqCmp.eq_of_compare here)]
        exact held
  | accountDropped account =>
      have apart : key account ≠ key p.account := kept
      obtain ⟨a, held, rest⟩ := h
      refine ⟨a, ?_, rest⟩
      change (s.accounts.erase (key account))[key p.account]? = _
      rw [ExtTreeMap.getElem?_erase, if_neg fun here => apart (Std.LawfulEqCmp.eq_of_compare here)]
      exact held
  | accountPasswordSet account =>
      refine stands_adjustAccount h (fun same a holds => ?_) fun _ _ a free => free
      cases shape : p.credential with
      | verifier hash encoded => exact absurd ⟨same, congrArg Credential.isVerifier shape⟩ kept
      | pubkey | certfp | keycard =>
          rw [shape] at holds
          exact holds
  | accountPubkeySet account =>
      refine stands_adjustAccount h (fun same a holds => ?_) fun _ _ a free => free
      cases shape : p.credential with
      | pubkey pubkey => exact absurd ⟨same, congrArg Credential.isPubkey shape⟩ kept
      | verifier hash encoded =>
          rw [shape] at holds
          cases hash <;> exact holds
      | certfp | keycard =>
          rw [shape] at holds
          exact holds
  | accountSuspended account =>
      refine stands_adjustAccount h (fun _ a holds => ?_) fun same once => ?_
      · cases shape : p.credential with
        | verifier hash encoded =>
            rw [shape] at holds
            cases hash <;> exact holds
        | pubkey | certfp | keycard =>
            rw [shape] at holds
            exact holds
      · exact absurd ⟨same, once⟩ kept
  | accountUnsuspended account =>
      refine stands_adjustAccount h (fun _ a holds => ?_) fun _ _ a _ => rfl
      cases shape : p.credential with
      | verifier hash encoded =>
          rw [shape] at holds
          cases hash <;> exact holds
      | pubkey | certfp | keycard =>
          rw [shape] at holds
          exact holds
  | accountProfileSet account field value =>
      simp only [Echo.apply]
      split
      · exact stands_adjustAccount_same h typed fun a => ⟨rfl, rfl, rfl, rfl⟩
      · exact h
  | certAdded | memoSent | memoIgnoreAdd =>
      refine stands_adjustAccount_same h typed fun a => ?_
      split <;> exact ⟨rfl, rfl, rfl, rfl⟩
  | certRemoved | accountEmailSet | accountGreetSet | accountLanguageSet | accountSwhoisSet
  | accountSignoreSet | accountAutoOpSet | accountKillSet | accountHideStatusSet
  | accountSnoticeSet | accountVerified | ajoinAdded | ajoinRemoved | vhostSet | vhostDeleted
  | vhostRequested | vhostRequestCleared | memoRead | memoDeleted | memoIgnoreDel | memoPrefsSet
  | accountSeen | accountNoExpire | accountExpiryWarned | accountOperNoteSet =>
      refine stands_adjustAccount_same h typed fun a => ?_
      exact ⟨rfl, rfl, rfl, rfl⟩
  | channelRenamed old new =>
      simp only [Echo.apply]
      split <;> exact h
  | _ => exact h

theorem Store.stands_core {s : Store} : (s.core false).Stands now p ↔ s.Stands now p := by
  unfold Stands
  rw [core_getElem?_accounts]
  cases s.accounts[key p.account]? with
  | none => simp
  | some a =>
      have same : a.core.Holds p.credential ↔ a.Holds p.credential := by
        cases p.credential with
        | verifier hash encoded => cases hash <;> exact Iff.rfl
        | pubkey | certfp | keycard => exact Iff.rfl
      simp only [Option.map_some, Option.some.injEq, exists_eq_left', same]
      exact Iff.rfl

theorem Call.not_unseats {c : Call} (permitted : c.permits s e) (h : s.Stands now p)
    (kept : ¬ c.Unseats p) : ¬ s.Unseats p e := by
  intro unseats
  cases e with
  | accountRegistered claim =>
      obtain ⟨a, held, -⟩ := h
      have free := Store.getElem?_eq_none_of_not_named permitted.1
      rw [unseats.1, held] at free
      contradiction
  | accountDropped account =>
      cases permitted
      exact kept unseats
  | accountPasswordSet account =>
      refine kept ?_
      have rekeyed : c.rekeys = some account := permitted
      cases c <;> first | contradiction | (cases rekeyed; exact unseats)
  | accountPubkeySet account =>
      obtain ⟨pubkey, rfl⟩ := permitted
      exact kept unseats
  | accountSuspended account =>
      obtain ⟨setter, reason, expires, rfl⟩ := permitted
      exact kept unseats
  | _ => exact unseats

end Records

theorem Db.stands_serve {db : Db} (wf : db.Wf) (tracked : db.Tracked) {now : Nat} {p : Pending}
    {a : Service} (typed : p.credential.isCertfp = false) (kept : ¬ db.Unseats p a)
    (h : db.Stands now p) : (db.serve a).Stands now p := by
  refine core_invariant_step (I := fun s => s.Stands now p) (fun s => Store.stands_core) wf tracked ?_ h
  intro s e allowed held
  cases a with
  | call env c => exact held.apply typed (Call.not_unseats allowed held kept)
  | ingest env entry =>
      obtain ⟨adopted, rfl, rfl⟩ := allowed
      exact held.apply typed fun unseats => kept ⟨adopted, unseats⟩
  | compact env => exact allowed.elim
  | faults outcomes => exact allowed.elim

/-- Time only runs suspensions out. -/
theorem Store.Stands.later {s : Store} {now later : Nat} {p : Pending} (h : s.Stands now p)
    (le : now ≤ later) : s.Stands later p := by
  obtain ⟨a, held, holds, free⟩ := h
  refine ⟨a, held, holds, fun once => ?_⟩
  have unsuspended := free once
  cases was : a.suspension with
  | none => rfl
  | some suspension =>
      rw [was, Option.any_some] at unsuspended
      rw [Option.any_some]
      cases expires : suspension.expires with
      | none =>
          rw [expires] at unsuspended
          contradiction
      | some deadline =>
          rw [expires, Option.all_some, decide_eq_false_iff_not] at unsuspended
          rw [Option.all_some, decide_eq_false_iff_not]
          omega

end Echo
