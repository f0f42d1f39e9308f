import Mathlib.Data.Prod.Lex
import Mathlib.Data.String.Basic
import Echo.Db.Wf
import Echo.Lib.Earliest
import Echo.Lib.Runs

/-!
Rival registrations of one name, of an account or of a group. Every other event
leaves who claimed a name, when and where as it is, or takes the name away; so as
long as it is not taken away the fold holds the earliest claim, in whatever order
and however often the claims come.
-/

namespace Echo

open Std (ExtTreeMap)
open Echo.Lib

/-- A claim to a name: how it is written, and when and at which node it was made. -/
structure Claim where
  name : String
  ts : Nat
  home : String
  deriving DecidableEq, Repr

/-- The order of claims: the earlier time, then the lower home. -/
def Claim.rank (c : Claim) : Nat ×ₗ String := toLex (c.ts, c.home)

theorem precedes_iff {c d : Claim} : precedes (c.ts, c.home) (d.ts, d.home) = true ↔ c.rank < d.rank := by
  unfold precedes Claim.rank
  rw [decide_eq_true_iff, Prod.Lex.toLex_lt_toLex]

def Account.claim (a : Account) : Claim := ⟨a.name, a.ts, a.home⟩

def Group.claim (g : Group) : Claim := ⟨g.name, g.ts, g.home⟩

theorem ownsOver_iff {a b : Account} : ownsOver a b = true ↔ a.claim.rank < b.claim.rank :=
  precedes_iff (c := a.claim) (d := b.claim)

/-- What names are claimed for. -/
inductive Register where
  | account
  | group

namespace Register

/-- The claim that a store holds to the name with key `k`. -/
def held : Register → Store → String → Option Claim
  | .account, s, k => (s.accounts[k]?).map (·.claim)
  | .group, s, k => (s.net.groups.find? fun g => key g.name == k).map (·.claim)

/-- The claim that an event makes to the name with key `k`. -/
def claimed : Register → String → Event → Option Claim
  | .account, k, .accountRegistered a => if key a.name = k then some a.claim else none
  | .group, k, .groupRegistered name _ ts home => if key name = k then some ⟨name, ts, home⟩ else none
  | _, _, _ => none

end Register

section Fold

variable {s : Store} {e : Event} {k : String}

theorem claim_modify {f : Account → Account} (kept : ∀ a, (f a).claim = a.claim) {m : Table Account}
    {k' : String} : ((m.modify k' f)[k]?).map (·.claim) = (m[k]?).map (·.claim) := by
  rw [ExtTreeMap.getElem?_modify]
  split
  · rename_i same
    obtain rfl := Std.LawfulEqCmp.eq_of_compare same
    rw [Option.map_map]
    exact congrArg (Option.map · _) (funext kept)
  · rfl

/-- Claims to accounts change only with a registration and a drop. -/
theorem claim_apply (registered : ∀ claim, e ≠ .accountRegistered claim)
    (dropped : ∀ account, e ≠ .accountDropped account) :
    ((apply s e).accounts[k]?).map (·.claim) = (s.accounts[k]?).map (·.claim) := by
  cases e with
  | accountRegistered claim => exact absurd rfl (registered claim)
  | accountDropped account => exact absurd rfl (dropped account)
  | accountProfileSet account field value =>
      simp only [apply]
      split
      · refine claim_modify fun a => ?_
        rfl
      · rfl
  | channelRenamed old new =>
      simp only [apply]
      split <;> rfl
  | certAdded | memoSent | memoIgnoreAdd =>
      refine claim_modify fun a => ?_
      split <;> rfl
  | memoRead | memoDeleted | certRemoved | accountEmailSet | accountGreetSet
  | accountLanguageSet | accountSwhoisSet | accountSignoreSet | accountPubkeySet | accountAutoOpSet
  | accountKillSet | accountHideStatusSet | accountSnoticeSet | accountPasswordSet
  | accountVerified | ajoinAdded | ajoinRemoved | vhostSet | vhostDeleted | vhostRequested
  | vhostRequestCleared | accountSuspended | accountUnsuspended
  | memoIgnoreDel | memoPrefsSet | accountSeen | accountNoExpire | accountExpiryWarned
  | accountOperNoteSet =>
      refine claim_modify fun a => ?_
      rfl
  | _ => rfl

theorem groups_adjustGroup {name : String} {f : Group → Group} (kept : ∀ g, (f g).claim = g.claim) :
    (s.adjustGroup name f).net.groups.map (·.claim) = s.net.groups.map (·.claim) :=
  map_modifyFirst (fun g _ => kept g) s.net.groups

/-- Claims to groups change only with a registration, a drop and the drop of an
account. -/
theorem groupClaim_apply (registered : ∀ name founder ts home, e ≠ .groupRegistered name founder ts home)
    (dropped : ∀ name, e ≠ .groupDropped name) (gone : ∀ account, e ≠ .accountDropped account) :
    (apply s e).net.groups.map (·.claim) = s.net.groups.map (·.claim) := by
  cases e with
  | groupRegistered name founder ts home => exact absurd rfl (registered name founder ts home)
  | groupDropped name => exact absurd rfl (dropped name)
  | accountDropped account => exact absurd rfl (gone account)
  | groupFounderSet | groupFlagsSet | groupMemberDel =>
      refine groups_adjustGroup fun g => ?_
      rfl
  | accountRegistered | accountProfileSet | channelRenamed | botRemoved =>
      simp only [apply]
      split <;> rfl
  | jupeAdded =>
      simp only [apply, Store.adjustNet]
      split <;> rfl
  | _ => rfl

theorem find?_claim (groups : List Group) (k : String) :
    (groups.find? fun g => key g.name == k).map (·.claim) =
      (groups.map (·.claim)).find? fun c => key c.name == k := by
  rw [List.find?_map]
  rfl

theorem find?_registerGroup (claim : Group) (groups : List Group) :
    ((registerGroup claim groups).find? fun g => key g.name == key claim.name).map (·.claim) =
      keepEarliest Claim.rank
        ((groups.find? fun g => key g.name == key claim.name).map (·.claim)) claim.claim := by
  unfold registerGroup
  split
  · rename_i held
    have hits (g : Group) (hit : (key g.name == key claim.name) = true) :
        (key (if precedes (g.ts, g.home) (claim.ts, claim.home) then g else claim).name ==
          key claim.name) = true := by
      split
      · exact hit
      · exact beq_self_eq_true _
    rw [find?_modifyFirst_self hits]
    have found : (groups.find? fun g => key g.name == key claim.name).isSome = true := by
      rw [List.find?_isSome]
      exact List.any_eq_true.mp held
    obtain ⟨first, found⟩ := Option.isSome_iff_exists.mp found
    rw [found]
    simp only [Option.map_some, keepEarliest, Option.any_some]
    by_cases earlier : precedes (first.ts, first.home) (claim.ts, claim.home) = true
    · rw [if_pos earlier, if_pos (decide_eq_true (precedes_iff.mp earlier))]
    · have later : ¬ first.claim.rank < claim.claim.rank := fun lt => earlier (precedes_iff.mpr lt)
      rw [if_neg earlier, if_neg (by simpa using later)]
  · rename_i held
    have absent : (groups.find? fun g => key g.name == key claim.name) = none := by
      rw [List.find?_eq_none]
      simpa using held
    rw [List.find?_append, absent]
    simp [keepEarliest]

theorem find?_registerGroup_other {claim : Group} (other : key claim.name ≠ k) (groups : List Group) :
    ((registerGroup claim groups).find? fun g => key g.name == k) =
      groups.find? fun g => key g.name == k := by
  unfold registerGroup
  split
  · refine find?_modifyFirst_of_disjoint (fun g hit => ?_) groups
    have same : key g.name = key claim.name := beq_iff_eq.mp hit
    have misses : (key claim.name == k) = false := beq_false_of_ne other
    constructor
    · rw [same]
      exact misses
    · split
      · rw [same]
        exact misses
      · exact misses
  · rw [List.find?_append]
    simp [other]

/-- What is found among the groups that are left is what was held. -/
theorem find?_filter (wf : s.Wf) {kept : Group → Bool} :
    ((s.net.groups.filter kept).find? fun g => key g.name == k).map (·.claim) =
        Register.group.held s k ∨
      ((s.net.groups.filter kept).find? fun g => key g.name == k).map (·.claim) = none := by
  cases found : (s.net.groups.filter kept).find? fun g => key g.name == k with
  | none => exact .inr rfl
  | some g =>
      left
      have oneKey (g g' : Group) (hit : (key g.name == k) = true) (hit' : (key g'.name == k) = true) :
          key g.name = key g'.name := (beq_iff_eq.mp hit).trans (beq_iff_eq.mp hit').symm
      change _ = Option.map _ (s.net.groups.find? fun g => key g.name == k)
      rw [wf.net.groups.find?_of_filter oneKey found]

theorem held_account_apply :
    (∃ c, Register.account.claimed k e = some c ∧
        Register.account.held (apply s e) k =
          keepEarliest Claim.rank (Register.account.held s k) c) ∨
      Register.account.claimed k e = none ∧
        (Register.account.held (apply s e) k = Register.account.held s k ∨
          Register.account.held (apply s e) k = none) := by
  cases e with
  | accountRegistered a =>
      by_cases same : key a.name = k
      · subst same
        refine .inl ⟨a.claim, if_pos rfl, ?_⟩
        simp only [Register.held, apply]
        cases held : s.accounts[key a.name]? with
        | none => simp [keepEarliest]
        | some cur =>
            simp only [Option.any_some, Option.map_some, keepEarliest]
            by_cases earlier : ownsOver cur a = true
            · rw [if_pos earlier, if_pos (decide_eq_true (ownsOver_iff.mp earlier)), held]
              rfl
            · have later : ¬ cur.claim.rank < a.claim.rank := fun lt => earlier (ownsOver_iff.mpr lt)
              rw [if_neg earlier, if_neg (by simpa using later), ExtTreeMap.getElem?_insert_self]
              rfl
      · refine .inr ⟨if_neg same, .inl ?_⟩
        simp only [Register.held, apply]
        split
        · rfl
        · rw [ExtTreeMap.getElem?_insert, if_neg (by simpa using same)]
  | accountDropped account =>
      refine .inr ⟨rfl, ?_⟩
      change Option.map _ ((s.accounts.erase (key account))[k]?) = _ ∨
        Option.map _ ((s.accounts.erase (key account))[k]?) = _
      rw [ExtTreeMap.getElem?_erase]
      split
      · exact .inr rfl
      · exact .inl rfl
  | _ => exact .inr ⟨rfl, .inl (claim_apply (by simp) (by simp))⟩

theorem held_group_apply (wf : s.Wf) :
    (∃ c, Register.group.claimed k e = some c ∧
        Register.group.held (apply s e) k =
          keepEarliest Claim.rank (Register.group.held s k) c) ∨
      Register.group.claimed k e = none ∧
        (Register.group.held (apply s e) k = Register.group.held s k ∨
          Register.group.held (apply s e) k = none) := by
  cases e with
  | groupRegistered name founder ts home =>
      by_cases same : key name = k
      · subst same
        exact .inl ⟨_, if_pos rfl, find?_registerGroup ⟨name, founder, ts, home, []⟩ s.net.groups⟩
      · refine .inr ⟨if_neg same, .inl ?_⟩
        have other : key (Group.mk name founder ts home []).name ≠ k := same
        exact congrArg (Option.map _) (find?_registerGroup_other other s.net.groups)
  | groupDropped name => exact .inr ⟨rfl, find?_filter wf⟩
  | accountDropped account =>
      refine .inr ⟨rfl, ?_⟩
      have claims : (apply s (.accountDropped account)).net.groups.map (·.claim) =
          (s.net.groups.filter fun g => !eqIgnoreAsciiCase g.founder account).map (·.claim) := by
        change ((s.net.groups.map (Store.purgeMembers account)).filter _).map _ = _
        rw [List.filter_map, List.map_map]
        rfl
      change Option.map _ ((apply s (.accountDropped account)).net.groups.find? _) = _ ∨
        Option.map _ ((apply s (.accountDropped account)).net.groups.find? _) = _
      rw [find?_claim, claims, ← find?_claim]
      exact find?_filter wf
  | _ =>
      refine .inr ⟨rfl, .inl ?_⟩
      simp only [Register.held, find?_claim]
      exact congrArg (List.find? _) (groupClaim_apply (by nofun) (by nofun) (by nofun))

/-- A claim is weighed against the one held; any other event leaves that one, or
leaves none. -/
theorem held_apply (wf : s.Wf) (r : Register) :
    (∃ c, r.claimed k e = some c ∧ r.held (apply s e) k = keepEarliest Claim.rank (r.held s k) c) ∨
      r.claimed k e = none ∧ (r.held (apply s e) k = r.held s k ∨ r.held (apply s e) k = none) := by
  cases r with
  | account => exact held_account_apply
  | group => exact held_group_apply wf

/-- A claim that comes second changes nothing. -/
theorem apply_losing (r : Register) {h c : Claim} (held : r.held s k = some h)
    (claimed : r.claimed k e = some c) (loses : h.rank < c.rank) : apply s e = s := by
  cases r with
  | account =>
      cases e with
      | accountRegistered a =>
          simp only [Register.claimed, Option.ite_none_right_eq_some] at claimed
          obtain ⟨rfl, same⟩ := claimed
          cases same
          obtain ⟨cur, there, rfl⟩ := Option.map_eq_some_iff.mp held
          have stays : ownsOver cur a = true := ownsOver_iff.mpr loses
          simp only [apply]
          rw [there, Option.any_some, if_pos stays]
      | _ => contradiction
  | group =>
      cases e with
      | groupRegistered name founder ts home =>
          simp only [Register.claimed, Option.ite_none_right_eq_some] at claimed
          obtain ⟨rfl, same⟩ := claimed
          cases same
          obtain ⟨cur, there, rfl⟩ := Option.map_eq_some_iff.mp held
          have stays : precedes (cur.ts, cur.home) (ts, home) = true :=
            (precedes_iff (c := cur.claim) (d := ⟨name, ts, home⟩)).mpr loses
          have unchanged : registerGroup ⟨name, founder, ts, home, []⟩ s.net.groups = s.net.groups := by
            unfold registerGroup
            rw [if_pos]
            · refine modifyFirst_fixed fun g found => ?_
              rw [there] at found
              cases found
              rw [if_pos stays]
            · have named : (key cur.name == key name) = true :=
                List.find?_some (p := fun g : Group => key g.name == key name) there
              exact List.any_eq_true.mpr ⟨cur, List.mem_of_find?_eq_some there, named⟩
          simp only [apply, Store.adjustNet]
          rw [unchanged]
      | _ => contradiction

end Fold

/-! ### Runs -/

namespace Register

/-- No event of the run takes the name away. -/
def Keeps (r : Register) (k : String) (s : Store) (events : List Event) : Prop :=
  Along apply (fun s e => (r.held s k).isSome = true → (r.held (apply s e) k).isSome = true) s events

/-- The claims to a name: the one held, if any, and those that come. -/
def claims (r : Register) (k : String) (s : Store) (events : List Event) : List Claim :=
  (r.held s k).toList ++ events.filterMap (r.claimed k)

variable {r : Register} {k : String} {s : Store} {events : List Event}

theorem earliest_fold (wf : s.Wf) {claims : List Claim} (h : Earliest Claim.rank (r.held s k) claims)
    (kept : r.Keeps k s events) :
    Earliest Claim.rank (r.held (fold s events) k) (claims ++ events.filterMap (r.claimed k)) := by
  induction events generalizing s claims with
  | nil => simpa using h
  | cons e events ih =>
      obtain ⟨now, later⟩ := kept
      rw [fold_cons]
      rcases held_apply (e := e) (k := k) wf r with ⟨c, claimed, held⟩ | ⟨unclaimed, held⟩
      · have next : Earliest Claim.rank (r.held (apply s e) k) (claims ++ [c]) := by
          rw [held]
          exact h.keep c
        rw [List.filterMap_cons_some claimed, ← List.singleton_append, ← List.append_assoc]
        exact ih (apply_wf wf e) next later
      · have same : r.held (apply s e) k = r.held s k := by
          rcases held with same | gone
          · exact same
          · cases was : r.held s k with
            | none => exact gone
            | some c =>
                rw [was, gone] at now
                exact absurd (now rfl) (by simp)
        rw [List.filterMap_cons_none unclaimed]
        exact ih (apply_wf wf e) (same ▸ h) later

/-- Whatever the order and however often the claims to a name come, and whatever
comes between them, the one held is the earliest as long as none is taken away; the
claims alone decide which, and one that loses changes nothing. -/
theorem earliest_claim_held (r : Register) (name : String) (past events : List Event)
    (kept : r.Keeps (key name) (fold {} past) events)
    (distinct : ∀ c ∈ r.claims (key name) (fold {} past) events,
      ∀ d ∈ r.claims (key name) (fold {} past) events, c.rank = d.rank → c = d) :
    (∀ c, r.held (fold (fold {} past) events) (key name) = some c ↔
        c ∈ r.claims (key name) (fold {} past) events ∧
          ∀ d ∈ r.claims (key name) (fold {} past) events, c.rank ≤ d.rank) ∧
      (∀ events', r.Keeps (key name) (fold {} past) events' →
        (∀ c, c ∈ r.claims (key name) (fold {} past) events' ↔
          c ∈ r.claims (key name) (fold {} past) events) →
        r.held (fold (fold {} past) events') (key name) =
          r.held (fold (fold {} past) events) (key name)) ∧
      ∀ before, before <+: events → ∀ e h c,
        r.held (fold (fold {} past) before) (key name) = some h →
        r.claimed (key name) e = some c → h.rank < c.rank →
          apply (fold (fold {} past) before) e = fold (fold {} past) before := by
  have wf : (fold {} past).Wf := fold_wf wf_empty past
  generalize fold {} past = s at *
  have now {events : List Event} (kept : r.Keeps (key name) s events) :
      Earliest Claim.rank (r.held (fold s events) (key name)) (r.claims (key name) s events) :=
    earliest_fold wf (earliest_toList _) kept
  refine ⟨fun c => (now kept).eq_some_iff distinct, ?_, ?_⟩
  · intro events' kept' same
    exact (now kept).unique (now kept') same distinct
  · intro before _ e h c held claimed loses
    exact apply_losing r held claimed loses

/-- Two claims to one group, the later one first. -/
theorem earliest_claim_held_swapped :
    let late : Event := .groupRegistered "Helpers" "bob" 20 "b"
    let early : Event := .groupRegistered "helpers" "alice" 10 "a"
    Register.group.Keeps (key "helpers") (fold {} []) [late, early] ∧
      Register.group.held (fold (fold {} []) [late, early]) (key "helpers") =
        some ⟨"helpers", 10, "a"⟩ := by
  intro late early
  have kept : Register.group.Keeps (key "helpers") (fold {} []) [late, early] := by
    refine ⟨?_, ?_, trivial⟩ <;> decide +kernel
  refine ⟨kept, ?_⟩
  refine ((earliest_claim_held .group "helpers" [] [late, early] kept ?_).1 _).mpr ?_
  · decide +kernel
  · decide +kernel

end Register

end Echo
