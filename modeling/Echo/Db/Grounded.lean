import Echo.Db.References

/-!
Runs that keep a store grounded. The drop of an account takes its channel access,
successorships, groups and aliases with it, but not its operator grant, and the
calls that grant something do not ask whether the name is taken. A run stays
grounded as long as its grants are to taken names and no name is freed that
something is still held in.
-/

namespace Echo

open Std (ExtTreeMap)
open Echo.Lib

/-! ### What the fold frees -/

/-- Whether an event frees the name with this key: the account it drops and the
aliases of that account, or the nick it ungroups, unless an account has it too. -/
def Store.Frees (s : Store) : Event → String → Prop
  | .accountDropped account, k =>
      k = key account ∨
        s.accounts.contains k = false ∧ ∃ a, s.grouped[k]? = some a ∧ key a = key account
  | .nickUngrouped nick, k => k = key nick ∧ s.accounts.contains k = false
  | _, _ => False

/-- Whether nothing is held any more in the names an event frees, once its own
purge is done: an account it drops has no operator grant, and nothing is held in
an alias of that account, or in a nick it ungroups. -/
def Store.FreesUnused (s : Store) : Event → Prop
  | .accountDropped account =>
      s.net.opers.contains (key account) = false ∧
        ∀ k, k ≠ key account → s.Frees (.accountDropped account) k → ¬ s.Holds k
  | .nickUngrouped nick => ∀ k, s.Frees (.nickUngrouped nick) k → ¬ s.Holds k
  | _ => True

/-- Whether an event makes something held in taken names only, and frees none
that something is held in. -/
def Store.KeepsGrounded (s : Store) (e : Event) : Prop :=
  (∀ name ∈ e.grantee, s.Taken (key name)) ∧ s.FreesUnused e

section Fold

variable {s : Store} {e : Event} {k a : String}

theorem contains_modify {α : Type} {m : Table α} {k k' : String} {f : α → α} :
    (m.modify k f).contains k' = m.contains k' := by
  rw [← ExtTreeMap.isSome_getElem?_eq_contains, ← ExtTreeMap.isSome_getElem?_eq_contains,
    ExtTreeMap.getElem?_modify]
  split
  · rename_i same
    obtain rfl := Std.LawfulEqCmp.eq_of_compare same
    exact Option.isSome_map
  · rfl

/-- Only a drop takes an account out. -/
theorem accounts_apply (stays : ∀ account, e ≠ .accountDropped account)
    (h : s.accounts.contains k = true) : (apply s e).accounts.contains k = true := by
  cases e with
  | accountDropped account => exact absurd rfl (stays account)
  | accountRegistered claim =>
      simp only [apply]
      split
      · exact h
      · simp [h]
  | accountProfileSet account field value =>
      simp only [apply]
      split
      · exact contains_modify.trans h
      · exact h
  | channelRenamed old new =>
      simp only [apply]
      split <;> exact h
  | memoSent | memoIgnoreAdd | certAdded | certRemoved | accountEmailSet | accountGreetSet
  | accountLanguageSet | accountSwhoisSet | accountSignoreSet | accountPubkeySet | accountAutoOpSet
  | accountKillSet | accountHideStatusSet | accountSnoticeSet | accountPasswordSet
  | accountVerified | ajoinAdded | ajoinRemoved | vhostSet | vhostDeleted | vhostRequested
  | vhostRequestCleared | accountSuspended | accountUnsuspended | memoRead | memoDeleted
  | memoIgnoreDel | memoPrefsSet | accountSeen | accountNoExpire | accountExpiryWarned
  | accountOperNoteSet => exact contains_modify.trans h
  | _ => exact h

/-- Aliases come only with the account an event names. -/
theorem grouped_apply (h : (apply s e).grouped[k]? = some a) :
    s.grouped[k]? = some a ∨ a ∈ e.grantee := by
  cases e with
  | accountRegistered | accountProfileSet | channelRenamed =>
      simp only [apply] at h
      split at h <;> exact .inl h
  | accountDropped account =>
      change (s.grouped.filter fun _ a => !eqIgnoreAsciiCase a account)[k]? = some a at h
      rw [ExtTreeMap.getElem?_filter'] at h
      exact .inl (Option.filter_eq_some_iff.mp h).1
  | nickGrouped nick account =>
      change (s.grouped.insert (key nick) account)[k]? = some a at h
      rw [ExtTreeMap.getElem?_insert] at h
      split at h
      · cases h
        exact .inr rfl
      · exact .inl h
  | nickUngrouped nick =>
      change (s.grouped.erase (key nick))[k]? = some a at h
      rw [ExtTreeMap.getElem?_erase] at h
      split at h
      · contradiction
      · exact .inl h
  | _ => exact .inl h

/-- Operator grants come only with the account an event names. -/
theorem opers_apply (h : (apply s e).net.opers.contains k = true) :
    s.net.opers.contains k = true ∨ ∃ name ∈ e.grantee, key name = k := by
  cases e with
  | accountRegistered | accountProfileSet | channelRenamed | botRemoved =>
      simp only [apply] at h
      split at h <;> exact .inl h
  | jupeAdded =>
      simp only [apply, Store.adjustNet] at h
      split at h <;> exact .inl h
  | operGranted account privs expires =>
      change (s.net.opers.insert (key account) _).contains k = true at h
      rw [ExtTreeMap.contains_insert, Bool.or_eq_true] at h
      rcases h with same | old
      · exact .inr ⟨account, rfl, by simpa using same⟩
      · exact .inl old
  | operRevoked account =>
      change (s.net.opers.erase (key account)).contains k = true at h
      rw [ExtTreeMap.contains_erase, Bool.and_eq_true] at h
      exact .inl h.2
  | _ => exact .inl h

/-- A name stays taken that an event does not free. -/
theorem Store.Taken.apply (h : s.Taken k) (kept : ¬ s.Frees e k) : (apply s e).Taken k := by
  rcases h with account | aliased
  · left
    by_cases drop : e = .accountDropped k
    · subst drop
      change (s.accounts.erase (key k)).contains k = true
      rw [ExtTreeMap.contains_erase, Bool.and_eq_true]
      exact ⟨by simpa using fun same => kept (.inl same.symm), account⟩
    · cases e with
      | accountDropped other =>
          change (s.accounts.erase (key other)).contains k = true
          rw [ExtTreeMap.contains_erase, Bool.and_eq_true]
          exact ⟨by simpa using fun same => kept (.inl same.symm), account⟩
      | _ => exact accounts_apply (by simp) account
  · cases e with
    | accountDropped account =>
        cases shared : s.accounts.contains k with
        | true =>
            left
            change (s.accounts.erase (key account)).contains k = true
            rw [ExtTreeMap.contains_erase, Bool.and_eq_true]
            exact ⟨by simpa using fun same => kept (.inl same.symm), shared⟩
        | false =>
            right
            rw [ExtTreeMap.contains_eq_isSome_getElem?] at aliased
            obtain ⟨a, held⟩ := Option.isSome_iff_exists.mp aliased
            change (s.grouped.filter fun _ a => !eqIgnoreAsciiCase a account).contains k = true
            rw [ExtTreeMap.contains_eq_isSome_getElem?, ExtTreeMap.getElem?_filter', held]
            have other : eqIgnoreAsciiCase a account = false := by
              rw [Bool.eq_false_iff]
              exact fun same => kept (.inr ⟨shared, a, held, eqIgnoreAsciiCase_iff.mp same⟩)
            simp [other]
    | nickUngrouped nick =>
        cases shared : s.accounts.contains k with
        | true => exact .inl shared
        | false =>
            right
            change (s.grouped.erase (key nick)).contains k = true
            rw [ExtTreeMap.contains_erase, Bool.and_eq_true]
            exact ⟨by simpa using fun same => kept ⟨same.symm, shared⟩, aliased⟩
    | accountRegistered | accountProfileSet | channelRenamed =>
        right
        simp only [Echo.apply]
        split <;> exact aliased
    | nickGrouped nick account =>
        right
        change (s.grouped.insert (key nick) account).contains k = true
        simp [aliased]
    | _ => exact .inr aliased

/-- After its drop only an operator grant is held in an account's name. -/
theorem opers_of_holds_dropped {account : String}
    (h : (apply s (.accountDropped account)).Holds (key account)) :
    s.net.opers.contains (key account) = true := by
  cases h with
  | channel held granted same =>
      change (s.channels.map fun _ c => Store.purgeChannel account c)[_]? = _ at held
      rw [ExtTreeMap.getElem?_map] at held
      obtain ⟨c, was, rfl⟩ := Option.map_eq_some_iff.mp held
      exact absurd same (ChannelInfo.key_ne_of_purgeChannel granted)
  | group held granted same =>
      obtain ⟨mapped, other⟩ := List.mem_filter.mp held
      obtain ⟨g, was, rfl⟩ := List.mem_map.mp mapped
      rcases Group.mem_grantees.mp granted with rfl | ⟨m, member, rfl⟩
      · rw [show eqIgnoreAsciiCase _ account = true from eqIgnoreAsciiCase_iff.mpr same] at other
        contradiction
      · have kept := (List.mem_filter.mp member).2
        rw [show eqIgnoreAsciiCase _ account = true from eqIgnoreAsciiCase_iff.mpr same] at kept
        contradiction
  | grouped held same =>
      change (s.grouped.filter fun _ a => !eqIgnoreAsciiCase a account)[_]? = _ at held
      rw [ExtTreeMap.getElem?_filter'] at held
      have kept := (Option.filter_eq_some_iff.mp held).2
      rw [show eqIgnoreAsciiCase _ account = true from eqIgnoreAsciiCase_iff.mpr same] at kept
      contradiction
  | oper granted => exact granted

/-- The fold keeps a store grounded that makes something held in taken names only
and frees unused ones only. -/
theorem apply_grounded (h : s.Grounded) (ok : s.KeepsGrounded e) : (apply s e).Grounded := by
  intro k holds
  have old := apply_within s e k holds
  by_cases freed : s.Frees e k
  · exfalso
    cases e with
    | accountDropped account =>
        have was : s.Holds k := old.resolve_right (by simp [Event.grantee])
        by_cases own : k = key account
        · subst own
          have granted := opers_of_holds_dropped holds
          rw [ok.2.1] at granted
          contradiction
        · exact ok.2.2 k own freed was
    | nickUngrouped nick =>
        have was : s.Holds k := old.resolve_right (by simp [Event.grantee])
        exact ok.2 k freed was
    | _ => exact freed
  · rcases old with old | ⟨name, named, rfl⟩
    · exact (h k old).apply freed
    · exact (ok.1 name named).apply freed

theorem Store.holds_core : (s.core true).Holds k ↔ s.Holds k := by
  constructor
  · rintro (⟨held, granted, same⟩ | ⟨held, granted, same⟩ | ⟨held, same⟩ | ⟨granted⟩)
    · rw [Store.core_getElem?_channels] at held
      obtain ⟨c, was, rfl⟩ := Option.map_eq_some_iff.mp held
      exact .channel was granted same
    · exact .group held granted same
    · exact .grouped held same
    · exact .oper granted
  · rintro (⟨held, granted, same⟩ | ⟨held, granted, same⟩ | ⟨held, same⟩ | ⟨granted⟩)
    · exact .channel (Store.core_channel true held) granted same
    · exact .group held granted same
    · exact .grouped held same
    · exact .oper granted

theorem Store.taken_core (opers : Bool) : (s.core opers).Taken k ↔ s.Taken k := by
  unfold Taken
  rw [core_contains]
  rfl

theorem Store.grounded_core : (s.core true).Grounded ↔ s.Grounded := by
  unfold Grounded
  simp only [holds_core, taken_core]

end Fold

/-! ### Calls -/

namespace Call

variable {c : Call} {s : Store} {e : Event}

/-- The account a call makes something held for. -/
def grantee : Call → Option String
  | .accessAdd _ account level =>
      if (ChanAccess.mk account level).forGroup then none else some account
  | .setSuccessor _ successor => successor
  | .groupRegister _ founder => some founder
  | .groupSetFounder _ founder => some founder
  | .groupSetFlags _ account _ => some account
  | .operGrant account .. => some account
  | _ => none

/-- Whether a call frees the name with this key, if it goes through. -/
def Frees (c : Call) (s : Store) (k : String) : Prop :=
  match c with
  | .dropAccount account => s.Frees (.accountDropped account) k
  | .ungroupNick nick => s.Frees (.nickUngrouped nick) k
  | _ => False

/-- Whether a call frees no name that something is held in. -/
def FreesUnused (c : Call) (s : Store) : Prop :=
  match c with
  | .dropAccount account => s.FreesUnused (.accountDropped account)
  | .ungroupNick nick => s.FreesUnused (.nickUngrouped nick)
  | _ => True

/-- Whether a call makes something held in taken names only, and frees none that
something is held in. -/
def KeepsGrounded (c : Call) (s : Store) : Prop :=
  (∀ name ∈ c.grantee, s.Taken (key name)) ∧ c.FreesUnused s

/-- A call makes nothing held but for the account it names, or for one it has
checked. -/
theorem permits_grantee (permitted : c.permits s e) {name : String} (named : name ∈ e.grantee) :
    name ∈ c.grantee ∨ (∃ nick, c = .groupNick nick name) ∧ s.Taken (key name) := by
  cases e with
  | channelAccessAdd channel account level =>
      obtain rfl := permitted
      exact .inl named
  | channelSuccessorSet channel successor =>
      rcases permitted with rfl | rfl
      · exact .inl named
      · contradiction
  | groupRegistered | groupFounderSet | groupFlagsSet | operGranted =>
      obtain rfl := permitted
      exact .inl named
  | nickGrouped nick account =>
      cases named
      exact .inr ⟨⟨nick, permitted.1⟩, .inl permitted.2⟩
  | _ => contradiction

theorem permits_frees (permitted : c.permits s e) {k : String} (freed : s.Frees e k) :
    c.Frees s k := by
  cases e with
  | accountDropped account =>
      obtain rfl := permitted
      exact freed
  | nickUngrouped nick =>
      obtain rfl := permitted
      exact freed
  | _ => exact freed.elim

theorem permits_keepsGrounded (permitted : c.permits s e) (ok : c.KeepsGrounded s) :
    s.KeepsGrounded e := by
  constructor
  · intro name named
    rcases permits_grantee permitted named with granted | ⟨-, taken⟩
    · exact ok.1 name granted
    · exact taken
  · cases e with
    | accountDropped account =>
        obtain rfl := permitted
        exact ok.2
    | nickUngrouped nick =>
        obtain rfl := permitted
        exact ok.2
    | _ => trivial

/-- A call that frees a name makes nothing held. -/
theorem no_grantee_of_frees {k : String} (frees : c.Frees s k) (permitted : c.permits s e)
    {name : String} (named : name ∈ e.grantee) : False := by
  rcases permits_grantee permitted named with granted | ⟨⟨nick, rfl⟩, -⟩
  · cases c <;> contradiction
  · exact frees

/-- While a call runs it does not come to free more names. -/
theorem frees_step {k : String} (permitted : c.permits s e) (frees : c.Frees (apply s e) k) :
    c.Frees s k := by
  cases c with
  | dropAccount account =>
      have dropping : Frees (.dropAccount account) s (key account) := Or.inl rfl
      rcases frees with own | ⟨unshared, a, aliased, same⟩
      · exact .inl own
      · have was : s.grouped[k]? = some a :=
          (grouped_apply aliased).resolve_right (no_grantee_of_frees dropping permitted)
        refine .inr ⟨?_, a, was, same⟩
        rw [Bool.eq_false_iff]
        intro shared
        -- Only the drop itself takes an account out, and it takes the alias too.
        by_cases drop : e = .accountDropped account
        · subst drop
          change (s.grouped.filter fun _ a => !eqIgnoreAsciiCase a account)[k]? = some a at aliased
          rw [ExtTreeMap.getElem?_filter'] at aliased
          have kept := (Option.filter_eq_some_iff.mp aliased).2
          rw [show eqIgnoreAsciiCase a account = true from eqIgnoreAsciiCase_iff.mpr same] at kept
          contradiction
        · have stays : (apply s e).accounts.contains k = true := by
            refine accounts_apply (fun other dropped => drop ?_) shared
            subst dropped
            obtain ⟨rfl⟩ := permitted
            rfl
          rw [unshared] at stays
          contradiction
  | ungroupNick nick =>
      refine ⟨frees.1, ?_⟩
      rw [Bool.eq_false_iff]
      intro shared
      have stays : (apply s e).accounts.contains k = true := by
        refine accounts_apply (fun account dropped => ?_) shared
        subst dropped
        contradiction
      rw [frees.2] at stays
      contradiction
  | _ => exact frees

/-- What a call that frees a name finds unused stays so while it runs. -/
theorem freesUnused_step (permitted : c.permits s e) (ok : c.FreesUnused s) :
    c.FreesUnused (apply s e) := by
  have held {k : String} (frees : c.Frees s k) (holds : (apply s e).Holds k) : s.Holds k := by
    rcases apply_within s e k holds with old | ⟨name, named, -⟩
    · exact old
    · exact (no_grantee_of_frees frees permitted named).elim
  cases c with
  | dropAccount account =>
      have dropping : Frees (.dropAccount account) s (key account) := Or.inl rfl
      constructor
      · rw [Bool.eq_false_iff]
        intro granted
        rcases opers_apply granted with old | ⟨name, named, -⟩
        · rw [ok.1] at old
          contradiction
        · exact no_grantee_of_frees dropping permitted named
      · intro k other frees holds
        have freed : Frees (.dropAccount account) s k := frees_step permitted frees
        exact ok.2 k other freed (held freed holds)
  | ungroupNick nick =>
      intro k frees holds
      have freed : Frees (.ungroupNick nick) s k := frees_step permitted frees
      exact ok k freed (held freed holds)
  | _ => trivial

/-- A name stays taken while a call runs that does not free it. -/
theorem along_taken {k : String} {events : List Event} (permitted : Along apply c.permits s events)
    (taken : s.Taken k) (kept : ¬ c.Frees s k) : (fold s events).Taken k := by
  refine (permitted.invariant (I := fun s => s.Taken k ∧ ¬ c.Frees s k) ?_ ⟨taken, kept⟩).1
  rintro s e ⟨taken, kept⟩ allowed
  constructor
  · exact taken.apply fun freed => kept (permits_frees allowed freed)
  · exact fun frees => kept (frees_step allowed frees)

theorem keepsGrounded_step (permitted : c.permits s e) (ok : c.KeepsGrounded s) :
    c.KeepsGrounded (apply s e) := by
  refine ⟨fun name named => ?_, freesUnused_step permitted ok.2⟩
  refine (ok.1 name named).apply fun freed => ?_
  have frees := permits_frees permitted freed
  cases c <;> contradiction

/-- A call that grants to taken names and frees unused ones keeps the store
grounded. -/
theorem along_grounded {events : List Event} (permitted : Along apply c.permits s events)
    (ok : c.KeepsGrounded s) (h : s.Grounded) : (fold s events).Grounded := by
  refine (permitted.invariant (I := fun s => s.Grounded ∧ c.KeepsGrounded s) ?_ ⟨h, ok⟩).1
  rintro s e ⟨grounded, keeps⟩ allowed
  exact ⟨apply_grounded grounded (permits_keepsGrounded allowed keeps),
    keepsGrounded_step allowed keeps⟩

end Call

end Echo
