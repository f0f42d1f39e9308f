import Echo.Db.Shared
import Echo.Lib.Footprints

/-!
The places of the Global state that a write reads and writes: a registration, a field of
an account or of a group, an entry of a list.

Writes that keep out of each other's places may come in either order, and so may two
claims to a name unless neither is the earlier.
-/

namespace Echo

open Echo.Lib

/-- Something that one lookup finds. -/
inductive Place where
  | account (account : String)
  | field (account : String) (f : AccountField)
  | group (name : String)
  | groupField (name : String) (f : GroupField)
  | entry (c : Entry)

abbrev Place.Value : Place → Type
  | .account _ | .group _ => Option (String × Nat × String)
  | .field _ f => Option f.Value
  | .groupField _ f => Option f.Value
  | .entry c => Option c.Value

/-- What is found at a place. -/
def Shared.at (σ : Shared) : (p : Place) → p.Value
  | .account k => (σ.accounts k).map fun p => (p.name, p.ts, p.home)
  | .field k f => (σ.accounts k).map (·.field f)
  | .group k => (σ.groups k).map fun g => (g.name, g.ts, g.home)
  | .groupField k f => (σ.groups k).map (·.field f)
  | .entry c => σ.entries c

/-- Accounts are equal if their registrations and fields are. -/
theorem eq_of_looks {p q : Option SharedAccount}
    (registration : p.map (fun p => (p.name, p.ts, p.home)) = q.map fun p => (p.name, p.ts, p.home))
    (fields : ∀ f, p.map (·.field f) = q.map (·.field f)) : p = q := by
  rcases p with _ | ⟨name, ts, home, field⟩ <;> rcases q with _ | ⟨name', ts', home', field'⟩ <;>
    simp_all [funext_iff]

theorem eq_of_group_looks {g h : Option SharedGroup}
    (registration : g.map (fun g => (g.name, g.ts, g.home)) = h.map fun g => (g.name, g.ts, g.home))
    (fields : ∀ f, g.map (·.field f) = h.map (·.field f)) : g = h := by
  rcases g with _ | ⟨name, ts, home, field⟩ <;> rcases h with _ | ⟨name', ts', home', field'⟩ <;>
    simp_all [funext_iff]

/-- There is nothing more to the state than what is found at its places. -/
theorem Shared.ext_at {σ τ : Shared} (same : ∀ p, σ.at p = τ.at p) : σ = τ := by
  obtain ⟨accounts, groups, entries⟩ := σ
  obtain ⟨accounts', groups', entries'⟩ := τ
  rw [Shared.mk.injEq]
  refine ⟨funext fun k => ?_, funext fun k => ?_, funext fun c => same (.entry c)⟩
  · exact eq_of_looks (same (.account k)) fun f => same (.field k f)
  · exact eq_of_group_looks (same (.group k)) fun f => same (.groupField k f)

/-! ### Footprints -/

def AccountEdit.writes : AccountEdit → AccountField → Bool
  | .set f _, g => g == f
  | .ignore target, g => g == .memoIgnore (key target)
  | .mail _, g => g == .memos
  | .seen _, g => g == .lastSeen || g == .expiryWarned

/-- Whether a mailbox has room depends on its owner's preferences. -/
def AccountEdit.reads : AccountEdit → AccountField → Bool
  | .mail (.sent _), g => g == .memos || g == .memoPrefs
  | e, g => e.writes g

namespace Write

/-- The places a write may change. A dropped account takes groups and aliases with it. -/
def writes : Write → Place → Bool
  | .claim a, .account k | .claim a, .field k _ => k == key a.name
  | .edit account e, .field k f => k == account && e.writes f
  | .drop account, .account k | .drop account, .field k _ => k == account
  | .drop _, .group _ | .drop _, .groupField .. | .drop _, .entry (.nick _) => true
  | .claimGroup g, .group k | .claimGroup g, .groupField k _ => k == key g.name
  | .setGroup name f _, .groupField k f' => k == name && f' == f
  | .dropGroup name, .group k | .dropGroup name, .groupField k _ => k == name
  | .put c _, .entry d => d == c
  | _, _ => false

/-- The places that decide what it writes. -/
def reads : Write → Place → Bool
  | .edit account e, .field k f => k == account && e.reads f
  | w, p => w.writes p

theorem reads_of_writes {w : Write} {p : Place} (written : w.writes p = true) : w.reads p = true := by
  unfold reads
  split
  · rename_i account e k f
    obtain ⟨same, edits⟩ := Bool.and_eq_true_iff.mp written
    refine Bool.and_eq_true_iff.mpr ⟨same, ?_⟩
    unfold AccountEdit.reads
    split
    · rw [Bool.or_eq_true]
      exact .inl edits
    · exact edits
  · exact written

end Write

/-! ### What the operations touch -/

namespace Shared

variable {k : String}

theorem at_setAccount (σ : Shared) (v : Option SharedAccount) :
    (σ.setAccount k v).at = fun
      | .account k' => if k' = k then v.map fun p => (p.name, p.ts, p.home) else σ.at (.account k')
      | .field k' f => if k' = k then v.map (·.field f) else σ.at (.field k' f)
      | p => σ.at p := by
  funext p
  cases p with
  | account k' | field k' f =>
      by_cases here : k' = k
      · subst here
        simp [Shared.at, setAccount]
      · simp [Shared.at, setAccount, here]
  | _ => rfl

theorem at_setGroup (σ : Shared) (v : Option SharedGroup) :
    (σ.setGroup k v).at = fun
      | .group k' => if k' = k then v.map fun g => (g.name, g.ts, g.home) else σ.at (.group k')
      | .groupField k' f => if k' = k then v.map (·.field f) else σ.at (.groupField k' f)
      | p => σ.at p := by
  funext p
  cases p with
  | group k' | groupField k' f =>
      by_cases here : k' = k
      · subst here
        simp [Shared.at, setGroup]
      · simp [Shared.at, setGroup, here]
  | _ => rfl

/-- Fields of an account that are read, of which some are written. -/
theorem confined_adjust {φ : SharedAccount → SharedAccount} {reads writes : AccountField → Bool}
    (within : ∀ f, writes f = true → reads f = true)
    (registration : ∀ p, ((φ p).name, (φ p).ts, (φ p).home) = (p.name, p.ts, p.home))
    (frame : ∀ p f, writes f = false → (φ p).field f = p.field f)
    (determined : ∀ p q : SharedAccount, (∀ f, reads f = true → p.field f = q.field f) →
      ∀ f, writes f = true → (φ p).field f = (φ q).field f) :
    Confined Shared.at (·.adjust k φ)
      (fun p => ∃ f, p = .field k f ∧ reads f = true)
      (fun p => ∃ f, p = .field k f ∧ writes f = true) where
  within := by
    rintro _ ⟨f, rfl, written⟩
    exact ⟨f, rfl, within f written⟩
  frame σ p kept := by
    rw [adjust, at_setAccount]
    cases p with
    | account k' =>
        by_cases here : k' = k
        · subst here
          cases held : σ.accounts k' <;> simp [Shared.at, held, registration]
        · simp [here]
    | field k' f =>
        by_cases here : k' = k
        · subst here
          have same (p : SharedAccount) : (φ p).field f = p.field f :=
            frame p f (Bool.eq_false_iff.mpr fun written => kept ⟨f, rfl, written⟩)
          cases held : σ.accounts k' <;> simp [Shared.at, held, same]
        · simp [here]
    | _ => rfl
  determined σ τ agree := by
    rintro _ ⟨f, rfl, written⟩
    have fields (g : AccountField) (read : reads g = true) :
        (σ.accounts k).map (·.field g) = (τ.accounts k).map (·.field g) := agree _ ⟨g, rfl, read⟩
    have here := fields f (within f written)
    rw [adjust, adjust, at_setAccount, at_setAccount]
    cases left : σ.accounts k with
    | none =>
        cases right : τ.accounts k with
        | none => simp
        | some q => simp [left, right] at here
    | some p =>
        cases right : τ.accounts k with
        | none => simp [left, right] at here
        | some q =>
            have same : (φ p).field f = (φ q).field f :=
              determined p q (fun g read => by simpa [left, right] using fields g read) f written
            simp [same]

/-- An account as a whole. -/
theorem confined_setAccount (φ : Option SharedAccount → Option SharedAccount) :
    Confined Shared.at (fun σ => σ.setAccount k (φ (σ.accounts k)))
      (fun p => p = .account k ∨ ∃ f, p = .field k f)
      (fun p => p = .account k ∨ ∃ f, p = .field k f) where
  within _ written := written
  frame σ p kept := by
    rw [at_setAccount]
    cases p with
    | account k' => simp [show k' ≠ k from fun same => kept (.inl (congrArg Place.account same))]
    | field k' f =>
        have apart : k' ≠ k := by
          rintro rfl
          exact kept (.inr ⟨f, rfl⟩)
        simp [apart]
    | _ => rfl
  determined σ τ agree p written := by
    have same : σ.accounts k = τ.accounts k := by
      have registration : (σ.accounts k).map _ = (τ.accounts k).map _ := agree (.account k) (.inl rfl)
      have fields (f : AccountField) :
          (σ.accounts k).map (·.field f) = (τ.accounts k).map (·.field f) :=
        agree (.field k f) (.inr ⟨f, rfl⟩)
      exact eq_of_looks registration fields
    rw [at_setAccount, at_setAccount, same]
    rcases written with rfl | ⟨f, rfl⟩ <;> simp

/-- A group as a whole. -/
theorem confined_setGroup (φ : Option SharedGroup → Option SharedGroup) :
    Confined Shared.at (fun σ => σ.setGroup k (φ (σ.groups k)))
      (fun p => p = .group k ∨ ∃ f, p = .groupField k f)
      (fun p => p = .group k ∨ ∃ f, p = .groupField k f) where
  within _ written := written
  frame σ p kept := by
    rw [at_setGroup]
    cases p with
    | group k' => simp [show k' ≠ k from fun same => kept (.inl (congrArg Place.group same))]
    | groupField k' f =>
        have apart : k' ≠ k := by
          rintro rfl
          exact kept (.inr ⟨f, rfl⟩)
        simp [apart]
    | _ => rfl
  determined σ τ agree p written := by
    have same : σ.groups k = τ.groups k := by
      have registration : (σ.groups k).map _ = (τ.groups k).map _ := agree (.group k) (.inl rfl)
      have fields (f : GroupField) :
          (σ.groups k).map (·.field f) = (τ.groups k).map (·.field f) :=
        agree (.groupField k f) (.inr ⟨f, rfl⟩)
      exact eq_of_group_looks registration fields
    rw [at_setGroup, at_setGroup, same]
    rcases written with rfl | ⟨f, rfl⟩ <;> simp

/-- One field of a group. -/
theorem confined_putGroup {f : GroupField} (v : f.Value) :
    Confined Shared.at (·.adjustGroup k (·.put f v)) (· = .groupField k f) (· = .groupField k f) where
  within _ written := written
  frame σ p kept := by
    rw [adjustGroup, at_setGroup]
    cases p with
    | group k' =>
        by_cases here : k' = k
        · subst here
          cases held : σ.groups k' <;> simp [Shared.at, held, SharedGroup.put]
        · simp [here]
    | groupField k' g =>
        by_cases here : k' = k
        · subst here
          have apart : g ≠ f := by
            rintro rfl
            exact kept rfl
          cases held : σ.groups k' <;> simp [Shared.at, held, SharedGroup.put, apart]
        · simp [here]
    | _ => rfl
  determined σ τ agree := by
    rintro _ rfl
    have present : (σ.groups k).map (·.field f) = (τ.groups k).map (·.field f) := agree _ rfl
    rw [adjustGroup, adjustGroup, at_setGroup, at_setGroup]
    cases left : σ.groups k <;> cases right : τ.groups k <;>
      simp_all [SharedGroup.put]

theorem confined_setEntry {c : Entry} (v : Option c.Value) :
    Confined Shared.at (·.setEntry c v) (· = .entry c) (· = .entry c) where
  within _ written := written
  frame σ p kept := by
    cases p with
    | entry d =>
        have apart : d ≠ c := by
          rintro rfl
          exact kept rfl
        exact Function.update_of_ne apart ..
    | _ => rfl
  determined σ τ _ := by
    rintro _ rfl
    have written (σ : Shared) : (σ.setEntry c v).at (.entry c) = v := Function.update_self ..
    rw [written, written]

/-- A dropped account is looked for in every group and behind every alias. -/
theorem confined_drop (account : String) :
    Confined Shared.at (·.drop account) ((Write.drop account).reads · = true)
      ((Write.drop account).writes · = true) where
  within _ := Write.reads_of_writes
  frame σ p kept := by
    cases p with
    | account k' | field k' f =>
        have apart : k' ≠ account := by simpa [Write.writes] using kept
        simp [Shared.at, drop, apart]
    | entry c =>
        cases c with
        | nick => simp [Write.writes] at kept
        | _ => rfl
    | group | groupField => simp [Write.writes] at kept
  determined σ τ agree p written := by
    cases p with
    | account k' | field k' f =>
        obtain rfl : k' = account := by simpa [Write.writes] using written
        simp [Shared.at, drop]
    | group k' | groupField k' f =>
        have same : σ.groups k' = τ.groups k' :=
          eq_of_group_looks (agree (.group k') rfl) fun f => agree (.groupField k' f) rfl
        simp [Shared.at, drop, same]
    | entry c =>
        cases c with
        | nick nick =>
            have same : σ.entries (.nick nick) = τ.entries (.nick nick) :=
              agree (.entry (.nick nick)) rfl
            simp [Shared.at, drop, same]
        | _ => simp [Write.writes] at written

end Shared

namespace AccountEdit

theorem reads_of_writes {e : AccountEdit} {f : AccountField} (written : e.writes f = true) :
    e.reads f = true := by
  unfold reads
  split
  · rw [Bool.or_eq_true]
    exact .inl written
  · exact written

theorem registration_on (e : AccountEdit) (p : SharedAccount) :
    ((e.on p).name, (e.on p).ts, (e.on p).home) = (p.name, p.ts, p.home) := by
  unfold AccountEdit.on
  cases e with
  | mail change =>
      cases change with
      | sent memo => dsimp only; split <;> rfl
      | _ => rfl
  | ignore target => dsimp only; split <;> rfl
  | _ => rfl

theorem frame_on (e : AccountEdit) (p : SharedAccount) (f : AccountField)
    (kept : e.writes f = false) : (e.on p).field f = p.field f := by
  cases e with
  | set g v => exact Function.update_of_ne (by simpa [writes] using kept) ..
  | ignore target =>
      have apart : f ≠ .memoIgnore (key target) := by simpa [writes] using kept
      simp only [AccountEdit.on]
      split
      · rfl
      · exact Function.update_of_ne apart ..
  | mail change =>
      have apart : f ≠ .memos := by simpa [writes] using kept
      cases change with
      | sent memo =>
          simp only [AccountEdit.on]
          split
          · exact Function.update_of_ne apart ..
          · rfl
      | _ => exact Function.update_of_ne apart ..
  | seen ts =>
      have apart : f ≠ .lastSeen ∧ f ≠ .expiryWarned := by simpa [writes] using kept
      simp [AccountEdit.on, SharedAccount.put, apart]

theorem determined_on (e : AccountEdit) (p q : SharedAccount)
    (agree : ∀ f, e.reads f = true → p.field f = q.field f) (f : AccountField)
    (written : e.writes f = true) : (e.on p).field f = (e.on q).field f := by
  have own := agree f (reads_of_writes written)
  cases e with
  | set g v =>
      obtain rfl : f = g := by simpa [writes] using written
      simp [AccountEdit.on, SharedAccount.put]
  | ignore target =>
      obtain rfl : f = .memoIgnore (key target) := by simpa [writes] using written
      simp only [AccountEdit.on, own]
      split
      · exact own
      · simp [SharedAccount.put]
  | mail change =>
      obtain rfl : f = .memos := by simpa [writes] using written
      cases change with
      | sent memo =>
          have prefs := agree .memoPrefs (by simp [reads])
          simp only [AccountEdit.on, own, prefs]
          split
          · simp [SharedAccount.put]
          · exact own
      | _ => simp [AccountEdit.on, SharedAccount.put, own]
  | seen ts =>
      have last := agree .lastSeen (by simp [reads, writes])
      obtain rfl | rfl : f = .lastSeen ∨ f = .expiryWarned := by simpa [writes] using written
      · simp [AccountEdit.on, SharedAccount.put, last]
      · simp [AccountEdit.on, SharedAccount.put]

end AccountEdit

theorem Shared.adjust_adjust (σ : Shared) (k : String) (φ ψ : SharedAccount → SharedAccount) :
    (σ.adjust k φ).adjust k ψ = σ.adjust k fun p => ψ (φ p) := by
  simp [adjust, setAccount, Function.comp_def]

/-! ### Writes that may change places -/

namespace Write

/-- A write changes only its places, to what the places it reads determine. -/
theorem confined (w : Write) :
    Confined Shared.at (fun σ => Write.on σ w) (w.reads · = true) (w.writes · = true) := by
  cases w with
  | claim a =>
      refine (Shared.confined_setAccount fun held =>
        keepEarliest SharedAccount.rank held a.shared).congr (fun p => ?_) fun p => ?_ <;>
          cases p <;> simp [reads, writes]
  | edit account e =>
      refine (Shared.confined_adjust (fun _ => AccountEdit.reads_of_writes) e.registration_on
        e.frame_on e.determined_on).congr (fun p => ?_) fun p => ?_ <;>
          cases p <;> simp [reads, writes]
  | drop account => exact Shared.confined_drop account
  | claimGroup g =>
      refine (Shared.confined_setGroup fun held =>
        keepEarliest SharedGroup.rank held g.shared).congr (fun p => ?_) fun p => ?_ <;>
          cases p <;> simp [reads, writes]
  | setGroup name f v =>
      refine (Shared.confined_putGroup v).congr (fun p => ?_) fun p => ?_ <;>
        cases p <;> simp [reads, writes]
  | dropGroup name =>
      refine (Shared.confined_setGroup fun _ => none).congr (fun p => ?_) fun p => ?_ <;>
        cases p <;> simp [reads, writes]
  | put c v =>
      refine (Shared.confined_setEntry v).congr (fun p => ?_) fun p => ?_ <;>
        cases p <;> simp [reads, writes]
  | idle =>
      refine ⟨fun _ => reads_of_writes, fun _ _ _ => rfl, fun _ _ _ p written => ?_⟩
      simp [writes] at written

/-- Neither write changes what the other reads. -/
def Apart (v w : Write) : Prop :=
  ∀ p, (v.writes p = true → w.reads p = false) ∧ (w.writes p = true → v.reads p = false)

/-- Two writes that may come in either order. -/
def Commutes (v w : Write) : Prop :=
  ∀ σ : Shared, Write.on (Write.on σ v) w = Write.on (Write.on σ w) v

theorem Commutes.symm {v w : Write} (h : v.Commutes w) : w.Commutes v := fun σ => (h σ).symm

theorem Apart.commutes {v w : Write} (h : v.Apart w) : v.Commutes w := by
  intro σ
  refine w.confined.comm (fun _ _ => Shared.ext_at) v.confined (fun p written => ?_)
    (fun p written => ?_) σ
  · rw [(h p).2 written]
    exact Bool.false_ne_true
  · rw [(h p).1 written]
    exact Bool.false_ne_true

/-- The earlier of two claims to a name is kept in either order. -/
theorem claim_commutes {a b : Account} (distinct : a.shared.rank ≠ b.shared.rank) :
    (claim a).Commutes (claim b) := by
  by_cases same : key a.name = key b.name
  · intro σ
    have kept := keepEarliest_comm SharedAccount.rank (σ.accounts (key b.name))
      (c := a.shared) (d := b.shared) fun equal => absurd equal distinct
    simp [Write.on, Shared.setAccount, same, kept]
  · refine Apart.commutes fun p => ?_
    cases p with
    | account k | field k f =>
        simp only [reads, writes, beq_iff_eq, beq_eq_false_iff_ne]
        exact ⟨fun here there => same (here.symm.trans there), fun here there => same (there.symm.trans here)⟩
    | _ => simp [reads, writes]

theorem claimGroup_commutes {g h : Group} (distinct : g.shared.rank ≠ h.shared.rank) :
    (claimGroup g).Commutes (claimGroup h) := by
  by_cases same : key g.name = key h.name
  · intro σ
    have kept := keepEarliest_comm SharedGroup.rank (σ.groups (key h.name))
      (c := g.shared) (d := h.shared) fun equal => absurd equal distinct
    simp [Write.on, Shared.setGroup, same, kept]
  · refine Apart.commutes fun p => ?_
    cases p with
    | group k | groupField k f =>
        simp only [reads, writes, beq_iff_eq, beq_eq_false_iff_ne]
        exact ⟨fun here there => same (here.symm.trans there), fun here there => same (there.symm.trans here)⟩
    | _ => simp [reads, writes]

/-- An account was last seen at the later of two times. -/
theorem seen_commutes (account : String) (ts ts' : Nat) :
    (edit account (.seen ts)).Commutes (edit account (.seen ts')) := by
  intro σ
  have same (p : SharedAccount) : AccountEdit.on (AccountEdit.on p (.seen ts)) (.seen ts') =
      AccountEdit.on (AccountEdit.on p (.seen ts')) (.seen ts) := by
    simp only [AccountEdit.on, SharedAccount.put, SharedAccount.mk.injEq, true_and]
    funext f
    by_cases warned : f = .expiryWarned
    · subst warned
      simp
    · by_cases last : f = .lastSeen
      · subst last
        simp [Nat.max_assoc, Nat.max_comm ts ts']
      · simp [warned, last]
  simp only [Write.on, Shared.adjust_adjust, same]

/-- What tells that two writes do not contradict each other. -/
inductive Clear : Write → Write → Prop where
  | apart {v w : Write} : v.Apart w → Clear v w
  | same (v : Write) : Clear v v
  | claims {a b : Account} : a.shared.rank ≠ b.shared.rank → Clear (claim a) (claim b)
  | groups {g h : Group} : g.shared.rank ≠ h.shared.rank → Clear (claimGroup g) (claimGroup h)
  | seen (account : String) (ts ts' : Nat) :
      Clear (edit account (.seen ts)) (edit account (.seen ts'))

theorem Clear.symm {v w : Write} (h : v.Clear w) : w.Clear v := by
  cases h with
  | apart apart => exact .apart fun p => (apart p).symm
  | same => exact .same v
  | claims distinct => exact .claims distinct.symm
  | groups distinct => exact .groups distinct.symm
  | seen account ts ts' => exact .seen account ts' ts

theorem Clear.commutes {v w : Write} (h : v.Clear w) : v.Commutes w := by
  cases h with
  | apart apart => exact apart.commutes
  | same => exact fun _ => rfl
  | claims distinct => exact claim_commutes distinct
  | groups distinct => exact claimGroup_commutes distinct
  | seen account ts ts' => exact seen_commutes account ts ts'

end Write

end Echo
