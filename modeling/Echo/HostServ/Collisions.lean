import Echo.Db.Written
import Echo.HostServ.Vhosts

/-!
Which vhosts stand side by side. An assignment asks whether another account's vhost is the
same text, its ident included; what the network shows is the host behind the ident. Two
accounts come to show one host exactly where one of them is given it under an ident of
its own.
-/

namespace Echo

open Echo.Lib

variable {r : RegexCrate} {env : Env} {db db' : Db} {k : String}

/-! ### The vhosts of a store -/

/-- The vhost of an account, by its key. -/
def Store.vhostAt (s : Store) (k : String) : Option Vhost := s.accounts[k]?.bind (·.vhost)

/-- No vhost is new, and none has changed. -/
def Sheds (db db' : Db) : Prop :=
  ∀ k v, db'.toStore.vhostAt k = some v → db.toStore.vhostAt k = some v

instance : IsPreorder Db Sheds where
  refl _ _ _ held := held
  trans _ _ _ first next k v held := first k v (next k v held)

theorem vhostAt_adjustAccount {s : Store} {account : String} {f : Account → Account} :
    (s.adjustAccount account f).vhostAt k =
      if k = key account then (s.accounts[k]?.map f).bind (·.vhost) else s.vhostAt k := by
  unfold Store.vhostAt Store.adjustAccount
  dsimp only
  rw [Std.ExtTreeMap.getElem?_modify]
  by_cases same : k = key account
  · subst same
    simp
  · rw [if_neg same, if_neg (by simpa using Ne.symm same)]

/-- HostServ's lists and the vhosts are what they were. -/
def KeepsVhosts (db db' : Db) : Prop :=
  db'.hostCfg = db.hostCfg ∧ ∀ k, db'.toStore.vhostAt k = db.toStore.vhostAt k

instance : IsPreorder Db KeepsVhosts where
  refl _ := ⟨rfl, fun _ => rfl⟩
  trans _ _ _ first next := ⟨next.1.trans first.1, fun k => (next.2 k).trans (first.2 k)⟩

namespace Db

variable {ε : Type} {account : String} {write : Store → Store}

theorem sheds_logged {event : Event} {onError : IoError → ε}
    (sheds : ∀ k v, (write db.toStore).vhostAt k = some v → db.toStore.vhostAt k = some v) :
    Keeps Sheds (logged event onError write).run db := by
  intro k v held
  rw [run_logged] at held
  generalize db.log.append event = attempt at held
  rcases attempt with ⟨log, _ | _⟩
  · exact held
  · exact sheds k v held

theorem sheds_adjustAccount {f : Account → Account} (keeps : ∀ a, (f a).vhost = a.vhost ∨ (f a).vhost = none)
    (k : String) (v : Vhost) (held : (db.toStore.adjustAccount account f).vhostAt k = some v) :
    db.toStore.vhostAt k = some v := by
  rw [vhostAt_adjustAccount] at held
  split at held
  · unfold Store.vhostAt
    cases there : db.accounts[k]? with
    | none =>
        rw [there] at held
        cases held
    | some a =>
        rw [there] at held
        rcases keeps a with same | gone
        · exact same.symm.trans held
        · exact absurd (gone.symm.trans held) nofun
  · exact held

theorem sheds_writeAccount {event : Event} {f : Account → Account}
    (keeps : ∀ a, (f a).vhost = a.vhost) : Keeps Sheds (writeAccount account event f).run db := by
  refine keeps_get_bindE ?_
  split
  · exact sheds_logged (sheds_adjustAccount fun a => .inl (keeps a))
  · exact keeps_throw

theorem sheds_requestVhost {host : String} : Keeps Sheds (requestVhost env account host).run db :=
  keeps_bindE (sheds_writeAccount fun _ => rfl) fun _ _ _ => fun _ _ held => held

theorem sheds_takeVhostRequest : Keeps Sheds (takeVhostRequest account).run db := by
  refine keeps_get_bindE ?_
  split
  · exact keeps_throw
  · split
    · exact keeps_ok
    · exact keeps_bindE (sheds_logged (sheds_adjustAccount fun _ => .inl rfl)) fun _ _ _ => keeps_ok

theorem sheds_delVhost : Keeps Sheds (delVhost account).run db := by
  refine keeps_get_bindE ?_
  split
  · exact keeps_throw
  · split
    · exact keeps_bindE (sheds_logged (sheds_adjustAccount fun _ => .inr rfl)) fun _ _ _ => keeps_ok
    · exact keeps_ok

theorem sheds_hostListAdd {listOf : HostConfig → List String} {entry : String} {event : Event}
    {write : HostConfig → HostConfig} : Keeps Sheds (hostListAdd listOf entry event write).run db := by
  refine keeps_get_bindE ?_
  split
  · exact keeps_ok
  · exact keeps_bindE (sheds_logged fun _ _ held => held) fun _ _ _ => keeps_ok

theorem sheds_hostListDel {listOf : HostConfig → List String} {index : Nat} {event : String → Event}
    {write : String → HostConfig → HostConfig} :
    Keeps Sheds (hostListDel listOf index event write).run db := by
  refine keeps_get_bindE ?_
  split
  · exact keeps_ok
  · split
    · exact keeps_ok
    · exact keeps_bindE (sheds_logged fun _ _ held => held) fun _ _ _ => keeps_ok

theorem sheds_vhostForbidAdd {pattern : String} :
    Keeps Sheds (vhostForbidAdd env pattern).run db := by
  unfold vhostForbidAdd
  split
  · exact keeps_throw
  · exact sheds_hostListAdd

/-- An assignment is made if its account exists and the file takes it. -/
theorem vhostAt_setVhost {host setter : String} {ttl : Option Nat} :
    ((setVhost env account host setter ttl).run.run db).2.toStore.vhostAt k =
      if (db.accounts.contains (key account) && db.log.writable) = true ∧ k = key account then
        some ⟨host, setter, env.now, ttl.map (expiryAfter env.now)⟩
      else db.toStore.vhostAt k := by
  unfold setVhost
  rw [toStore_writeAccount]
  by_cases taken : (db.accounts.contains (key account) && db.log.writable) = true
  · rw [if_pos taken, vhostAt_adjustAccount]
    by_cases same : k = key account
    · subst same
      obtain ⟨a, held⟩ := Option.isSome_iff_exists.mp
        (Std.ExtTreeMap.isSome_getElem?_eq_contains.trans ((Bool.and_eq_true _ _).mp taken).1)
      rw [if_pos rfl, if_pos ⟨taken, rfl⟩, held]
      rfl
    · rw [if_neg same, if_neg fun both => same both.2]
  · rw [if_neg taken, if_neg fun both => taken both.1]

end Db

namespace HostServ

/-! ### What is shown -/

/-- The host that a vhost shows, without regard to case. -/
def displayed (spec : String) : String := key (String.ofList (specParts spec.toList).2)

theorem specParts_lower (spec : List Char) :
    (specParts (spec.map Char.toLower)).2 = (specParts spec).2.map Char.toLower := by
  unfold specParts
  rw [splitOnce_map fun a => toLower_eq_iff (by decide)]
  cases splitOnce ['@'] spec <;> rfl

theorem displayed_key (spec : String) : displayed (key spec) = displayed spec := by
  have folded : (key spec).toList = spec.toList.map Char.toLower := String.toList_ofList
  have lower : key (String.ofList (specParts spec.toList).2) =
      String.ofList ((specParts spec.toList).2.map Char.toLower) := by
    unfold key toAsciiLowercase
    rw [String.toList_ofList]
  unfold displayed
  rw [folded, specParts_lower, ← lower, key_key]

/-- The same text shows the same host. -/
theorem displayed_congr {a b : String} (same : key a = key b) : displayed a = displayed b := by
  rw [← displayed_key, same, displayed_key]

/-- A vhost in force. -/
def Live (db : Db) (now : Nat) (k : String) (v : Vhost) : Prop :=
  db.toStore.vhostAt k = some v ∧ live now v.expires = true

/-- No two accounts show the same host. -/
def Unique (db : Db) (now : Nat) : Prop :=
  ∀ k k' v v', Live db now k v → Live db now k' v' → displayed v.host = displayed v'.host → k = k'

theorem Unique.of_sheds {now later : Nat} (unique : Unique db now) (sheds : Sheds db db')
    (le : now ≤ later) : Unique db' later := by
  have back : ∀ k v, Live db' later k v → Live db now k v := by
    rintro k v ⟨held, lives⟩
    refine ⟨sheds k v held, ?_⟩
    unfold live at lives ⊢
    cases ends : v.expires with
    | none => rfl
    | some e =>
        rw [ends] at lives
        simp only [Option.all_some, decide_eq_true_eq] at lives ⊢
        omega
  intro k k' v v' one other same
  exact unique k k' v v' (back k v one) (back k' v' other) same

/-- A vhost that is prepared for an account is no other account's. -/
theorem key_of_prepared {spec account host : String} (wf : db.Wf) (unique : Unique db env.now)
    (prepared : prepareVhost env db spec account = some host) {v : Vhost} (held : Live db env.now k v)
    (same : key v.host = key host) : k = key account := by
  unfold prepareVhost at prepared
  dsimp only at prepared
  split at prepared
  · cases prepared
  · split at prepared
    · cases prepared
    · rename_i unowned
      cases prepared
      obtain ⟨a, there, has⟩ := Option.bind_eq_some_iff.mp held.1
      have finds : ((env.values db.accounts).find? fun a => a.vhost.any fun v =>
          eqIgnoreAsciiCase v.host (normalizeVhost spec) && live env.now v.expires).isSome := by
        refine List.find?_isSome.mpr ⟨a, Env.mem_values.mpr ⟨k, there⟩, ?_⟩
        rw [has, Option.any_some, held.2, Bool.and_true]
        exact eqIgnoreAsciiCase_iff_key.mpr same
      obtain ⟨owner, found⟩ := Option.isSome_iff_exists.mp finds
      obtain ⟨k', there'⟩ := Env.mem_values.mp (List.mem_of_find?_eq_some found)
      have passes := List.find?_some found
      obtain ⟨v', has', owns⟩ := (Option.any_eq_true _ _).mp passes
      obtain ⟨same', lives⟩ := (Bool.and_eq_true _ _).mp owns
      have names : key owner.name = k' := wf.accounts k' owner there'
      have theirs : Live db env.now k' v' := ⟨Option.bind_eq_some_iff.mpr ⟨owner, there', has'⟩, lives⟩
      have one : k = k' := unique k k' v v' held theirs
        (displayed_congr (same.trans (eqIgnoreAsciiCase_iff_key.mp same').symm))
      unfold Db.vhostOwner at unowned
      rw [found, Option.map_some, Option.any_some, Bool.not_eq_true, Bool.not_eq_false'] at unowned
      rw [one, ← names]
      exact eqIgnoreAsciiCase_iff_key.mp unowned

/-! ### Runs -/

/-- A store and the clock. -/
structure World where
  db : Db
  now : Nat

inductive Act where
  | wait (seconds : Nat)
  /-- What the file will answer to the next writes. -/
  | disk (outcomes : List Bool)
  /-- A command, with the order in which a map happens to be visited. -/
  | command (order : Env) («from» : ChanServ.Sender) (args : List String)

namespace World

variable (r : RegexCrate) (w : World)

/-- The surroundings of a command. -/
def around (order : Env) : Env := { order with now := w.now, regexCompiles := r.compiles }

def step (w : World) : Act → World
  | .wait seconds => { w with now := w.now + seconds }
  | .disk outcomes => { w with db := w.db.step (.faults outcomes) }
  | .command order «from» args => { w with db := onCommand r (w.around r order) «from» args w.db }

/-- The vhost that an action assigns: what its command has come to, if the account exists
and the file takes it. -/
def assigned : Act → Option Grant
  | .command order «from» args =>
      let (db, grant) := read r (w.around r order) «from» args w.db
      grant.filter fun g => db.accounts.contains (key g.account) && db.log.writable
  | _ => none

/-- A vhost assigned now is in force. -/
def Lives (g : Grant) : Prop := live w.now (g.ttl.map (expiryAfter w.now)) = true

/-- What is assigned and in force is shown by no other account under another ident. -/
def Apart (a : Act) : Prop :=
  ∀ g, w.assigned r a = some g → w.Lives g → ∀ k v, k ≠ key g.account → Live w.db w.now k v →
    displayed v.host = displayed g.host → key v.host = key g.host

/-- What a user is assigned, no forbidden pattern matches. -/
def Allowed (a : Act) : Prop :=
  ∀ g, w.assigned r a = some g → g.userInitiated = true →
    ∀ p ∈ w.db.hostCfg.forbidden, r.isMatch p g.host = false

/-- Where a user is assigned a vhost, the forbidden patterns compile to a set, or none of
them matches it. -/
def Compiled (a : Act) : Prop :=
  ∀ g, w.assigned r a = some g → g.userInitiated = true →
    r.setSize w.db.hostCfg.forbidden ≤ BADWORD_SIZE_LIMIT ∨
      ∀ p ∈ w.db.hostCfg.forbidden, r.isMatch p g.host = false

end World

/-! ### Steps -/

section Steps

variable {w : World} {a : Act} {order : Env} {«from» : ChanServ.Sender} {args : List String}
  {g : Grant} {spec account host : String}

/-- What a command does up to an assignment: the store is as sound as it was, no vhost is
new, and an assigned one was prepared. -/
structure Reads (r : RegexCrate) (env : Env) (db : Db) (out : Db × Option Grant) : Prop where
  wf : db.Wf → out.1.Wf
  sheds : Sheds db out.1
  prepared : ∀ g, out.2 = some g → ∃ spec, prepareVhost env out.1 spec g.account = some g.host
  asked : ∀ g, out.2 = some g → KeepsVhosts db out.1 ∧
    (g.userInitiated = true → out.1.vhostIsForbidden r g.host = false)

theorem of_prepareAllowed (allowed : prepareAllowed r env db spec account = some host) :
    prepareVhost env db spec account = some host ∧ db.vhostIsForbidden r host = false := by
  obtain ⟨prepared, open_to⟩ := Option.filter_eq_some_iff.mp allowed
  exact ⟨prepared, by simpa using open_to⟩

theorem reads_call (call : Option Call)
    (sheds : ∀ c ∈ call, Sheds db (db.step (.call env c))) : Reads r env db (perform env db call, none) where
  wf wf := by
    cases call with
    | none => exact wf
    | some c => exact Db.wf_step wf (.call env c)
  sheds := by
    cases call with
    | none => exact refl_of Sheds db
    | some c => exact sheds c rfl
  prepared := nofun
  asked := nofun

/-- A command whose assignment is decided on the store as it is. -/
theorem reads_grant (grant : Option Grant)
    (prepared : ∀ g, grant = some g → ∃ spec, prepareVhost env db spec g.account = some g.host ∧
      (g.userInitiated = true → db.vhostIsForbidden r g.host = false)) : Reads r env db (db, grant) where
  wf := id
  sheds := refl_of Sheds db
  prepared g here := (prepared g here).imp fun _ both => both.1
  asked g here := ⟨refl_of KeepsVhosts db, (prepared g here).choose_spec.2⟩

theorem reads_set : Reads r env db (db, set env «from» args db) :=
  reads_grant _ fun g assigned => by
    obtain ⟨⟨account, host⟩, there, rfl⟩ := Option.map_eq_some_iff.mp assigned
    unfold readSet at there
    split at there
    · cases there
    · split at there
      · split at there
        · cases there
        · obtain ⟨host', prepared, same⟩ := Option.map_eq_some_iff.mp there
          cases same
          exact ⟨_, prepared, nofun⟩
      · cases there

theorem reads_take : Reads r env db (db, take r env «from» args db) :=
  reads_grant _ fun g assigned => by
    unfold take at assigned
    split at assigned
    · obtain ⟨offer, -, chosen⟩ := Option.bind_eq_some_iff.mp assigned
      obtain ⟨host, allowed, rfl⟩ := Option.map_eq_some_iff.mp chosen
      obtain ⟨prepared, open_to⟩ := of_prepareAllowed allowed
      exact ⟨_, prepared, fun _ => open_to⟩
    · cases assigned

theorem reads_default : Reads r env db (db, default r env «from» db) :=
  reads_grant _ fun g assigned => by
    unfold default at assigned
    split at assigned
    · dsimp only at assigned
      split at assigned
      · cases assigned
      · obtain ⟨host, allowed, rfl⟩ := Option.map_eq_some_iff.mp assigned
        obtain ⟨prepared, open_to⟩ := of_prepareAllowed allowed
        exact ⟨_, prepared, fun _ => open_to⟩
    · cases assigned

theorem keepsVhosts_takeVhostRequest :
    Keeps KeepsVhosts (Db.takeVhostRequest account).run db := by
  refine keeps_get_bindE ?_
  split
  · exact keeps_throw
  · split
    · exact keeps_ok
    · refine keeps_bindE ?_ fun _ _ _ => keeps_ok
      unfold Keeps
      rw [Db.run_logged]
      generalize db.log.append _ = attempt
      rcases attempt with ⟨log, _ | _⟩
      · exact refl_of KeepsVhosts db
      · refine ⟨rfl, fun k => ?_⟩
        dsimp only
        rw [vhostAt_adjustAccount]
        split
        · unfold Store.vhostAt
          cases db.accounts[k]? <;> rfl
        · rfl

theorem reads_approve (activate : Bool) :
    Reads r env db (approve r env «from» args db activate) := by
  have still : Reads r env db (db, none) := reads_grant none fun _ given => absurd given (by simp)
  unfold approve
  split
  · exact still
  · split
    · exact still
    · rename_i account _
      have wf := fun wf : db.Wf => Db.wf_step wf (.call env (.takeVhostRequest account))
      have sheds : Keeps Sheds (Db.takeVhostRequest account).run db := Db.sheds_takeVhostRequest
      have lists : Keeps KeepsVhosts (Db.takeVhostRequest account).run db :=
        keepsVhosts_takeVhostRequest
      change db.Wf → (((Db.takeVhostRequest account).run.run db).2).Wf at wf
      unfold Keeps at sheds lists
      generalize (Db.takeVhostRequest account).run.run db = outcome at wf sheds lists ⊢
      split
      · rename_i requested db'
        have granted : ∀ g, (if activate then
            (prepareAllowed r env db' requested account).map fun host =>
              (⟨account, host, «from».nick, none, true⟩ : Grant) else none) = some g →
            ∃ spec, prepareVhost env db' spec g.account = some g.host ∧
              db'.vhostIsForbidden r g.host = false := by
          intro g assigned
          split at assigned
          · obtain ⟨host, allowed, rfl⟩ := Option.map_eq_some_iff.mp assigned
            exact ⟨requested, of_prepareAllowed allowed⟩
          · cases assigned
        refine ⟨wf, sheds, fun g assigned => ?_, fun g assigned => ?_⟩
        · obtain ⟨spec, prepared, -⟩ := granted g assigned
          exact ⟨spec, prepared⟩
        · obtain ⟨spec, -, open_to⟩ := granted g assigned
          exact ⟨lists, fun _ => open_to⟩
      · exact ⟨wf, sheds, fun _ given => absurd given (by simp), fun _ given => absurd given (by simp)⟩

theorem reads_del : Reads r env db (perform env db (del «from» args), none) :=
  reads_call _ fun c called => by
    unfold del at called
    split at called
    · cases called
    · obtain ⟨account, -, rfl⟩ := Option.map_eq_some_iff.mp called
      exact Db.sheds_delVhost

theorem reads_request : Reads r env db (perform env db (request r env «from» args db), none) :=
  reads_call _ fun c called => by
    unfold request at called
    split at called
    · split at called
      · cases called
      · split at called
        · cases called
        · cases called
          exact Db.sheds_requestVhost
    · cases called

theorem reads_offer : Reads r env db (perform env db (offer «from» args), none) :=
  reads_call _ fun c called => by
    unfold offer at called
    split at called
    · cases called
    · obtain ⟨host, -, rfl⟩ := Option.map_eq_some_iff.mp called
      exact Db.sheds_hostListAdd

theorem reads_numbered {call : Nat → Call} (sheds : ∀ n, Sheds db (db.step (.call env (call n)))) :
    Reads r env db (perform env db (numbered «from» args call), none) :=
  reads_call _ fun c called => by
    unfold numbered at called
    split at called
    · cases called
    · obtain ⟨n, -, rfl⟩ := Option.map_eq_some_iff.mp called
      exact sheds n

theorem reads_forbid : Reads r env db (perform env db (forbid «from» args), none) :=
  reads_call _ fun c called => by
    unfold forbid at called
    split at called
    · cases called
    · split at called
      · cases called
      · cases called
        exact Db.sheds_vhostForbidAdd

theorem reads_template : Reads r env db (perform env db (template «from» args), none) :=
  reads_call _ fun c called => by
    have sheds : ∀ chosen, Sheds db (db.step (.call env (.setVhostTemplate chosen))) :=
      fun chosen => Db.sheds_logged fun _ _ held => held
    unfold template at called
    split at called
    · cases called
    · split at called
      · cases called
      · split at called
        · cases called
          exact sheds none
        · dsimp only at called
          split at called
          · cases called
          · cases called
            exact sheds _

/-- Every command is read so. -/
theorem reads_read : Reads r env db (read r env «from» args db) := by
  unfold read
  split
  · exact reads_set
  · exact reads_set
  · exact reads_del
  · exact reads_del
  · exact reads_request
  · exact reads_approve true
  · exact reads_approve true
  · exact reads_approve false
  · exact reads_offer
  · exact reads_numbered fun _ => Db.sheds_hostListDel
  · exact reads_take
  · exact reads_forbid
  · exact reads_numbered fun _ => Db.sheds_hostListDel
  · exact reads_template
  · exact reads_default
  · exact reads_grant none nofun

/-- An assigned vhost is the account's, and every other stays. -/
theorem vhostAt_onCommand :
    (onCommand r env «from» args db).toStore.vhostAt k =
      match ((read r env «from» args db).2.filter fun g =>
        (read r env «from» args db).1.accounts.contains (key g.account) &&
          (read r env «from» args db).1.log.writable) with
      | some g =>
          if k = key g.account then
            some ⟨g.host, g.setter, env.now, g.ttl.map (expiryAfter env.now)⟩
          else (read r env «from» args db).1.toStore.vhostAt k
      | none => (read r env «from» args db).1.toStore.vhostAt k := by
  unfold onCommand
  obtain ⟨out, _ | g⟩ := read r env «from» args db
  · rfl
  · change ((Db.setVhost env g.account g.host g.setter g.ttl).run.run out).2.toStore.vhostAt k = _
    rw [Db.vhostAt_setVhost]
    by_cases taken : (out.accounts.contains (key g.account) && out.log.writable) = true
    · rw [Option.filter_some, if_pos taken]
      by_cases same : k = key g.account
      · rw [if_pos ⟨taken, same⟩]
        exact (if_pos same).symm
      · rw [if_neg fun both => same both.2]
        exact (if_neg same).symm
    · rw [Option.filter_some, if_neg taken, if_neg fun both => taken both.1]

theorem assigned_command : w.assigned r (.command order «from» args) =
    (read r (w.around r order) «from» args w.db).2.filter fun g =>
      (read r (w.around r order) «from» args w.db).1.accounts.contains (key g.account) &&
        (read r (w.around r order) «from» args w.db).1.log.writable := rfl

/-- What an action leaves of the vhosts: an assigned one is its account's, and the others
are those there were; where none is assigned, none is new. -/
theorem vhostAt_step : match w.assigned r a with
    | some g => ∀ k, (w.step r a).db.toStore.vhostAt k =
        if k = key g.account then some ⟨g.host, g.setter, w.now, g.ttl.map (expiryAfter w.now)⟩
        else w.db.toStore.vhostAt k
    | none => Sheds w.db (w.step r a).db := by
  cases a with
  | wait seconds => exact refl_of Sheds w.db
  | disk outcomes => exact refl_of Sheds w.db
  | command order «from» args =>
      have reads : Reads r (w.around r order) w.db (read r (w.around r order) «from» args w.db) :=
        reads_read
      have left_by : ∀ k, (w.step r (.command order «from» args)).db.toStore.vhostAt k = _ :=
        fun k => vhostAt_onCommand
      rw [assigned_command]
      generalize read r (w.around r order) «from» args w.db = out at reads left_by ⊢
      cases taken : out.2.filter fun g =>
          out.1.accounts.contains (key g.account) && out.1.log.writable with
      | none =>
          intro k v held
          rw [left_by k, taken] at held
          exact reads.sheds k v held
      | some g =>
          intro k
          have kept := (reads.asked g (Option.filter_eq_some_iff.mp taken).1).1.2 k
          rw [left_by k, taken]
          dsimp only
          rw [kept]
          rfl

/-- Nothing is assigned that is another account's to the letter. -/
theorem key_of_assigned (wf : w.db.Wf) (unique : Unique w.db w.now)
    (assigned : w.assigned r a = some g) {v : Vhost} (held : Live w.db w.now k v)
    (same : key v.host = key g.host) : k = key g.account := by
  cases a with
  | wait => cases assigned
  | disk => cases assigned
  | command order «from» args =>
      have reads : Reads r (w.around r order) w.db (read r (w.around r order) «from» args w.db) :=
        reads_read
      rw [assigned_command] at assigned
      have read_it := (Option.filter_eq_some_iff.mp assigned).1
      obtain ⟨spec, prepared⟩ := reads.prepared g read_it
      have kept := (reads.asked g read_it).1.2 k
      exact key_of_prepared (reads.wf wf) (unique.of_sheds reads.sheds le_rfl) prepared
        ⟨kept.trans held.1, held.2⟩ same

/-- An action keeps the hosts shown apart exactly if what it assigns is shown nowhere under
another ident; where it is shown under the same, it is not assigned. -/
theorem unique_step_iff (wf : w.db.Wf) (unique : Unique w.db w.now) :
    Unique (w.step r a).db (w.step r a).now ↔ w.Apart r a := by
  have after_step : match w.assigned r a with
    | some g => ∀ k, (w.step r a).db.toStore.vhostAt k =
        if k = key g.account then some ⟨g.host, g.setter, w.now, g.ttl.map (expiryAfter w.now)⟩
        else w.db.toStore.vhostAt k
    | none => Sheds w.db (w.step r a).db := vhostAt_step
  have later : w.now ≤ (w.step r a).now := by
    cases a with
    | wait seconds => exact Nat.le_add_right _ _
    | _ => exact le_rfl
  cases taken : w.assigned r a with
  | none =>
      rw [taken] at after_step
      refine ⟨fun _ g assigned => ?_, fun _ => unique.of_sheds after_step later⟩
      rw [taken] at assigned
      cases assigned
  | some g =>
      rw [taken] at after_step
      have now_same : (w.step r a).now = w.now := by
        cases a with
        | wait => cases taken
        | _ => rfl
      rw [now_same]
      have of_other : ∀ k v, k ≠ key g.account →
          (Live (w.step r a).db w.now k v ↔ Live w.db w.now k v) := by
        intro k v other
        unfold Live
        rw [after_step k, if_neg other]
      have of_own : ∀ v, Live (w.step r a).db w.now (key g.account) v ↔
          v = ⟨g.host, g.setter, w.now, g.ttl.map (expiryAfter w.now)⟩ ∧ w.Lives g := by
        intro v
        unfold Live World.Lives
        rw [after_step, if_pos rfl, Option.some.injEq, eq_comm]
        constructor
        · rintro ⟨rfl, lives⟩
          exact ⟨rfl, lives⟩
        · rintro ⟨rfl, lives⟩
          exact ⟨rfl, lives⟩
      constructor
      · intro unique' g' assigned lives k v other held shown
        rw [taken] at assigned
        cases assigned
        exact absurd (unique' k _ v _ ((of_other k v other).mpr held) ((of_own _).mpr ⟨rfl, lives⟩) shown)
          other
      · intro apart
        have clear : ∀ k v, k ≠ key g.account → w.Lives g → Live w.db w.now k v →
            displayed v.host ≠ displayed g.host := fun k v other lives held shown =>
          other (key_of_assigned wf unique taken held (apart g taken lives k v other held shown))
        intro k k' v v' one two shown
        by_cases own : k = key g.account <;> by_cases own' : k' = key g.account
        · rw [own, own']
        · subst own
          obtain ⟨rfl, lives⟩ := (of_own v).mp one
          exact absurd shown.symm (clear k' v' own' lives ((of_other k' v' own').mp two))
        · subst own'
          obtain ⟨rfl, lives⟩ := (of_own v').mp two
          exact absurd shown (clear k v own lives ((of_other k v own).mp one))
        · exact unique k k' v v' ((of_other k v own).mp one) ((of_other k' v' own').mp two) shown

/-- A user is assigned what no pattern forbids exactly if the patterns compile, or none
of them matches. -/
theorem allowed_iff : w.Allowed r a ↔ w.Compiled r a := by
  refine ⟨fun allowed g assigned asked => .inr (allowed g assigned asked), ?_⟩
  intro compiled g assigned asked p listed
  rcases compiled g assigned asked with fits | idle
  · cases a with
    | wait => cases assigned
    | disk => cases assigned
    | command order «from» args =>
        have reads : Reads r (w.around r order) w.db (read r (w.around r order) «from» args w.db) :=
          reads_read
        rw [assigned_command] at assigned
        obtain ⟨kept, open_to⟩ := reads.asked g (Option.filter_eq_some_iff.mp assigned).1
        have unmatched := open_to asked
        unfold Db.vhostIsForbidden at unmatched
        rw [kept.1, Bool.and_eq_false_iff, Bool.not_eq_false', List.isEmpty_iff] at unmatched
        rcases unmatched with none_listed | clear
        · rw [none_listed] at listed
          cases listed
        · by_contra hit
          have matched := (RegexCrate.setExact_of_fits fits g.host).mpr
            ⟨p, listed, by simpa using hit⟩
          rw [clear] at matched
          cases matched
  · exact idle p listed

theorem wf_step (wf : w.db.Wf) (a : Act) : (w.step r a).db.Wf := by
  cases a with
  | wait => exact wf
  | disk outcomes => exact Db.wf_step wf (.faults outcomes)
  | command order «from» args =>
      have reads : Reads r (w.around r order) w.db (read r (w.around r order) «from» args w.db) :=
        reads_read
      change (onCommand r (w.around r order) «from» args w.db).Wf
      unfold onCommand
      generalize read r (w.around r order) «from» args w.db = out at reads ⊢
      obtain ⟨db, grant⟩ := out
      have held := reads.wf wf
      cases grant with
      | none => exact held
      | some g => exact Db.wf_step held (.call _ g.call)

end Steps

/-- From a store whose accounts show different hosts, along any run of commands no two
accounts come to show the same and users are assigned no forbidden one, exactly if nothing is
assigned that another account shows under another ident, and the forbidden patterns compile
wherever a user is assigned what one of them matches. -/
theorem vhosts_sound_iff (r : RegexCrate) {w : World} (wf : w.db.Wf) (start : Unique w.db w.now)
    (acts : List Act) :
    ((∀ before, before <+: acts →
        Unique (after (World.step r) w before).db (after (World.step r) w before).now) ∧
      Along (World.step r) (fun w a => w.Allowed r a) w acts) ↔
    Along (World.step r) (fun w a => w.Apart r a) w acts ∧
      Along (World.step r) (fun w a => w.Compiled r a) w acts := by
  refine and_congr (Iff.symm ?_) ?_
  · exact along_iff_throughout (I := fun w : World => Unique w.db w.now)
      (J := fun w => w.db.Wf)
      (fun _ a wf => wf_step wf a) (fun _ _ wf unique => unique_step_iff wf unique) wf start
  · exact along_congr (J := fun _ => True) (fun _ _ _ => trivial) (fun _ _ _ => allowed_iff) trivial

/-! ### Two accounts -/

/-- A store without vhosts. -/
theorem unique_of_none {now : Nat} (bare : (db.accounts.toList.all fun a => a.2.vhost.isNone) = true) :
    Unique db now := by
  intro k k' v v' one
  obtain ⟨a, there, has⟩ := Option.bind_eq_some_iff.mp one.1
  have none_has := List.all_eq_true.mp bare (k, a)
    (Std.ExtTreeMap.mem_toList_iff_getElem?_eq_some.mpr there)
  rw [has] at none_has
  cases none_has

/-- Alice and bob have registered. -/
def registered : World where
  db := after Db.step (Db.fresh "a")
    [.call .still (.registerPrepared "alice" ⟨"v", "v", @rfl Bool false⟩ none),
      .call .still (.registerPrepared "bob" ⟨"v", "v", @rfl Bool false⟩ none)]
  now := 0

def operator : ChanServ.Sender := ⟨"1", "root", none, ⟨[.admin]⟩⟩

def assigning (account host : String) : Act := .command .still operator ["SET", account, host]

theorem vhosts_sound_alice :
    ((∀ before, before <+: [assigning "alice" "a.example"] →
        Unique (after (World.step .bulky) registered before).db
          (after (World.step .bulky) registered before).now) ∧
      Along (World.step .bulky) (fun w a => w.Allowed .bulky a) registered
        [assigning "alice" "a.example"]) ↔
    Along (World.step .bulky) (fun w a => w.Apart .bulky a) registered
        [assigning "alice" "a.example"] ∧
      Along (World.step .bulky) (fun w a => w.Compiled .bulky a) registered
        [assigning "alice" "a.example"] :=
  vhosts_sound_iff .bulky
    (Db.wf_after _ : registered.db.Wf)
    (unique_of_none (by decide +kernel)) _

/-- Both come to show one host, bob with an ident. -/
theorem vhosts_collide :
    ¬ Unique (after (World.step .bulky) registered
        [assigning "alice" "a.example", assigning "bob" "x@a.example"]).db 0 := by
  intro unique
  have same := unique "alice" "bob" ⟨"a.example", "root", 0, none⟩ ⟨"x@a.example", "root", 0, none⟩
    ⟨by decide +kernel, rfl⟩ ⟨by decide +kernel, rfl⟩ (by decide +kernel)
  exact absurd same (by decide)

end HostServ

end Echo
