import Echo.Login.Steps

/-!
Logins that are not stale. Between the look-up at a door and the login the account
may be dropped, registered anew, given another credential or suspended; no door
looks its credential up again, and only SASL looks for a suspension again. Where
no step of the store does that to a login under way, every login is into an
account that is there, is not suspended and holds what was checked.
-/

namespace Echo

open Std (ExtTreeMap)
open Echo.Lib

theorem Db.Reachable.tracked {db : Db} (h : db.Reachable) : db.Tracked := by
  obtain ⟨origin, file, actions, rfl⟩ := h
  have keeps (db : Db) (a : Action) (h : db.Wf ∧ db.Tracked) :
      (db.step a).Wf ∧ (db.step a).Tracked := ⟨Db.wf_step h.1 a, Db.tracked_step h.1 h.2⟩
  exact (invariant keeps ⟨Db.wf_open origin file, Db.tracked_open origin file⟩ actions).2

instance (a : Account) : ∀ credential, Decidable (a.Holds credential)
  | .verifier hash encoded => inferInstanceAs (Decidable (a.verifier hash = some encoded))
  | .pubkey pubkey => inferInstanceAs (Decidable (a.pubkey = some pubkey))
  | .certfp fp => inferInstanceAs (Decidable (toAsciiLowercase fp ∈ a.certfps))
  | .keycard => .isTrue trivial

/-! ### What is under way -/

/-- What a check proves if it comes out right; a wrong password proves nothing. -/
def Check.credential (c : Checks) : Check → Option Credential
  | .password verifier given =>
      if c.verifyPlain verifier given then some (.verifier .sha256 verifier) else none
  | .keycard .. => some .keycard

/-- The account that a check lets into, and whether it looks for a suspension again. -/
def AuthThen.entry : AuthThen → Option (String × Bool)
  | .identify _ _ account | .login _ _ account _ | .authenticate _ account | .panel _ account =>
      some (account, false)
  | .sasl _ account _ => some (account, true)
  | .website canon => canon.map (·, false)

/-- The login that a check handed over leads to. -/
def Deferred.pending (c : Checks) (d : Deferred) : Option Pending :=
  (d.check.credential c).bind fun credential =>
    d.next.entry.map fun (account, rechecked) => ⟨account, credential, rechecked⟩

/-- The login that an exchange leads to once the account has been looked up. -/
def SaslSession.pending : SaslSession → Option Pending
  | .scram hash (.clientFinal account verifier _) => some ⟨account, .verifier hash verifier, true⟩
  | .scram hash (.ack account proved) => some ⟨account, .verifier hash proved, true⟩
  | .ecdsa (.signature account pubkey _) => some ⟨account, .pubkey pubkey, true⟩
  | _ => none

theorem Deferred.pending_eq_some {c : Checks} {d : Deferred} {p : Pending} :
    d.pending c = some p ↔
      d.check.credential c = some p.credential ∧ d.next.entry = some (p.account, p.rechecked) := by
  unfold pending
  constructor
  · intro h
    obtain ⟨credential, proves, rest⟩ := Option.bind_eq_some_iff.mp h
    obtain ⟨⟨account, rechecked⟩, enters, rfl⟩ := Option.map_eq_some_iff.mp rest
    exact ⟨proves, enters⟩
  · rintro ⟨proves, enters⟩
    rw [proves, enters]
    rfl

namespace Logins

variable (c : Checks) (l : Logins)

/-- A login that is under way. -/
def Pends (p : Pending) : Prop := l.UnderWay (Deferred.pending c) SaslSession.pending p

/-- Whether a step leaves the logins under way what they rest on: a step of the
store leaves them the account, its credential and, but for SASL, no suspension; a
keycard is handed over for an account that is there. -/
def Steady : Step → Prop
  | .store a => ∀ p, l.Pends c p → ¬ l.db.Unseats p a
  | .saslData client chunk _ =>
      ∀ touched response authcid card,
        l.saslSessions[client]? = some ⟨touched, .plain response⟩ →
          c.decodePlain (gather response chunk) = some (authcid, card) →
            card.startsWith "kc_" = true → (l.db.resolveAccount authcid).isSome = true
  | _ => True

/-- The account is there, is not suspended and holds the credential. -/
def Current (account : String) (credential : Credential) : Prop :=
  ∃ a, l.db.accounts[key account]? = some a ∧ a.suspension.any l.inForce = false ∧
    a.Holds credential

instance (account : String) (credential : Credential) : Decidable (l.Current account credential) :=
  decidable_of_iff
    ((l.db.accounts[key account]?).any fun a =>
      a.suspension.any l.inForce = false ∧ a.Holds credential) <| by
    unfold Current
    cases l.db.accounts[key account]? with
    | none => simp
    | some a => simp

/-- Every login that a step makes is current. -/
def Honest (s : Step) : Prop :=
  ∀ visitor account credential, .login visitor account credential ∈ (l.take c s).2 →
    l.Current account credential

/-- What a run of steady steps keeps. -/
structure Settled : Prop where
  wf : l.db.Wf
  tracked : l.db.Tracked
  stands : ∀ p, l.Pends c p → l.db.Stands l.now p

/-! ### What a step leaves alone -/

section Frame

variable {c : Checks} {l : Logins}

theorem frame_precheck (name : String) :
    (l.precheck name).1.db = l.db ∧ (l.precheck name).1.now = l.now := by
  rcases l.precheck_cases name with ⟨found, passed⟩ | stopped | ⟨counted, -⟩
  · rw [passed]
    exact ⟨rfl, rfl⟩
  · rw [stopped]
    exact ⟨rfl, rfl⟩
  · rw [counted]
    exact ⟨db_noteAuth name false, now_noteAuth name false⟩

theorem frame_complete (ok : Bool) (credential : Credential) (next : AuthThen) :
    (l.complete c ok credential next).1.db = l.db ∧
      (l.complete c ok credential next).1.now = l.now := by
  cases next with
  | identify | login | authenticate | panel => exact ⟨db_noteAuth _ ok, now_noteAuth _ ok⟩
  | sasl client account password =>
      cases password with
      | true => exact ⟨db_noteAuth _ ok, now_noteAuth _ ok⟩
      | false => exact ⟨rfl, rfl⟩
  | website canon => cases canon <;> exact ⟨rfl, rfl⟩

theorem frame_saslScram (client : String) (hash : Hash) (chunk drawn : String) (step : ScramStep) :
    (l.saslScram c client hash chunk drawn step).1.db = l.db ∧
      (l.saslScram c client hash chunk drawn step).1.now = l.now := by
  cases step with
  | clientFirst =>
      unfold saslScram
      dsimp only
      repeat' split
      all_goals exact ⟨rfl, rfl⟩
  | clientFinal account verifier transcript =>
      unfold saslScram
      dsimp only
      split
      · exact ⟨rfl, rfl⟩
      split
      · exact ⟨db_noteAuth account true, now_noteAuth account true⟩
      · exact ⟨db_noteAuth account false, now_noteAuth account false⟩
  | ack account proved => exact ⟨rfl, rfl⟩

theorem frame_saslEcdsa (client chunk drawn : String) (step : EcdsaStep) :
    (l.saslEcdsa c client chunk drawn step).1.db = l.db ∧
      (l.saslEcdsa c client chunk drawn step).1.now = l.now := by
  cases step with
  | accountName =>
      unfold saslEcdsa
      dsimp only
      repeat' split
      all_goals exact ⟨rfl, rfl⟩
  | signature account pubkey challenge =>
      unfold saslEcdsa
      dsimp only
      split <;> exact ⟨rfl, rfl⟩

theorem frame_saslPlain (client response : String) :
    (l.saslPlain c client response).1.db = l.db ∧ (l.saslPlain c client response).1.now = l.now := by
  unfold saslPlain
  repeat' split
  all_goals exact ⟨rfl, rfl⟩

theorem frame_saslData (client chunk drawn : String) :
    (l.saslData c client chunk drawn).1.db = l.db ∧
      (l.saslData c client chunk drawn).1.now = l.now := by
  unfold saslData
  cases (l.saslSessions[client]?).map TimedSession.session with
  | none => exact ⟨rfl, rfl⟩
  | some session =>
      cases session with
      | plain response =>
          dsimp only
          split
          · exact ⟨rfl, rfl⟩
          split
          · exact ⟨rfl, rfl⟩
          · exact frame_saslPlain (l := { l with saslSessions := l.saslSessions.erase client }) _ _
      | scram hash step =>
          exact frame_saslScram (l := { l with saslSessions := l.saslSessions.erase client }) ..
      | external fingerprints => exact ⟨rfl, rfl⟩
      | ecdsa step =>
          exact frame_saslEcdsa (l := { l with saslSessions := l.saslSessions.erase client }) ..

theorem frame_identify (uid : String) (account : Option String) (name password : String) :
    (l.identify uid account name password).1.db = l.db ∧
      (l.identify uid account name password).1.now = l.now := by
  have checked := l.frame_precheck name
  unfold identify
  split
  · rename_i same
    rwa [same] at checked
  · rename_i same
    rw [same] at checked
    split <;> exact checked

theorem frame_login (uid : String) (account : Option String) (nick password : String) :
    (l.login uid account nick password).1.db = l.db ∧
      (l.login uid account nick password).1.now = l.now := by
  have checked := l.frame_precheck nick
  unfold login
  split
  · exact ⟨rfl, rfl⟩
  split
  · rename_i same
    rwa [same] at checked
  · rename_i same
    rwa [same] at checked

theorem frame_finish (i : Nat) (redeemed : Bool) :
    (l.finish c i redeemed).1.db = l.db ∧ (l.finish c i redeemed).1.now = l.now := by
  unfold finish
  cases l.deferred[i]? with
  | none => exact ⟨rfl, rfl⟩
  | some d =>
      have ended (ok : Bool) (credential : Credential) :=
        frame_complete (c := c) (l := { l with deferred := l.deferred.eraseIdx i }) ok credential d.next
      dsimp only
      split <;> exact ended _ _

/-- Steps of the store are the only ones that touch it, and the clock runs
forward. -/
theorem frame_step (s : Step) (served : ∀ a, s ≠ .store a) :
    (l.step c s).db = l.db ∧ l.now ≤ (l.step c s).now := by
  have unmoved {l' : Logins} (h : l'.db = l.db ∧ l'.now = l.now) : l'.db = l.db ∧ l.now ≤ l'.now :=
    ⟨h.1, h.2.ge⟩
  cases s with
  | identify => exact unmoved (frame_identify ..)
  | login => exact unmoved (frame_login ..)
  | saslStart =>
      refine unmoved ?_
      unfold step take saslStart
      dsimp only
      repeat' split
      all_goals exact ⟨rfl, rfl⟩
  | saslData => exact unmoved (frame_saslData ..)
  | saslEnd => exact unmoved ⟨rfl, rfl⟩
  | authenticate =>
      refine unmoved ?_
      unfold step take authenticate
      dsimp only
      split <;> exact ⟨rfl, rfl⟩
  | panelLogin =>
      refine unmoved ?_
      unfold step take panelLogin
      dsimp only
      split <;> exact ⟨rfl, rfl⟩
  | authLogin =>
      refine unmoved ?_
      unfold step take authLogin
      dsimp only
      repeat' split
      all_goals exact ⟨rfl, rfl⟩
  | finish => exact unmoved (frame_finish ..)
  | store a => exact absurd rfl (served a)
  | wait seconds => exact ⟨rfl, Nat.le_add_right l.now seconds⟩

end Frame

/-! ### What a door has looked up -/

section Lookups

variable {c : Checks} {l : Logins} {name account verifier : String} {p : Pending}

/-- What is looked up stands. -/
theorem stands_of_lookup (wf : l.db.Wf) {hash : Hash}
    (found : l.db.scramLookup name hash = some (account, verifier)) {rechecked : Bool}
    (free : rechecked = false → (l.db.resolveAccount name).any l.isSuspended = false) :
    l.db.Stands l.now ⟨account, .verifier hash verifier, rechecked⟩ := by
  rw [scramLookup_eq] at found
  obtain ⟨a, held, stored⟩ := Option.bind_eq_some_iff.mp found
  obtain ⟨v, holds, same⟩ := Option.map_eq_some_iff.mp stored
  cases same
  refine ⟨a, (holder_stored wf held).1, holds, fun once => ?_⟩
  have unsuspended := free once
  rw [resolved_suspended wf, held] at unsuspended
  exact unsuspended

theorem precheck_some (h : l.precheck name = (l, some (account, verifier))) :
    l.db.scramLookup name .sha256 = some (account, verifier) ∧
      (l.db.resolveAccount name).any l.isSuspended = false ∧ l.authLockout name = none := by
  unfold precheck at h
  split at h
  · simp at h
  split at h
  · simp at h
  split at h
  · simp at h
  rename_i free unlocked
  split at h
  · simp at h
  rename_i found lookup
  cases h
  exact ⟨lookup, Bool.not_eq_true _ ▸ free, Option.not_isSome_iff_eq_none.mp unlocked⟩

theorem authorityAuthBegin_some (h : l.authorityAuthBegin name = some (account, verifier)) :
    l.db.scramLookup name .sha256 = some (account, verifier) ∧
      (l.db.resolveAccount name).any l.isSuspended = false ∧ l.authLockout name = none := by
  unfold authorityAuthBegin at h
  split at h
  · contradiction
  split at h
  · contradiction
  rename_i free unlocked
  exact ⟨h, Bool.not_eq_true _ ▸ free, Option.not_isSome_iff_eq_none.mp unlocked⟩

/-- The website looks an account up by its own name and takes none that was ever
suspended. -/
theorem stands_of_webAuthLookup (wf : l.db.Wf)
    (found : l.webAuthLookup name = some (account, verifier)) :
    l.db.Stands l.now ⟨account, .verifier .sha256 verifier, false⟩ := by
  unfold webAuthLookup at found
  obtain ⟨a, held, looked⟩ := Option.bind_eq_some_iff.mp found
  split at looked
  · contradiction
  rename_i barred
  obtain ⟨v, holds, same⟩ := Option.map_eq_some_iff.mp looked
  cases same
  have named := wf.accounts (key name) a held
  refine ⟨a, ?_, holds, fun _ => ?_⟩
  · change l.db.accounts[key a.name]? = some a
    rw [named]
    exact held
  · cases was : a.suspension with
    | none => rfl
    | some suspension => simp [was] at barred

theorem stands_of_pubkeyLookup (wf : l.db.Wf) {pubkey : String}
    (found : l.db.pubkeyLookup name = some (account, pubkey)) :
    l.db.Stands l.now ⟨account, .pubkey pubkey, true⟩ := by
  unfold Db.pubkeyLookup at found
  obtain ⟨k, -, looked⟩ := Option.bind_eq_some_iff.mp found
  obtain ⟨a, held, stored⟩ := Option.bind_eq_some_iff.mp looked
  obtain ⟨v, holds, same⟩ := Option.map_eq_some_iff.mp stored
  cases same
  obtain rfl := wf.accounts k a held
  exact ⟨a, held, holds, fun once => Bool.noConfusion once⟩

/-- A keycard goes to the account that the name it was given with resolves to. -/
theorem stands_of_resolved (wf : l.db.Wf) (known : (l.db.resolveAccount name).isSome = true) :
    l.db.Stands l.now ⟨(l.db.resolveAccount name).getD name, .keycard, true⟩ := by
  rw [resolveAccount_eq] at known ⊢
  cases held : l.db.holder name with
  | none => simp [held] at known
  | some a => exact ⟨a, (holder_stored wf held).1, trivial, fun once => Bool.noConfusion once⟩

theorem credential_password {password : String} {credential : Credential}
    (h : (Check.password verifier password).credential c = some credential) :
    credential = .verifier .sha256 verifier := by
  unfold Check.credential at h
  dsimp only at h
  split at h
  · cases h
    rfl
  · contradiction

/-- What a door hands over stands. -/
theorem stands_of_hands (wf : l.db.Wf) {s : Step} {d : Deferred} (steady : l.Steady c s)
    (hands : Hands c l s d) (leads : d.pending c = some p) : l.db.Stands l.now p := by
  obtain ⟨account, credential, rechecked⟩ := p
  obtain ⟨proves, enters⟩ := Deferred.pending_eq_some.mp leads
  cases hands with
  | identify checked | login checked =>
      obtain rfl := credential_password proves
      obtain ⟨found, free, -⟩ := precheck_some checked
      cases enters
      exact stands_of_lookup wf found fun _ => free
  | authenticate checked | panel checked =>
      obtain rfl := credential_password proves
      obtain ⟨found, free, -⟩ := authorityAuthBegin_some checked
      cases enters
      exact stands_of_lookup wf found fun _ => free
  | sasl found =>
      obtain rfl := credential_password proves
      cases enters
      exact stands_of_lookup wf found fun once => Bool.noConfusion once
  | keycard held decoded marked =>
      cases proves
      cases enters
      exact stands_of_resolved wf (steady _ _ _ _ held decoded marked)
  | website found =>
      obtain rfl := credential_password proves
      cases enters
      exact stands_of_webAuthLookup wf found
  | stranger => cases enters

/-- An exchange that is opened or carried on stands. -/
theorem stands_of_opens (settled : l.Settled c) {session : SaslSession} (opens : Opens l session)
    (leads : session.pending = some p) : l.db.Stands l.now p := by
  cases opens with
  | plain | external | clientFirst | accountName => cases leads
  | clientFinal found =>
      cases leads
      exact stands_of_lookup settled.wf found fun once => Bool.noConfusion once
  | ack proved =>
      cases leads
      exact settled.stands _ (.inr ⟨_, _, proved, rfl⟩)
  | signature found =>
      cases leads
      exact stands_of_pubkeyLookup settled.wf found

/-- Fingerprints are not looked up ahead. -/
theorem Pends.typed (h : l.Pends c p) : p.credential.isCertfp = false := by
  rcases h with ⟨d, -, leads⟩ | ⟨client, t, -, leads⟩
  · have proves := (Deferred.pending_eq_some.mp leads).1
    cases shape : d.check with
    | password verifier password =>
        rw [shape] at proves
        rw [credential_password proves]
        rfl
    | keycard account token =>
        rw [shape] at proves
        rw [← Option.some.inj proves]
        rfl
  · obtain ⟨touched, session⟩ := t
    cases session with
    | plain | external => cases leads
    | scram hash step =>
        cases step with
        | clientFirst => cases leads
        | clientFinal | ack =>
            cases leads
            rfl
    | ecdsa step =>
        cases step with
        | accountName => cases leads
        | signature =>
            cases leads
            rfl

end Lookups

/-! ### Steps -/

section Steps

variable {c : Checks} {l : Logins} {s : Step}

/-- A steady step leaves every login under way standing. -/
theorem Settled.step (settled : l.Settled c) (steady : l.Steady c s) : (l.step c s).Settled c := by
  by_cases served : ∃ a, s = .store a
  · obtain ⟨a, rfl⟩ := served
    refine ⟨Db.wf_serve settled.wf a, Db.tracked_step settled.wf settled.tracked, fun p h => ?_⟩
    have pends : l.Pends c p := h
    exact Db.stands_serve settled.wf settled.tracked pends.typed (steady p pends)
      (settled.stands p pends)
  · obtain ⟨db, now⟩ := frame_step (c := c) (l := l) s fun a same => served ⟨a, same⟩
    refine ⟨db ▸ settled.wf, db ▸ settled.tracked, fun p h => ?_⟩
    rw [db]
    refine Store.Stands.later ?_ now
    rcases step_underWay h with old | ⟨d, hands, leads⟩ | ⟨session, opens, leads⟩
    · exact settled.stands p old
    · exact stands_of_hands settled.wf steady hands leads
    · exact stands_of_opens settled opens leads

/-! What is told of the logins a step makes. -/

variable {visitor : Visitor} {account : String} {credential : Credential}

theorem login_of_saslLogin {client name : String} {proved : Credential}
    (h : l.saslLogin client name proved = .login visitor account credential) :
    name = account ∧ proved = credential ∧ l.isSuspended account = false := by
  unfold saslLogin at h
  split at h
  · contradiction
  · rename_i free
    cases h
    exact ⟨rfl, rfl, (Bool.not_eq_true _).mp free⟩

theorem mem_judge {name judged : String} {ok : Bool} {entered : Logins → Outcome}
    (h : .login visitor account credential ∈ (l.judge name judged ok entered).2) :
    ok = true ∧ entered (l.noteAuth name ok) = .login visitor account credential := by
  cases ok with
  | false => simp [judge] at h
  | true =>
      refine ⟨rfl, ?_⟩
      simpa [judge, eq_comm] using h

/-- A check that comes out right lets in where it was to. -/
theorem mem_complete {ok : Bool} {proved : Credential} {next : AuthThen}
    (h : .login visitor account credential ∈ (l.complete c ok proved next).2) :
    ok = true ∧ proved = credential ∧ ∃ rechecked, next.entry = some (account, rechecked) ∧
      (rechecked = true → l.isSuspended account = false) := by
  cases next with
  | identify | login | authenticate =>
      obtain ⟨right, enters⟩ := mem_judge h
      cases enters
      exact ⟨right, rfl, false, rfl, fun again => Bool.noConfusion again⟩
  | panel name found =>
      obtain ⟨right, enters⟩ := mem_judge h
      split at enters
      · cases enters
        exact ⟨right, rfl, false, rfl, fun again => Bool.noConfusion again⟩
      · contradiction
  | sasl client found password =>
      cases password with
      | true =>
          have judged : .login visitor account credential ∈
              (l.judge found found ok (·.saslLogin client found proved)).2 := h
          obtain ⟨right, enters⟩ := mem_judge judged
          obtain ⟨rfl, rfl, free⟩ := login_of_saslLogin enters
          rw [isSuspended_noteAuth] at free
          exact ⟨right, rfl, true, rfl, fun _ => free⟩
      | false =>
          cases ok with
          | false => simp [complete] at h
          | true =>
              have enters : l.saslLogin client found proved = .login visitor account credential := by
                simpa [complete, eq_comm] using h
              obtain ⟨rfl, rfl, free⟩ := login_of_saslLogin enters
              exact ⟨rfl, rfl, true, rfl, fun _ => free⟩
  | website canon =>
      cases canon with
      | none => simp [complete] at h
      | some canon =>
          cases ok with
          | false => simp [complete] at h
          | true =>
              have enters : Outcome.login .website canon proved = .login visitor account credential := by
                simpa [complete, eq_comm] using h
              cases enters
              exact ⟨rfl, rfl, false, rfl, fun again => Bool.noConfusion again⟩

/-- What stands and was looked at for a suspension is current. -/
theorem current_of_stands {rechecked : Bool}
    (stands : l.db.Stands l.now ⟨account, credential, rechecked⟩)
    (free : rechecked = true → l.isSuspended account = false) : l.Current account credential := by
  obtain ⟨a, held, holds, unsuspended⟩ := stands
  refine ⟨a, held, ?_, holds⟩
  cases rechecked with
  | false => exact unsuspended rfl
  | true =>
      have looked := free rfl
      unfold isSuspended at looked
      rw [held] at looked
      exact looked

/-- EXTERNAL looks the fingerprint up and logs in at once. -/
theorem current_of_saslExternal (wf : l.db.Wf) {client chunk : String} {fingerprints : List String}
    (h : l.saslExternal c client fingerprints chunk = .login visitor account credential) :
    l.Current account credential := by
  unfold saslExternal at h
  split at h
  · contradiction
  split at h
  · contradiction
  rename_i fp owner found
  split at h
  · obtain ⟨rfl, rfl, free⟩ := login_of_saslLogin h
    obtain ⟨fp', -, owned⟩ := List.exists_of_findSome?_eq_some found
    obtain ⟨a, owns, same⟩ := Option.map_eq_some_iff.mp owned
    cases same
    unfold Db.certfpOwner at owns
    obtain ⟨acct, visited, rfl⟩ := Option.map_eq_some_iff.mp owns
    obtain ⟨k, held⟩ := Env.mem_values.mp (List.mem_of_find?_eq_some visited)
    obtain rfl := wf.accounts k acct held
    have lists := List.find?_some visited
    unfold isSuspended at free
    rw [held] at free
    exact ⟨acct, held, free, List.contains_iff_mem.mp lists⟩
  · contradiction

theorem honest_finish (settled : l.Settled c) (i : Nat) (redeemed : Bool) :
    l.Honest c (.finish i redeemed) := by
  intro visitor account credential h
  change _ ∈ (l.finish c i redeemed).2 at h
  unfold finish at h
  cases handed : l.deferred[i]? with
  | none => simp [handed] at h
  | some d =>
      rw [handed] at h
      have current {ok : Bool} {proved : Credential} (proves : ok = true → d.check.credential c = some proved)
          (h : .login visitor account credential ∈
            (complete c { l with deferred := l.deferred.eraseIdx i } ok proved d.next).2) :
          l.Current account credential := by
        obtain ⟨right, rfl, rechecked, enters, free⟩ := mem_complete h
        refine current_of_stands (settled.stands _ (.inl ⟨d, List.mem_of_getElem? handed, ?_⟩)) free
        exact Deferred.pending_eq_some.mpr ⟨proves right, enters⟩
      dsimp only at h
      split at h
      · rename_i verifier password shape
        refine current (fun right => ?_) h
        rw [shape]
        exact if_pos right
      · rename_i shape
        refine current (fun _ => ?_) h
        rw [shape]
        rfl

theorem honest_saslData (settled : l.Settled c) (client chunk drawn : String) :
    l.Honest c (.saslData client chunk drawn) := by
  intro visitor account credential h
  change _ ∈ (l.saslData c client chunk drawn).2 at h
  unfold saslData at h
  cases held : l.saslSessions[client]? with
  | none => simp [held] at h
  | some t =>
      obtain ⟨touched, session⟩ := t
      rw [held] at h
      cases session with
      | plain response =>
          simp only [Option.map_some] at h
          unfold saslPlain at h
          repeat' split at h
          all_goals simp [defer] at h
      | scram hash step =>
          cases step with
          | clientFirst =>
              simp only [Option.map_some, saslScram] at h
              repeat' split at h
              all_goals simp at h
          | clientFinal found verifier transcript =>
              simp only [Option.map_some, saslScram] at h
              repeat' split at h
              all_goals simp at h
          | ack found proved =>
              obtain ⟨rfl, rfl, free⟩ := login_of_saslLogin (List.mem_singleton.mp h).symm
              refine current_of_stands (settled.stands _ (.inr ⟨client, _, held, rfl⟩)) fun _ => free
      | external fingerprints =>
          exact current_of_saslExternal (l := { l with saslSessions := l.saslSessions.erase client })
            settled.wf (List.mem_singleton.mp h).symm
      | ecdsa step =>
          cases step with
          | accountName =>
              simp only [Option.map_some, saslEcdsa] at h
              repeat' split at h
              all_goals simp at h
          | signature found pubkey challenge =>
              simp only [Option.map_some, saslEcdsa] at h
              split at h
              · obtain ⟨rfl, rfl, free⟩ := login_of_saslLogin (List.mem_singleton.mp h).symm
                refine current_of_stands (settled.stands _ (.inr ⟨client, _, held, rfl⟩)) fun _ => free
              · simp at h

/-- Where the logins under way stand, every login a step makes is current. -/
theorem honest_step (settled : l.Settled c) (s : Step) : l.Honest c s := by
  cases s with
  | identify uid account name password =>
      intro visitor found credential h
      simp only [take, identify] at h
      repeat' split at h
      all_goals simp [defer] at h
  | login uid account nick password =>
      intro visitor found credential h
      simp only [take, login] at h
      repeat' split at h
      all_goals simp [defer] at h
  | saslStart client mech fingerprints =>
      intro visitor found credential h
      simp only [take, saslStart] at h
      repeat' split at h
      all_goals simp at h
  | saslData client chunk drawn => exact honest_saslData settled client chunk drawn
  | authenticate name password =>
      intro visitor found credential h
      simp only [take, authenticate] at h
      split at h <;> simp [defer] at h
  | panelLogin name password =>
      intro visitor found credential h
      simp only [take, panelLogin] at h
      split at h <;> simp [defer] at h
  | authLogin account password =>
      intro visitor found credential h
      simp only [take, authLogin] at h
      repeat' split at h
      all_goals simp [defer] at h
  | finish i redeemed => exact honest_finish settled i redeemed
  | saslEnd | store | wait =>
      intro visitor found credential h
      simp [take] at h

end Steps

/-- From an engine that starts over any store that a run leads to: where every step
is steady, every login is into an account that is there at that moment, is not
suspended and holds the credential that was checked. -/
theorem logins_fresh (c : Checks) {db : Db} (reached : db.Reachable) (now : Nat) (steps : List Step)
    (steady : Along (step c) (Steady c) { db, now } steps) :
    Along (step c) (Honest c) { db, now } steps := by
  refine steady.of_invariant (I := Settled c) (fun l s settled => settled.step)
    (fun l s settled _ => honest_step settled s) ⟨reached.wf, reached.tracked, ?_⟩
  rintro p (⟨d, mem, -⟩ | ⟨client, t, held, -⟩)
  · contradiction
  · change (∅ : Table TimedSession)[client]? = some t at held
    rw [ExtTreeMap.getElem?_empty] at held
    contradiction

/-! ### A login overtaken -/

/-- Alice sends her password, and another node's event comes in before the check
is out. -/
def overtaken (e : Event) : Logins :=
  after (step .sample) sample
    [.identify "1AAAAAAAB" none "alice" "sesame", .store (.ingest .still ⟨"b", 5, 6, 0, none, e⟩)]

/-- She is logged in although she was suspended, her password was changed or the
account is gone. -/
theorem login_stale :
    ¬ (overtaken (.accountSuspended "alice" "staff" "" 100 none)).Honest .sample (.finish 0 false) ∧
      ¬ (overtaken (.accountPasswordSet "alice" cardVerifier "")).Honest .sample
        (.finish 0 false) ∧
      ¬ (overtaken (.accountDropped "alice")).Honest .sample (.finish 0 false) := by
  have stale {l : Logins}
      (enters : .login (.user "1AAAAAAAB") "alice" (.verifier .sha256 sesameVerifier) ∈
        (l.take .sample (.finish 0 false)).2)
      (passed : ¬ l.Current "alice" (.verifier .sha256 sesameVerifier)) :
      ¬ l.Honest .sample (.finish 0 false) := fun honest => passed (honest _ _ _ enters)
  refine ⟨stale ?_ ?_, stale ?_ ?_, stale ?_ ?_⟩
  all_goals decide +kernel

/-- While bob's password is changed, alice's login goes through. -/
theorem logins_fresh_alice :
    let l := overtaken (.accountPasswordSet "bob" cardVerifier "")
    .login (.user "1AAAAAAAB") "alice" (.verifier .sha256 sesameVerifier) ∈
        (l.take .sample (.finish 0 false)).2 ∧
      l.Current "alice" (.verifier .sha256 sesameVerifier) := by
  intro l
  have reached : sample.db.Reachable := ⟨"a", [], _, rfl⟩
  have enters : .login (.user "1AAAAAAAB") "alice" (.verifier .sha256 sesameVerifier) ∈
      (l.take .sample (.finish 0 false)).2 := by decide +kernel
  have run := logins_fresh .sample reached 100
    [.identify "1AAAAAAAB" none "alice" "sesame",
      .store (.ingest .still ⟨"b", 5, 6, 0, none, .accountPasswordSet "bob" cardVerifier ""⟩),
      .finish 0 false] ⟨trivial, ?_, trivial, trivial⟩
  · exact ⟨enters, run.2.2.1 _ _ _ enters⟩
  · rintro p (⟨d, mem, leads⟩ | ⟨client, t, held, -⟩)
    · have only : (sample.step .sample (.identify "1AAAAAAAB" none "alice" "sesame")).deferred =
          [⟨.password sesameVerifier "sesame", .identify "1AAAAAAAB" "alice" "alice"⟩] := by
        decide +kernel
      have handed := only ▸ mem
      rw [List.mem_singleton] at handed
      subst handed
      have enters := (Deferred.pending_eq_some.mp leads).2
      rintro ⟨-, same, -⟩
      have alice : "alice" = p.account := congrArg Prod.fst (Option.some.inj enters)
      rw [← alice] at same
      exact absurd same (by decide +kernel)
    · change (∅ : Table TimedSession)[client]? = some t at held
      rw [ExtTreeMap.getElem?_empty] at held
      contradiction

end Logins

end Echo
