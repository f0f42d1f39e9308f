import Echo.Login.Doors

/-!
One attempt at each door, with nothing in between. A name resolves to the account
that holds it, itself or by an alias; every door that takes a password lets in
whoever knows the password of that account while it is not suspended, the panel
operators only and the website verified accounts only.
-/

namespace Echo

open Std (ExtTreeMap)
open Echo.Lib

/-- A store that some run over a log file ends in. -/
def Db.Reachable (db : Db) : Prop :=
  ∃ origin file actions, db = after Db.step (Db.open' origin file) actions

theorem Db.Reachable.wf {db : Db} (h : db.Reachable) : db.Wf := by
  obtain ⟨origin, file, actions, rfl⟩ := h
  exact Db.wf_after actions

/-- The account that a name resolves to. -/
def Db.holder (db : Db) (name : String) : Option Account :=
  (db.resolvedKey name).bind fun k => db.accounts[k]?

/-- A way in with a name and a password. -/
inductive Door where
  | identify (uid : String) (account : Option String)
  | login (uid : String) (account : Option String)
  /-- The last chunk of a PLAIN response. -/
  | saslPlain (client response : String)
  | authenticate
  | panel
  | website
  deriving DecidableEq

namespace Logins

variable (c : Checks) (l : Logins)

def enter (name password : String) : Door → Logins × List Outcome
  | .identify uid account => l.identify uid account name password
  | .login uid account => l.login uid account name password
  | .saslPlain client response => l.saslPlain c client response
  | .authenticate => l.authenticate name password
  | .panel => l.panelLogin name password
  | .website => l.authLogin c.dummyVerifier name password

/-- Whether an attempt at a door logs in, once its check came out. -/
def admits (door : Door) (name password : String) : Bool :=
  (((l.enter c name password door).1.finish c l.deferred.length false).2).any Outcome.isLogin

/-- Whether a password opens the account a name resolves to. -/
def opens (name password : String) : Bool :=
  (l.db.holder name).any fun a =>
    !a.suspension.any l.inForce && a.scram256.any (c.verifyPlain · password)

/-! ### Names -/

section Names

variable {l : Logins} {name : String} {a : Account}

theorem resolveAccount_eq (db : Db) (name : String) :
    db.resolveAccount name = (db.holder name).map (·.name) := by
  unfold Db.resolveAccount Db.holder
  rw [Option.map_bind]
  rfl

theorem scramLookup_eq (db : Db) (name : String) (hash : Hash) :
    db.scramLookup name hash =
      (db.holder name).bind fun a => (a.verifier hash).map fun v => (a.name, v) := by
  unfold Db.scramLookup Db.holder
  rw [Option.bind_assoc]

theorem holder_stored (wf : l.db.Wf) (held : l.db.holder name = some a) :
    l.db.accounts[key a.name]? = some a ∧ l.db.resolvedKey name = some (key a.name) := by
  obtain ⟨k, resolved, stored⟩ := Option.bind_eq_some_iff.mp held
  obtain rfl := wf.accounts k a stored
  exact ⟨stored, resolved⟩

theorem isSuspended_holder (wf : l.db.Wf) (held : l.db.holder name = some a) :
    l.isSuspended a.name = a.suspension.any l.inForce := by
  unfold isSuspended
  rw [(holder_stored wf held).1]
  rfl

/-- The attempts on every name of an account are counted together. -/
theorem throttleKey_holder (wf : l.db.Wf) (held : l.db.holder name = some a) :
    l.throttleKey a.name = l.throttleKey name := by
  obtain ⟨stored, resolved⟩ := holder_stored wf held
  have own : l.db.resolvedKey a.name = some (key a.name) := by
    unfold Db.resolvedKey
    rw [if_pos]
    exact Table.contains_of_some stored
  unfold throttleKey
  rw [own, resolved]
  rfl

theorem authLockout_holder (wf : l.db.Wf) (held : l.db.holder name = some a) :
    l.authLockout a.name = l.authLockout name := by
  unfold authLockout
  rw [throttleKey_holder wf held]

theorem resolved_suspended (wf : l.db.Wf) (name : String) :
    (l.db.resolveAccount name).any l.isSuspended =
      (l.db.holder name).any fun a => a.suspension.any l.inForce := by
  rw [resolveAccount_eq]
  cases held : l.db.holder name with
  | none => rfl
  | some a => exact isSuspended_holder wf held

end Names

/-! ### Before the check -/

/-- What a door hands over to be checked: nothing for a suspended account or one
without a verifier. -/
def cleared (name : String) : Option (String × String) :=
  (l.db.holder name).bind fun a =>
    if a.suspension.any l.inForce then none else a.scram256.map fun v => (a.name, v)

section Before

variable {l : Logins} {name : String}

theorem cleared_eq (name : String) :
    l.cleared name =
      if (l.db.holder name).any (fun a => a.suspension.any l.inForce) then none
      else l.db.scramLookup name .sha256 := by
  unfold cleared
  rw [scramLookup_eq]
  cases l.db.holder name with
  | none => rfl
  | some a => rfl

/-- A pre-check hands over what is cleared; otherwise it may count a failure. -/
theorem precheck_cleared (wf : l.db.Wf) (unlocked : l.authLockout name = none) :
    (∃ found, l.cleared name = some found ∧ l.precheck name = (l, some found)) ∨
      l.cleared name = none ∧ ∃ l', l.precheck name = (l', none) ∧ l'.deferred = l.deferred := by
  unfold precheck
  rw [resolved_suspended wf, cleared_eq, unlocked]
  by_cases unknown : l.db.exists name = false
  · have nobody : l.db.holder name = none := by
      unfold Db.exists at unknown
      unfold Db.holder
      rw [Option.isSome_eq_false_iff, Option.isNone_iff_eq_none] at unknown
      rw [unknown]
      rfl
    refine .inr ⟨?_, l, ?_, rfl⟩
    · rw [scramLookup_eq, nobody]
      rfl
    · rw [unknown]
      rfl
  · rw [Bool.not_eq_false] at unknown
    rw [unknown]
    by_cases suspended : (l.db.holder name).any (fun a => a.suspension.any l.inForce) = true
    · rw [if_pos suspended]
      refine .inr ⟨rfl, l, ?_, rfl⟩
      simp [suspended]
    · rw [if_neg suspended]
      cases lookup : l.db.scramLookup name .sha256 with
      | none => exact .inr ⟨rfl, l.noteAuth name false, by simp [suspended], rfl⟩
      | some found => exact .inl ⟨found, rfl, by simp [suspended]⟩

theorem authorityAuthBegin_cleared (wf : l.db.Wf) (unlocked : l.authLockout name = none) :
    l.authorityAuthBegin name = l.cleared name := by
  unfold authorityAuthBegin
  rw [resolved_suspended wf, cleared_eq, unlocked]
  rfl

variable {c : Checks} {password : String}

theorem opens_of_cleared {account verifier : String} (h : l.cleared name = some (account, verifier)) :
    l.opens c name password = c.verifyPlain verifier password := by
  unfold cleared at h
  obtain ⟨a, held, standing⟩ := Option.bind_eq_some_iff.mp h
  unfold opens
  rw [held]
  split at standing
  · contradiction
  · rename_i free
    obtain ⟨v, stored, same⟩ := Option.map_eq_some_iff.mp standing
    cases same
    simp [free, stored]

theorem opens_of_not_cleared (h : l.cleared name = none) : l.opens c name password = false := by
  unfold cleared at h
  unfold opens
  cases held : l.db.holder name with
  | none => rfl
  | some a =>
      rw [held] at h
      simp only [Option.bind_some] at h
      split at h
      · rename_i suspended
        simp [suspended]
      · rw [Option.map_eq_none_iff] at h
        simp [h]

/-! ### After the check -/

/-- A check that was just handed over finishes from the state before. -/
theorem finish_deferred (check : Check) (next : AuthThen) :
    (((l.defer check next).1).finish c l.deferred.length false).2 =
      match check with
      | .password verifier password =>
          (l.complete c (c.verifyPlain verifier password) (.verifier .sha256 verifier) next).2
      | .keycard .. => (l.complete c false .keycard next).2 := by
  have last : (l.defer check next).1.deferred[l.deferred.length]? = some ⟨check, next⟩ := by
    simp [Logins.defer]
  have back : { (l.defer check next).1 with
      deferred := (l.defer check next).1.deferred.eraseIdx l.deferred.length } = l := by
    simp [Logins.defer, List.eraseIdx_append_of_length_le]
  unfold finish
  rw [last]
  simp only [back]
  cases check <;> rfl

theorem finish_none {i : Nat} (gone : l.deferred[i]? = none) (redeemed : Bool) :
    l.finish c i redeemed = (l, []) := by
  unfold finish
  rw [gone]

theorem judge_isLogin {account : String} {ok : Bool} {entered : Logins → Outcome} :
    ((l.judge name account ok entered).2).any Outcome.isLogin =
      (ok && (entered (l.noteAuth name ok)).isLogin) := by
  cases ok <;> simp [judge, Outcome.isLogin]

/-- A door that hands over what is cleared and then judges it lets in whoever the
account opens to. -/
theorem admits_judged {door : Door} {account verifier : String} {next : AuthThen}
    {entered : Logins → Outcome}
    (cleared : l.cleared name = some (account, verifier))
    (begun : l.enter c name password door = l.defer (.password verifier password) next)
    (ends : ∀ ok, l.complete c ok (.verifier .sha256 verifier) next =
      l.judge name account ok entered) :
    l.admits c door name password =
      (l.opens c name password &&
        (entered (l.noteAuth name (l.opens c name password))).isLogin) := by
  unfold admits
  rw [begun, finish_deferred]
  dsimp only
  rw [ends, judge_isLogin, opens_of_cleared cleared]

theorem not_admits {door : Door} {l' : Logins} {out : List Outcome}
    (begun : l.enter c name password door = (l', out)) (same : l'.deferred = l.deferred) :
    l.admits c door name password = false := by
  unfold admits
  rw [begun, finish_none]
  · rfl
  · rw [same]
    exact List.getElem?_eq_none (Nat.le_refl _)

/-- What is cleared is the account that the name resolves to. -/
theorem resolveAccount_of_cleared {account verifier : String}
    (cleared : l.cleared name = some (account, verifier)) :
    l.db.resolveAccount name = some account := by
  obtain ⟨a, held, standing⟩ := Option.bind_eq_some_iff.mp cleared
  split at standing
  · contradiction
  · obtain ⟨v, -, pair⟩ := Option.map_eq_some_iff.mp standing
    cases pair
    rw [resolveAccount_eq, held]
    rfl

/-! ### What each door checks -/

theorem enter_identify (l : Logins) (c : Checks) (name password uid : String) (account : Option String) :
    l.enter c name password (.identify uid account) =
      match l.precheck name with
      | (l, none) => (l, [.refused])
      | (l, some (found, verifier)) =>
          if account = some found then (l, [.alreadyIdentified])
          else l.defer (.password verifier password) (.identify uid name found) := rfl

theorem enter_login (c : Checks) (password uid : String) {account : Option String}
    (outside : ¬ (account.isSome ∧ l.db.resolveAccount name = account)) :
    l.enter c name password (.login uid account) =
      match l.precheck name with
      | (l, none) => (l, [.refused])
      | (l, some (found, verifier)) =>
          l.defer (.password verifier password) (.login uid name found name) := if_neg outside

theorem enter_authenticate (l : Logins) (c : Checks) (name password : String) :
    l.enter c name password .authenticate =
      match l.authorityAuthBegin name with
      | none => (l, [.refused])
      | some (account, verifier) =>
          l.defer (.password verifier password) (.authenticate name account) := rfl

theorem enter_panel (l : Logins) (c : Checks) (name password : String) :
    l.enter c name password .panel =
      match l.authorityAuthBegin name with
      | none => (l, [.refused])
      | some (account, verifier) => l.defer (.password verifier password) (.panel name account) := rfl

theorem enter_saslPlain (l : Logins) (client : String) {response : String}
    (decoded : c.decodePlain response = some (name, password)) (plain : password.startsWith "kc_" = false) :
    l.enter c name password (.saslPlain client response) =
      match l.db.scramLookup name .sha256 with
      | none => (l, [.refused])
      | some (account, verifier) =>
          if (l.authLockout account).isSome then (l, [.refused])
          else l.defer (.password verifier password) (.sasl client account true) := by
  change l.saslPlain c client response = _
  unfold saslPlain
  rw [decoded]
  dsimp only
  rw [plain]
  rfl

theorem enter_website (l : Logins) (c : Checks) (named : trim name ≠ "") (given : password ≠ "") :
    l.enter c name password .website =
      match l.webAuthLookup (trim name) with
      | none => l.defer (.password c.dummyVerifier password) (.website none)
      | some (canon, verifier) => l.defer (.password verifier password) (.website (some canon)) := by
  change l.authLogin c.dummyVerifier name password = _
  unfold authLogin
  exact if_neg (not_or.mpr ⟨named, given⟩)

theorem admits_identify (wf : l.db.Wf) (unlocked : l.authLockout name = none) (uid : String)
    {account : Option String} (apart : ∀ found ∈ account, l.db.resolveAccount name ≠ some found) :
    l.admits c (.identify uid account) name password = l.opens c name password := by
  have entered := enter_identify l c name password uid account
  rcases precheck_cleared wf unlocked with ⟨⟨found, verifier⟩, cleared, checked⟩ | ⟨cleared, l', checked, same⟩
  · have other : account ≠ some found := fun already =>
      apart found already (resolveAccount_of_cleared cleared)
    rw [checked] at entered
    have begun := entered.trans (if_neg other)
    have ends (ok : Bool) : l.complete c ok (.verifier .sha256 verifier) (.identify uid name found) =
        l.judge name found ok fun _ => .login (.user uid) found (.verifier .sha256 verifier) := rfl
    rw [admits_judged cleared begun ends]
    exact Bool.and_true _
  · rw [checked] at entered
    rw [not_admits entered same, opens_of_not_cleared cleared]

theorem admits_login (wf : l.db.Wf) (unlocked : l.authLockout name = none) (uid : String)
    {account : Option String} (apart : ∀ found ∈ account, l.db.resolveAccount name ≠ some found) :
    l.admits c (.login uid account) name password = l.opens c name password := by
  have other : ¬ (account.isSome ∧ l.db.resolveAccount name = account) := by
    rintro ⟨inside, same⟩
    obtain ⟨found, rfl⟩ := Option.isSome_iff_exists.mp inside
    exact apart found rfl same
  have entered := enter_login c password uid other
  rcases precheck_cleared wf unlocked with ⟨⟨found, verifier⟩, cleared, checked⟩ | ⟨cleared, l', checked, same⟩
  · rw [checked] at entered
    have ends (ok : Bool) : l.complete c ok (.verifier .sha256 verifier) (.login uid name found name) =
        l.judge name found ok fun _ => .login (.user uid) found (.verifier .sha256 verifier) := rfl
    rw [admits_judged cleared entered ends]
    exact Bool.and_true _
  · rw [checked] at entered
    rw [not_admits entered same, opens_of_not_cleared cleared]

theorem admits_authenticate (wf : l.db.Wf) (unlocked : l.authLockout name = none) :
    l.admits c .authenticate name password = l.opens c name password := by
  have entered := enter_authenticate l c name password
  rw [authorityAuthBegin_cleared wf unlocked] at entered
  cases cleared : l.cleared name with
  | none =>
      rw [cleared] at entered
      rw [not_admits entered rfl, opens_of_not_cleared cleared]
  | some found =>
      obtain ⟨account, verifier⟩ := found
      rw [cleared] at entered
      have ends (ok : Bool) : l.complete c ok (.verifier .sha256 verifier) (.authenticate name account) =
          l.judge name account ok fun _ => .login .provider account (.verifier .sha256 verifier) := rfl
      rw [admits_judged cleared entered ends]
      exact Bool.and_true _

theorem isOper_noteAuth (ok : Bool) (account : String) :
    (l.noteAuth name ok).isOper c account = l.isOper c account := by
  cases ok <;> rfl

theorem isSuspended_noteAuth (ok : Bool) (account : String) :
    (l.noteAuth name ok).isSuspended account = l.isSuspended account := by
  cases ok <;> rfl

theorem admits_panel (wf : l.db.Wf) (unlocked : l.authLockout name = none) :
    l.admits c .panel name password =
      (l.opens c name password && (l.db.resolveAccount name).any (l.isOper c)) := by
  have entered := enter_panel l c name password
  rw [authorityAuthBegin_cleared wf unlocked] at entered
  cases cleared : l.cleared name with
  | none =>
      rw [cleared] at entered
      rw [not_admits entered rfl, opens_of_not_cleared cleared]
      rfl
  | some found =>
      obtain ⟨account, verifier⟩ := found
      rw [cleared] at entered
      have ends (ok : Bool) : l.complete c ok (.verifier .sha256 verifier) (.panel name account) =
          l.judge name account ok fun l =>
            if l.isOper c account then .login .panel account (.verifier .sha256 verifier)
            else .refused := rfl
      rw [admits_judged cleared entered ends, resolveAccount_of_cleared cleared, Option.any_some,
        isOper_noteAuth]
      cases l.isOper c account <;> rfl

/-- SASL checks for a suspension only once the password was right. -/
theorem admits_saslPlain (wf : l.db.Wf) (unlocked : l.authLockout name = none) (client : String)
    {response : String} (decoded : c.decodePlain response = some (name, password))
    (plain : password.startsWith "kc_" = false) :
    l.admits c (.saslPlain client response) name password = l.opens c name password := by
  have entered := enter_saslPlain l client decoded plain
  rw [scramLookup_eq] at entered
  cases held : l.db.holder name with
  | none =>
      rw [held] at entered
      rw [not_admits entered rfl]
      unfold opens
      rw [held]
      rfl
  | some a =>
      rw [held] at entered
      have free : (l.authLockout a.name).isSome = false := by
        rw [authLockout_holder wf held, unlocked]
        rfl
      cases stored : a.scram256 with
      | none =>
          have refused : l.enter c name password (.saslPlain client response) = (l, [.refused]) := by
            rw [entered, Option.bind_some, show a.verifier .sha256 = none from stored]
            rfl
          rw [not_admits refused rfl]
          unfold opens
          rw [held, Option.any_some, stored]
          exact (Bool.and_false _).symm
      | some verifier =>
          have begun : l.enter c name password (.saslPlain client response) =
              l.defer (.password verifier password) (.sasl client a.name true) := by
            rw [entered, Option.bind_some, show a.verifier .sha256 = some verifier from stored]
            dsimp only [Option.map_some]
            rw [free]
            rfl
          have ends (ok : Bool) : l.complete c ok (.verifier .sha256 verifier) (.sasl client a.name true) =
              l.judge a.name a.name ok (·.saslLogin client a.name (.verifier .sha256 verifier)) := rfl
          have entry (ok : Bool) :
              ((l.noteAuth a.name ok).saslLogin client a.name (.verifier .sha256 verifier)).isLogin =
                !a.suspension.any l.inForce := by
            unfold saslLogin
            rw [isSuspended_noteAuth, isSuspended_holder wf held]
            cases a.suspension.any l.inForce <;> rfl
          unfold admits opens
          rw [begun, finish_deferred]
          dsimp only
          rw [ends, judge_isLogin, entry, held, Option.any_some, stored, Option.any_some, Bool.and_comm]

/-- The website takes an account's own name, not an alias. -/
theorem holder_own {db : Db} {name : String}
    (own : db.accounts.contains (key name) = false → db.grouped[key name]? = none) :
    db.holder name = db.accounts[key name]? := by
  unfold Db.holder Db.resolvedKey
  cases known : db.accounts.contains (key name) with
  | true => rfl
  | false =>
      rw [own known]
      have nobody : db.accounts[key name]? = none := by
        rw [← Option.not_isSome_iff_eq_none, ← ExtTreeMap.contains_eq_isSome_getElem?, known]
        simp
      rw [nobody]
      rfl

theorem admits_website (named : trim name ≠ "") (given : password ≠ "")
    (own : l.db.accounts.contains (key (trim name)) = false → l.db.grouped[key (trim name)]? = none)
    (lasting : ∀ a ∈ l.db.holder (trim name), ∀ s ∈ a.suspension, l.inForce s = true) :
    l.admits c .website name password =
      (l.opens c (trim name) password && (l.db.holder (trim name)).any (·.verified)) := by
  have entered := enter_website l c named given
  have refuses (looked : l.webAuthLookup (trim name) = none) :
      l.admits c .website name password = false := by
    rw [looked] at entered
    unfold admits
    rw [entered, finish_deferred]
    rfl
  unfold webAuthLookup at entered refuses
  rw [← holder_own own] at entered refuses
  unfold opens
  cases held : l.db.holder (trim name) with
  | none =>
      rw [held] at refuses
      rw [refuses rfl]
      rfl
  | some a =>
      rw [held] at entered refuses lasting
      simp only [Option.bind_some, Option.any_some] at entered refuses ⊢
      have forceful : a.suspension.any l.inForce = a.suspension.isSome := by
        cases was : a.suspension with
        | none => rfl
        | some s => exact lasting a rfl s was
      rw [forceful]
      by_cases barred : (!a.verified || a.suspension.isSome) = true
      · rw [if_pos barred] at refuses
        rw [refuses rfl]
        rcases Bool.or_eq_true_iff.mp barred with unverified | suspended
        · simp at unverified
          simp [unverified]
        · simp [suspended]
      · rw [if_neg barred] at entered refuses
        rw [Bool.not_eq_true, Bool.or_eq_false_iff] at barred
        obtain ⟨verified, free⟩ := barred
        rw [Bool.not_eq_false'] at verified
        cases stored : a.scram256 with
        | none =>
            rw [stored] at refuses
            rw [refuses rfl]
            simp
        | some verifier =>
            rw [stored] at entered
            dsimp only [Option.map_some] at entered
            unfold admits
            rw [entered, finish_deferred, verified, free]
            dsimp only
            unfold complete
            cases right : c.verifyPlain verifier password <;> simp [Outcome.isLogin, right]

end Before

/-! ### The doors -/

/-- For every store that a run leads to and every name, while no lockout is in
force: the doors that take a password let in alike, by the account the name
resolves to. A session that is in already is told so, a password that begins like
a keycard is redeemed as one by SASL, the panel lets in operators only; the
website takes verified accounts by their own name, white space around it cut off,
and nothing is said of one whose suspension has run out. -/
theorem doors_agree (reached : l.db.Reachable) (name password : String) (given : password ≠ "")
    (unlocked : l.authLockout name = none) :
    (∀ uid account, (∀ found ∈ account, l.db.resolveAccount name ≠ some found) →
        l.admits c (.identify uid account) name password = l.opens c name password ∧
          l.admits c (.login uid account) name password = l.opens c name password) ∧
      (∀ client response, c.decodePlain response = some (name, password) →
        password.startsWith "kc_" = false →
          l.admits c (.saslPlain client response) name password = l.opens c name password) ∧
      l.admits c .authenticate name password = l.opens c name password ∧
      l.admits c .panel name password =
        (l.opens c name password && (l.db.resolveAccount name).any (l.isOper c)) ∧
      (trim name ≠ "" →
        (l.db.accounts.contains (key (trim name)) = false → l.db.grouped[key (trim name)]? = none) →
        (∀ a ∈ l.db.holder (trim name), ∀ s ∈ a.suspension, l.inForce s = true) →
          l.admits c .website name password =
            (l.opens c (trim name) password && (l.db.holder (trim name)).any (·.verified))) := by
  have wf := reached.wf
  refine ⟨?_, ?_, admits_authenticate wf unlocked, admits_panel wf unlocked, ?_⟩
  · intro uid account apart
    exact ⟨admits_identify wf unlocked uid apart, admits_login wf unlocked uid apart⟩
  · intro client response decoded plain
    exact admits_saslPlain wf unlocked client decoded plain
  · intro named own lasting
    exact admits_website named given own lasting

end Logins

/-! ### Three accounts -/

/-- The verifier of the password "sesame". -/
def sesameVerifier : String :=
  "v=1,i=4096,s=MDEyMzQ1Njc4OWFiY2RlZg==,sk=hn4FUIkYt7Fy4b6A2QilBRpntUViQLMX9F3hmowbDlg=," ++
    "sv=VN7TGXR2mKZKoVdTp1SdRWBKnlXaYulCWS/O1xCfZeI="

/-- The verifier of the password "kc_1". -/
def cardVerifier : String :=
  "v=1,i=4096,s=ZmVkY2JhOTg3NjU0MzIxMA==,sk=sH9fpai+wwCN5z/kOJnTjVdTiLLQZ2S4OvQvSeks3ng=," ++
    "sv=IgNQpOPozZjHJbDNDnwXBnBR+CQYTXDmeHU7rJ5pp5w="

/-- The checks as they answer on these two passwords. -/
def Checks.sample : Checks where
  decodePlain response := if response = "AGNhcm9sAGtjXzE=" then some ("carol", "kc_1") else none
  decode _ := none
  parseClientFirst _ := none
  parseVerifier verifier := verifier = sesameVerifier ∨ verifier = cardVerifier
  serverFirst cnonce _ drawn := ("r=" ++ cnonce ++ drawn, cnonce ++ drawn)
  dummyVerifier := ""
  verifyPlain verifier password :=
    (verifier, password) = (sesameVerifier, "sesame") ∨ (verifier, password) = (cardVerifier, "kc_1")
  verifyFinal _ _ _ _ := false
  verifySignature _ _ _ := false
  configOper _ := false
  env := Env.still

/-- Alice, whose alias is al; bob, whose suspension has run out; carol, whose
password looks like a keycard. -/
def Logins.sample : Logins where
  now := 100
  db := after Db.step (.fresh "a")
    ([.accountRegistered (freshAccount "alice" none 1 "b" sesameVerifier none true),
      .nickGrouped "al" "alice",
      .accountRegistered (freshAccount "bob" none 1 "b" sesameVerifier none true),
      .accountSuspended "bob" "staff" "" 10 (some 50),
      .accountRegistered (freshAccount "carol" none 1 "b" cardVerifier none true)].zipIdx.map
        fun (event, i) => .ingest Env.still ⟨"b", i, i + 1, 0, none, event⟩)

namespace Logins

/-- The panel refuses one who is no operator, SASL a password that looks like a
keycard, the website an alias and one whose suspension has run out; the provider
lets all of them in. -/
theorem doors_differ :
    (sample.admits .sample .authenticate "alice" "sesame" = true ∧
        sample.admits .sample .panel "alice" "sesame" = false) ∧
      (sample.admits .sample .authenticate "carol" "kc_1" = true ∧
        sample.admits .sample (.saslPlain "1AAAAAAAB" "AGNhcm9sAGtjXzE=") "carol" "kc_1" = false) ∧
      (sample.admits .sample .authenticate "al" "sesame" = true ∧
        sample.admits .sample .website "al" "sesame" = false) ∧
      sample.admits .sample .authenticate "bob" "sesame" = true ∧
        sample.admits .sample .website "bob" "sesame" = false := by
  decide +kernel

/-- Alice's password opens every door to her but the panel's. -/
theorem doors_agree_alice :
    sample.admits .sample (.identify "1AAAAAAAB" none) "AL" "sesame" = true ∧
      sample.admits .sample .panel "AL" "sesame" = false ∧
      sample.admits .sample .website "Alice" "sesame" = true := by
  have reached : sample.db.Reachable := ⟨"a", [], _, rfl⟩
  have «alias» := doors_agree .sample sample reached "AL" "sesame" (by decide) (by decide +kernel)
  have own := doors_agree .sample sample reached "Alice" "sesame" (by decide) (by decide +kernel)
  refine ⟨?_, ?_, ?_⟩
  · rw [(«alias».1 "1AAAAAAAB" none (by simp)).1]
    decide +kernel
  · rw [«alias».2.2.2.1]
    decide +kernel
  · rw [own.2.2.2.2 (by decide +kernel) (by decide +kernel) ?_]
    · decide +kernel
    · intro a held s suspended
      have same : (sample.db.holder (trim "Alice")).bind (·.suspension) = none := by decide +kernel
      rw [Option.mem_def.mp held, Option.bind_some, Option.mem_def.mp suspended] at same
      contradiction

end Logins

end Echo
