import Echo.Login.Fresh

/-!
The lockout where it counts. A door looks at the lockout when a guess comes in and
counts it once it is judged; what happens in between may start a lockout or move
the name to another account. The website does neither. Where guesses do not
overlap like that, no guess is judged during a lockout and every wrong one is
counted.
-/

namespace Echo

open Std (ExtTreeMap)
open Echo.Lib

/-- A guess at the password of an account, made under a name. -/
structure Guess where
  name : String
  account : String
  deriving DecidableEq

/-- The guess that is judged when a check comes out; a keycard is none. -/
def AuthThen.guess : AuthThen → Option Guess
  | .identify _ name account | .login _ name account _ | .authenticate name account
  | .panel name account => some ⟨name, account⟩
  | .sasl _ account password => if password then some ⟨account, account⟩ else none
  | .website canon => canon.map fun account => ⟨account, account⟩

/-- The name under which its outcome is counted. -/
def AuthThen.counted : AuthThen → Option String
  | .website _ => none
  | next => next.guess.map (·.name)

def Deferred.guess (d : Deferred) : Option Guess := d.next.guess

/-- How a check comes out. -/
def Check.right (c : Checks) (redeemed : Bool) : Check → Bool
  | .password verifier given => c.verifyPlain verifier given
  | .keycard .. => redeemed

/-- A SCRAM exchange that waits for the proof. -/
def SaslSession.guess : SaslSession → Option Guess
  | .scram _ (.clientFinal account _ _) => some ⟨account, account⟩
  | _ => none

/-- What the website sent for an account. -/
def Deferred.website (d : Deferred) : Option Check :=
  match d.next with
  | .website (some _) => some d.check
  | _ => none

namespace Logins

variable (c : Checks) (l : Logins)

/-- A guess that is under way. -/
def Guesses (g : Guess) : Prop := l.UnderWay Deferred.guess SaslSession.guess g

/-- The failures counted towards the lockout of an account. -/
def failures (account : String) : Nat :=
  ((l.authFails[l.throttleKey account]?).map (·.fails)).getD 0

/-- A step counts an outcome under a name; `rest` is the engine without the guess
that it judges. -/
inductive Counts : Step → String → Bool → Logins → Prop where
  | finish {i : Nat} {redeemed : Bool} {d : Deferred} {name : String}
      (handed : l.deferred[i]? = some d) (counted : d.next.counted = some name) :
      Counts (.finish i redeemed) name (d.check.right c redeemed)
        { l with deferred := l.deferred.eraseIdx i }
  | proof {client chunk drawn account verifier msg : String} {touched : Nat} {hash : Hash}
      {transcript : Transcript}
      (held : l.saslSessions[client]? =
        some ⟨touched, .scram hash (.clientFinal account verifier transcript)⟩)
      (decoded : c.decode chunk = some msg) :
      Counts (.saslData client chunk drawn) account (c.verifyFinal hash verifier transcript msg)
        { l with saslSessions := l.saslSessions.erase client }
  | identify {uid name password : String} {account : Option String}
      (counted : l.precheck name = (l.noteAuth name false, none)) :
      Counts (.identify uid account name password) name false l
  | login {uid nick password : String} {account : Option String}
      (other : ¬ (account.isSome ∧ l.db.resolveAccount nick = account))
      (counted : l.precheck nick = (l.noteAuth nick false, none)) :
      Counts (.login uid account nick password) nick false l

/-- Whether a step keeps the guesses under way in order. -/
structure Orderly (s : Step) : Prop where
  /-- No name with a guess under way comes to resolve elsewhere. -/
  names : ∀ a, s = .store a → ∀ g, l.Guesses g → ¬ l.db.Unbinds (key g.name) (key g.account) a
  /-- The website sends the right password, while there is no lockout. -/
  website : ∀ name password, s = .authLogin name password → ∀ canon verifier,
    l.webAuthLookup (trim name) = some (canon, verifier) →
      c.verifyPlain verifier password = true ∧ l.authLockout canon = none
  /-- A failure past the free tries comes while no other guess at the account is
  under way. -/
  failures : ∀ name rest, Counts c l s name false rest → authFreeTries ≤ l.failures name →
    ∀ g, rest.Guesses g → l.throttleKey g.account ≠ l.throttleKey name

/-- Every guess that a step judges is judged while there is no lockout, and counted
if it is wrong. -/
def Enforced (s : Step) : Prop :=
  ∀ account ok, .judged account ok ∈ (l.take c s).2 →
    l.authLockout account = none ∧
      (ok = false → (l.step c s).failures account = l.failures account + 1)

/-- What a run of orderly steps keeps. -/
structure Admitted : Prop where
  wf : l.db.Wf
  tracked : l.db.Tracked
  bound : ∀ g, l.Guesses g → l.db.Bound (key g.name) (key g.account)
  unlocked : ∀ g, l.Guesses g → l.authLockout g.account = none
  website : ∀ check, l.UnderWay Deferred.website (fun _ => none) check →
    ∀ redeemed, check.right c redeemed = true

/-! ### The throttle -/

section Throttle

variable {c : Checks} {l l' : Logins} {name account : String}

theorem throttleKey_bound (bound : l.db.Bound (key name) (key account)) :
    l.throttleKey name = key account := by
  obtain ⟨known, resolves⟩ := bound
  unfold Store.Resolves at resolves
  unfold throttleKey Db.resolvedKey
  split at resolves
  · rename_i own
    rw [if_pos own]
    exact resolves
  · rename_i own
    rw [if_neg own, resolves]
    rfl

theorem throttleKey_known (bound : l.db.Bound (key name) (key account)) :
    l.throttleKey account = key account :=
  throttleKey_bound (.own bound.1)

theorem authLockout_congr (fails : l'.authFails = l.authFails) (now : l'.now = l.now)
    (same : l'.throttleKey account = l.throttleKey account) :
    l'.authLockout account = l.authLockout account := by
  unfold authLockout
  rw [fails, now, same]

/-- Lockouts run out. -/
theorem authLockout_later (db : l'.db = l.db) (fails : l'.authFails = l.authFails)
    (now : l.now ≤ l'.now) (h : l.authLockout account = none) : l'.authLockout account = none := by
  have same : l'.throttleKey account = l.throttleKey account := by
    unfold throttleKey
    rw [db]
  unfold authLockout at *
  rw [same, fails]
  cases locked : (l.authFails[l.throttleKey account]?).bind (·.lockedUntil) with
  | none => rfl
  | some deadline =>
      rw [locked, Option.bind_some] at h
      have passed : ¬ deadline > l.now := by
        intro ahead
        rw [if_pos ahead] at h
        contradiction
      have later : ¬ deadline > l'.now := by omega
      exact if_neg later

theorem failures_empty (h : l.authFails.isEmpty = true) : l.failures account = 0 := by
  unfold failures
  rw [ExtTreeMap.isEmpty_iff.mp h, ExtTreeMap.getElem?_empty]
  rfl

theorem throttleKey_noteAuth (ok : Bool) : (l.noteAuth name ok).throttleKey account = l.throttleKey account := by
  unfold throttleKey
  rw [db_noteAuth]

/-- A success takes a lockout away; a failure starts one only past the free tries,
and only for the account it is counted for. -/
theorem authLockout_noteAuth {ok : Bool} (h : l.authLockout account = none)
    (spared : ok = false → authFreeTries ≤ l.failures name →
      l.throttleKey account ≠ l.throttleKey name) :
    (l.noteAuth name ok).authLockout account = none := by
  unfold authLockout at *
  rw [throttleKey_noteAuth, now_noteAuth]
  by_cases same : l.throttleKey account = l.throttleKey name
  · cases ok with
    | true =>
        change (((l.authFails.erase (l.throttleKey name))[l.throttleKey account]?).bind _).bind _ = _
        rw [same, ExtTreeMap.getElem?_erase_self]
        rfl
    | false =>
        have free : ¬ authFreeTries ≤ l.failures name := fun past => spared rfl past same
        have kept : ((l.noteAuth name false).authFails[l.throttleKey name]?).bind (·.lockedUntil) =
            (l.authFails[l.throttleKey name]?).bind (·.lockedUntil) := by
          unfold failures at free
          change ((l.authFails.insert (l.throttleKey name) _)[l.throttleKey name]?).bind _ = _
          rw [ExtTreeMap.getElem?_insert_self, Option.bind_some]
          cases tried : l.authFails[l.throttleKey name]? with
          | none => rfl
          | some t =>
              rw [tried, Option.map_some, Option.getD_some] at free
              have few : ¬ t.fails + 1 > authFreeTries := by omega
              exact if_neg few
        rw [same] at h ⊢
        rw [kept]
        exact h
  · have apart : ∀ t, (l.authFails.insert (l.throttleKey name) t)[l.throttleKey account]? =
        l.authFails[l.throttleKey account]? := by
      intro t
      rw [ExtTreeMap.getElem?_insert, if_neg fun here => same (Std.LawfulEqCmp.eq_of_compare here).symm]
    cases ok with
    | true =>
        change (((l.authFails.erase (l.throttleKey name))[l.throttleKey account]?).bind _).bind _ = _
        rw [ExtTreeMap.getElem?_erase, if_neg fun here => same (Std.LawfulEqCmp.eq_of_compare here).symm]
        exact h
    | false =>
        change (((l.authFails.insert (l.throttleKey name) _)[l.throttleKey account]?).bind _).bind _ = _
        rw [apart]
        exact h

/-- A failure is counted. -/
theorem failures_noteAuth (same : l.throttleKey account = l.throttleKey name) :
    (l.noteAuth name false).failures account = l.failures account + 1 := by
  unfold failures
  rw [throttleKey_noteAuth, same]
  change (((l.authFails.insert (l.throttleKey name) _)[l.throttleKey name]?).map _).getD 0 = _
  rw [ExtTreeMap.getElem?_insert_self]
  cases l.authFails[l.throttleKey name]? <;> rfl

end Throttle

/-! ### What a step counts and judges -/

section Counting

variable {c : Checks} {l : Logins} {s : Step}

theorem counted_complete (ok : Bool) (credential : Credential) {next : AuthThen} {name : String}
    (counted : next.counted = some name) :
    (l.complete c ok credential next).1 = l.noteAuth name ok := by
  cases next with
  | identify | login | authenticate | panel =>
      cases counted
      rfl
  | sasl client account password =>
      cases password with
      | true =>
          cases counted
          rfl
      | false => contradiction
  | website canon => contradiction

theorem uncounted_complete (ok : Bool) (credential : Credential) {next : AuthThen}
    (uncounted : next.counted = none) : (l.complete c ok credential next).1 = l := by
  cases next with
  | identify | login | authenticate | panel => contradiction
  | sasl client account password =>
      cases password with
      | true => contradiction
      | false => rfl
  | website canon => cases canon <;> rfl

theorem finish_eq (c : Checks) (redeemed : Bool) {i : Nat} {d : Deferred}
    (handed : l.deferred[i]? = some d) :
    ∃ credential, l.finish c i redeemed =
      complete c { l with deferred := l.deferred.eraseIdx i } (d.check.right c redeemed) credential
        d.next := by
  unfold finish
  rw [handed]
  cases shape : d.check with
  | password verifier given => exact ⟨.verifier .sha256 verifier, by simp only [shape]; rfl⟩
  | keycard account token => exact ⟨.keycard, by simp only [shape]; rfl⟩

theorem authFails_saslPlain (client response : String) :
    (l.saslPlain c client response).1.authFails = l.authFails := by
  unfold saslPlain
  repeat' split
  all_goals rfl

theorem authFails_saslEcdsa (client chunk drawn : String) (step : EcdsaStep) :
    (l.saslEcdsa c client chunk drawn step).1.authFails = l.authFails := by
  cases step with
  | accountName =>
      unfold saslEcdsa
      dsimp only
      repeat' split
      all_goals rfl
  | signature account pubkey challenge =>
      unfold saslEcdsa
      dsimp only
      split <;> rfl

theorem authFails_noteAuth {l l' : Logins} (db : l'.db = l.db) (now : l'.now = l.now)
    (fails : l'.authFails = l.authFails) (name : String) (ok : Bool) :
    (l'.noteAuth name ok).authFails = (l.noteAuth name ok).authFails := by
  have same : l'.throttleKey name = l.throttleKey name := by
    unfold throttleKey
    rw [db]
  cases ok with
  | true =>
      change l'.authFails.erase _ = l.authFails.erase _
      rw [same, fails]
  | false =>
      unfold noteAuth
      dsimp only
      rw [same, fails, now]
      rfl

/-- The guess that a step judges is counted, and is not under way any more. -/
theorem Counts.tally {name : String} {ok : Bool} {rest : Logins} (h : Counts c l s name ok rest) :
    (l.step c s).authFails = (l.noteAuth name ok).authFails ∧
      ∀ g, (l.step c s).Guesses g → rest.Guesses g := by
  cases h with
  | @finish i redeemed d name handed counted =>
      obtain ⟨credential, finished⟩ := finish_eq c redeemed handed
      have stepped : l.step c (.finish i redeemed) = (complete c { l with
          deferred := l.deferred.eraseIdx i } (d.check.right c redeemed) credential d.next).1 :=
        congrArg Prod.fst finished
      rw [stepped, counted_complete _ _ counted]
      constructor
      · refine authFails_noteAuth ?_ ?_ ?_ name _ <;> rfl
      · intro g h
        exact h.of_noteAuth
  | @proof client chunk drawn account verifier msg touched hash transcript held decoded =>
      unfold step take saslData saslScram
      simp only [held, Option.map_some, decoded]
      cases c.verifyFinal hash verifier transcript msg with
      | true =>
          constructor
          · exact authFails_noteAuth rfl rfl rfl name true
          · intro g h
            rcases UnderWay.of_stash h with old | seen
            · exact old.of_noteAuth
            · contradiction
      | false =>
          constructor
          · exact authFails_noteAuth rfl rfl rfl name false
          · intro g h
            exact UnderWay.of_noteAuth h
  | identify counted =>
      simp only [step, take, Logins.identify, counted]
      exact ⟨trivial, fun g h => UnderWay.of_noteAuth h⟩
  | login other counted =>
      simp only [step, take, Logins.login, if_neg other, counted]
      exact ⟨trivial, fun g h => UnderWay.of_noteAuth h⟩

/-- A step that counts nothing leaves the throttle alone. -/
def Tallies (c : Checks) (l : Logins) (s : Step) : Prop :=
  (l.step c s).authFails = l.authFails ∨ ∃ name ok rest, Counts c l s name ok rest

theorem tallies_saslData (client chunk drawn : String) : Tallies c l (.saslData client chunk drawn) := by
  cases held : l.saslSessions[client]? with
  | none =>
      left
      simp only [step, take, saslData, held, Option.map_none]
  | some t =>
      obtain ⟨touched, session⟩ := t
      cases session with
      | plain response =>
          left
          simp only [step, take, saslData, held, Option.map_some]
          split
          · rfl
          split
          · rfl
          · exact authFails_saslPlain (l := { l with saslSessions := l.saslSessions.erase client }) ..
      | external fingerprints =>
          left
          simp only [step, take, saslData, held, Option.map_some]
      | ecdsa step =>
          left
          simp only [Logins.step, take, saslData, held, Option.map_some]
          exact authFails_saslEcdsa (l := { l with saslSessions := l.saslSessions.erase client }) ..
      | scram hash step =>
          cases step with
          | clientFirst =>
              left
              simp only [Logins.step, take, saslData, saslScram, held, Option.map_some]
              repeat' split
              all_goals rfl
          | ack account proved =>
              left
              simp only [Logins.step, take, saslData, saslScram, held, Option.map_some]
          | clientFinal account verifier transcript =>
              cases decoded : c.decode chunk with
              | none =>
                  left
                  simp only [Logins.step, take, saslData, saslScram, held, decoded, Option.map_some]
              | some msg => exact .inr ⟨account, _, _, .proof held decoded⟩

theorem tallies_step (s : Step) : Tallies c l s := by
  cases s with
  | identify uid account name password =>
      rcases l.precheck_cases name with ⟨found, passed⟩ | stopped | ⟨counted, -⟩
      · left
        simp only [step, take, identify, passed]
        split <;> rfl
      · left
        simp only [step, take, identify, stopped]
      · exact .inr ⟨name, false, l, .identify counted⟩
  | login uid account nick password =>
      by_cases same : account.isSome ∧ l.db.resolveAccount nick = account
      · left
        simp only [step, take, login, if_pos same]
      rcases l.precheck_cases nick with ⟨found, passed⟩ | stopped | ⟨counted, -⟩
      · left
        simp only [step, take, login, if_neg same, passed, defer]
      · left
        simp only [step, take, login, if_neg same, stopped]
      · exact .inr ⟨nick, false, l, .login same counted⟩
  | saslStart =>
      left
      simp only [step, take, saslStart]
      repeat' split
      all_goals rfl
  | saslData client chunk drawn => exact tallies_saslData client chunk drawn
  | authenticate =>
      left
      simp only [step, take, authenticate]
      split <;> rfl
  | panelLogin =>
      left
      simp only [step, take, panelLogin]
      split <;> rfl
  | authLogin =>
      left
      simp only [step, take, authLogin]
      repeat' split
      all_goals rfl
  | finish i redeemed =>
      cases handed : l.deferred[i]? with
      | none =>
          left
          change (l.finish c i redeemed).1.authFails = _
          rw [finish_none handed]
      | some d =>
          obtain ⟨credential, finished⟩ := finish_eq c redeemed handed
          cases counted : d.next.counted with
          | none =>
              left
              change (l.finish c i redeemed).1.authFails = _
              rw [finished, uncounted_complete _ _ counted]
          | some name => exact .inr ⟨name, _, _, .finish handed counted⟩
  | saslEnd | store | wait => exact .inl rfl

theorem judged_judge {name judged account : String} {right ok : Bool} {entered : Logins → Outcome}
    (quiet : ∀ l, entered l ≠ .judged account ok)
    (h : .judged account ok ∈ (l.judge name judged right entered).2) :
    account = judged ∧ ok = right := by
  cases right with
  | false =>
      simpa [judge] using h
  | true =>
      simp only [judge, if_true, List.mem_cons, List.not_mem_nil, or_false] at h
      rcases h with same | same
      · cases same
        exact ⟨rfl, rfl⟩
      · exact absurd same.symm (quiet _)

theorem saslLogin_ne_judged {l : Logins} {client name account : String} {credential : Credential}
    {ok : Bool} : l.saslLogin client name credential ≠ .judged account ok := by
  unfold saslLogin
  split <;> exact Outcome.noConfusion

/-- A check that comes out judges the guess it was made for. -/
theorem judged_complete {right ok : Bool} {credential : Credential} {next : AuthThen}
    {account : String} (h : .judged account ok ∈ (l.complete c right credential next).2) :
    ok = right ∧ (next = .website (some account) ∨
      ∃ name, next.counted = some name ∧ next.guess = some ⟨name, account⟩) := by
  cases next with
  | identify uid name found | login uid name found nick | authenticate name found =>
      obtain ⟨rfl, rfl⟩ := judged_judge (fun _ => Outcome.noConfusion) h
      exact ⟨rfl, .inr ⟨name, rfl, rfl⟩⟩
  | panel name found =>
      obtain ⟨rfl, rfl⟩ := judged_judge (fun l => by split <;> exact Outcome.noConfusion) h
      exact ⟨rfl, .inr ⟨name, rfl, rfl⟩⟩
  | sasl client found password =>
      cases password with
      | true =>
          have judged : .judged account ok ∈
              (l.judge found found right (·.saslLogin client found credential)).2 := h
          obtain ⟨rfl, rfl⟩ := judged_judge (fun l => saslLogin_ne_judged) judged
          exact ⟨rfl, .inr ⟨account, rfl, rfl⟩⟩
      | false =>
          have entered : Outcome.judged account ok =
              if right then l.saslLogin client found credential else .refused := List.mem_singleton.mp h
          split at entered
          · exact absurd entered.symm saslLogin_ne_judged
          · contradiction
  | website canon =>
      cases canon with
      | none => simp [complete] at h
      | some canon =>
          simp only [complete, List.mem_cons, List.not_mem_nil, or_false] at h
          rcases h with same | same
          · cases same
            exact ⟨rfl, .inl rfl⟩
          · split at same <;> contradiction

theorem judged_saslData {client chunk drawn account : String} {ok : Bool}
    (h : .judged account ok ∈ (l.saslData c client chunk drawn).2) :
    ∃ rest, Counts c l (.saslData client chunk drawn) account ok rest ∧
      l.Guesses ⟨account, account⟩ := by
  unfold saslData at h
  cases held : l.saslSessions[client]? with
  | none => simp [held] at h
  | some t =>
      obtain ⟨touched, session⟩ := t
      rw [held] at h
      cases session with
      | plain response =>
          simp only [Option.map_some] at h
          unfold saslPlain at h
          repeat' split at h
          all_goals simp [defer] at h
      | external fingerprints =>
          have entered := (List.mem_singleton.mp h).symm
          unfold saslExternal at entered
          repeat' split at entered
          all_goals first | contradiction | exact absurd entered saslLogin_ne_judged
      | ecdsa step =>
          cases step with
          | accountName =>
              simp only [Option.map_some, saslEcdsa] at h
              repeat' split at h
              all_goals simp at h
          | signature found pubkey challenge =>
              simp only [Option.map_some, saslEcdsa] at h
              split at h
              · exact absurd (List.mem_singleton.mp h).symm saslLogin_ne_judged
              · simp at h
      | scram hash step =>
          cases step with
          | clientFirst =>
              simp only [Option.map_some, saslScram] at h
              repeat' split at h
              all_goals simp at h
          | ack found proved => exact absurd (List.mem_singleton.mp h).symm saslLogin_ne_judged
          | clientFinal found verifier transcript =>
              simp only [Option.map_some, saslScram] at h
              split at h
              · simp at h
              rename_i msg decoded
              have counts : Counts c l (.saslData client chunk drawn) found _ _ :=
                .proof held decoded
              have guesses : l.Guesses ⟨found, found⟩ := .inr ⟨client, _, held, rfl⟩
              split at h
              · rename_i right
                obtain ⟨rfl, rfl⟩ : account = found ∧ ok = true := by simpa using h
                rw [right] at counts
                exact ⟨_, counts, guesses⟩
              · rename_i wrong
                obtain ⟨rfl, rfl⟩ : account = found ∧ ok = false := by simpa using h
                rw [(Bool.not_eq_true _).mp wrong] at counts
                exact ⟨_, counts, guesses⟩

/-- What is judged is a guess under way, counted unless it is the website's. -/
theorem judged_step {account : String} {ok : Bool} (h : .judged account ok ∈ (l.take c s).2) :
    (l.Guesses ⟨account, account⟩ ∧ ∃ check redeemed, ok = check.right c redeemed ∧
        l.UnderWay Deferred.website (fun _ => none) check) ∨
      ∃ name rest, Counts c l s name ok rest ∧ l.Guesses ⟨name, account⟩ := by
  cases s with
  | finish i redeemed =>
      change _ ∈ (l.finish c i redeemed).2 at h
      cases handed : l.deferred[i]? with
      | none =>
          rw [finish_none handed] at h
          contradiction
      | some d =>
          obtain ⟨credential, finished⟩ := finish_eq c redeemed handed
          rw [finished] at h
          have mem := List.mem_of_getElem? handed
          obtain ⟨rfl, website | ⟨name, counted, guesses⟩⟩ := judged_complete h
          · refine .inl ⟨.inl ⟨d, mem, ?_⟩, d.check, redeemed, rfl, .inl ⟨d, mem, ?_⟩⟩
            · unfold Deferred.guess
              rw [website]
              rfl
            · unfold Deferred.website
              rw [website]
          · exact .inr ⟨name, _, .finish handed counted, .inl ⟨d, mem, guesses⟩⟩
  | saslData client chunk drawn =>
      obtain ⟨rest, counts, guesses⟩ := judged_saslData h
      exact .inr ⟨account, rest, counts, guesses⟩
  | identify uid account name password =>
      simp only [take, identify] at h
      repeat' split at h
      all_goals simp [defer] at h
  | login uid account nick password =>
      simp only [take, login] at h
      repeat' split at h
      all_goals simp [defer] at h
  | saslStart client mech fingerprints =>
      simp only [take, saslStart] at h
      repeat' split at h
      all_goals simp at h
  | authenticate name password =>
      simp only [take, authenticate] at h
      split at h <;> simp [defer] at h
  | panelLogin name password =>
      simp only [take, panelLogin] at h
      split at h <;> simp [defer] at h
  | authLogin account password =>
      simp only [take, authLogin] at h
      repeat' split at h
      all_goals simp [defer] at h
  | saslEnd | store | wait => simp [take] at h

end Counting

/-! ### Steps -/

section Steps

variable {c : Checks} {l : Logins} {s : Step} {g : Guess}

theorem bound_of_holder {name : String} {a : Account} (wf : l.db.Wf)
    (held : l.db.holder name = some a) : l.db.Bound (key name) (key a.name) := by
  obtain ⟨stored, resolved⟩ := holder_stored wf held
  have known : l.db.accounts.contains (key a.name) = true := by
    exact Table.contains_of_some stored
  refine ⟨known, ?_⟩
  unfold Db.resolvedKey at resolved
  unfold Store.Resolves
  split at resolved
  · rename_i own
    rw [if_pos own]
    exact Option.some.inj resolved
  · rename_i own
    rw [if_neg own]
    exact resolved

theorem bound_of_lookup (wf : l.db.Wf) {name account verifier : String} {hash : Hash}
    (found : l.db.scramLookup name hash = some (account, verifier)) :
    l.db.Bound (key name) (key account) := by
  rw [scramLookup_eq] at found
  obtain ⟨a, held, stored⟩ := Option.bind_eq_some_iff.mp found
  obtain ⟨v, -, same⟩ := Option.map_eq_some_iff.mp stored
  cases same
  exact bound_of_holder wf held

/-- A lockout is looked for under any name of the account. -/
theorem unlocked_of_bound {name account : String} (bound : l.db.Bound (key name) (key account))
    (unlocked : l.authLockout name = none) : l.authLockout account = none := by
  unfold authLockout at *
  rwa [throttleKey_known bound, ← throttleKey_bound bound]

/-- A guess that a door hands over comes while there is no lockout. -/
theorem guess_of_hands (wf : l.db.Wf) (orderly : l.Orderly c s) {d : Deferred}
    (hands : Hands c l s d) (guesses : d.guess = some g) :
    l.db.Bound (key g.name) (key g.account) ∧ l.authLockout g.account = none := by
  cases hands with
  | identify checked | login checked =>
      cases guesses
      obtain ⟨found, -, unlocked⟩ := precheck_some checked
      have bound := bound_of_lookup wf found
      exact ⟨bound, unlocked_of_bound bound unlocked⟩
  | authenticate checked | panel checked =>
      cases guesses
      obtain ⟨found, -, unlocked⟩ := authorityAuthBegin_some checked
      have bound := bound_of_lookup wf found
      exact ⟨bound, unlocked_of_bound bound unlocked⟩
  | sasl found unlocked =>
      cases guesses
      exact ⟨.own (bound_of_lookup wf found).1, unlocked⟩
  | @website name password canon verifier found =>
      cases guesses
      obtain ⟨-, unlocked⟩ := orderly.website name password rfl canon verifier found
      obtain ⟨a, held, -⟩ := stands_of_webAuthLookup wf found
      refine ⟨.own ?_, unlocked⟩
      exact Table.contains_of_some held
  | keycard | stranger => contradiction

theorem guess_of_opens (wf : l.db.Wf) {session : SaslSession} (opens : Opens l session)
    (guesses : session.guess = some g) :
    l.db.Bound (key g.name) (key g.account) ∧ l.authLockout g.account = none := by
  cases opens with
  | clientFinal found unlocked =>
      cases guesses
      exact ⟨.own (bound_of_lookup wf found).1, unlocked⟩
  | _ => contradiction

theorem website_of_hands (orderly : l.Orderly c s) {d : Deferred} {check : Check}
    (hands : Hands c l s d) (sent : d.website = some check) (redeemed : Bool) :
    check.right c redeemed = true := by
  cases hands with
  | @website name password canon verifier found =>
      cases sent
      exact (orderly.website name password rfl canon verifier found).1
  | _ => contradiction

/-- An orderly step leaves no guess under way with a lockout. -/
theorem Admitted.step (admitted : l.Admitted c) (orderly : l.Orderly c s) :
    (l.step c s).Admitted c := by
  by_cases served : ∃ a, s = .store a
  · obtain ⟨a, rfl⟩ := served
    have bound (g : Guess) (h : l.Guesses g) : (l.db.serve a).Bound (key g.name) (key g.account) :=
      Db.bound_serve admitted.wf admitted.tracked (orderly.names a rfl g h) (admitted.bound g h)
    refine ⟨Db.wf_serve admitted.wf a, Db.tracked_step admitted.wf admitted.tracked, bound,
      fun g h => ?_, admitted.website⟩
    have same : (l.step c (.store a)).throttleKey g.account = l.throttleKey g.account :=
      (throttleKey_known (l := l.step c (.store a)) (bound g h)).trans
        (throttleKey_known (admitted.bound g h)).symm
    refine (authLockout_congr ?_ ?_ same).trans (admitted.unlocked g h) <;> rfl
  · obtain ⟨db, now⟩ := frame_step (c := c) (l := l) s fun a same => served ⟨a, same⟩
    have known (g : Guess) (h : (l.step c s).Guesses g) :
        l.db.Bound (key g.name) (key g.account) ∧ l.authLockout g.account = none := by
      rcases step_underWay h with old | ⟨d, hands, guesses⟩ | ⟨session, opens, guesses⟩
      · exact ⟨admitted.bound g old, admitted.unlocked g old⟩
      · exact guess_of_hands admitted.wf orderly hands guesses
      · exact guess_of_opens admitted.wf opens guesses
    refine ⟨db ▸ admitted.wf, db ▸ admitted.tracked, fun g h => db ▸ (known g h).1,
      fun g h => ?_, fun check h redeemed => ?_⟩
    · have unlocked := (known g h).2
      rcases tallies_step (c := c) (l := l) s with quiet | ⟨name, ok, rest, counts⟩
      · exact authLockout_later db quiet now unlocked
      · obtain ⟨fails, fewer⟩ := counts.tally
        have after : (l.noteAuth name ok).authLockout g.account = none := by
          refine authLockout_noteAuth unlocked fun wrong past => ?_
          subst wrong
          exact orderly.failures name rest counts past g (fewer g h)
        refine authLockout_later (db.trans (db_noteAuth name ok).symm) fails ?_ after
        rw [now_noteAuth]
        exact now
    · rcases step_underWay h with old | ⟨d, hands, sent⟩ | ⟨session, -, sent⟩
      · exact admitted.website check old redeemed
      · exact website_of_hands orderly hands sent redeemed
      · contradiction

/-- Where no guess under way has a lockout, the lockout is enforced. -/
theorem enforced_step (admitted : l.Admitted c) (s : Step) : l.Enforced c s := by
  intro account ok h
  rcases judged_step h with ⟨guesses, check, redeemed, rfl, sent⟩ | ⟨name, rest, counts, guesses⟩
  · have unlocked : l.authLockout account = none := admitted.unlocked ⟨account, account⟩ guesses
    refine ⟨unlocked, fun wrong => ?_⟩
    rw [admitted.website check sent redeemed] at wrong
    contradiction
  · have unlocked : l.authLockout account = none := admitted.unlocked ⟨name, account⟩ guesses
    have bound : l.db.Bound (key name) (key account) := admitted.bound ⟨name, account⟩ guesses
    refine ⟨unlocked, fun wrong => ?_⟩
    subst wrong
    have served : ∀ a, s ≠ .store a := by
      rintro a rfl
      cases counts
    have counted := failures_noteAuth ((throttleKey_known bound).trans (throttleKey_bound bound).symm)
    unfold failures throttleKey at counted ⊢
    rw [counts.tally.1, (frame_step (c := c) (l := l) s served).1]
    rwa [db_noteAuth] at counted

end Steps

/-- From an engine that starts over any store that a run leads to: where every step
is orderly, no guess is judged while a lockout of its account is in force, and
every wrong one is counted towards it. -/
theorem lockout_enforced (c : Checks) {db : Db} (reached : db.Reachable) (now : Nat)
    (steps : List Step) (orderly : Along (step c) (Orderly c) { db, now } steps) :
    Along (step c) (Enforced c) { db, now } steps := by
  have nothing {α : Type} {f : Deferred → Option α} {g : SaslSession → Option α} {x : α} :
      ¬ UnderWay { db, now } f g x := by
    rintro (⟨d, mem, -⟩ | ⟨client, t, held, -⟩)
    · contradiction
    · change (∅ : Table TimedSession)[client]? = some t at held
      rw [ExtTreeMap.getElem?_empty] at held
      contradiction
  refine orderly.of_invariant (I := Admitted c) (fun l s admitted => admitted.step)
    (fun l s admitted _ => enforced_step admitted s) ⟨reached.wf, reached.tracked, ?_, ?_, ?_⟩
  · exact fun g h => absurd h nothing
  · exact fun g h => absurd h nothing
  · exact fun check h => absurd h nothing

/-! ### Guesses that slip through -/

/-- Five sessions guess at alice's password before the first guess is judged, and
four are judged wrong. -/
def flooded : Logins :=
  after (step .sample) sample
    ((List.replicate 5 (.identify "1AAAAAAAB" none "alice" "guess")) ++
      List.replicate 4 (.finish 0 false))

/-- The fifth is judged during the lockout; the website counts no wrong guess. -/
theorem lockout_evaded :
    ¬ flooded.Enforced .sample (.finish 0 false) ∧
      ¬ (sample.step .sample (.authLogin "alice" "guess")).Enforced .sample (.finish 0 false) := by
  constructor
  · intro enforced
    have judged : .judged "alice" false ∈ (flooded.take .sample (.finish 0 false)).2 := by
      decide +kernel
    have locked : flooded.authLockout "alice" = some 2 := by decide +kernel
    exact nomatch (enforced "alice" false judged).1.symm.trans locked
  · intro enforced
    have judged : .judged "alice" false ∈
        ((sample.step .sample (.authLogin "alice" "guess")).take .sample (.finish 0 false)).2 := by
      decide +kernel
    have uncounted : (after (step .sample) sample
        [.authLogin "alice" "guess", .finish 0 false]).failures "alice" = 0 := by decide +kernel
    have counted := (enforced "alice" false judged).2 rfl
    exact absurd (counted.symm.trans uncounted) (Nat.succ_ne_zero _)

/-- One wrong guess at alice's password is counted. -/
theorem lockout_enforced_alice :
    (after (step .sample) sample
      [.identify "1AAAAAAAB" none "AL" "guess", .finish 0 false]).failures "alice" = 1 := by
  have reached : sample.db.Reachable := ⟨"a", [], _, rfl⟩
  have few {l : Logins} (empty : l.authFails.isEmpty = true) (name : String) :
      ¬ authFreeTries ≤ l.failures name := by
    rw [failures_empty empty]
    decide
  have started : Logins.authFails { db := sample.db, now := 100 } = ∅ := rfl
  have handed : (step .sample { db := sample.db, now := 100 }
      (.identify "1AAAAAAAB" none "AL" "guess")).authFails.isEmpty = true := by decide +kernel
  have run := lockout_enforced .sample reached 100
    [.identify "1AAAAAAAB" none "AL" "guess", .finish 0 false] ⟨?_, ?_, trivial⟩
  · have judged : .judged "alice" false ∈
        ((sample.step .sample (.identify "1AAAAAAAB" none "AL" "guess")).take .sample
          (.finish 0 false)).2 := by decide +kernel
    have counted := (run.2.1 "alice" false judged).2 rfl
    refine counted.trans ?_
    decide +kernel
  · refine ⟨?_, ?_, fun name rest counts past => ?_⟩
    · intro a served
      contradiction
    · intro name password served
      contradiction
    · exact absurd past (few (started ▸ rfl) name)
  · refine ⟨?_, ?_, fun name rest counts past => ?_⟩
    · intro a served
      contradiction
    · intro name password served
      contradiction
    · exact absurd past (few handed name)

end Logins

end Echo
