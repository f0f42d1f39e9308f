import Echo.Login.Agreement
import Echo.Login.Frame

/-!
What one step does to the logins under way, said once: which checks a door hands
over and which exchanges it opens, and what it has looked up by then.
-/

namespace Echo

open Std (ExtTreeMap)
open Echo.Lib

namespace Logins

variable (c : Checks) (l : Logins)

/-- What is under way, in the checks handed over and the SASL exchanges, as two
views see it. -/
def UnderWay {α : Type} (ofDeferred : Deferred → Option α) (ofSession : SaslSession → Option α)
    (x : α) : Prop :=
  (∃ d ∈ l.deferred, ofDeferred d = some x) ∨
    ∃ (client : String) (t : TimedSession),
      l.saslSessions[client]? = some t ∧ ofSession t.session = some x

/-- What a step hands over to be checked, with what the door has looked up. -/
inductive Hands : Step → Deferred → Prop where
  | identify {uid name password found verifier : String} {account : Option String}
      (checked : l.precheck name = (l, some (found, verifier))) :
      Hands (.identify uid account name password)
        ⟨.password verifier password, .identify uid name found⟩
  | login {uid nick password found verifier : String} {account : Option String}
      (checked : l.precheck nick = (l, some (found, verifier))) :
      Hands (.login uid account nick password)
        ⟨.password verifier password, .login uid nick found nick⟩
  | keycard {client chunk drawn response authcid card : String} {touched : Nat}
      (open' : l.saslSessions[client]? = some ⟨touched, .plain response⟩)
      (decoded : c.decodePlain (gather response chunk) = some (authcid, card))
      (marked : card.startsWith "kc_" = true) :
      Hands (.saslData client chunk drawn)
        ⟨.keycard ((l.db.resolveAccount authcid).getD authcid) card,
          .sasl client ((l.db.resolveAccount authcid).getD authcid) false⟩
  | sasl {client chunk drawn authcid account verifier password : String}
      (found : l.db.scramLookup authcid .sha256 = some (account, verifier))
      (unlocked : l.authLockout account = none) :
      Hands (.saslData client chunk drawn)
        ⟨.password verifier password, .sasl client account true⟩
  | authenticate {name password account verifier : String}
      (checked : l.authorityAuthBegin name = some (account, verifier)) :
      Hands (.authenticate name password)
        ⟨.password verifier password, .authenticate name account⟩
  | panel {name password account verifier : String}
      (checked : l.authorityAuthBegin name = some (account, verifier)) :
      Hands (.panelLogin name password) ⟨.password verifier password, .panel name account⟩
  | website {name password canon verifier : String}
      (found : l.webAuthLookup (trim name) = some (canon, verifier)) :
      Hands (.authLogin name password) ⟨.password verifier password, .website (some canon)⟩
  | stranger {name password : String} :
      Hands (.authLogin name password) ⟨.password c.dummyVerifier password, .website none⟩

/-- The exchange that a step of a client opens or carries on. -/
inductive Opens : SaslSession → Prop where
  | plain (response : String) : Opens (.plain response)
  | external (fingerprints : List String) : Opens (.external fingerprints)
  | clientFirst (hash : Hash) : Opens (.scram hash .clientFirst)
  | accountName : Opens (.ecdsa .accountName)
  | clientFinal {hash : Hash} {username account verifier : String} {transcript : Transcript}
      (found : l.db.scramLookup username hash = some (account, verifier))
      (unlocked : l.authLockout account = none) :
      Opens (.scram hash (.clientFinal account verifier transcript))
  | ack {client account verifier : String} {touched : Nat} {hash : Hash} {transcript : Transcript}
      (proved : l.saslSessions[client]? =
        some ⟨touched, .scram hash (.clientFinal account verifier transcript)⟩) :
      Opens (.scram hash (.ack account verifier))
  | signature {name account pubkey challenge : String}
      (found : l.db.pubkeyLookup name = some (account, pubkey)) :
      Opens (.ecdsa (.signature account pubkey challenge))

section UnderWay

variable {c : Checks} {l : Logins} {α : Type} {f : Deferred → Option α} {g : SaslSession → Option α}
  {x : α}

theorem UnderWay.of_same {l' : Logins} (h : l'.UnderWay f g x) (deferred : l'.deferred = l.deferred)
    (sessions : l'.saslSessions = l.saslSessions) : l.UnderWay f g x := by
  unfold UnderWay at *
  rwa [deferred, sessions] at h

theorem UnderWay.of_defer {check : Check} {next : AuthThen}
    (h : (l.defer check next).1.UnderWay f g x) : l.UnderWay f g x ∨ f ⟨check, next⟩ = some x := by
  rcases h with ⟨d, mem, seen⟩ | session
  · rcases List.mem_append.mp mem with old | new
    · exact .inl (.inl ⟨d, old, seen⟩)
    · rw [List.mem_singleton] at new
      exact .inr (new ▸ seen)
  · exact .inl (.inr session)

theorem UnderWay.of_stash {client : String} {session : SaslSession}
    (h : (l.stashSasl client session).UnderWay f g x) : l.UnderWay f g x ∨ g session = some x := by
  rcases h with handed | ⟨client', t, held, seen⟩
  · exact .inl (.inl handed)
  · change (l.saslSessions.insert client ⟨l.now, session⟩)[client']? = some t at held
    rw [ExtTreeMap.getElem?_insert] at held
    split at held
    · cases held
      exact .inr seen
    · exact .inl (.inr ⟨client', t, held, seen⟩)

/-- Sessions that end take nothing with them that stays. -/
theorem UnderWay.of_fewer {sessions : Table TimedSession}
    (fewer : ∀ (client : String) t, sessions[client]? = some t → l.saslSessions[client]? = some t)
    (h : UnderWay { l with saslSessions := sessions } f g x) : l.UnderWay f g x := by
  rcases h with handed | ⟨client, t, held, seen⟩
  · exact .inl handed
  · exact .inr ⟨client, t, fewer client t held, seen⟩

theorem UnderWay.of_erase {client : String}
    (h : UnderWay { l with saslSessions := l.saslSessions.erase client } f g x) :
    l.UnderWay f g x := by
  refine h.of_fewer fun client' t held => ?_
  rw [ExtTreeMap.getElem?_erase] at held
  split at held
  · contradiction
  · exact held

theorem UnderWay.of_finished {i : Nat}
    (h : UnderWay { l with deferred := l.deferred.eraseIdx i } f g x) : l.UnderWay f g x := by
  rcases h with ⟨d, mem, seen⟩ | session
  · exact .inl ⟨d, List.mem_of_mem_eraseIdx mem, seen⟩
  · exact .inr session

theorem deferred_noteAuth (name : String) (ok : Bool) : (l.noteAuth name ok).deferred = l.deferred := by
  cases ok <;> rfl

theorem saslSessions_noteAuth (name : String) (ok : Bool) :
    (l.noteAuth name ok).saslSessions = l.saslSessions := by
  cases ok <;> rfl

theorem db_noteAuth (name : String) (ok : Bool) : (l.noteAuth name ok).db = l.db := by
  cases ok <;> rfl

theorem now_noteAuth (name : String) (ok : Bool) : (l.noteAuth name ok).now = l.now := by
  cases ok <;> rfl

theorem UnderWay.of_noteAuth {name : String} {ok : Bool} (h : (l.noteAuth name ok).UnderWay f g x) :
    l.UnderWay f g x :=
  h.of_same (deferred_noteAuth name ok) (saslSessions_noteAuth name ok)

/-- The pre-check passes, or counts a failure, or does nothing. -/
theorem precheck_cases (name : String) :
    (∃ found, l.precheck name = (l, some found)) ∨
      l.precheck name = (l, none) ∨
        l.precheck name = (l.noteAuth name false, none) ∧
          l.db.exists name = true ∧ l.authLockout name = none ∧
            l.db.scramLookup name .sha256 = none := by
  unfold precheck
  cases l.db.exists name with
  | false => exact .inr (.inl rfl)
  | true =>
      cases (l.db.resolveAccount name).any l.isSuspended with
      | true => exact .inr (.inl rfl)
      | false =>
          cases locked : l.authLockout name with
          | some wait => exact .inr (.inl rfl)
          | none =>
              cases lookup : l.db.scramLookup name .sha256 with
              | none => exact .inr (.inr ⟨rfl, rfl, rfl, rfl⟩)
              | some found => exact .inl ⟨found, rfl⟩

/-- What is new after a step is a check it handed over or an exchange it opened. -/
def New (c : Checks) (l : Logins) (s : Step) (f : Deferred → Option α) (g : SaslSession → Option α)
    (x : α) : Prop :=
  (∃ d, Hands c l s d ∧ f d = some x) ∨ ∃ session, Opens l session ∧ g session = some x

theorem UnderWay.new_defer {s : Step} {check : Check} {next : AuthThen}
    (h : (l.defer check next).1.UnderWay f g x) (hands : Hands c l s ⟨check, next⟩) :
    l.UnderWay f g x ∨ New c l s f g x :=
  h.of_defer.imp_right fun seen => .inl ⟨_, hands, seen⟩

theorem identify_underWay {uid name password : String} {account : Option String}
    (h : (l.identify uid account name password).1.UnderWay f g x) :
    l.UnderWay f g x ∨ New c l (.identify uid account name password) f g x := by
  unfold identify at h
  rcases l.precheck_cases name with ⟨found, passed⟩ | stopped | ⟨counted, -⟩
  · rw [passed] at h
    dsimp only at h
    split at h
    · exact .inl h
    · exact h.new_defer (.identify passed)
  · rw [stopped] at h
    exact .inl h
  · rw [counted] at h
    exact .inl h.of_noteAuth

theorem login_underWay {uid nick password : String} {account : Option String}
    (h : (l.login uid account nick password).1.UnderWay f g x) :
    l.UnderWay f g x ∨ New c l (.login uid account nick password) f g x := by
  unfold login at h
  split at h
  · exact .inl h
  · rcases l.precheck_cases nick with ⟨found, passed⟩ | stopped | ⟨counted, -⟩
    · rw [passed] at h
      exact h.new_defer (.login passed)
    · rw [stopped] at h
      exact .inl h
    · rw [counted] at h
      exact .inl h.of_noteAuth

theorem saslStart_underWay {client mech : String} {fingerprints : List String}
    (h : (l.saslStart client mech fingerprints).1.UnderWay f g x) :
    l.UnderWay f g x ∨ ∃ session, Opens l session ∧ g session = some x := by
  have swept (h : UnderWay { l with
      saslSessions := l.saslSessions.filter fun _ t => l.now - t.touched < saslSessionTtl } f g x) :
      l.UnderWay f g x := by
    refine h.of_fewer fun client' t held => ?_
    rw [ExtTreeMap.getElem?_filter'] at held
    exact (Option.filter_eq_some_iff.mp held).1
  have stashed {session : SaslSession} (opened : Opens l session)
      (h : (stashSasl { l with
        saslSessions := l.saslSessions.filter fun _ t => l.now - t.touched < saslSessionTtl }
          client session).UnderWay f g x) :
      l.UnderWay f g x ∨ ∃ session, Opens l session ∧ g session = some x := by
    rcases h.of_stash with old | seen
    · exact .inl (swept old)
    · exact .inr ⟨session, opened, seen⟩
  unfold saslStart at h
  dsimp only at h
  split at h
  · exact .inl (swept h)
  split at h
  · exact stashed (.plain "") h
  split at h
  · exact stashed (.external _) h
  split at h
  · exact stashed (.clientFirst _) h
  split at h
  · exact stashed .accountName h
  · exact .inl (swept h)

theorem saslScram_underWay {client chunk drawn : String} {hash : Hash} {step : ScramStep} {touched : Nat}
    (open' : l.saslSessions[client]? = some ⟨touched, .scram hash step⟩)
    (h : (saslScram c { l with saslSessions := l.saslSessions.erase client } client hash chunk drawn
      step).1.UnderWay f g x) :
    l.UnderWay f g x ∨ ∃ session, Opens l session ∧ g session = some x := by
  have ended (h : UnderWay { l with saslSessions := l.saslSessions.erase client } f g x) :
      l.UnderWay f g x := h.of_erase
  cases step with
  | clientFirst =>
      unfold saslScram at h
      dsimp only at h
      split at h
      · exact .inl h.of_erase
      split at h
      · exact .inl h.of_erase
      rename_i cf _ _ account verifier found
      split at h
      · exact .inl h.of_erase
      split at h
      · exact .inl h.of_erase
      rename_i unlocked
      rcases h.of_stash with old | seen
      · exact .inl old.of_erase
      · exact .inr ⟨_, .clientFinal found (Option.not_isSome_iff_eq_none.mp unlocked), seen⟩
  | clientFinal account verifier transcript =>
      unfold saslScram at h
      dsimp only at h
      split at h
      · exact .inl h.of_erase
      split at h
      · rcases h.of_stash with old | seen
        · exact .inl old.of_noteAuth.of_erase
        · exact .inr ⟨_, .ack open', seen⟩
      · exact .inl h.of_noteAuth.of_erase
  | ack account proved => exact .inl h.of_erase

theorem saslEcdsa_underWay {client chunk drawn : String} {step : EcdsaStep}
    (h : (saslEcdsa c { l with saslSessions := l.saslSessions.erase client } client chunk drawn
      step).1.UnderWay f g x) :
    l.UnderWay f g x ∨ ∃ session, Opens l session ∧ g session = some x := by
  cases step with
  | accountName =>
      unfold saslEcdsa at h
      dsimp only at h
      split at h
      · exact .inl h.of_erase
      split at h
      · exact .inl h.of_erase
      rename_i account pubkey found
      rcases h.of_stash with old | seen
      · exact .inl old.of_erase
      · exact .inr ⟨_, .signature found, seen⟩
  | signature account pubkey challenge =>
      unfold saslEcdsa at h
      dsimp only at h
      split at h <;> exact .inl h.of_erase

theorem saslData_underWay {client chunk drawn : String}
    (h : (l.saslData c client chunk drawn).1.UnderWay f g x) :
    l.UnderWay f g x ∨ New c l (.saslData client chunk drawn) f g x := by
  unfold saslData at h
  cases held : l.saslSessions[client]? with
  | none =>
      rw [held] at h
      exact .inl h
  | some t =>
      obtain ⟨touched, session⟩ := t
      rw [held] at h
      cases session with
      | plain response =>
          dsimp only [Option.map_some] at h
          split at h
          · exact .inl h.of_erase
          split at h
          · rcases h.of_stash with old | seen
            · exact .inl old.of_erase
            · exact .inr (.inr ⟨_, .plain _, seen⟩)
          unfold saslPlain at h
          split at h
          · exact .inl h.of_erase
          rename_i authcid passwd decoded
          split at h
          · rename_i marked
            rcases h.of_defer with old | seen
            · exact .inl old.of_erase
            · exact .inr (.inl ⟨_, .keycard held decoded marked, seen⟩)
          split at h
          · exact .inl h.of_erase
          rename_i account verifier found
          split at h
          · exact .inl h.of_erase
          rename_i unlocked
          rcases h.of_defer with old | seen
          · exact .inl old.of_erase
          · exact .inr (.inl ⟨_, .sasl found (Option.not_isSome_iff_eq_none.mp unlocked), seen⟩)
      | scram hash step => exact (saslScram_underWay held h).imp_right .inr
      | external fingerprints => exact .inl h.of_erase
      | ecdsa step => exact (saslEcdsa_underWay h).imp_right .inr

theorem authenticate_underWay {name password : String}
    (h : (l.authenticate name password).1.UnderWay f g x) :
    l.UnderWay f g x ∨ New c l (.authenticate name password) f g x := by
  unfold authenticate at h
  split at h
  · exact .inl h
  · rename_i checked
    exact h.new_defer (.authenticate checked)

theorem panelLogin_underWay {name password : String}
    (h : (l.panelLogin name password).1.UnderWay f g x) :
    l.UnderWay f g x ∨ New c l (.panelLogin name password) f g x := by
  unfold panelLogin at h
  split at h
  · exact .inl h
  · rename_i checked
    exact h.new_defer (.panel checked)

theorem authLogin_underWay {account password : String}
    (h : (l.authLogin c.dummyVerifier account password).1.UnderWay f g x) :
    l.UnderWay f g x ∨ New c l (.authLogin account password) f g x := by
  unfold authLogin at h
  dsimp only at h
  split at h
  · exact .inl h
  split at h
  · exact h.new_defer .stranger
  · rename_i found
    exact h.new_defer (.website found)

theorem complete_underWay {ok : Bool} {credential : Credential} {next : AuthThen}
    (h : (l.complete c ok credential next).1.UnderWay f g x) : l.UnderWay f g x := by
  cases next with
  | identify | login | authenticate | panel => exact h.of_noteAuth
  | sasl client account password =>
      cases password with
      | true => exact h.of_noteAuth
      | false => exact h
  | website canon => cases canon <;> exact h

theorem finish_underWay {i : Nat} {redeemed : Bool} (h : (l.finish c i redeemed).1.UnderWay f g x) :
    l.UnderWay f g x := by
  unfold finish at h
  split at h
  · exact h
  · dsimp only at h
    split at h <;> exact (complete_underWay h).of_finished

/-- What is under way after a step was so before, or is new. -/
theorem step_underWay {s : Step} (h : (l.step c s).UnderWay f g x) :
    l.UnderWay f g x ∨ New c l s f g x := by
  cases s with
  | identify => exact identify_underWay h
  | login => exact login_underWay h
  | saslStart => exact (saslStart_underWay h).imp_right .inr
  | saslData => exact saslData_underWay h
  | saslEnd => exact .inl h.of_erase
  | authenticate => exact authenticate_underWay h
  | panelLogin => exact panelLogin_underWay h
  | authLogin => exact authLogin_underWay h
  | finish => exact .inl (finish_underWay h)
  | store | wait => exact .inl h

end UnderWay

end Logins

end Echo
