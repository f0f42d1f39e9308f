import Echo.Login.Steps
import Echo.Lib.Runs

/-!
SASL exchanges beside each other. A response comes in chunks, with those of others and anything else
in between, and is put together as if it had come at once; and no number of clients makes the engine hold more
than so many exchanges, of so many bytes each.
-/

namespace Echo

open Std (ExtTreeMap)
open Echo.Lib

/-- What is held of a response. -/
def SaslSession.held : SaslSession → String
  | .plain response => response
  | .scram .. | .external _ | .ecdsa _ => ""

namespace Logins

variable {c : Checks} {l : Logins}

/-- The exchanges that are not stale. -/
def current (l : Logins) : Table TimedSession :=
  l.saslSessions.filter fun _ t => l.now - t.touched < saslSessionTtl

/-- What a step does to the exchanges. -/
inductive Exchanged (l : Logins) : Step → Table TimedSession → Prop where
  | still (s : Step) : Exchanged l s l.saslSessions
  | swept (client mech : String) (fingerprints : List String) :
      Exchanged l (.saslStart client mech fingerprints) l.current
  | opened (client mech : String) (fingerprints : List String) (session : SaslSession) :
      l.current.size < maxSaslSessions → session.held = "" →
      Exchanged l (.saslStart client mech fingerprints) (l.current.insert client ⟨l.now, session⟩)
  | ended (s : Step) (client : String) :
      (s = .saslEnd client ∨ ∃ chunk drawn, s = .saslData client chunk drawn) →
      Exchanged l s (l.saslSessions.erase client)
  | continued (client chunk drawn : String) (session : SaslSession) :
      client ∈ l.saslSessions → session.held.utf8ByteSize ≤ maxSaslResponse →
      Exchanged l (.saslData client chunk drawn)
        ((l.saslSessions.erase client).insert client ⟨l.now, session⟩)

theorem exchanged_start (client mech : String) (fingerprints : List String) :
    l.Exchanged (.saslStart client mech fingerprints) (l.saslStart client mech fingerprints).1.saslSessions := by
  unfold saslStart
  dsimp only
  split
  · exact .swept client mech fingerprints
  · rename_i room
    have opened (session : SaslSession) (empty : session.held = "") :=
      Exchanged.opened (l := l) client mech fingerprints session (Nat.lt_of_not_le room) empty
    split
    · exact opened _ rfl
    · split
      · exact opened _ rfl
      · split
        · exact opened _ rfl
        · split
          · exact opened _ rfl
          · exact .swept client mech fingerprints

theorem saslSessions_saslPlain (client response : String) :
    (l.saslPlain c client response).1.saslSessions = l.saslSessions := by
  unfold saslPlain
  split
  · rfl
  · split
    · rfl
    · split
      · rfl
      · split <;> rfl

/-- An exchange is taken out, and put back if it goes on. -/
def Goes (l : Logins) (client : String) (sessions : Table TimedSession) : Prop :=
  sessions = l.saslSessions ∨
    ∃ session, SaslSession.held session = "" ∧ sessions = l.saslSessions.insert client ⟨l.now, session⟩

theorem goes_saslScram (client : String) (hash : Hash) (chunk drawn : String) (step : ScramStep) :
    l.Goes client (l.saslScram c client hash chunk drawn step).1.saslSessions := by
  have stashed (l' : Logins) (session : SaslSession) (empty : session.held = "")
      (same : l'.saslSessions = l.saslSessions) (now : l'.now = l.now) :
      l.Goes client (l'.stashSasl client session).saslSessions := by
    refine .inr ⟨session, empty, ?_⟩
    simp only [stashSasl, same, now]
  cases step with
  | clientFirst =>
      simp only [saslScram]
      split
      · exact .inl rfl
      · split
        · exact .inl rfl
        · split
          · exact .inl rfl
          · split
            · exact .inl rfl
            · exact stashed l _ rfl rfl rfl
  | clientFinal account verifier transcript =>
      simp only [saslScram]
      split
      · exact .inl rfl
      · split
        · exact stashed _ _ rfl (saslSessions_noteAuth ..) (now_noteAuth ..)
        · exact .inl (saslSessions_noteAuth ..)
  | ack account verifier => exact .inl rfl

theorem goes_saslEcdsa (client chunk drawn : String) (step : EcdsaStep) :
    l.Goes client (l.saslEcdsa c client chunk drawn step).1.saslSessions := by
  cases step with
  | accountName =>
      simp only [saslEcdsa]
      split
      · exact .inl rfl
      · split
        · exact .inl rfl
        · exact .inr ⟨_, rfl, rfl⟩
  | signature account pubkey challenge =>
      simp only [saslEcdsa]
      split <;> exact .inl rfl

theorem exchanged_data (client chunk drawn : String) :
    l.Exchanged (.saslData client chunk drawn) (l.saslData c client chunk drawn).1.saslSessions := by
  have ended : l.Exchanged (.saslData client chunk drawn) (l.saslSessions.erase client) :=
    .ended _ client (.inr ⟨chunk, drawn, rfl⟩)
  unfold saslData
  cases held : l.saslSessions[client]? with
  | none => exact .still _
  | some t =>
      have there : client ∈ l.saslSessions := ExtTreeMap.mem_iff_isSome_getElem?.mpr (by rw [held]; rfl)
      have goes {sessions : Table TimedSession}
          (h : Goes { l with saslSessions := l.saslSessions.erase client } client sessions) :
          l.Exchanged (.saslData client chunk drawn) sessions := by
        rcases h with rfl | ⟨session, empty, rfl⟩
        · exact ended
        · exact .continued client chunk drawn session there (by rw [empty]; exact Nat.zero_le _)
      rw [Option.map_some]
      cases t.session with
      | plain response =>
          dsimp only
          split
          · exact ended
          · rename_i short
            split
            · exact .continued client chunk drawn (.plain (gather response chunk)) there (Nat.le_of_not_lt short)
            · rw [saslSessions_saslPlain]
              exact ended
      | scram hash step => exact goes (goes_saslScram ..)
      | external fingerprints => exact ended
      | ecdsa step => exact goes (goes_saslEcdsa ..)

theorem saslSessions_precheck (name : String) : (l.precheck name).1.saslSessions = l.saslSessions := by
  rcases precheck_cases name with ⟨found, eq⟩ | eq | ⟨eq, -⟩
  · rw [eq]
  · rw [eq]
  · rw [eq]
    exact saslSessions_noteAuth ..

theorem saslSessions_identify (uid : String) (account : Option String) (name password : String) :
    (l.identify uid account name password).1.saslSessions = l.saslSessions := by
  have kept := saslSessions_precheck (l := l) name
  unfold identify
  split
  · rename_i eq
    rwa [eq] at kept
  · rename_i eq
    rw [eq] at kept
    split <;> exact kept

theorem saslSessions_login (uid : String) (account : Option String) (nick password : String) :
    (l.login uid account nick password).1.saslSessions = l.saslSessions := by
  have kept := saslSessions_precheck (l := l) nick
  unfold login
  split
  · rfl
  · split
    · rename_i eq
      rwa [eq] at kept
    · rename_i eq
      rw [eq] at kept
      exact kept

theorem saslSessions_complete (ok : Bool) (credential : Credential) (next : AuthThen) :
    (l.complete c ok credential next).1.saslSessions = l.saslSessions := by
  cases next with
  | identify | login | authenticate | panel => exact saslSessions_noteAuth ..
  | sasl client account password =>
      simp only [complete]
      split
      · exact saslSessions_noteAuth ..
      · rfl
  | website canon => cases canon <;> rfl

theorem saslSessions_finish (i : Nat) (redeemed : Bool) :
    (l.finish c i redeemed).1.saslSessions = l.saslSessions := by
  unfold finish
  split
  · rfl
  · split <;> exact saslSessions_complete ..

theorem exchanged_step (s : Step) : l.Exchanged s (l.step c s).saslSessions := by
  have still {s : Step} {sessions : Table TimedSession} (same : sessions = l.saslSessions) :
      l.Exchanged s sessions := same ▸ .still s
  cases s with
  | saslStart client mech fingerprints => exact exchanged_start client mech fingerprints
  | saslData client chunk drawn => exact exchanged_data client chunk drawn
  | saslEnd client => exact .ended _ client (.inl rfl)
  | store a => exact .still _
  | wait seconds => exact .still _
  | identify uid account name password => exact still (saslSessions_identify ..)
  | login uid account nick password => exact still (saslSessions_login ..)
  | authenticate name password =>
      refine still ?_
      simp only [step, take, authenticate]
      split <;> rfl
  | panelLogin name password =>
      refine still ?_
      simp only [step, take, panelLogin]
      split <;> rfl
  | authLogin account password =>
      refine still ?_
      simp only [step, take, authLogin]
      split
      · rfl
      · split <;> rfl
  | finish i redeemed => exact still (saslSessions_finish ..)

/-! ### Bounds -/

/-- So many exchanges, of so many bytes each. -/
structure Bounded (sessions : Table TimedSession) : Prop where
  count : sessions.size ≤ maxSaslSessions
  bytes : ∀ (client : String) t, sessions[client]? = some t → t.session.held.utf8ByteSize ≤ maxSaslResponse

theorem Bounded.less {sessions less : Table TimedSession} (bounded : Bounded sessions)
    (count : less.size ≤ sessions.size)
    (kept : ∀ (client : String) t, less[client]? = some t → sessions[client]? = some t) : Bounded less where
  count := count.trans bounded.count
  bytes client t held := bounded.bytes client t (kept client t held)

theorem Bounded.insert {sessions : Table TimedSession} (bounded : Bounded sessions)
    (room : sessions.size < maxSaslSessions) (client : String) {t : TimedSession}
    (short : t.session.held.utf8ByteSize ≤ maxSaslResponse) : Bounded (sessions.insert client t) where
  count := Nat.le_trans ExtTreeMap.size_insert_le room
  bytes client' t' held := by
    rw [ExtTreeMap.getElem?_insert] at held
    split at held
    · obtain rfl := Option.some.inj held
      exact short
    · exact bounded.bytes client' t' held

theorem Bounded.current (bounded : Bounded l.saslSessions) : Bounded l.current := by
  refine bounded.less ExtTreeMap.size_filter_le_size fun client t held => ?_
  rw [Logins.current, ExtTreeMap.getElem?_filter'] at held
  exact (Option.filter_eq_some_iff.mp held).1

theorem Bounded.erase (bounded : Bounded l.saslSessions) (client : String) :
    Bounded (l.saslSessions.erase client) := by
  refine bounded.less ExtTreeMap.size_erase_le fun client' t held => ?_
  rw [ExtTreeMap.getElem?_erase] at held
  split at held
  · contradiction
  · exact held

theorem bounded_step (bounded : Bounded l.saslSessions) (s : Step) : Bounded (l.step c s).saslSessions := by
  have exchanged := exchanged_step (c := c) (l := l) s
  generalize (l.step c s).saslSessions = sessions at exchanged
  cases exchanged with
  | still => exact bounded
  | swept => exact bounded.current
  | opened client mech fingerprints session room empty =>
      refine bounded.current.insert room client ?_
      rw [empty]
      exact Nat.zero_le _
  | ended s client => exact bounded.erase client
  | continued client chunk drawn session there short =>
      refine (bounded.erase client).insert ?_ client short
      have some : 0 < l.saslSessions.size := by
        refine Nat.pos_of_ne_zero fun none => ?_
        rw [ExtTreeMap.eq_empty_iff_size_eq_zero.mpr none] at there
        exact ExtTreeMap.not_mem_empty there
      have count := bounded.count
      rw [ExtTreeMap.size_erase, if_pos (ExtTreeMap.mem_iff_contains.mp there)]
      omega

/-- However the exchanges go, the engine holds no more than 4096, and no more than 8 KiB of a response. -/
theorem exchanges_bounded (c : Checks) (db : Db) (now : Nat) (steps : List Step) :
    Bounded (after (step c) { db, now } steps).saslSessions :=
  invariant (I := fun l : Logins => Bounded l.saslSessions) (fun _ s bounded => bounded_step bounded s)
    ⟨by simp, by simp⟩ steps

/-! ### Chunks -/

/-- A client's own chunk of a response. -/
def sent (client : String) : Step → Option String
  | .saslData client' chunk _ => if client' = client then some chunk else none
  | _ => none

/-- A step that does not end a client's exchange: the client's own chunks are full ones, and it is not
stale when someone else starts. -/
def Continues (client : String) (l : Logins) : Step → Prop
  | .saslData client' chunk _ => client' = client → maxAuthenticate ≤ chunk.utf8ByteSize
  | .saslEnd client' => client' ≠ client
  | .saslStart client' _ _ => client' ≠ client ∧ client ∈ l.current
  | _ => True

variable {client : String}

/-- What others do leaves a client's exchange alone. -/
theorem untouched {s : Step} (continues : l.Continues client s) (others : sent client s = none)
    {t : TimedSession} (held : l.saslSessions[client]? = some t) :
    (l.step c s).saslSessions[client]? = some t := by
  have exchanged := exchanged_step (c := c) (l := l) s
  generalize (l.step c s).saslSessions = sessions at exchanged
  have fresh (there : client ∈ l.current) : l.current[client]? = some t := by
    rw [current, ExtTreeMap.getElem?_filter', held]
    rw [current, ExtTreeMap.mem_iff_isSome_getElem?, ExtTreeMap.getElem?_filter', held] at there
    obtain ⟨t', kept⟩ := Option.isSome_iff_exists.mp there
    obtain ⟨same, -⟩ := Option.filter_eq_some_iff.mp kept
    rw [kept, same]
  have distinct {client' : String} {sessions : Table TimedSession} (other : client' ≠ client)
      (kept : sessions[client]? = some t) : (sessions.erase client')[client]? = some t := by
    rw [ExtTreeMap.getElem?_erase, if_neg (by simpa using other), kept]
  have theirs {client' chunk drawn : String} (none : sent client (.saslData client' chunk drawn) = none) :
      client' ≠ client := by
    rintro rfl
    simp [sent] at none
  cases exchanged with
  | still => exact held
  | swept => exact fresh continues.2
  | opened client' mech fingerprints session =>
      rw [ExtTreeMap.getElem?_insert, if_neg (by simpa using continues.1)]
      exact fresh continues.2
  | ended s client' «by» =>
      rcases «by» with rfl | ⟨chunk, drawn, rfl⟩
      · exact distinct continues held
      · exact distinct (theirs others) held
  | continued client' chunk drawn session =>
      have other := theirs others
      rw [ExtTreeMap.getElem?_insert, if_neg (by simpa using other)]
      exact distinct other held

/-- A full chunk joins what is held. -/
theorem saslData_full {response chunk drawn : String} {touched : Nat}
    (held : l.saslSessions[client]? = some ⟨touched, .plain response⟩)
    (full : maxAuthenticate ≤ chunk.utf8ByteSize)
    (short : (response ++ chunk).utf8ByteSize ≤ maxSaslResponse) :
    (l.step c (.saslData client chunk drawn)).saslSessions[client]? =
      some ⟨l.now, .plain (response ++ chunk)⟩ := by
  have joined : gather response chunk = response ++ chunk := by
    unfold gather
    rw [if_neg]
    rintro rfl
    exact absurd full (by decide)
  simp only [step, take, saslData, held, Option.map_some, joined]
  rw [if_neg (Nat.not_lt.mpr short), if_pos full]
  simp [stashSasl]

theorem eq_of_sent {s : Step} {chunk : String} (own : sent client s = some chunk) :
    ∃ drawn, s = .saslData client chunk drawn := by
  unfold sent at own
  split at own
  · rename_i client' chunk' drawn
    obtain ⟨rfl, same⟩ := Option.ite_none_right_eq_some.mp own
    exact ⟨drawn, by rw [Option.some.inj same]⟩
  · contradiction

theorem gathered {steps : List Step} {response : String}
    (held : ∃ touched, l.saslSessions[client]? = some ⟨touched, .plain response⟩)
    (run : Along (step c) (Continues client) l steps)
    (short : (response ++ String.join (steps.filterMap (sent client))).utf8ByteSize ≤ maxSaslResponse) :
    ∃ touched, (after (step c) l steps).saslSessions[client]? =
      some ⟨touched, .plain (response ++ String.join (steps.filterMap (sent client)))⟩ := by
  induction steps generalizing l response with
  | nil => simpa using held
  | cons s steps ih =>
      obtain ⟨touched, held⟩ := held
      obtain ⟨continues, rest⟩ := run
      cases own : sent client s with
      | none =>
          rw [List.filterMap_cons_none own] at short ⊢
          exact ih ⟨touched, untouched continues own held⟩ rest short
      | some chunk =>
          obtain ⟨drawn, rfl⟩ := eq_of_sent own
          rw [List.filterMap_cons_some own, String.join_cons, ← String.append_assoc] at short ⊢
          refine ih ⟨l.now, saslData_full held (continues rfl) ?_⟩ rest short
          rw [String.utf8ByteSize_append] at short
          omega

theorem saslStart_plain {fingerprints : List String}
    (accepted : (l.saslStart client "PLAIN" fingerprints).2 = [.challenge]) :
    (l.step c (.saslStart client "PLAIN" fingerprints)).saslSessions[client]? = some ⟨l.now, .plain ""⟩ := by
  simp only [step, take]
  unfold saslStart at accepted ⊢
  dsimp only at accepted ⊢
  split at accepted
  · simp at accepted
  · rename_i room
    rw [if_neg room, if_pos rfl]
    simp [stashSasl]

/-- A response in chunks is taken as if it had come at once, whatever happens in between. -/
theorem plain_reassembled (c : Checks) (l : Logins) (client : String) (fingerprints : List String)
    (steps : List Step) (last drawn : String)
    (accepted : (l.saslStart client "PLAIN" fingerprints).2 = [.challenge])
    (run : Along (step c) (Continues client) (l.step c (.saslStart client "PLAIN" fingerprints)) steps)
    (ends : last.utf8ByteSize < maxAuthenticate)
    (short : (String.join (steps.filterMap (sent client)) ++ last).utf8ByteSize ≤ maxSaslResponse) :
    let m := after (step c) l (.saslStart client "PLAIN" fingerprints :: steps)
    m.saslData c client last drawn =
      { m with saslSessions := m.saslSessions.erase client }.saslPlain c client
        (gather (String.join (steps.filterMap (sent client))) last) := by
  intro m
  have bytes : (String.join (steps.filterMap (sent client))).utf8ByteSize + last.utf8ByteSize ≤
      maxSaslResponse := by
    rwa [String.utf8ByteSize_append] at short
  obtain ⟨touched, held⟩ := gathered ⟨l.now, saslStart_plain accepted⟩ run (by rw [String.empty_append]; omega)
  rw [String.empty_append] at held
  have whole : (gather (String.join (steps.filterMap (sent client))) last).utf8ByteSize ≤ maxSaslResponse := by
    unfold gather
    split
    · omega
    · exact short
  have found : m.saslSessions[client]? =
      some ⟨touched, .plain (String.join (steps.filterMap (sent client)))⟩ := held
  simp only [saslData, found, Option.map_some]
  rw [if_neg (Nat.not_lt.mpr whole), if_neg (Nat.not_le.mpr ends)]

/-- A client's chunk, and another client that comes and is through in between. -/
def beside : List Step :=
  [.saslData "1AAAAAAAB" (String.ofList (List.replicate 400 'A')) "", .saslStart "1AAAAAAAC" "PLAIN" [],
    .wait 5, .saslData "1AAAAAAAC" "QUJD" ""]

theorem plain_reassembled_beside :
    let m := after (step .sample) .sample (.saslStart "1AAAAAAAB" "PLAIN" [] :: beside)
    m.saslData .sample "1AAAAAAAB" "QUFB" "" =
      { m with saslSessions := m.saslSessions.erase "1AAAAAAAB" }.saslPlain .sample "1AAAAAAAB"
        (String.ofList (List.replicate 400 'A') ++ "QUFB") := by
  have joined : String.join (beside.filterMap (sent "1AAAAAAAB")) = String.ofList (List.replicate 400 'A') := by
    decide +kernel
  have whole := plain_reassembled .sample .sample "1AAAAAAAB" [] beside "QUFB" "" (by decide +kernel)
    ⟨fun _ => by decide +kernel, ⟨by decide, by decide +kernel⟩, trivial, by simp [Continues], trivial⟩
    (by decide +kernel) (by decide +kernel)
  rw [joined] at whole
  exact whole

end Logins

end Echo
