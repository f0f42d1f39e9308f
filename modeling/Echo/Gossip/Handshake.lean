import Echo.Lib.Runs
import Mathlib.Data.List.Basic
import Mathlib.Logic.Function.Basic

/-!
The handshake of a gossip link. Each side sends a nonce, proves that it holds the
secret by an HMAC of its role and the other side's nonce, and checks the other
side's proof against its own. The network belongs to an attacker who sees what
every node sends and delivers what he likes, but has no HMAC under the secret that
no node has sent.
-/

namespace Echo.Gossip

open Echo.Lib

/-- A line of the handshake; what comes after it holds no proofs. -/
inductive Msg where
  | hello (origin nonce : String)
  | auth (proof : String)
  | other
  deriving DecidableEq, Repr

/-- The strings a message holds. -/
def Msg.texts : Msg → List String
  | .hello origin nonce => [origin, nonce]
  | .auth proof => [proof]
  | .other => []

/-- How far a session got, with the peer's nonce once that came. -/
inductive Phase where
  | awaitHello
  | awaitAuth (peerNonce : String)
  | established (peerNonce : String)
  | failed (peerNonce : Option String)
  deriving DecidableEq, Repr

def Phase.peerNonce : Phase → Option String
  | .awaitHello => none
  | .awaitAuth peerNonce | .established peerNonce => some peerNonce
  | .failed peerNonce => peerNonce

/-- One end of a connection: the listener's or the dialer's. -/
structure Session where
  listener : Bool
  myNonce : String
  phase : Phase
  deriving DecidableEq, Repr

/-- The label of a role in its proofs. -/
def direction (listener : Bool) : String := if listener then "L" else "D"

/-- Proof of holding the secret; `mac secret` is HMAC-SHA256 under it, in base64. -/
def authProof (mac : String → String → String) (secret direction nonce : String) : String :=
  mac secret (direction ++ "\x00" ++ nonce)

section Handshake

variable (mac : String → String → String) (secret : String)

/-- The proof a session sends, and the one it expects. -/
def Session.proof (s : Session) (peerNonce : String) : String :=
  authProof mac secret (direction s.listener) peerNonce

def Session.expects (s : Session) : String :=
  authProof mac secret (direction !s.listener) s.myNonce

/-- A session reads a line, or nothing it can parse, or runs into its timeout. -/
def Session.receive (s : Session) (m : Option Msg) : Session × List Msg :=
  match s.phase, m with
  | .awaitHello, some (.hello _ peerNonce) =>
      -- A peer that echoes our own nonce has nothing to prove.
      if peerNonce = s.myNonce then ({ s with phase := .failed none }, [])
      else ({ s with phase := .awaitAuth peerNonce }, [.auth (s.proof mac secret peerNonce)])
  | .awaitHello, _ => ({ s with phase := .failed none }, [])
  | .awaitAuth peerNonce, some (.auth proof) =>
      if proof = s.expects mac secret then ({ s with phase := .established peerNonce }, [])
      else ({ s with phase := .failed (some peerNonce) }, [])
  | .awaitAuth peerNonce, _ => ({ s with phase := .failed (some peerNonce) }, [])
  | .established _, _ | .failed _, _ => (s, [])

/-- Every session at every node, and all that they have sent, by whom. -/
structure Net where
  sessions : List Session := []
  sent : List (Nat × Msg) := []

inductive Move where
  /-- A node accepts or dials a connection; the nonce is drawn at random. -/
  | connect (origin : String) (listener : Bool) (nonce : String)
  /-- The attacker lets a session read something. -/
  | deliver (i : Nat) (m : Option Msg)

def Net.step (n : Net) : Move → Net
  | .connect origin listener nonce =>
      { sessions := n.sessions ++ [⟨listener, nonce, .awaitHello⟩]
        sent := n.sent ++ [(n.sessions.length, .hello origin nonce)] }
  | .deliver i m =>
      match n.sessions[i]? with
      | none => n
      | some s =>
          let (s', out) := s.receive mac secret m
          { sessions := n.sessions.set i s', sent := n.sent ++ out.map (i, ·) }

/-- What can happen: nonces are fresh, names and nonces are not HMACs, and the
attacker has no HMAC but those he has seen. -/
def Net.Allows (n : Net) : Move → Prop
  | .connect origin _ nonce =>
      (∀ s ∈ n.sessions, s.myNonce ≠ nonce) ∧ ∀ text, origin ≠ mac secret text ∧ nonce ≠ mac secret text
  | .deliver _ m =>
      ∀ proof, m = some (.auth proof) →
        (∃ sent ∈ n.sent, proof ∈ sent.2.texts) ∨ ∀ text, proof ≠ mac secret text

/-- Session `j` is in the opposite role to `s` and has computed the proof for the
nonce that `s` chose. -/
def Net.Proves (n : Net) (j : Nat) (s : Session) : Prop :=
  ∃ t, n.sessions[j]? = some t ∧ t.listener = !s.listener ∧ t.phase.peerNonce = some s.myNonce ∧
    (j, .auth (t.proof mac secret s.myNonce)) ∈ n.sent

/-- What every run keeps. -/
structure Net.Sound (n : Net) : Prop where
  /-- A proof is computed for the nonce that its session was sent. -/
  proofs : ∀ j proof, (j, .auth proof) ∈ n.sent → ∃ t peerNonce, n.sessions[j]? = some t ∧
    t.phase.peerNonce = some peerNonce ∧ proof = t.proof mac secret peerNonce
  hellos : ∀ j origin nonce, (j, .hello origin nonce) ∈ n.sent → ∀ text,
    origin ≠ mac secret text ∧ nonce ≠ mac secret text
  fresh : ∀ (i k : Nat) (s t : Session), n.sessions[i]? = some s → n.sessions[k]? = some t → s.myNonce = t.myNonce → i = k
  established : ∀ (i : Nat) (s : Session), n.sessions[i]? = some s → (∃ peerNonce, s.phase = .established peerNonce) →
    ∃ j, n.Proves mac secret j s

end Handshake

/-! ### Proofs -/

/-- The label and the nonce can be read off what is signed. -/
theorem label_injective {listener listener' : Bool} {nonce nonce' : String}
    (h : direction listener ++ "\x00" ++ nonce = direction listener' ++ "\x00" ++ nonce') :
    listener = listener' ∧ nonce = nonce' := by
  have chars := congrArg String.toList h
  cases listener <;> cases listener' <;>
    simp [direction, String.toList_append, String.toList_inj] at chars
  all_goals exact ⟨rfl, chars⟩

section Steps

variable {mac : String → String → String} {secret : String} {n : Net} {s t : Session} {m : Option Msg}

theorem proof_injective (free : Function.Injective (mac secret)) {nonce nonce' : String}
    (h : s.proof mac secret nonce = t.proof mac secret nonce') :
    s.listener = t.listener ∧ nonce = nonce' := label_injective (free h)

/-- What reading a line can do: answer a hello, accept a proof, fail, or nothing. -/
theorem Session.receive_cases (mac : String → String → String) (secret : String) (s : Session)
    (m : Option Msg) :
    (∃ peerNonce, s.phase = .awaitHello ∧ s.receive mac secret m =
        ({ s with phase := .awaitAuth peerNonce }, [.auth (s.proof mac secret peerNonce)])) ∨
      (∃ peerNonce, s.phase = .awaitAuth peerNonce ∧ m = some (.auth (s.expects mac secret)) ∧
        s.receive mac secret m = ({ s with phase := .established peerNonce }, [])) ∨
      s.receive mac secret m = ({ s with phase := .failed s.phase.peerNonce }, []) ∨
      s.receive mac secret m = (s, []) := by
  obtain ⟨listener, myNonce, phase⟩ := s
  cases phase with
  | awaitHello =>
      cases m with
      | none => exact .inr (.inr (.inl rfl))
      | some m =>
          cases m with
          | hello origin peerNonce =>
              by_cases echoed : peerNonce = myNonce
              · exact .inr (.inr (.inl (if_pos echoed)))
              · exact .inl ⟨peerNonce, rfl, if_neg echoed⟩
          | auth | other => exact .inr (.inr (.inl rfl))
  | awaitAuth peerNonce =>
      cases m with
      | none => exact .inr (.inr (.inl rfl))
      | some m =>
          cases m with
          | auth proof =>
              by_cases right : proof = authProof mac secret (direction !listener) myNonce
              · subst right
                exact .inr (.inl ⟨peerNonce, rfl, rfl, if_pos rfl⟩)
              · exact .inr (.inr (.inl (if_neg right)))
          | hello | other => exact .inr (.inr (.inl rfl))
  | established | failed => exact .inr (.inr (.inr rfl))

/-- A session goes on: it keeps its role and its nonce, and the peer's nonce once
it has one. -/
def Session.Continues (s s' : Session) : Prop :=
  s'.listener = s.listener ∧ s'.myNonce = s.myNonce ∧
    ∀ nonce, s.phase.peerNonce = some nonce → s'.phase.peerNonce = some nonce

theorem Session.Continues.refl (s : Session) : s.Continues s := ⟨rfl, rfl, fun _ h => h⟩

theorem receive_continues (mac : String → String → String) (secret : String) (s : Session)
    (m : Option Msg) :
    s.Continues (s.receive mac secret m).1 := by
  rcases s.receive_cases mac secret m with
    ⟨peerNonce, fresh, same⟩ | ⟨peerNonce, known, -, same⟩ | same | same
  all_goals rw [same]
  · refine ⟨rfl, rfl, fun nonce had => ?_⟩
    rw [fresh] at had
    contradiction
  · refine ⟨rfl, rfl, fun nonce had => ?_⟩
    rw [known] at had
    exact had
  · exact ⟨rfl, rfl, fun nonce had => had⟩
  · exact .refl s

/-- A network goes on: its sessions do, and what was sent stays sent. -/
def Net.Continues (n n' : Net) : Prop :=
  (∀ (j : Nat) (s : Session), n.sessions[j]? = some s → ∃ s', n'.sessions[j]? = some s' ∧ s.Continues s') ∧
    ∀ sent ∈ n.sent, sent ∈ n'.sent

theorem Net.Proves.continues {n' : Net} {j : Nat} (h : n.Proves mac secret j s)
    (goes : n.Continues n') (goes' : s.Continues t) : n'.Proves mac secret j t := by
  obtain ⟨prover, held, role, peer, sent⟩ := h
  obtain ⟨prover', held', role', -, peer'⟩ := goes.1 j prover held
  refine ⟨prover', held', ?_, ?_, ?_⟩
  · rw [role', role, goes'.1]
  · rw [goes'.2.1]
    exact peer' _ peer
  · have same : prover'.proof mac secret t.myNonce = prover.proof mac secret s.myNonce := by
      unfold Session.proof
      rw [role', goes'.2.1]
    rw [same]
    exact goes.2 _ sent

theorem deliver_some {i : Nat} (held : n.sessions[i]? = some s) :
    n.step mac secret (.deliver i m) =
      { sessions := n.sessions.set i (s.receive mac secret m).1
        sent := n.sent ++ (s.receive mac secret m).2.map (i, ·) } := by
  unfold Net.step
  simp only [held]

theorem deliver_none {i : Nat} (gone : n.sessions[i]? = none) :
    n.step mac secret (.deliver i m) = n := by
  unfold Net.step
  simp only [gone]

theorem step_continues (mac : String → String → String) (secret : String) (n : Net) (move : Move) : n.Continues (n.step mac secret move) := by
  cases move with
  | connect origin listener nonce =>
      constructor
      · intro j s held
        have bound := (List.getElem?_eq_some_iff.mp held).1
        refine ⟨s, ?_, .refl s⟩
        change (n.sessions ++ _)[j]? = some s
        rw [List.getElem?_append_left bound, held]
      · intro sent mem
        exact List.mem_append_left _ mem
  | deliver i m =>
      cases held : n.sessions[i]? with
      | none =>
          rw [deliver_none held]
          exact ⟨fun j s held => ⟨s, held, .refl s⟩, fun sent mem => mem⟩
      | some s =>
          rw [deliver_some held]
          constructor
          · intro j t there
            dsimp only
            rw [List.getElem?_set]
            by_cases same : i = j
            · subst same
              rw [held] at there
              cases there
              rw [if_pos rfl, if_pos (List.getElem?_eq_some_iff.mp held).1]
              exact ⟨_, rfl, receive_continues mac secret s m⟩
            · rw [if_neg same]
              exact ⟨t, there, .refl t⟩
          · intro sent mem
            exact List.mem_append_left _ mem

theorem held_concat {l : List Session} {j : Nat} (h : (l ++ [t])[j]? = some s) :
    l[j]? = some s ∨ j = l.length ∧ s = t := by
  rcases Nat.lt_or_ge j l.length with old | new
  · rw [List.getElem?_append_left old] at h
    exact .inl h
  · rw [List.getElem?_append_right new] at h
    obtain ⟨bound, same⟩ := List.getElem?_eq_some_iff.mp h
    rw [List.length_singleton] at bound
    exact .inr ⟨by omega, by simpa using same.symm⟩

theorem held_set {l : List Session} {i j : Nat} {s' : Session} (here : l[i]? = some s)
    (h : (l.set i s')[j]? = some t) : j = i ∧ t = s' ∨ j ≠ i ∧ l[j]? = some t := by
  rw [List.getElem?_set] at h
  by_cases same : i = j
  · subst same
    rw [if_pos rfl, if_pos (List.getElem?_eq_some_iff.mp here).1] at h
    exact .inl ⟨rfl, (Option.some.inj h).symm⟩
  · rw [if_neg same] at h
    exact .inr ⟨Ne.symm same, h⟩

/-- A proof stays its session's. -/
theorem Net.Sound.proofs_continue {n' : Net} (sound : n.Sound mac secret) (goes : n.Continues n')
    {j : Nat} {proof : String} (sent : (j, .auth proof) ∈ n.sent) :
    ∃ t peerNonce, n'.sessions[j]? = some t ∧ t.phase.peerNonce = some peerNonce ∧
      proof = t.proof mac secret peerNonce := by
  obtain ⟨t, peerNonce, held, peer, rfl⟩ := sound.proofs j proof sent
  obtain ⟨t', held', role', -, peer'⟩ := goes.1 j t held
  refine ⟨t', peerNonce, held', peer' _ peer, ?_⟩
  unfold Session.proof
  rw [role']

theorem Net.Sound.connect (sound : n.Sound mac secret) {origin nonce : String} {listener : Bool}
    (allowed : n.Allows mac secret (.connect origin listener nonce)) :
    (n.step mac secret (.connect origin listener nonce)).Sound mac secret := by
  have goes := step_continues mac secret n (.connect origin listener nonce)
  constructor
  · intro j proof sent
    rcases List.mem_append.mp sent with old | new
    · exact sound.proofs_continue goes old
    · simp at new
  · intro j from' drawn sent text
    rcases List.mem_append.mp sent with old | new
    · exact sound.hellos j from' drawn old text
    · obtain ⟨rfl, rfl, rfl⟩ : j = n.sessions.length ∧ from' = origin ∧ drawn = nonce := by
        simpa using new
      exact allowed.2 text
  · intro i k s t here there same
    rcases held_concat here with old | ⟨rfl, rfl⟩ <;> rcases held_concat there with old' | ⟨rfl, rfl⟩
    · exact sound.fresh i k s t old old' same
    · exact absurd same (allowed.1 s (List.mem_of_getElem? old))
    · exact absurd same.symm (allowed.1 t (List.mem_of_getElem? old'))
    · rfl
  · rintro i s here ⟨peerNonce, accepted⟩
    rcases held_concat here with old | ⟨rfl, rfl⟩
    · obtain ⟨j, proves⟩ := sound.established i s old ⟨peerNonce, accepted⟩
      exact ⟨j, proves.continues goes (.refl s)⟩
    · contradiction

/-- The proof that a session accepts was computed by a session in the other role. -/
theorem Net.Sound.accepts (sound : n.Sound mac secret) (free : Function.Injective (mac secret))
    {i : Nat} (allowed : n.Allows mac secret (.deliver i (some (.auth (s.expects mac secret))))) :
    ∃ j, n.Proves mac secret j s := by
  rcases allowed _ rfl with ⟨⟨j, sent⟩, mem, holds⟩ | forged
  · cases sent with
    | hello origin nonce =>
        obtain ⟨name, drawn⟩ := sound.hellos j origin nonce mem (direction (!s.listener) ++ "\x00" ++ s.myNonce)
        simp only [Msg.texts, List.mem_cons, List.not_mem_nil, or_false] at holds
        rcases holds with same | same
        · exact absurd same.symm name
        · exact absurd same.symm drawn
    | auth proof =>
        have same : s.expects mac secret = proof := List.mem_singleton.mp holds
        subst same
        obtain ⟨t, peerNonce, held, peer, computed⟩ := sound.proofs j _ mem
        obtain ⟨role, nonce⟩ := label_injective (free computed)
        subst nonce
        refine ⟨j, t, held, role.symm, peer, ?_⟩
        rwa [← computed]
    | other => contradiction
  · exact absurd rfl (forged _)

theorem Net.Sound.deliver (sound : n.Sound mac secret) (free : Function.Injective (mac secret))
    {i : Nat} (allowed : n.Allows mac secret (.deliver i m)) :
    (n.step mac secret (.deliver i m)).Sound mac secret := by
  have goes := step_continues mac secret n (.deliver i m)
  cases held : n.sessions[i]? with
  | none =>
      rw [deliver_none held]
      exact sound
  | some s =>
      have stepped : n.step mac secret (.deliver i m) = _ := deliver_some held
      obtain ⟨-, kept, -⟩ := receive_continues mac secret s m
      have nonces {k : Nat} {t : Session}
          (there : (n.step mac secret (.deliver i m)).sessions[k]? = some t) :
          ∃ u, n.sessions[k]? = some u ∧ u.myNonce = t.myNonce := by
        rw [stepped] at there
        rcases held_set held there with ⟨rfl, rfl⟩ | ⟨-, old⟩
        · exact ⟨s, held, kept.symm⟩
        · exact ⟨t, old, rfl⟩
      constructor
      · intro j proof sent
        rw [stepped] at sent
        rcases List.mem_append.mp sent with old | new
        · exact sound.proofs_continue goes old
        · obtain ⟨out, mem, same⟩ := List.mem_map.mp new
          cases same
          rcases s.receive_cases mac secret m with
            ⟨peerNonce, -, same⟩ | ⟨peerNonce, -, -, same⟩ | same | same
          all_goals rw [same] at mem
          · cases List.mem_singleton.mp mem
            refine ⟨{ s with phase := .awaitAuth peerNonce }, peerNonce, ?_, rfl, rfl⟩
            rw [stepped, same]
            exact (List.getElem?_set_self' ..).trans (by rw [held]; rfl)
          all_goals contradiction
      · intro j origin nonce sent text
        rw [stepped] at sent
        rcases List.mem_append.mp sent with old | new
        · exact sound.hellos j origin nonce old text
        · obtain ⟨out, mem, same⟩ := List.mem_map.mp new
          cases same
          rcases s.receive_cases mac secret m with
            ⟨peerNonce, -, same⟩ | ⟨peerNonce, -, -, same⟩ | same | same
          all_goals
            rw [same] at mem
            simp at mem
      · intro j k t u here there same
        obtain ⟨t', held', nonce'⟩ := nonces here
        obtain ⟨u', held'', nonce''⟩ := nonces there
        exact sound.fresh j k t' u' held' held'' ((nonce'.trans same).trans nonce''.symm)
      · rintro k t there ⟨peerNonce, accepted⟩
        rw [stepped] at there
        rcases held_set held there with ⟨rfl, rfl⟩ | ⟨-, old⟩
        · have goes' := receive_continues mac secret s m
          rcases s.receive_cases mac secret m with
            ⟨peerNonce, -, same⟩ | ⟨peerNonce, -, rfl, same⟩ | same | same
          · rw [same] at accepted
            contradiction
          · obtain ⟨j, proves⟩ := sound.accepts free allowed
            exact ⟨j, proves.continues goes goes'⟩
          · rw [same] at accepted
            contradiction
          · rw [same] at accepted
            obtain ⟨j, proves⟩ := sound.established k s held ⟨peerNonce, accepted⟩
            exact ⟨j, proves.continues goes goes'⟩
        · obtain ⟨j, proves⟩ := sound.established k t old ⟨peerNonce, accepted⟩
          exact ⟨j, proves.continues goes (.refl t)⟩

theorem Net.Sound.step (sound : n.Sound mac secret) (free : Function.Injective (mac secret))
    (move : Move) (allowed : n.Allows mac secret move) : (n.step mac secret move).Sound mac secret := by
  cases move with
  | connect origin listener nonce => exact sound.connect allowed
  | deliver i m => exact sound.deliver free allowed

end Steps

/-- A session is established only if a session in the opposite role has computed the
proof for the nonce that it chose, which no other session chose: whatever the
attacker relays, replays and reflects, at whichever of any number of sessions. -/
theorem established_proved (mac : String → String → String) (secret : String)
    (free : Function.Injective (mac secret)) (moves : List Move)
    (run : Along (Net.step mac secret) (Net.Allows mac secret) {} moves) (i : Nat) (s : Session)
    (held : (after (Net.step mac secret) {} moves).sessions[i]? = some s)
    (established : ∃ peerNonce, s.phase = .established peerNonce) :
    (∃ j, (after (Net.step mac secret) {} moves).Proves mac secret j s) ∧
      ∀ k t, (after (Net.step mac secret) {} moves).sessions[k]? = some t →
        t.myNonce = s.myNonce → k = i := by
  have sound : (after (Net.step mac secret) {} moves).Sound mac secret := by
    refine run.invariant (I := Net.Sound mac secret) (fun n move sound allowed =>
      sound.step free move allowed) ?_
    constructor
    · intro j proof sent
      contradiction
    · intro j origin nonce sent
      contradiction
    · intro i k s t here
      simp at here
    · intro i s here
      simp at here
  exact ⟨sound.established i s held established, fun k t there same => sound.fresh k i t s there held same⟩

/-! ### Three nodes -/

def nonceA : String := "gg1di692LsZtzVb+0Vx4vyeY1Pm9SS9F"
def nonceB : String := "Z2uLuEznJn3VIN7KSBHI8QpT5jY1LwaY"
def nonceC : String := "BICpPS6bCUuJ4I4Bl2CJrBgZOvgCxmtj"

/-- HMAC-SHA256 under "s3cret", where the nodes use it below. -/
def sampleMac (_secret text : String) : String :=
  if text = "L\x00" ++ nonceB then "8jE+A4TJkn6qmuZMdSo92XjBCkEvhe/R1SUmFufotGo="
  else if text = "L\x00" ++ nonceC then "ou/nBsRcs3IdbHNIHutT7AVS+21IJ/ayBJH3PLbSUZM="
  else if text = "D\x00" ++ nonceA then "FT7iLtzuzBrKIqd5C71ZlM0F/JKnVSTJl9POuKyASSE="
  else "~" ++ text

theorem head_other (text : String) : ("~" ++ text).toList.head? = some '~' := by
  rw [String.toList_append]
  rfl

theorem sampleMac_injective : Function.Injective (sampleMac "s3cret") := by
  intro x y h
  unfold sampleMac at h
  have apart {proof text : String} (h : proof = "~" ++ text)
      (plain : proof.toList.head? ≠ some '~') : x = y := absurd (h ▸ head_other text) plain
  split_ifs at h
  all_goals first
    | (subst_vars; rfl)
    | exact absurd h (by decide)
    | exact apart h (by decide)
    | exact apart h.symm (by decide)
    | exact String.toList_inj.mp (by simpa using congrArg String.toList h)

/-- Names and nonces are no proofs. -/
theorem sampleMac_fresh {name : String} (short : name.length < 44)
    (plain : name.toList.head? ≠ some '~') (text : String) : name ≠ sampleMac "s3cret" text := by
  rintro rfl
  unfold sampleMac at short plain
  split_ifs at short plain
  case neg => exact plain (head_other text)
  all_goals exact absurd short (by decide)

/-- The attacker only passes on what the nodes sent. -/
def Relays (n : Net) : Move → Prop
  | .connect .. => True
  | .deliver _ m => ∃ sent ∈ n.sent, m = some sent.2

instance (n : Net) : DecidablePred (Relays n)
  | .connect .. => .isTrue trivial
  | .deliver _ m => inferInstanceAs (Decidable (∃ sent ∈ n.sent, m = some sent.2))

/-- Node a listens, b and c dial; b answers a's nonce, and a's session is sent the
hello of one of the two and b's proof. -/
def dialled (origin nonce : String) : List Move :=
  [.connect "a" true nonceA, .connect "b" false nonceB, .connect "c" false nonceC,
    .deliver 1 (some (.hello "a" nonceA)), .deliver 0 (some (.hello origin nonce)),
    .deliver 0 (some (.auth "FT7iLtzuzBrKIqd5C71ZlM0F/JKnVSTJl9POuKyASSE="))]

/-- Both sessions have taken each other's nonces for the peer's. -/
def Net.Agrees (n : Net) (j : Nat) (s : Session) : Prop :=
  ∃ t, n.sessions[j]? = some t ∧ t.listener = !s.listener ∧ t.phase.peerNonce = some s.myNonce ∧
    s.phase.peerNonce = some t.myNonce

/-- Along a run that only relays, a proof is one that was sent. -/
theorem allows_of_relays {n : Net} {i : Nat} {m : Option Msg} (relays : Relays n (.deliver i m)) :
    n.Allows sampleMac "s3cret" (.deliver i m) := by
  rintro proof rfl
  obtain ⟨sent, mem, same⟩ := relays
  refine .inl ⟨sent, mem, ?_⟩
  rw [← Option.some.inj same]
  exact List.mem_singleton_self proof

theorem dialled_allowed {origin nonce : String}
    (relayed : Relays (after (Net.step sampleMac "s3cret") {} ((dialled origin nonce).take 4))
      (.deliver 0 (some (.hello origin nonce))))
    (relayed' : Relays (after (Net.step sampleMac "s3cret") {} ((dialled origin nonce).take 5))
      (.deliver 0 (some (.auth "FT7iLtzuzBrKIqd5C71ZlM0F/JKnVSTJl9POuKyASSE=")))) :
    Along (Net.step sampleMac "s3cret") (Net.Allows sampleMac "s3cret") {} (dialled origin nonce) := by
  have plain {origin nonce : String}
      (short : origin.length < 44 ∧ nonce.length < 44)
      (heads : origin.toList.head? ≠ some '~' ∧ nonce.toList.head? ≠ some '~') (text : String) :
      origin ≠ sampleMac "s3cret" text ∧ nonce ≠ sampleMac "s3cret" text :=
    ⟨sampleMac_fresh short.1 heads.1 text, sampleMac_fresh short.2 heads.2 text⟩
  refine ⟨⟨by simp, plain (by decide) (by decide)⟩, ⟨by decide, plain (by decide) (by decide)⟩,
    ⟨by decide, plain (by decide) (by decide)⟩, ?_, ?_, ?_, trivial⟩
  · exact allows_of_relays (by decide)
  · exact allows_of_relays relayed
  · exact allows_of_relays relayed'

/-- A proof says nothing of the prover's own nonce: a's session is established with
c's nonce for the peer's, on the proof of b. -/
theorem nonces_disagree :
    let n := after (Net.step sampleMac "s3cret") {} (dialled "c" nonceC)
    Along (Net.step sampleMac "s3cret") (Net.Allows sampleMac "s3cret") {} (dialled "c" nonceC) ∧
      n.sessions[0]? = some ⟨true, nonceA, .established nonceC⟩ ∧
        ∀ j, ¬ n.Agrees j ⟨true, nonceA, .established nonceC⟩ := by
  refine ⟨dialled_allowed (by decide) (by decide), by decide, ?_⟩
  rintro j ⟨t, held, -, peer, own⟩
  have none_agrees : ∀ t ∈ (after (Net.step sampleMac "s3cret") {} (dialled "c" nonceC)).sessions,
      t.phase.peerNonce = some nonceA → some nonceC ≠ some t.myNonce := by decide
  exact none_agrees t (List.mem_of_getElem? held) peer own

/-- With the hellos passed on unchanged, a's session is established on b's proof. -/
theorem established_proved_dialled :
    let n := after (Net.step sampleMac "s3cret") {} (dialled "b" nonceB)
    n.sessions[0]? = some ⟨true, nonceA, .established nonceB⟩ ∧
      ∃ j, n.Proves sampleMac "s3cret" j ⟨true, nonceA, .established nonceB⟩ := by
  intro n
  have held : n.sessions[0]? = some ⟨true, nonceA, .established nonceB⟩ := by decide
  exact ⟨held, (established_proved sampleMac "s3cret" sampleMac_injective (dialled "b" nonceB)
    (dialled_allowed (by decide) (by decide)) 0 _ held ⟨nonceB, rfl⟩).1⟩

end Echo.Gossip
