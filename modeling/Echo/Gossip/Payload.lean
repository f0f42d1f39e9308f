import Echo.Db.Log
import Echo.Lib.Splitting
import Echo.Lib.Utf8
import Mathlib.Data.Set.Operations

/-!
The bytes that the signature of a gossiped entry covers (`payload` in `sign.rs`): the
origin up to a NUL, three counters of eight bytes each, another NUL and the event as JSON.
Only the first field and the last vary in length, and the NUL ends the first; so no two
entries have one payload, and a signature is that of one entry.
-/

namespace Echo.Gossip

open Echo.Lib

/-- The eight bytes of a counter, the least first. -/
def toLeBytes (n : UInt64) : List UInt8 :=
  (List.range 8).map fun i => UInt8.ofNat (n.toNat / 256 ^ i)

@[simp] theorem length_toLeBytes (n : UInt64) : (toLeBytes n).length = 8 := by
  simp [toLeBytes]

/-- A number is told by its bytes. -/
theorem eq_of_bytes {k n m : Nat} (narrow : n < 256 ^ k) (narrow' : m < 256 ^ k)
    (same : ∀ i < k, n / 256 ^ i % 256 = m / 256 ^ i % 256) : n = m := by
  induction k generalizing n m with
  | zero => omega
  | succ k ih =>
    rw [Nat.pow_succ] at narrow narrow'
    have low : n % 256 = m % 256 := by simpa using same 0 k.succ_pos
    have high : n / 256 = m / 256 := by
      refine ih (by omega) (by omega) fun i small => ?_
      simpa [Nat.div_div_eq_div_mul, Nat.pow_succ'] using same (i + 1) (by omega)
    omega

theorem toLeBytes_injective : Function.Injective toLeBytes := by
  intro n m same
  apply UInt64.toNat_inj.mp
  apply @eq_of_bytes 8 _ _ n.toNat_lt m.toNat_lt
  intro i small
  have byte := congrArg (fun bytes => bytes[i]?.map UInt8.toNat) same
  simpa [toLeBytes, small] using byte

section Payload

variable (toJson : Event → Option String)

/-- The event as `serde_json` writes it, or nothing where it fails. -/
def jsonText (event : Event) : String := (toJson event).getD ""

def payload (origin : String) (epoch seq lamport : UInt64) (event : Event) : List UInt8 :=
  encode origin.toList ++ 0 :: (toLeBytes epoch ++ (toLeBytes seq ++ (toLeBytes lamport ++
    0 :: encode (jsonText toJson event).toList)))

theorem splitOnce_payload {origin : String} (named : '\x00' ∉ origin.toList) (epoch seq lamport : UInt64) (event : Event) :
    splitOnce [0] (payload toJson origin epoch seq lamport event) = some (encode origin.toList,
      toLeBytes epoch ++ (toLeBytes seq ++ (toLeBytes lamport ++ 0 :: encode (jsonText toJson event).toList))) := by
  have ended : (0 : UInt8) ∉ encode origin.toList := fun mem => named ((mem_encode_iff (by decide)).mp mem)
  exact splitOnce_single ended _

variable {origin origin' : String} {epoch epoch' seq seq' lamport lamport' : UInt64} {event event' : Event}

/-- The fields of an entry are told by what is signed, the event as far as its text goes. -/
theorem payload_fields (named : '\x00' ∉ origin.toList) (named' : '\x00' ∉ origin'.toList)
    (same : payload toJson origin epoch seq lamport event = payload toJson origin' epoch' seq' lamport' event') :
    origin = origin' ∧ epoch = epoch' ∧ seq = seq' ∧ lamport = lamport' ∧
      jsonText toJson event = jsonText toJson event' := by
  have split := splitOnce_payload toJson named epoch seq lamport event
  rw [same, splitOnce_payload toJson named'] at split
  obtain ⟨origins, rest⟩ := Prod.mk.inj (Option.some.inj split.symm)
  obtain ⟨epochs, rest⟩ := List.append_inj rest (by simp)
  obtain ⟨seqs, rest⟩ := List.append_inj rest (by simp)
  obtain ⟨lamports, rest⟩ := List.append_inj rest (by simp)
  obtain ⟨-, events⟩ := List.cons.inj rest
  exact ⟨String.toList_inj.mp (encode_inj origins), toLeBytes_injective epochs, toLeBytes_injective seqs,
    toLeBytes_injective lamports, String.toList_inj.mp (encode_inj events)⟩

/-- Entries that agree in what is signed agree, as far as JSON tells their events apart. -/
theorem payload_unambiguous (injective : Set.InjOn (jsonText toJson) {event, event'})
    (named : '\x00' ∉ origin.toList) (named' : '\x00' ∉ origin'.toList)
    (same : payload toJson origin epoch seq lamport event = payload toJson origin' epoch' seq' lamport' event') :
    origin = origin' ∧ epoch = epoch' ∧ seq = seq' ∧ lamport = lamport' ∧ event = event' := by
  obtain ⟨origins, epochs, seqs, lamports, texts⟩ := payload_fields toJson named named' same
  exact ⟨origins, epochs, seqs, lamports, injective (.inl rfl) (.inr rfl) texts⟩

end Payload

/-- The text of one kind of event, with a name that needs no escapes. -/
def droppedJson : Event → Option String
  | .accountDropped account =>
      some ("\x7b\"event\":\"AccountDropped\",\"account\":\"" ++ account ++ "\"\x7d")
  | _ => none

theorem droppedJson_injOn (account account' : String) :
    Set.InjOn (jsonText droppedJson) {.accountDropped account, .accountDropped account'} := by
  have apart {name name' : String}
      (same : jsonText droppedJson (.accountDropped name) = jsonText droppedJson (.accountDropped name')) :
      name = name' := by
    simpa [jsonText, droppedJson] using same
  rintro _ (rfl | rfl) _ (rfl | rfl) same <;> exact congrArg Event.accountDropped (apart same)

theorem payload_unambiguous_dropped :
    "0AA" = "0A" ++ "A" ∧ (5 : UInt64) = 5 ∧ (3 : UInt64) = 3 ∧ (4 : UInt64) = 4 ∧
      Event.accountDropped "alice" = .accountDropped ("ali" ++ "ce") :=
  payload_unambiguous droppedJson (droppedJson_injOn _ _) (by decide) (by decide) (by decide +kernel)

/-! ### Signatures -/

section Signatures

variable (toJson : Event → Option String)

/-- What is signed of the content of an entry. -/
def signedBytes (content : Signed) : List UInt8 :=
  payload toJson content.origin (UInt64.ofNat content.epoch) (UInt64.ofNat content.seq)
    (UInt64.ofNat content.lamport) content.event

/-- The counters of an entry are of 64 bits, and no NUL is in the name of its origin. -/
structure Framed (content : Signed) : Prop where
  named : '\x00' ∉ content.origin.toList
  epoch : content.epoch < 2 ^ 64
  seq : content.seq < 2 ^ 64
  lamport : content.lamport < 2 ^ 64

theorem signedBytes_injective {content content' : Signed}
    (injective : Set.InjOn (jsonText toJson) {content.event, content'.event}) (framed : Framed content)
    (framed' : Framed content') (same : signedBytes toJson content = signedBytes toJson content') :
    content = content' := by
  obtain ⟨origins, epochs, seqs, lamports, texts⟩ := payload_fields toJson framed.named framed'.named same
  have narrow {n m : Nat} (small : n < 2 ^ 64) (small' : m < 2 ^ 64) (equal : UInt64.ofNat n = UInt64.ofNat m) :
      n = m := by
    have nats := congrArg UInt64.toNat equal
    rwa [UInt64.toNat_ofNat_of_lt' small, UInt64.toNat_ofNat_of_lt' small'] at nats
  have events := injective (.inl rfl) (.inr rfl) texts
  have epochs := narrow framed.epoch framed'.epoch epochs
  have seqs := narrow framed.seq framed'.seq seqs
  have lamports := narrow framed.lamport framed'.lamport lamports
  cases content
  cases content'
  simp_all

/-- A signing configuration over a scheme that signs bytes. -/
def signingOver {Key : Type} (sign : List UInt8 → String) (trust : String → Option Key)
    (verify : Key → List UInt8 → String → Bool) : Signing where
  signer content := sign (signedBytes toJson content)
  trust origin := (trust origin).map fun vk content => verify vk (signedBytes toJson content)

/-- One signature verifies one entry of an origin, if it is that of one text. -/
theorem verify_binds {Key : Type} {sign : List UInt8 → String} {trust : String → Option Key}
    {verify : Key → List UInt8 → String → Bool}
    (single : ∀ {vk bytes bytes' sig}, verify vk bytes sig → verify vk bytes' sig → bytes = bytes')
    {content content' : Signed} (injective : Set.InjOn (jsonText toJson) {content.event, content'.event})
    (framed : Framed content) (framed' : Framed content') (alike : content.origin = content'.origin) {sig : String}
    (verified : (signingOver toJson sign trust verify).verify content (some sig))
    (verified' : (signingOver toJson sign trust verify).verify content' (some sig)) : content = content' := by
  cases trusted : trust content'.origin with
  | none => simp [Signing.verify, signingOver, trusted] at verified'
  | some vk =>
    have first : verify vk (signedBytes toJson content) sig := by
      simpa [Signing.verify, signingOver, alike, trusted] using verified
    have second : verify vk (signedBytes toJson content') sig := by
      simpa [Signing.verify, signingOver, trusted] using verified'
    exact signedBytes_injective toJson injective framed framed' (single first second)

end Signatures
end Echo.Gossip
