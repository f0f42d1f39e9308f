import Echo.Lib.Base64Url
import Echo.Lib.Splitting
import Echo.Lib.Utf8
import Echo.Login.Scram

/-!
The session tokens of the panel (`sign_session` and `verify_session` in `panel/mod.rs`). A
token is two texts in Base64 with a dot between them: an account and an expiry with a bar
between them, and an HMAC of that under the key of the process.

An account may hold bars and dots. The dot is no letter of Base64, so the first dot of a
token is the one between its parts, and an expiry holds no bar, so the last bar of what is
signed is the one behind the account.
-/

namespace Echo.Panel

open Echo.Lib Echo.Scram

/-- What is relied on of `URL_SAFE_NO_PAD`: it reads what it writes and reads nothing else,
and writes no dots. -/
structure UrlSafe where
  encode : List UInt8 → List Char
  decode : List Char → Option (List UInt8)
  decode_encode : ∀ bytes, decode (encode bytes) = some bytes
  encode_of_decode : ∀ {text bytes}, decode text = some bytes → encode bytes = text
  dot_notMem_encode : ∀ bytes, '.' ∉ encode bytes

/-- The engine, written out. -/
def urlSafeNoPad : UrlSafe where
  encode := Base64Url.encode
  decode := Base64Url.decode
  decode_encode := Base64Url.decode_encode
  encode_of_decode := Base64Url.encode_of_decode
  dot_notMem_encode := Base64Url.dot_notMem_encode

/-- How long a login stays valid. -/
def sessionTtl : Nat := 8 * 3600

/-- When a token signed at `now` expires. -/
def expiry (now : Nat) : Nat := (now + sessionTtl) % 2 ^ 64

/-- What is signed of a login. -/
def sessionPayload (account : String) (now : Nat) : List UInt8 :=
  encode (account.toList ++ '|' :: (toString (expiry now)).toList)

section Tokens

variable (b64 : UrlSafe) (mac : List UInt8 → List UInt8 → List UInt8) (key : List UInt8)

/-- Two texts in Base64. -/
def joined (payload tag : List UInt8) : String :=
  String.ofList (b64.encode payload ++ '.' :: b64.encode tag)

def signSession (account : String) (now : Nat) : String :=
  let payload := sessionPayload account now
  joined b64 payload (mac key payload)

def verifySession (token : String) (now : Nat) : Option String := do
  let (p, t) ← splitOnce ['.'] token.toList
  let payload ← b64.decode p
  let tag ← b64.decode t
  if mac key payload ≠ tag then none
  else
    let s ← decode payload
    -- Split from the right: an account may hold a bar, an expiry does not.
    let (account, exp) ← rsplitOnce ['|'] s
    if (← parseUnsigned exp) < now then none else some (String.ofList account)

/-! ### Reading a token back -/

theorem rsplitOnce_single_none {c : Char} {text : List Char} (free : c ∉ text) : rsplitOnce [c] text = none := by
  induction text with
  | nil => rfl
  | cons d text ih =>
    rw [List.mem_cons, not_or] at free
    simp [rsplitOnce, ih free.2, free.1]

theorem rsplitOnce_single {c : Char} (front : List Char) {back : List Char} (free : c ∉ back) :
    rsplitOnce [c] (front ++ c :: back) = some (front, back) := by
  induction front with
  | nil => simp [rsplitOnce, rsplitOnce_single_none free]
  | cons d front ih => simp [rsplitOnce, ih]

theorem bar_notMem_toString (n : Nat) : '|' ∉ (toString n).toList := by
  intro mem
  rw [toList_toString] at mem
  exact absurd (Nat.isDigit_of_mem_toDigits (by decide) (by decide) mem) (by decide)

theorem expiry_lt (now : Nat) : expiry now < 2 ^ 64 := Nat.mod_lt _ (by decide)

/-- A token that has been signed gives its account until it expires. -/
theorem verifySession_signSession (account : String) (signed now : Nat) :
    verifySession b64 mac key (signSession b64 mac key account signed) now =
      if expiry signed < now then none else some account := by
  have parts := splitOnce_single (b64.dot_notMem_encode (sessionPayload account signed))
  have fields := rsplitOnce_single account.toList (bar_notMem_toString (expiry signed))
  have stamp := parseUnsigned_toString (expiry_lt signed)
  simp only [verifySession, signSession, joined, String.toList_ofList, parts, b64.decode_encode,
    Option.bind_eq_bind, Option.bind_some, ne_eq, not_true_eq_false, if_false]
  simp only [sessionPayload, decode_encode, Option.bind_some, fields, stamp, String.ofList_toList]

/-- What is let in is in two parts, the second of them the HMAC of the first. -/
theorem joined_of_verifySession {token account : String} {now : Nat}
    (accepted : verifySession b64 mac key token now = some account) :
    ∃ payload, token = joined b64 payload (mac key payload) := by
  simp only [verifySession, Option.bind_eq_bind, Option.bind_eq_some_iff] at accepted
  obtain ⟨⟨p, t⟩, split, payload, first, tag, second, accepted⟩ := accepted
  have parts := splitOnce_eq split
  dsimp only at first second
  rw [← b64.encode_of_decode first, ← b64.encode_of_decode second] at parts
  have genuine : mac key payload = tag := by
    by_contra forged
    rw [if_pos forged] at accepted
    cases accepted
  refine ⟨payload, ?_⟩
  rw [joined, genuine]
  exact String.toList_inj.mp (by simpa using parts)

theorem joined_inj {payload payload' tag tag' : List UInt8}
    (same : joined b64 payload tag = joined b64 payload' tag') : payload = payload' ∧ tag = tag' := by
  have letters := congrArg String.toList same
  simp only [joined, String.toList_ofList] at letters
  have split := splitOnce_single (b64.dot_notMem_encode payload) (b64.encode tag)
  rw [letters, splitOnce_single (b64.dot_notMem_encode payload')] at split
  obtain ⟨payloads, tags⟩ := Prod.mk.inj (Option.some.inj split.symm)
  have inj {bytes bytes' : List UInt8} (alike : b64.encode bytes = b64.encode bytes') : bytes = bytes' := by
    have read := b64.decode_encode bytes
    rw [alike, b64.decode_encode] at read
    exact (Option.some.inj read).symm
  exact ⟨inj payloads, inj tags⟩

/-! ### Whom a token is of -/

/-- A string that anyone comes up with holds the HMAC of a text under the key only if that text
has been signed for one of the logins so far. -/
def Unforgeable (logins : List (String × Nat)) (token : String) : Prop :=
  ∀ payload tag, token = joined b64 payload tag → tag = mac key payload →
    ∃ login ∈ logins, payload = sessionPayload login.1 login.2

/-- A token opens the account that it was signed for, until it expires; no other string opens
one. -/
theorem session_binds_account (account : String) (signed now : Nat) :
    (now ≤ expiry signed → verifySession b64 mac key (signSession b64 mac key account signed) now = some account) ∧
      (expiry signed < now → verifySession b64 mac key (signSession b64 mac key account signed) now = none) ∧
      ∀ logins token, Unforgeable b64 mac key logins token → verifySession b64 mac key token now = some account →
        ∃ login ∈ logins, login.1 = account ∧ now ≤ expiry login.2 ∧
          token = signSession b64 mac key account login.2 := by
  refine ⟨fun early => ?_, fun late => ?_, fun logins token unforgeable accepted => ?_⟩
  · rw [verifySession_signSession, if_neg (Nat.not_lt.mpr early)]
  · rw [verifySession_signSession, if_pos late]
  · obtain ⟨payload, rfl⟩ := joined_of_verifySession b64 mac key accepted
    obtain ⟨login, mem, rfl⟩ := unforgeable _ _ rfl rfl
    change verifySession b64 mac key (signSession b64 mac key login.1 login.2) now = some account at accepted
    rw [verifySession_signSession, Option.ite_none_left_eq_some] at accepted
    obtain ⟨early, own⟩ := accepted
    cases own
    exact ⟨login, mem, rfl, Nat.not_lt.mp early, rfl⟩

end Tokens

/-- The HMAC-SHA256 of one text under a key of 32 zeroes. -/
def aliceMac (_ message : List UInt8) : List UInt8 :=
  if message = encode "alice|28800".toList then
    [205, 112, 96, 59, 137, 223, 207, 110, 173, 114, 236, 143, 137, 115, 31, 176,
      11, 30, 106, 183, 83, 92, 168, 181, 193, 237, 161, 184, 209, 1, 105, 245]
  else []

theorem signSession_alice : signSession urlSafeNoPad aliceMac (List.replicate 32 0) "alice" 0 =
    "YWxpY2V8Mjg4MDA.zXBgO4nfz26tcuyPiXMfsAseardTXKi1we2huNEBafU" := by
  decide +kernel

theorem unforgeable_alice : Unforgeable urlSafeNoPad aliceMac (List.replicate 32 0) [("alice", 0)]
    "YWxpY2V8Mjg4MDA.zXBgO4nfz26tcuyPiXMfsAseardTXKi1we2huNEBafU" := by
  intro payload tag held _
  rw [← signSession_alice] at held
  exact ⟨("alice", 0), by simp, (joined_inj urlSafeNoPad held).1.symm⟩

theorem session_binds_account_alice :
    verifySession urlSafeNoPad aliceMac (List.replicate 32 0)
        (signSession urlSafeNoPad aliceMac (List.replicate 32 0) "alice" 0) 28800 = some "alice" ∧
      ∃ login ∈ [("alice", 0)], login.1 = "alice" ∧ 28800 ≤ expiry login.2 ∧
        "YWxpY2V8Mjg4MDA.zXBgO4nfz26tcuyPiXMfsAseardTXKi1we2huNEBafU" =
          signSession urlSafeNoPad aliceMac (List.replicate 32 0) "alice" login.2 := by
  obtain ⟨opens, -, binds⟩ := session_binds_account urlSafeNoPad aliceMac (List.replicate 32 0) "alice" 0 28800
  refine ⟨opens (by decide), binds _ _ unforgeable_alice ?_⟩
  rw [← signSession_alice]
  exact opens (by decide)

end Echo.Panel
