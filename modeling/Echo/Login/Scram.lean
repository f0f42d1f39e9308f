import Echo.Engine.Lines
import Echo.Lib.Base64
import Echo.Lib.Substitution
import Echo.Lib.Utf8
import Echo.Login.Doors

/-!
The SCRAM server (`engine/scram.rs`): the stored verifier, the check of a plain password
against it and the exchange of messages, with an honest client at the other end. The
hashes are any functions that give results of the right length.

Both ways ask whether the password's stored key is the one in the verifier. SCRAM asks it
of a key that is got back out of the proof; with another password this is some other key,
and is refused unless its hash happens to be the stored key after all.
-/

namespace Echo.Scram

open Echo.Lib

/-- A message, or a part of one. -/
abbrev Text := List Char

abbrev Bytes := List UInt8

def size : Hash → Nat
  | .sha256 => 32
  | .sha512 => 64

/-- The hash, the keyed hash and the slow hash of a password. -/
structure Primitives where
  h : Hash → (data : Bytes) → Bytes
  hmac : Hash → (key msg : Bytes) → Bytes
  hi : Hash → (password salt : Bytes) → (iterations : Nat) → Bytes
  length_h : ∀ hash data, (h hash data).length = size hash
  length_hmac : ∀ hash key msg, (hmac hash key msg).length = size hash
  length_hi : ∀ hash password salt iterations,
    (hi hash password salt iterations).length = size hash

def xor (a b : Bytes) : Bytes := List.zipWith (· ^^^ ·) a b

/-- Parts put together with commas between them. -/
def commas (parts : List Text) : Text := [','].intercalate parts

/-- `str::strip_prefix` -/
def strip (label text : Text) : Option Text := label.isPrefixOf? text

section Server

variable (P : Primitives) (hash : Hash)

/-! ### The verifier -/

structure Verifier where
  iterations : Nat
  salt : Bytes
  storedKey : Bytes
  serverKey : Bytes
  deriving DecidableEq

def clientKey (salted : Bytes) : Bytes := P.hmac hash salted (encode "Client Key".toList)

def serverKey (salted : Bytes) : Bytes := P.hmac hash salted (encode "Server Key".toList)

/-- The stored key a password gives. -/
def storedKey (password : Text) (salt : Bytes) (iterations : Nat) : Bytes :=
  P.h hash (clientKey P hash (P.hi hash (encode password) salt iterations))

def makeVerifier (password : Text) (iterations : Nat) (salt : Bytes) : Text :=
  let salted := P.hi hash (encode password) salt iterations
  commas
    ["v=1".toList, "i=".toList ++ (toString iterations).toList,
      "s=".toList ++ Base64.encode salt,
      "sk=".toList ++ Base64.encode (P.h hash (clientKey P hash salted)),
      "sv=".toList ++ Base64.encode (serverKey P hash salted)]

/-- What is read of a verifier so far. -/
structure Fields where
  iterations : Option Nat := none
  salt : Option Bytes := none
  storedKey : Option Bytes := none
  serverKey : Option Bytes := none

def readPart (f : Fields) (part : Text) : Option Fields :=
  (splitOnce ['='] part).bind fun (k, v) =>
    if k = "v".toList then if v ≠ "1".toList then none else some f
    else if k = "i".toList then
      some { f with iterations := (parseUnsigned v).filter (· < 2 ^ 32) }
    else if k = "s".toList then some { f with salt := Base64.decode v }
    else if k = "sk".toList then some { f with storedKey := Base64.decode v }
    else if k = "sv".toList then some { f with serverKey := Base64.decode v }
    else some f

def parseVerifier (encoded : Text) : Option Verifier := do
  let f ← (encoded.splitOn ',').foldlM readPart {}
  some
    { iterations := ← f.iterations
      salt := ← f.salt
      storedKey := ← f.storedKey
      serverKey := ← f.serverKey }

def verifyPlain (encoded password : Text) : Bool :=
  match parseVerifier encoded with
  | none => false
  | some v => storedKey P hash password v.salt v.iterations = v.storedKey

/-! ### The exchange -/

structure ClientFirst where
  username : Text
  gs2Header : Text
  clientFirstBare : Text
  cnonce : Text

def parseClientFirst (msg : Text) : Option ClientFirst := do
  let (cbflag, rest) ← splitOnce [','] msg
  let (authzid, bare) ← splitOnce [','] rest
  if cbflag.head? = some 'p' then none
  else
    let fields := bare.splitOn ','
    let username ← fields[0]?.bind (strip "n=".toList)
    let cnonce ← fields[1]?.bind (strip "r=".toList)
    some
      { username :=
          Substitution.replace id id
            (Substitution.replace id id username { pat := "=2C".toList, val := [','] })
            { pat := "=3D".toList, val := ['='] }
        gs2Header := cbflag ++ ',' :: authzid ++ [',']
        clientFirstBare := bare
        cnonce }

/-- The server-first message and the full nonce; `nonce` is the server's part of it. -/
def serverFirst (cnonce nonce : Text) (v : Verifier) : Text × Text :=
  (commas
      ["r=".toList ++ (cnonce ++ nonce), "s=".toList ++ Base64.encode v.salt,
        "i=".toList ++ (toString v.iterations).toList],
    cnonce ++ nonce)

/-- `str::rsplit_once` -/
def rsplitOnce (pat : Text) : Text → Option (Text × Text)
  | [] => none
  | c :: s =>
      match rsplitOnce pat s with
      | some (front, back) => some (c :: front, back)
      | none => if pat.isPrefixOf (c :: s) then some ([], (c :: s).drop pat.length) else none

/-- The last channel binding and the last nonce among some fields. -/
def readFinal (found : Option Text × Option Text) (field : Text) : Option Text × Option Text :=
  match strip "c=".toList field with
  | some x => (some x, found.2)
  | none =>
      match strip "r=".toList field with
      | some x => (found.1, some x)
      | none => found

/-- What both ends sign. -/
def authMessage (clientFirstBare serverFirst withoutProof : Text) : Bytes :=
  encode (commas [clientFirstBare, serverFirst, withoutProof])

def verifyFinal (v : Verifier) (clientFirstBare serverFirst gs2Header fullNonce clientFinal : Text) :
    Option Text := do
  let (withoutProof, proofB64) ← rsplitOnce ",p=".toList clientFinal
  let proof ← Base64.decode proofB64
  let (cbind, rnonce) := (withoutProof.splitOn ',').foldl readFinal (none, none)
  let rnonce ← rnonce
  if rnonce ≠ fullNonce then none
  else
    let header ← cbind.bind Base64.decode
    if header ≠ encode gs2Header then none
    else
      let message := authMessage clientFirstBare serverFirst withoutProof
      let clientSignature := P.hmac hash v.storedKey message
      if proof.length ≠ clientSignature.length then none
      else if P.h hash (xor proof clientSignature) ≠ v.storedKey then none
      else some ("v=".toList ++ Base64.encode (P.hmac hash v.serverKey message))

/-! ### An honest client -/

/-- What a client writes in front of its opening message: no channel binding, and perhaps
the account to act as. -/
structure Gs2 where
  cbflag : Text
  authzid : Text
  no_binding : cbflag.head? ≠ some 'p'
  comma_cbflag : ',' ∉ cbflag
  comma_authzid : ',' ∉ authzid

def Gs2.header (g : Gs2) : Text := g.cbflag ++ ',' :: g.authzid ++ [',']

/-- The username as it is sent. -/
def escape (username : Text) : Text :=
  username.flatMap fun c =>
    if c = ',' then "=2C".toList else if c = '=' then "=3D".toList else [c]

def clientFirstBare (username cnonce : Text) : Text :=
  commas ["n=".toList ++ escape username, "r=".toList ++ cnonce]

def clientFirst (g : Gs2) (username cnonce : Text) : Text :=
  g.header ++ clientFirstBare username cnonce

/-- The nonce, salt and cost in a server-first message. -/
def readChallenge (msg : Text) : Option (Text × Bytes × Nat) :=
  match msg.splitOn ',' with
  | [nonce, salt, iterations] => do
      let nonce ← strip "r=".toList nonce
      let salt ← (strip "s=".toList salt).bind Base64.decode
      let iterations ← (strip "i=".toList iterations).bind parseUnsigned
      some (nonce, salt, iterations)
  | _ => none

/-- The key a client proves to have and what it signs it with. -/
def proof (salted : Bytes) (message : Bytes) : Bytes :=
  let key := clientKey P hash salted
  xor key (P.hmac hash (P.h hash key) message)

/-- The answer to a server-first message. -/
def clientFinal (g : Gs2) (username cnonce password challenge : Text) : Option Text :=
  (readChallenge challenge).map fun (nonce, salt, iterations) =>
    let withoutProof :=
      commas ["c=".toList ++ Base64.encode (encode g.header), "r=".toList ++ nonce]
    let message := authMessage (clientFirstBare username cnonce) challenge withoutProof
    withoutProof ++ ",p=".toList ++
      Base64.encode (proof P hash (P.hi hash (encode password) salt iterations) message)

/-- An honest client with a password logs in against a verifier. -/
def exchange (encoded : Text) (g : Gs2) (username cnonce nonce password : Text) : Bool :=
  ((parseVerifier encoded).bind fun v =>
    (parseClientFirst (clientFirst g username cnonce)).bind fun cf =>
      let (challenge, fullNonce) := serverFirst cf.cnonce nonce v
      (clientFinal P hash g username cnonce password challenge).bind fun final =>
        verifyFinal P hash v cf.clientFirstBare challenge cf.gs2Header fullNonce final).isSome

end Server

/-! ### Parts of messages -/

theorem strip_append (label text : Text) : strip label (label ++ text) = some text := by
  unfold strip
  induction label with
  | nil => rfl
  | cons c label ih => simp

theorem splitOn_commas {part : Text} {parts : List Text} (plain : (part :: parts).Forall (',' ∉ ·)) :
    (commas (part :: parts)).splitOn ',' = part :: parts :=
  List.splitOn_intercalate ',' (List.forall_iff_forall_mem.mp plain) (List.cons_ne_nil _ _)

theorem toList_toString (n : Nat) : (toString n).toList = Nat.toDigits 10 n := Nat.toList_repr

theorem comma_notMem_toString (n : Nat) : ',' ∉ (toString n).toList := by
  intro mem
  rw [toList_toString] at mem
  exact absurd (Nat.isDigit_of_mem_toDigits (by decide) (by decide) mem) (by decide)

theorem parseUnsigned_toString {n : Nat} (small : n < 2 ^ 64) :
    parseUnsigned (toString n).toList = some n := by
  have digits : ∀ c ∈ (toString n).toList, c.isDigit = true := by
    intro c mem
    rw [toList_toString] at mem
    exact Nat.isDigit_of_mem_toDigits (by decide) (by decide) mem
  have nonempty : (toString n).toList ≠ [] := by
    rw [toList_toString]
    exact Nat.toDigits_ne_nil
  have unsigned : (toString n).toList.head? ≠ some '+' := fun head =>
    absurd (digits '+' (List.mem_of_mem_head? head)) (by decide)
  have read : (toString n).toList.foldl (fun n c => n * 10 + (c.toNat - '0'.toNat)) 0 = n := by
    have value := Nat.ofDigitChars_ten_toDigits (n := n)
    rw [Nat.ofDigitChars_eq_foldl] at value
    rw [toList_toString]
    simpa only [Nat.mul_comm] using value
  unfold parseUnsigned
  dsimp only
  rw [if_neg unsigned, if_pos ⟨nonempty, List.all_eq_true.mpr digits⟩, read, if_pos small]

theorem comma_notMem_field {label value : Text} (plain : ',' ∉ label) (free : ',' ∉ value) :
    ',' ∉ label ++ value := by
  rw [List.mem_append, not_or]
  exact ⟨plain, free⟩

theorem comma_notMem_base64 {label : Text} (plain : ',' ∉ label) (bytes : Bytes) :
    ',' ∉ label ++ Base64.encode bytes :=
  comma_notMem_field plain (Base64.comma_notMem_encode bytes)

theorem comma_notMem_escape (username : Text) : ',' ∉ escape username := by
  unfold escape
  rw [List.mem_flatMap]
  rintro ⟨c, -, mem⟩
  split at mem
  · exact absurd mem (by decide)
  · split at mem
    · exact absurd mem (by decide)
    · rename_i other _
      exact other (List.mem_singleton.mp mem).symm

theorem xor_xor {a b : Bytes} (same : a.length = b.length) : xor (xor a b) b = a := by
  induction a generalizing b with
  | nil => rfl
  | cons x a ih =>
      cases b with
      | nil => contradiction
      | cons y b =>
          unfold xor at ih ⊢
          rw [List.zipWith_cons_cons, List.zipWith_cons_cons, ih (Nat.succ.inj same),
            UInt8.xor_assoc, UInt8.xor_self, UInt8.xor_zero]

theorem rsplitOnce_none {text : Text} (plain : ',' ∉ text) : rsplitOnce ",p=".toList text = none := by
  induction text with
  | nil => rfl
  | cons c text ih =>
      rw [List.mem_cons, not_or] at plain
      rw [rsplitOnce, ih plain.2]
      have other : ¬ (",p=".toList.isPrefixOf (c :: text)) = true := by
        intro starts
        rw [List.isPrefixOf_iff_prefix] at starts
        obtain ⟨rest, split⟩ := starts
        exact plain.1 (List.cons.inj split).1
      dsimp only
      rw [if_neg other]

/-- The text is split where the proof begins. -/
theorem rsplitOnce_proof (front : Text) {back : Text} (plain : ',' ∉ back) :
    rsplitOnce ",p=".toList (front ++ ",p=".toList ++ back) = some (front, back) := by
  induction front with
  | nil =>
      have tail : ',' ∉ "p=".toList ++ back := comma_notMem_field (by decide) plain
      change rsplitOnce ",p=".toList (',' :: ("p=".toList ++ back)) = _
      rw [rsplitOnce, rsplitOnce_none tail]
      rfl
  | cons c front ih =>
      change rsplitOnce ",p=".toList (c :: (front ++ ",p=".toList ++ back)) = _
      rw [rsplitOnce, ih]

/-! ### The messages read back -/

section Messages

variable (P : Primitives) (hash : Hash)

theorem splitOnce_label {label : Text} (plain : '=' ∉ label) (value : Text) :
    splitOnce ['='] (label ++ '=' :: value) = some (label, value) := splitOnce_single plain value

theorem readPart_version (f : Fields) : readPart f "v=1".toList = some f :=
  congrArg (Option.bind · _) (@splitOnce_label ['v'] (by decide) ['1'])

/-- The other parts of a verifier, each by its label. -/
theorem readPart_fields (f : Fields) (value : Text) :
    readPart f ("i=".toList ++ value) =
        some { f with iterations := (parseUnsigned value).filter (· < 2 ^ 32) } ∧
      readPart f ("s=".toList ++ value) = some { f with salt := Base64.decode value } ∧
      readPart f ("sk=".toList ++ value) = some { f with storedKey := Base64.decode value } ∧
      readPart f ("sv=".toList ++ value) = some { f with serverKey := Base64.decode value } := by
  have parted (label : Text) (plain : '=' ∉ label) := splitOnce_label plain value
  unfold readPart
  refine ⟨?_, ?_, ?_, ?_⟩
  · exact congrArg (Option.bind · _) (parted ['i'] (by decide))
  · exact congrArg (Option.bind · _) (parted ['s'] (by decide))
  · exact congrArg (Option.bind · _) (parted ['s', 'k'] (by decide))
  · exact congrArg (Option.bind · _) (parted ['s', 'v'] (by decide))

/-- A verifier is read as it was made. -/
theorem parseVerifier_makeVerifier (password : Text) {iterations : Nat} {salt : Bytes}
    (small : iterations < 2 ^ 32) :
    parseVerifier (makeVerifier P hash password iterations salt) =
      some
        { iterations, salt
          storedKey := storedKey P hash password salt iterations
          serverKey := serverKey P hash (P.hi hash (encode password) salt iterations) } := by
  have parts : (makeVerifier P hash password iterations salt).splitOn ',' =
      ["v=1".toList, "i=".toList ++ (toString iterations).toList,
        "s=".toList ++ Base64.encode salt,
        "sk=".toList ++ Base64.encode (storedKey P hash password salt iterations),
        "sv=".toList ++
          Base64.encode (serverKey P hash (P.hi hash (encode password) salt iterations))] :=
    splitOn_commas
      ⟨by decide, comma_notMem_field (by decide) (comma_notMem_toString iterations),
        comma_notMem_base64 (by decide) _, comma_notMem_base64 (by decide) _,
        comma_notMem_base64 (by decide) _⟩
  have cost : (parseUnsigned (toString iterations).toList).filter (· < 2 ^ 32) =
      some iterations := by
    rw [parseUnsigned_toString (by omega), Option.filter_some, if_pos (decide_eq_true small)]
  unfold parseVerifier
  rw [parts]
  simp only [List.foldlM_cons, List.foldlM_nil, readPart_version, readPart_fields, bind, pure,
    Option.bind_some, cost, Base64.decode_encode]

theorem verifyPlain_makeVerifier (password other : Text) {iterations : Nat} {salt : Bytes}
    (small : iterations < 2 ^ 32) :
    verifyPlain P hash (makeVerifier P hash password iterations salt) other = true ↔
      storedKey P hash other salt iterations = storedKey P hash password salt iterations := by
  unfold verifyPlain
  rw [parseVerifier_makeVerifier P hash password small]
  exact decide_eq_true_iff

theorem parseClientFirst_clientFirst (g : Gs2) (username : Text) {cnonce : Text}
    (plain : ',' ∉ cnonce) :
    ∃ name, parseClientFirst (clientFirst g username cnonce) =
      some
        { username := name
          gs2Header := g.header
          clientFirstBare := clientFirstBare username cnonce
          cnonce } := by
  have fields : (clientFirstBare username cnonce).splitOn ',' =
      ["n=".toList ++ escape username, "r=".toList ++ cnonce] :=
    splitOn_commas
      ⟨comma_notMem_field (by decide) (comma_notMem_escape username),
        comma_notMem_field (by decide) plain⟩
  have first : splitOnce [','] (clientFirst g username cnonce) =
      some (g.cbflag, g.authzid ++ ',' :: clientFirstBare username cnonce) := by
    have whole : clientFirst g username cnonce =
        g.cbflag ++ ',' :: (g.authzid ++ ',' :: clientFirstBare username cnonce) := by
      simp [clientFirst, Gs2.header]
    rw [whole]
    exact splitOnce_single g.comma_cbflag _
  unfold parseClientFirst
  simp only [bind]
  rw [first, Option.bind_some, splitOnce_single g.comma_authzid, Option.bind_some]
  dsimp only
  rw [if_neg g.no_binding, fields]
  simp only [List.getElem?_cons_zero, List.getElem?_cons_succ, Option.bind_some, strip_append]
  exact ⟨_, rfl⟩

theorem readChallenge_serverFirst {cnonce nonce : Text} (plain : ',' ∉ cnonce) (free : ',' ∉ nonce)
    (v : Verifier) (small : v.iterations < 2 ^ 32) :
    readChallenge (serverFirst cnonce nonce v).1 = some (cnonce ++ nonce, v.salt, v.iterations) := by
  have fields : (serverFirst cnonce nonce v).1.splitOn ',' =
      ["r=".toList ++ (cnonce ++ nonce), "s=".toList ++ Base64.encode v.salt,
        "i=".toList ++ (toString v.iterations).toList] :=
    splitOn_commas
      ⟨comma_notMem_field (by decide) (comma_notMem_field plain free),
        comma_notMem_base64 (by decide) _,
        comma_notMem_field (by decide) (comma_notMem_toString _)⟩
  unfold readChallenge
  rw [fields]
  simp only [bind, strip_append, Option.bind_some, Base64.decode_encode,
    parseUnsigned_toString (show v.iterations < 2 ^ 64 by omega)]

/-- The client's last message but for its proof. -/
def withoutProof (g : Gs2) (fullNonce : Text) : Text :=
  commas ["c=".toList ++ Base64.encode (encode g.header), "r=".toList ++ fullNonce]

theorem readFinal_withoutProof (g : Gs2) {fullNonce : Text} (plain : ',' ∉ fullNonce) :
    ((withoutProof g fullNonce).splitOn ',').foldl readFinal (none, none) =
      (some (Base64.encode (encode g.header)), some fullNonce) := by
  have fields : (withoutProof g fullNonce).splitOn ',' =
      ["c=".toList ++ Base64.encode (encode g.header), "r=".toList ++ fullNonce] :=
    splitOn_commas ⟨comma_notMem_base64 (by decide) _, comma_notMem_field (by decide) plain⟩
  have other : strip "c=".toList ("r=".toList ++ fullNonce) = none := rfl
  rw [fields, List.foldl_cons, List.foldl_cons, List.foldl_nil]
  unfold readFinal
  rw [strip_append, other, strip_append]

/-- The client's last message is accepted just when the key it proves to have hashes to
the stored one. -/
theorem verifyFinal_isSome (v : Verifier) (bare challenge : Text) (g : Gs2) {fullNonce : Text}
    (plain : ',' ∉ fullNonce) (proof : Bytes) (long : proof.length = size hash) :
    (verifyFinal P hash v bare challenge g.header fullNonce
        (withoutProof g fullNonce ++ ",p=".toList ++ Base64.encode proof)).isSome = true ↔
      P.h hash (xor proof
        (P.hmac hash v.storedKey (authMessage bare challenge (withoutProof g fullNonce)))) =
          v.storedKey := by
  unfold verifyFinal
  simp only [bind]
  rw [rsplitOnce_proof _ (Base64.comma_notMem_encode proof), Option.bind_some]
  dsimp only
  rw [Base64.decode_encode, Option.bind_some, readFinal_withoutProof g plain]
  dsimp only
  rw [Option.bind_some, if_neg (not_not.mpr rfl), Option.bind_some, Base64.decode_encode,
    Option.bind_some, if_neg (not_not.mpr rfl), if_neg (not_not.mpr (by rw [long, P.length_hmac]))]
  by_cases same : P.h hash (xor proof
      (P.hmac hash v.storedKey (authMessage bare challenge (withoutProof g fullNonce)))) = v.storedKey
  · rw [if_neg (not_not.mpr same)]
    exact iff_of_true rfl same
  · rw [if_pos same]
    exact iff_of_false Bool.false_ne_true same

end Messages

/-! ### Plain passwords and proofs -/

section Agreement

variable (P : Primitives) (hash : Hash)

/-- The verifier kept of a password. -/
def kept (password : Text) (iterations : Nat) (salt : Bytes) : Verifier :=
  { iterations, salt
    storedKey := storedKey P hash password salt iterations
    serverKey := serverKey P hash (P.hi hash (encode password) salt iterations) }

/-- What both ends of an exchange sign. -/
def signed (g : Gs2) (username cnonce nonce : Text) (v : Verifier) : Bytes :=
  authMessage (clientFirstBare username cnonce) (serverFirst cnonce nonce v).1
    (withoutProof g (cnonce ++ nonce))

/-- The key the server gets back out of a client's proof. -/
def recovered (v : Verifier) (other : Text) (message : Bytes) : Bytes :=
  xor (proof P hash (P.hi hash (encode other) v.salt v.iterations) message)
    (P.hmac hash v.storedKey message)

theorem length_xor_of_eq {a b : Bytes} (same : a.length = b.length) :
    (xor a b).length = a.length := by
  unfold xor
  rw [List.length_zipWith, ← same, Nat.min_self]

theorem length_proof (salted message : Bytes) : (proof P hash salted message).length = size hash := by
  have key : (clientKey P hash salted).length = size hash := P.length_hmac _ _ _
  unfold proof
  dsimp only
  rw [length_xor_of_eq (key.trans (P.length_hmac _ _ _).symm), key]

/-- A client whose stored key is the right one gives its own key away. -/
theorem recovered_of_same {v : Verifier} {other : Text} (message : Bytes)
    (same : storedKey P hash other v.salt v.iterations = v.storedKey) :
    P.h hash (recovered P hash v other message) = v.storedKey := by
  have back : recovered P hash v other message =
      clientKey P hash (P.hi hash (encode other) v.salt v.iterations) := by
    unfold recovered proof
    rw [← same]
    exact xor_xor ((P.length_hmac _ _ _).trans (P.length_hmac _ _ _).symm)
  rw [back]
  exact same

/-- The server's answer to an honest client turns on the key it gets back alone. -/
theorem exchange_iff_recovered (password other : Text) {iterations : Nat} (salt : Bytes) (g : Gs2)
    (username : Text) {cnonce nonce : Text} (small : iterations < 2 ^ 32) (plain : ',' ∉ cnonce)
    (free : ',' ∉ nonce) :
    let v := kept P hash password iterations salt
    exchange P hash (makeVerifier P hash password iterations salt) g username cnonce nonce other =
        true ↔
      P.h hash (recovered P hash v other (signed g username cnonce nonce v)) = v.storedKey := by
  intro v
  obtain ⟨name, opened⟩ := parseClientFirst_clientFirst g username plain
  have stored : parseVerifier (makeVerifier P hash password iterations salt) = some v :=
    parseVerifier_makeVerifier P hash password small
  have answered : clientFinal P hash g username cnonce other (serverFirst cnonce nonce v).1 =
      some (withoutProof g (cnonce ++ nonce) ++ ",p=".toList ++
        Base64.encode (proof P hash (P.hi hash (encode other) v.salt v.iterations)
          (signed g username cnonce nonce v))) := by
    unfold clientFinal
    rw [readChallenge_serverFirst plain free v small]
    rfl
  have accepted := verifyFinal_isSome P hash v (clientFirstBare username cnonce)
    (serverFirst cnonce nonce v).1 g (comma_notMem_field plain free)
    (proof P hash (P.hi hash (encode other) v.salt v.iterations) (signed g username cnonce nonce v))
    (length_proof P hash _ _)
  unfold exchange
  rw [stored, Option.bind_some, opened, Option.bind_some]
  dsimp only
  rw [answered, Option.bind_some]
  exact accepted

/-- A client whose password the plain check takes is let in. One whose password it refuses
is let in only when the key the server gets back, which is not the client's own, happens to
hash to the stored key. -/
theorem exchange_exact (password other : Text) {iterations : Nat} (salt : Bytes) (g : Gs2)
    (username : Text) {cnonce nonce : Text} (small : iterations < 2 ^ 32) (plain : ',' ∉ cnonce)
    (free : ',' ∉ nonce) :
    let encoded := makeVerifier P hash password iterations salt
    let v := kept P hash password iterations salt
    exchange P hash encoded g username cnonce nonce other = true ↔
      verifyPlain P hash encoded other = true ∨
        storedKey P hash other salt iterations ≠ v.storedKey ∧
          P.h hash (recovered P hash v other (signed g username cnonce nonce v)) = v.storedKey := by
  intro encoded v
  have scram : exchange P hash encoded g username cnonce nonce other = true ↔ _ :=
    exchange_iff_recovered P hash password other salt g username small plain free
  have direct : verifyPlain P hash encoded other = true ↔
      storedKey P hash other salt iterations = v.storedKey :=
    verifyPlain_makeVerifier P hash password other small
  rw [scram, direct]
  constructor
  · intro hashed
    by_cases same : storedKey P hash other salt iterations = v.storedKey
    · exact Or.inl same
    · exact Or.inr ⟨same, hashed⟩
  · rintro (same | ⟨-, hashed⟩)
    · exact recovered_of_same P hash _ same
    · exact hashed

end Agreement

/-- Bytes cut or filled up to a length. -/
def fit (n : Nat) (bytes : Bytes) : Bytes := (bytes ++ List.replicate n 0).take n

theorem length_fit (n : Nat) (bytes : Bytes) : (fit n bytes).length = n := by
  simp [fit]

/-- Hashes that hide nothing. -/
def Primitives.plain : Primitives where
  h hash data := fit (size hash) data
  hmac hash key _ := fit (size hash) key
  hi hash password _ _ := fit (size hash) password
  length_h _ _ := length_fit _ _
  length_hmac _ _ _ := length_fit _ _
  length_hi _ _ _ _ := length_fit _ _

def Gs2.none : Gs2 where
  cbflag := ['n']
  authzid := []
  no_binding := by decide
  comma_cbflag := by decide
  comma_authzid := by decide

theorem exchange_exact_same :
    exchange .plain .sha256 (makeVerifier .plain .sha256 "sesame".toList 4096 [1, 2, 3]) .none
      "user".toList "cnonce123".toList "server".toList "sesame".toList = true :=
  (exchange_exact .plain .sha256 "sesame".toList "sesame".toList [1, 2, 3] .none "user".toList
    (by decide) (by decide) (by decide)).mpr (Or.inl (by decide +kernel))

/-- A wrong password that the plain check refuses is let in by the exchange. -/
theorem millet_accepted :
    let encoded := makeVerifier .plain .sha256 "sesame".toList 4096 [1, 2, 3]
    verifyPlain .plain .sha256 encoded "millet".toList = false ∧
      exchange .plain .sha256 encoded .none "user".toList "cnonce123".toList "server".toList
        "millet".toList = true := by
  decide +kernel

end Echo.Scram
