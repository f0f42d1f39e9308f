import Echo.Engine.Addresses

/-!
The two membership tests of a CIDR range, the one that exempts addresses from the
security screens (`security/mod.rs`) and the one of the mail blocklist (`mxbl.rs`),
against what a range written as text means.

Both read a prefix they cannot use as the longest there is. A range with such a prefix
is then the range of the address before its slash, although it is malformed and should
contain nothing.
-/

namespace Echo

open Echo.Lib

/-- The test of the mail blocklist, whose address comes from the resolver and is an
address already. -/
def Mxbl.ipInCidr (ip : IpAddr) (cidr : String) : Bool :=
  let (net, length) := cidrParts cidr
  match IpAddr.parse net with
  | none => false
  | some net =>
      match ip, net with
      | .v4 ip, .v4 net => samePrefix (prefixLength 32 length) ip net
      | .v6 ip, .v6 net => samePrefix (prefixLength 128 length) ip net
      | _, _ => false

/-! ### What a range means -/

namespace IpAddr

/-- The bits of an address of this family. -/
def width : IpAddr → Nat
  | .v4 _ => 32
  | .v6 _ => 128

/-- Two addresses of one family whose leading `n` bits agree. -/
def SharesPrefix (n : Nat) : IpAddr → IpAddr → Prop
  | .v4 a, .v4 b => ∀ i < n, a.getMsbD i = b.getMsbD i
  | .v6 a, .v6 b => ∀ i < n, a.getMsbD i = b.getMsbD i
  | _, _ => False

end IpAddr

/-- A range as text: an address, alone or with the length of a prefix within its
width. -/
def readRange (cidr : String) : Option (IpAddr × Nat) :=
  match splitOnce ['/'] cidr.toList with
  | none => (IpAddr.parse cidr).map fun net => (net, net.width)
  | some (net, length) => do
      let net ← IpAddr.parse (String.ofList net)
      let n ← parseU8 length
      if n ≤ net.width then some (net, n) else none

/-- The address lies in the range that the text writes. -/
def InRange (ip : IpAddr) (cidr : String) : Prop :=
  ∃ net n, readRange cidr = some (net, n) ∧ ip.SharesPrefix n net

/-- The text has the address `net`, but is no range: what follows the slash is not the
length of a prefix. -/
def BadPrefix (net : IpAddr) (cidr : String) : Prop :=
  IpAddr.parse (cidrParts cidr).1 = some net ∧ readRange cidr = none

/-! ### The tests -/

theorem samePrefix_iff_leading {w n : Nat} {a b : BitVec w} (bounded : n ≤ w) :
    samePrefix n a b = true ↔ ∀ i < n, a.getMsbD i = b.getMsbD i := by
  rw [samePrefix_iff bounded]
  constructor
  · intro bits i front
    rw [BitVec.getMsbD_eq_getLsbD, BitVec.getMsbD_eq_getLsbD]
    rw [bits (w - 1 - i) (by omega) (by omega)]
  · intro bits i inside front
    rw [BitVec.getLsbD_eq_getMsbD, BitVec.getLsbD_eq_getMsbD]
    rw [bits (w - 1 - i) (by omega)]

/-- Either test compares as many bits as `prefixLength` says. -/
def lengthRead (net : IpAddr) (cidr : String) : Nat := prefixLength net.width (cidrParts cidr).2

theorem Mxbl.ipInCidr_iff {ip : IpAddr} {cidr : String} :
    Mxbl.ipInCidr ip cidr = true ↔
      ∃ net, IpAddr.parse (cidrParts cidr).1 = some net ∧
        ip.SharesPrefix (lengthRead net cidr) net := by
  unfold Mxbl.ipInCidr
  dsimp only
  rcases IpAddr.parse (cidrParts cidr).1 with _ | net
  · simp
  · simp only [Option.some.injEq, exists_eq_left']
    cases ip with
    | v4 ip =>
        cases net with
        | v4 net => exact samePrefix_iff_leading (prefixLength_le _ _)
        | v6 net => simp [IpAddr.SharesPrefix]
    | v6 ip =>
        cases net with
        | v4 net => simp [IpAddr.SharesPrefix]
        | v6 net => exact samePrefix_iff_leading (prefixLength_le _ _)

/-- The two tests agree where both have an address. -/
theorem ipInCidr_eq_mxbl {s cidr : String} {ip : IpAddr} (address : IpAddr.parse s = some ip) :
    ipInCidr s cidr = Mxbl.ipInCidr ip cidr := by
  rw [ipInCidr_eq, address]
  unfold Mxbl.ipInCidr
  dsimp only
  rcases IpAddr.parse (cidrParts cidr).1 with _ | net
  · cases ip <;> rfl
  · cases ip <;> cases net <;> rfl

theorem ipInCidr_of_unread {s cidr : String} (unread : IpAddr.parse s = none) :
    ipInCidr s cidr = false := by
  rw [ipInCidr_eq, unread]

/-! ### Where the tests are right -/

/-- A range that is well formed is read as it is written. -/
theorem lengthRead_of_readRange {cidr : String} {net : IpAddr} {n : Nat}
    (range : readRange cidr = some (net, n)) :
    IpAddr.parse (cidrParts cidr).1 = some net ∧ lengthRead net cidr = n := by
  unfold readRange at range
  unfold lengthRead cidrParts
  cases parts : splitOnce ['/'] cidr.toList with
  | none =>
      rw [parts] at range
      obtain ⟨net', parsed, same⟩ := Option.map_eq_some_iff.mp range
      cases same
      exact ⟨parsed, min_self _⟩
  | some halves =>
      obtain ⟨before, length⟩ := halves
      rw [parts] at range
      simp only [Option.bind_eq_bind, Option.bind_eq_some_iff] at range
      obtain ⟨net', parsed, n', number, fits⟩ := range
      split at fits
      · rename_i within
        cases fits
        refine ⟨parsed, ?_⟩
        unfold prefixLength
        rw [number, Option.getD_some]
        exact min_eq_left within
      · contradiction

/-- One that is not, but has an address, is read as that address. -/
theorem lengthRead_of_badPrefix {cidr : String} {net : IpAddr} (bad : BadPrefix net cidr) :
    lengthRead net cidr = net.width := by
  obtain ⟨parsed, none⟩ := bad
  unfold readRange at none
  unfold lengthRead
  unfold cidrParts at parsed ⊢
  cases parts : splitOnce ['/'] cidr.toList with
  | none =>
      rw [parts] at none parsed
      rw [parsed] at none
      contradiction
  | some halves =>
      obtain ⟨before, length⟩ := halves
      rw [parts] at none parsed
      dsimp only at none parsed
      rw [parsed] at none
      unfold prefixLength
      cases number : parseU8 length with
      | none => exact min_self _
      | some n =>
          rw [number] at none
          simp only [Option.bind_eq_bind, Option.bind_some] at none
          split at none
          · contradiction
          · rename_i beyond
            exact min_eq_right (not_le.mp beyond).le

theorem IpAddr.sharesPrefix_width {ip net : IpAddr} : ip.SharesPrefix net.width net ↔ ip = net := by
  cases ip with
  | v4 a =>
      cases net with
      | v4 b =>
          have whole := samePrefix_iff_leading (a := a) (b := b) (le_refl 32)
          exact whole.symm.trans (samePrefix_full.trans (by simp))
      | v6 b => simp [IpAddr.SharesPrefix]
  | v6 a =>
      cases net with
      | v4 b => simp [IpAddr.SharesPrefix]
      | v6 b =>
          have whole := samePrefix_iff_leading (a := a) (b := b) (le_refl 128)
          exact whole.symm.trans (samePrefix_full.trans (by simp))

/-- The blocklist's test takes in what the range does, and the address before a bad
prefix. -/
theorem Mxbl.ipInCidr_iff_inRange {ip : IpAddr} {cidr : String} :
    Mxbl.ipInCidr ip cidr = true ↔ InRange ip cidr ∨ BadPrefix ip cidr := by
  rw [Mxbl.ipInCidr_iff]
  constructor
  · rintro ⟨net, parsed, shares⟩
    cases range : readRange cidr with
    | none =>
        have bad : BadPrefix net cidr := ⟨parsed, range⟩
        rw [lengthRead_of_badPrefix bad, IpAddr.sharesPrefix_width] at shares
        subst shares
        exact .inr bad
    | some written =>
        obtain ⟨net', n⟩ := written
        obtain ⟨parsed', length⟩ := lengthRead_of_readRange range
        cases parsed.symm.trans parsed'
        rw [length] at shares
        exact .inl ⟨net, n, range, shares⟩
  · rintro (⟨net, n, range, shares⟩ | bad)
    · obtain ⟨parsed, length⟩ := lengthRead_of_readRange range
      rw [← length] at shares
      exact ⟨net, parsed, shares⟩
    · refine ⟨ip, bad.1, ?_⟩
      rw [lengthRead_of_badPrefix bad, IpAddr.sharesPrefix_width]

theorem not_inRange_of_badPrefix {ip ip' : IpAddr} {cidr : String} (bad : BadPrefix ip cidr) :
    ¬ InRange ip' cidr := by
  rintro ⟨net, n, range, -⟩
  exact nomatch range.symm.trans bad.2

/-- Each test is exact but at one address: the one written before a prefix that is
none. There both say that it lies in the range. The tests agree everywhere. -/
theorem ipInCidr_exact_iff (cidr : String) :
    (∀ s, (ipInCidr s cidr = true ↔ ∃ ip, IpAddr.parse s = some ip ∧ InRange ip cidr) ↔
      ¬ ∃ ip, IpAddr.parse s = some ip ∧ BadPrefix ip cidr) ∧
    (∀ ip, (Mxbl.ipInCidr ip cidr = true ↔ InRange ip cidr) ↔ ¬ BadPrefix ip cidr) ∧
    ∀ s ip, IpAddr.parse s = some ip → ipInCidr s cidr = Mxbl.ipInCidr ip cidr := by
  have blocklist (ip : IpAddr) :
      (Mxbl.ipInCidr ip cidr = true ↔ InRange ip cidr) ↔ ¬ BadPrefix ip cidr := by
    rw [Mxbl.ipInCidr_iff_inRange]
    constructor
    · intro exactly bad
      exact not_inRange_of_badPrefix bad (exactly.mp (.inr bad))
    · intro good
      exact or_iff_left good
  refine ⟨?_, blocklist, fun s ip address => ipInCidr_eq_mxbl address⟩
  intro s
  cases address : IpAddr.parse s with
  | none => simp [ipInCidr_of_unread address]
  | some ip =>
      rw [ipInCidr_eq_mxbl address]
      simpa using blocklist ip

/-- A prefix longer than an address, or no number at all, exempts the address before
it. -/
theorem badPrefix_matches :
    ipInCidr "10.0.0.1" "10.0.0.1/33" = true ∧ ipInCidr "10.0.0.1" "10.0.0.1/all" = true ∧
      Mxbl.ipInCidr (.v4 0x0a000001) "10.0.0.1/33" = true ∧
      IpAddr.parse "10.0.0.1" = some (.v4 0x0a000001) ∧
      ¬ InRange (.v4 0x0a000001) "10.0.0.1/33" ∧ ¬ InRange (.v4 0x0a000001) "10.0.0.1/all" := by
  have long : BadPrefix (.v4 0x0a000001) "10.0.0.1/33" := ⟨by decide +kernel, by decide +kernel⟩
  have word : BadPrefix (.v4 0x0a000001) "10.0.0.1/all" := ⟨by decide +kernel, by decide +kernel⟩
  refine ⟨by decide +kernel, by decide +kernel, by decide +kernel, by decide +kernel, ?_, ?_⟩
  · exact not_inRange_of_badPrefix long
  · exact not_inRange_of_badPrefix word

end Echo
