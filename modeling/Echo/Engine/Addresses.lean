import Echo.Engine.Lines
import Echo.Lib.Cidr

/-!
Addresses as text: the parser of the standard library for IPv4 and IPv6, the
membership test of a CIDR range and the range an address is counted under
(`security/mod.rs`, `ip_in_cidr` and `cidr_of`).
-/

namespace Echo

open Echo.Lib

inductive IpAddr where
  | v4 (a : BitVec 32)
  | v6 (a : BitVec 128)
  deriving DecidableEq, Repr

/-! ### Reading an address -/

/-- A decimal octet: up to three digits, with no zero in front of others. -/
def readOctet (s : List Char) : Option Nat :=
  if s = [] ∨ s.length > 3 ∨ !s.all Char.isDigit ∨ (s.head? = some '0' ∧ s.length > 1) then none
  else
    let n := s.foldl (fun n c => n * 10 + (c.toNat - '0'.toNat)) 0
    if n ≤ 255 then some n else none

def parseV4 (s : List Char) : Option (BitVec 32) :=
  match s.splitOn '.' with
  | [a, b, c, d] => do
      let a ← readOctet a
      let b ← readOctet b
      let c ← readOctet c
      let d ← readOctet d
      some (BitVec.ofNat 32 (((a * 256 + b) * 256 + c) * 256 + d))
  | _ => none

def hexDigit (c : Char) : Option Nat :=
  if c.isDigit then some (c.toNat - '0'.toNat)
  else if 'a' ≤ c ∧ c ≤ 'f' then some (c.toNat - 'a'.toNat + 10)
  else if 'A' ≤ c ∧ c ≤ 'F' then some (c.toNat - 'A'.toNat + 10)
  else none

/-- A group of up to four hexadecimal digits. -/
def readGroup (s : List Char) : Option Nat :=
  if s = [] ∨ s.length > 4 then none
  else s.foldlM (fun n c => (hexDigit c).map (n * 16 + ·)) 0

/-- Groups between colons; the last two may be written as an IPv4 address. -/
def readGroupsOf (v4 : Bool) : List (List Char) → Option (List Nat)
  | [] => some []
  | [last] =>
      match readGroup last with
      | some g => some [g]
      | none =>
          if v4 then (parseV4 last).map fun a => [a.toNat / 65536, a.toNat % 65536] else none
  | g :: rest => do
      let g ← readGroup g
      let rest ← readGroupsOf v4 rest
      some (g :: rest)

def readGroups (v4 : Bool) (s : List Char) : Option (List Nat) :=
  if s = [] then some [] else readGroupsOf v4 (s.splitOn ':')

def packGroups (groups : List Nat) : BitVec 128 :=
  BitVec.ofNat 128 (groups.foldl (fun n g => n * 65536 + g) 0)

/-- Eight groups, or fewer around a `::` that stands for the zeroes left out. -/
def parseV6 (s : List Char) : Option (BitVec 128) :=
  match splitOnce [':', ':'] s with
  | none =>
      (readGroups true s).bind fun groups =>
        if groups.length = 8 then some (packGroups groups) else none
  | some (front, back) => do
      let front ← readGroups false front
      let back ← readGroups true back
      if front.length + back.length ≤ 7 then
        some (packGroups (front ++ List.replicate (8 - (front.length + back.length)) 0 ++ back))
      else none

/-- `str::parse::<IpAddr>`. -/
def IpAddr.parse (s : String) : Option IpAddr :=
  match parseV4 s.toList with
  | some a => some (.v4 a)
  | none => (parseV6 s.toList).map .v6

/-! ### Ranges -/

/-- `str::parse::<u8>`. -/
def parseU8 (s : List Char) : Option Nat := (parseUnsigned s).filter (· < 256)

/-- What stands before the slash of a range, and after it. -/
def cidrParts (cidr : String) : String × List Char :=
  match splitOnce ['/'] cidr.toList with
  | some (net, length) => (String.ofList net, length)
  | none => (cidr, [])

/-- The length of a prefix in `w` bits; all of them if it does not parse. -/
def prefixLength (w : Nat) (s : List Char) : Nat := min ((parseU8 s).getD w) w

/-- Whether `ip` falls within `cidr`; a bare address is the range of itself. Whatever
does not parse is never a match, nor are the two families. -/
def ipInCidr (ip cidr : String) : Bool :=
  let (net, length) := cidrParts cidr
  match IpAddr.parse ip, IpAddr.parse net with
  | some (.v4 ip), some (.v4 net) => samePrefix (prefixLength 32 length) ip net
  | some (.v6 ip), some (.v6 net) => samePrefix (prefixLength 128 length) ip net
  | _, _ => false

/-- A word in hexadecimal, without zeroes in front. -/
def toHex (n : Nat) : String := String.ofList (Nat.toDigits 16 n)

/-- The range an address is counted under: the /24 of an IPv4, the /64 of an IPv6. -/
def cidrOf (ip : String) : String :=
  match IpAddr.parse ip with
  | some (.v4 a) =>
      let octet (i : Nat) : String := toString ((a.toNat >>> (24 - 8 * i)) % 256)
      octet 0 ++ "." ++ octet 1 ++ "." ++ octet 2 ++ ".0/24"
  | some (.v6 a) =>
      let segment (i : Nat) : String := toHex ((a.toNat >>> (112 - 16 * i)) % 65536)
      segment 0 ++ ":" ++ segment 1 ++ ":" ++ segment 2 ++ ":" ++ segment 3 ++ "::/64"
  | none => ip

/-- Whether two ranges have an address in common: they agree on the shorter of their
prefixes. -/
def rangesMeet (cidr cidr' : String) : Bool :=
  let (net, length) := cidrParts cidr
  let (net', length') := cidrParts cidr'
  match IpAddr.parse net, IpAddr.parse net' with
  | some (.v4 a), some (.v4 b) =>
      samePrefix (min (prefixLength 32 length) (prefixLength 32 length')) a b
  | some (.v6 a), some (.v6 b) =>
      samePrefix (min (prefixLength 128 length) (prefixLength 128 length')) a b
  | _, _ => false

/-! ### What ranges have in common -/

theorem ipInCidr_eq (ip cidr : String) :
    ipInCidr ip cidr =
      match IpAddr.parse ip, IpAddr.parse (cidrParts cidr).1 with
      | some (.v4 ip), some (.v4 net) => samePrefix (prefixLength 32 (cidrParts cidr).2) ip net
      | some (.v6 ip), some (.v6 net) => samePrefix (prefixLength 128 (cidrParts cidr).2) ip net
      | _, _ => false := rfl

/-- Only what address a text is matters. -/
theorem ipInCidr_congr {ip ip' : String} (same : IpAddr.parse ip = IpAddr.parse ip')
    (cidr : String) : ipInCidr ip cidr = ipInCidr ip' cidr := by
  rw [ipInCidr_eq, ipInCidr_eq, same]

theorem prefixLength_le (w : Nat) (s : List Char) : prefixLength w s ≤ w := min_le_right _ _

/-- What membership in a range comes to, in either family. -/
theorem ipInCidr_iff {ip cidr : String} :
    ipInCidr ip cidr = true ↔
      (∃ x net, IpAddr.parse ip = some (.v4 x) ∧ IpAddr.parse (cidrParts cidr).1 = some (.v4 net) ∧
        samePrefix (prefixLength 32 (cidrParts cidr).2) x net = true) ∨
      ∃ x net, IpAddr.parse ip = some (.v6 x) ∧ IpAddr.parse (cidrParts cidr).1 = some (.v6 net) ∧
        samePrefix (prefixLength 128 (cidrParts cidr).2) x net = true := by
  rw [ipInCidr_eq]
  rcases IpAddr.parse ip with _ | x | x <;>
    rcases IpAddr.parse (cidrParts cidr).1 with _ | net | net <;> simp

theorem rangesMeet_iff {cidr cidr' : String} :
    rangesMeet cidr cidr' = true ↔
      (∃ a b, IpAddr.parse (cidrParts cidr).1 = some (.v4 a) ∧
        IpAddr.parse (cidrParts cidr').1 = some (.v4 b) ∧
        samePrefix (min (prefixLength 32 (cidrParts cidr).2) (prefixLength 32 (cidrParts cidr').2))
          a b = true) ∨
      ∃ a b, IpAddr.parse (cidrParts cidr).1 = some (.v6 a) ∧
        IpAddr.parse (cidrParts cidr').1 = some (.v6 b) ∧
        samePrefix (min (prefixLength 128 (cidrParts cidr).2) (prefixLength 128 (cidrParts cidr').2))
          a b = true := by
  unfold rangesMeet
  dsimp only
  rcases IpAddr.parse (cidrParts cidr).1 with _ | a | a <;>
    rcases IpAddr.parse (cidrParts cidr').1 with _ | b | b <;> simp

/-- An address in two ranges shows that they meet. -/
theorem rangesMeet_of_mem {ip cidr cidr' : String} (first : ipInCidr ip cidr = true)
    (second : ipInCidr ip cidr' = true) : rangesMeet cidr cidr' = true := by
  rw [ipInCidr_iff] at first second
  rw [rangesMeet_iff]
  rcases first with ⟨x, a, parsed, net, front⟩ | ⟨x, a, parsed, net, front⟩
  · rcases second with ⟨y, b, parsed', net', back⟩ | ⟨y, b, parsed', -⟩
    · cases parsed.symm.trans parsed'
      refine .inl ⟨a, b, net, net', ?_⟩
      exact samePrefix_of_mem (prefixLength_le _ _) (prefixLength_le _ _) front back
    · cases parsed.symm.trans parsed'
  · rcases second with ⟨y, b, parsed', -⟩ | ⟨y, b, parsed', net', back⟩
    · cases parsed.symm.trans parsed'
    · cases parsed.symm.trans parsed'
      refine .inr ⟨a, b, net, net', ?_⟩
      exact samePrefix_of_mem (prefixLength_le _ _) (prefixLength_le _ _) front back

/-- Where ranges meet, the address that the longer is written with is in both. -/
theorem mem_of_rangesMeet {cidr cidr' : String} (meet : rangesMeet cidr cidr' = true) :
    ∃ ip, ipInCidr ip cidr = true ∧ ipInCidr ip cidr' = true := by
  rcases rangesMeet_iff.mp meet with ⟨a, b, net, net', same⟩ | ⟨a, b, net, net', same⟩
  · by_cases longer : prefixLength 32 (cidrParts cidr').2 ≤ prefixLength 32 (cidrParts cidr).2
    · rw [min_eq_right longer] at same
      refine ⟨(cidrParts cidr).1, ipInCidr_iff.mpr (.inl ⟨a, a, net, net, samePrefix_self _ _⟩), ?_⟩
      exact ipInCidr_iff.mpr (.inl ⟨a, b, net, net', same⟩)
    · rw [min_eq_left (not_le.mp longer).le, samePrefix_comm] at same
      refine ⟨(cidrParts cidr').1, ipInCidr_iff.mpr (.inl ⟨b, a, net', net, same⟩), ?_⟩
      exact ipInCidr_iff.mpr (.inl ⟨b, b, net', net', samePrefix_self _ _⟩)
  · by_cases longer : prefixLength 128 (cidrParts cidr').2 ≤ prefixLength 128 (cidrParts cidr).2
    · rw [min_eq_right longer] at same
      refine ⟨(cidrParts cidr).1, ipInCidr_iff.mpr (.inr ⟨a, a, net, net, samePrefix_self _ _⟩), ?_⟩
      exact ipInCidr_iff.mpr (.inr ⟨a, b, net, net', same⟩)
    · rw [min_eq_left (not_le.mp longer).le, samePrefix_comm] at same
      refine ⟨(cidrParts cidr').1, ipInCidr_iff.mpr (.inr ⟨b, a, net', net, same⟩), ?_⟩
      exact ipInCidr_iff.mpr (.inr ⟨b, b, net', net', samePrefix_self _ _⟩)

/-! ### An address is no range -/

/-- What stands in a text stands in one of its parts, or between them. -/
theorem mem_splitOn (sep : Char) {c : Char} {s : List Char} (mem : c ∈ s) :
    c = sep ∨ ∃ part ∈ s.splitOn sep, c ∈ part := by
  have joined : [sep].intercalate (s.splitOn sep) = s := List.intercalate_splitOn sep
  rw [← joined] at mem
  exact mem_intercalate mem

theorem slash_not_mem_octet {s : List Char} {n : Nat} (h : readOctet s = some n) : '/' ∉ s := by
  unfold readOctet at h
  split at h
  · contradiction
  · rename_i shape
    intro mem
    simp only [not_or] at shape
    have digits : s.all Char.isDigit = true := by simpa using shape.2.2.1
    exact absurd (List.all_eq_true.mp digits _ mem) (by decide)

theorem slash_not_mem_v4 {s : List Char} {a : BitVec 32} (h : parseV4 s = some a) : '/' ∉ s := by
  intro mem
  unfold parseV4 at h
  split at h
  · rename_i p q r t parts
    simp only [Option.bind_eq_bind, Option.bind_eq_some_iff] at h
    obtain ⟨_, hp, _, hq, _, hr, _, ht, -⟩ := h
    rcases mem_splitOn '.' mem with dot | ⟨part, among, inside⟩
    · exact absurd dot (by decide)
    · rw [parts] at among
      simp only [List.mem_cons, List.not_mem_nil, or_false] at among
      rcases among with rfl | rfl | rfl | rfl
      · exact slash_not_mem_octet hp inside
      · exact slash_not_mem_octet hq inside
      · exact slash_not_mem_octet hr inside
      · exact slash_not_mem_octet ht inside
  · contradiction

theorem slash_not_mem_fold {s : List Char} {n m : Nat}
    (h : s.foldlM (fun n c => (hexDigit c).map (n * 16 + ·)) n = some m) : '/' ∉ s := by
  induction s generalizing n with
  | nil => simp
  | cons c s ih =>
      rw [List.foldlM_cons] at h
      cases digit : hexDigit c with
      | none => simp [digit] at h
      | some d =>
          intro mem
          cases mem with
          | head =>
              have none : hexDigit '/' = none := by decide
              exact nomatch none.symm.trans digit
          | tail _ mem =>
              rw [digit] at h
              exact ih h mem

theorem slash_not_mem_group {s : List Char} {n : Nat} (h : readGroup s = some n) : '/' ∉ s := by
  unfold readGroup at h
  split at h
  · contradiction
  · exact slash_not_mem_fold h

theorem slash_not_mem_groupsOf {v4 : Bool} {parts : List (List Char)} {groups : List Nat}
    (h : readGroupsOf v4 parts = some groups) : ∀ part ∈ parts, '/' ∉ part := by
  induction parts generalizing groups with
  | nil => nofun
  | cons part parts ih =>
      cases parts with
      | nil =>
          intro part' mem
          cases List.mem_singleton.mp mem
          unfold readGroupsOf at h
          cases group : readGroup part with
          | some g => exact slash_not_mem_group group
          | none =>
              rw [group] at h
              dsimp only at h
              split at h
              · obtain ⟨a, parsed, -⟩ := Option.map_eq_some_iff.mp h
                exact slash_not_mem_v4 parsed
              · contradiction
      | cons part' rest =>
          rw [readGroupsOf.eq_def] at h
          dsimp only at h
          simp only [Option.bind_eq_bind, Option.bind_eq_some_iff] at h
          obtain ⟨g, group, others, read, -⟩ := h
          intro part'' mem
          cases mem with
          | head => exact slash_not_mem_group group
          | tail _ mem => exact ih read part'' mem

theorem slash_not_mem_groups {v4 : Bool} {s : List Char} {groups : List Nat}
    (h : readGroups v4 s = some groups) : '/' ∉ s := by
  unfold readGroups at h
  split at h
  · rename_i empty
    rw [empty]
    exact List.not_mem_nil
  · intro mem
    rcases mem_splitOn ':' mem with colon | ⟨part, among, inside⟩
    · exact absurd colon (by decide)
    · exact slash_not_mem_groupsOf h part among inside

theorem slash_not_mem_v6 {s : List Char} {a : BitVec 128} (h : parseV6 s = some a) : '/' ∉ s := by
  unfold parseV6 at h
  split at h
  · obtain ⟨groups, read, -⟩ := Option.bind_eq_some_iff.mp h
    exact slash_not_mem_groups read
  · rename_i front back parts
    simp only [Option.bind_eq_bind, Option.bind_eq_some_iff] at h
    obtain ⟨_, first, _, second, -⟩ := h
    rw [splitOnce_eq parts]
    intro mem
    rcases List.mem_append.mp mem with mem | mem
    · exact slash_not_mem_groups first mem
    · rcases List.mem_append.mp mem with mem | mem
      · exact absurd mem (by decide)
      · exact slash_not_mem_groups second mem

/-- The text of an address has no slash. -/
theorem slash_not_mem {s : String} {a : IpAddr} (h : IpAddr.parse s = some a) : '/' ∉ s.toList := by
  unfold IpAddr.parse at h
  split at h
  · rename_i parsed
    exact slash_not_mem_v4 parsed
  · obtain ⟨b, parsed, -⟩ := Option.map_eq_some_iff.mp h
    exact slash_not_mem_v6 parsed

/-- An address read as a range is the range of itself. -/
theorem ipInCidr_address {ip x : String} {a : IpAddr} (address : IpAddr.parse ip = some a) :
    ipInCidr x ip = true ↔ IpAddr.parse x = IpAddr.parse ip := by
  have whole : cidrParts ip = (ip, []) := by
    unfold cidrParts
    split
    · rename_i net length parts
      refine absurd ?_ (slash_not_mem address)
      rw [splitOnce_eq parts]
      simp
    · rfl
  have full (w : Nat) : prefixLength w [] = w := min_self w
  rw [ipInCidr_iff, whole, address, full, full]
  constructor
  · rintro (⟨b, net, parsed, own, same⟩ | ⟨b, net, parsed, own, same⟩)
    · rw [parsed, own, samePrefix_full.mp same]
    · rw [parsed, own, samePrefix_full.mp same]
  · intro parsed
    cases a with
    | v4 a => exact .inl ⟨a, a, parsed, rfl, samePrefix_self _ _⟩
    | v6 a => exact .inr ⟨a, a, parsed, rfl, samePrefix_self _ _⟩

end Echo
