import Echo.Dns.Names
import Echo.Lib.Splitting

/-!
The question of a DNS query (`build_query` in `dns.rs`): the labels of a domain, each behind
its length, and a zero. The length has to stay below 64, or it would be a pointer, so of a
longer label only the first 63 bytes are written. Read back from the packet, the name is
the domain with its labels so cut.
-/

namespace Echo.Dns

open Echo.Lib

/-- `u16::to_be_bytes` -/
def toBeBytes (n : UInt16) : List UInt8 := [(n >>> 8).toUInt8, n.toUInt8]

/-- The labels of a domain, without empty ones. -/
def domainLabels (name : String) : List (List Char) := (name.toList.splitOn '.').filter (· ≠ [])

def maxLabel : Nat := 63

/-- The bytes of a label that are written. -/
def cutLabel (label : List Char) : List UInt8 := (encode label).take (min (encode label).length maxLabel)

/-- A label behind its length. -/
def writeLabel (bytes : List UInt8) : List UInt8 := UInt8.ofNat bytes.length :: bytes

def classIn : UInt16 := 1

/-- The labels of a domain as they are written. -/
def wireLabels (name : String) : List (List UInt8) := (domainLabels name).map cutLabel

def buildQuery (id : UInt16) (name : String) (qtype : UInt16) : List UInt8 :=
  toBeBytes id ++ toBeBytes 0x0100 ++ toBeBytes 1 ++ [0, 0, 0, 0, 0, 0] ++
    ((wireLabels name).flatMap writeLabel ++ 0 :: (toBeBytes qtype ++ toBeBytes classIn))

/-- No label of a domain is cut. -/
def Fits (name : String) : Prop := ∀ label ∈ domainLabels name, (encode label).length ≤ maxLabel

theorem not_isPointer {n : Nat} (short : n ≤ maxLabel) : isPointer (UInt8.ofNat n) = false := by
  have all : ∀ n < 64, isPointer (UInt8.ofNat n) = false := by decide
  exact all n (Nat.lt_succ_of_le short)

theorem toNat_length {bytes : List UInt8} (short : bytes.length ≤ maxLabel) : (UInt8.ofNat bytes.length).toNat = bytes.length :=
  UInt8.toNat_ofNat_of_lt' (Nat.lt_of_le_of_lt short (by decide))

theorem labelAt_writeLabel {bytes : List UInt8} (begun : bytes ≠ []) (short : bytes.length ≤ maxLabel)
    (front back : List UInt8) :
    LabelAt (front ++ (writeLabel bytes ++ back)) front.length bytes (front.length + 1 + bytes.length) := by
  have len := toNat_length short
  refine ⟨⟨UInt8.ofNat bytes.length, by simp [writeLabel], not_isPointer short, fun zero => begun ?_, by rw [len]⟩, ?_⟩
  · rw [zero] at len
    exact List.length_eq_zero_iff.mp len.symm
  · have split : front ++ (writeLabel bytes ++ back) = (front ++ [UInt8.ofNat bytes.length]) ++ (bytes ++ back) := by
      simp [writeLabel]
    have before : (front ++ [UInt8.ofNat bytes.length]).length = front.length + 1 := by simp
    rw [split, range, if_pos (by simp; omega), ← before, ← List.length_append, ← List.append_assoc, List.take_left,
      List.drop_left]

/-- Labels that fit are a name where they are written. -/
theorem nameAt_written {labels : List (List UInt8)}
    (fit : ∀ bytes ∈ labels, bytes ≠ [] ∧ bytes.length ≤ maxLabel) (front back : List UInt8) :
    NameAt (front ++ (labels.flatMap writeLabel ++ 0 :: back)) front.length labels 0
      (front.length + (labels.flatMap writeLabel).length + 1) := by
  induction labels generalizing front with
  | nil => exact .root (by simp)
  | cons bytes labels ih =>
    obtain ⟨begun, short⟩ := fit bytes List.mem_cons_self
    have rest := ih (fun bytes mem => fit bytes (List.mem_cons_of_mem _ mem)) (front ++ writeLabel bytes)
    have here := labelAt_writeLabel begun short front (labels.flatMap writeLabel ++ 0 :: back)
    have past : (front ++ writeLabel bytes).length = front.length + 1 + bytes.length := by
      simp [writeLabel]
      omega
    rw [past, List.append_assoc] at rest
    rw [List.flatMap_cons, List.append_assoc, List.length_append, ← Nat.add_assoc, ← List.length_append, past]
    exact .label here rest

theorem cutLabel_fits {label : List Char} (begun : label ≠ []) :
    cutLabel label ≠ [] ∧ (cutLabel label).length ≤ maxLabel := by
  have held : encode label ≠ [] := fun none => begun (encode_eq_nil none)
  have pos := List.length_pos_iff.mpr held
  constructor
  · simp only [cutLabel, ne_eq, List.take_eq_nil_iff, held, or_false, maxLabel]
    omega
  · rw [cutLabel, List.length_take]
    omega

theorem ne_nil_of_mem_domainLabels {name : String} {label : List Char} (mem : label ∈ domainLabels name) : label ≠ [] := by
  simpa using (List.mem_filter.mp mem).2

theorem nameAt_buildQuery (id : UInt16) (name : String) (qtype : UInt16) :
    NameAt (buildQuery id name qtype) 12 (wireLabels name) 0 ((buildQuery id name qtype).length - 4) := by
  have fit : ∀ bytes ∈ wireLabels name, bytes ≠ [] ∧ bytes.length ≤ maxLabel := by
    intro bytes mem
    obtain ⟨label, inName, rfl⟩ := List.mem_map.mp mem
    exact cutLabel_fits (ne_nil_of_mem_domainLabels inName)
  have written := nameAt_written fit (toBeBytes id ++ toBeBytes 0x0100 ++ toBeBytes 1 ++ [0, 0, 0, 0, 0, 0])
    (toBeBytes qtype ++ toBeBytes classIn)
  have size : (buildQuery id name qtype).length - 4 = 12 + ((wireLabels name).flatMap writeLabel).length + 1 := by
    simp [buildQuery, toBeBytes]
    omega
  rw [size]
  exact written

/-! ### Labels that are not cut -/

theorem foldl_addLabel {name : List Char} (begun : name ≠ []) (labels : List (List Char)) :
    (labels.map encode).foldl addLabel name = name ++ labels.flatMap fun label => '.' :: label := by
  induction labels generalizing name with
  | nil => simp
  | cons label labels ih =>
    have named : addLabel name (encode label) = name ++ '.' :: label := by simp [addLabel, begun]
    rw [List.map_cons, List.foldl_cons, named, ih (by simp)]
    simp

theorem intercalate_cons (label : List Char) (labels : List (List Char)) :
    ['.'].intercalate (label :: labels) = label ++ labels.flatMap fun label => '.' :: label := by
  induction labels generalizing label with
  | nil => simp [List.intercalate]
  | cons next labels ih => rw [List.intercalate_cons_cons, ih, List.flatMap_cons]; simp

/-- The labels of a name with dots between them. -/
theorem foldl_addLabel_nil {labels : List (List Char)} (begun : ∀ label ∈ labels, label ≠ []) :
    (labels.map encode).foldl addLabel [] = ['.'].intercalate labels := by
  cases labels with
  | nil => rfl
  | cons label labels =>
    have first : addLabel [] (encode label) = label := by simp [addLabel]
    rw [List.map_cons, List.foldl_cons, first, foldl_addLabel (begun label List.mem_cons_self),
      intercalate_cons]

theorem wireLabels_of_fits {name : String} (fits : Fits name) : wireLabels name = (domainLabels name).map encode :=
  List.map_congr_left fun label mem => by
    rw [cutLabel, Nat.min_eq_left (fits label mem), List.take_length]

/-- The question of a query is the name of a domain with its labels cut to 63 bytes: the domain
itself, where none is longer. -/
theorem question_is_cut (id qtype : UInt16) (name name' : String) :
    readName (buildQuery id name qtype) 12 =
        some ((wireLabels name).foldl addLabel [], (buildQuery id name qtype).length - 4) ∧
      (Fits name → readName (buildQuery id name qtype) 12 =
        some (['.'].intercalate (domainLabels name), (buildQuery id name qtype).length - 4)) ∧
      (buildQuery id name qtype = buildQuery id name' qtype ↔ wireLabels name = wireLabels name') ∧
      (Fits name → Fits name' → buildQuery id name qtype = buildQuery id name' qtype →
        domainLabels name = domainLabels name') := by
  have read := readName_eq_some_iff.mpr ⟨_, _, nameAt_buildQuery id name qtype, Nat.zero_le _, rfl⟩
  have told : buildQuery id name qtype = buildQuery id name' qtype ↔ wireLabels name = wireLabels name' := by
    constructor
    · intro same
      have here := nameAt_buildQuery id name qtype
      rw [same] at here
      exact (here.unique (nameAt_buildQuery id name' qtype)).1
    · intro same
      rw [buildQuery, buildQuery, same]
  refine ⟨read, fun fits => ?_, told, fun fits fits' same => ?_⟩
  · rw [read, wireLabels_of_fits fits, foldl_addLabel_nil fun label mem => ne_nil_of_mem_domainLabels mem]
  · have wires := told.mp same
    rw [wireLabels_of_fits fits, wireLabels_of_fits fits'] at wires
    exact List.map_injective_iff.mpr (fun _ _ => encode_inj) wires

theorem question_is_cut_mail :
    readName (buildQuery 0xABCD "mail.example.com" 15) 12 = some ("mail.example.com".toList, 30) := by
  have fits : Fits "mail.example.com" := forall_of_all (by decide +kernel)
  exact (question_is_cut 0xABCD 15 "mail.example.com" "").2.1 fits

/-- A label of so many letters. -/
def letters (n : Nat) : String := String.ofList (List.replicate n 'a')

/-- A label of 64 bytes is asked for as one of 63. -/
theorem long_label_cut :
    readName (buildQuery 0 (letters 64) 15) 12 ≠ some (['.'].intercalate (domainLabels (letters 64)), 77) ∧
      domainLabels (letters 64) ≠ domainLabels (letters 63) ∧
      buildQuery 0 (letters 64) 15 = buildQuery 0 (letters 63) 15 := by
  decide +kernel

end Echo.Dns
