import Mathlib.Data.List.Basic

/-!
Regular expressions over the usual operators, what they match in a text and how they are
written. A regex matches a text if it matches some part of it, between what stands before
and behind that part.

A text of one character has three such parts, and what a regex matches of them is read off
its operators. For a regex without anchors that decides whether there is a text which it
does not match at all.
-/

namespace Echo.Lib

/-- How often something is repeated. -/
inductive Quant where
  | star
  | plus
  | opt
  | exactly (n : ℕ)
  | atLeast (n : ℕ)
  /-- From `n` times to `extra` times more. -/
  | between (n extra : ℕ)
  deriving DecidableEq, Repr

inductive Regex where
  | empty
  | lit (c : Char)
  | any
  /-- A class of characters by their ranges, or of all the others. -/
  | cls (negated : Bool) (ranges : List (Char × Char))
  | bol
  | eol
  | cat (a b : Regex)
  | alt (a b : Regex)
  | group (a : Regex)
  | rep (a : Regex) (q : Quant)
  deriving DecidableEq, Repr

/-! ### How they are written -/

def Quant.text : Quant → List Char
  | .star => ['*']
  | .plus => ['+']
  | .opt => ['?']
  | .exactly n => '{' :: (toString n).toList ++ ['}']
  | .atLeast n => '{' :: (toString n).toList ++ [',', '}']
  | .between n extra => '{' :: (toString n).toList ++ ',' :: (toString (n + extra)).toList ++ ['}']

namespace Regex

/-- A character that stands for itself, behind a backslash if it would not. -/
def escaped (special : List Char) (c : Char) : List Char := if special.contains c then ['\\', c] else [c]

def rangeText (range : Char × Char) : List Char :=
  let bound := escaped ['\\', ']', '[', '^', '-']
  if range.1 = range.2 then bound range.1 else bound range.1 ++ '-' :: bound range.2

/-- In parentheses if it binds less than is asked. -/
def bound (loose : Bool) (text : List Char) : List Char := if loose then '(' :: text ++ [')'] else text

/-- The text of a regex where alternatives (0), sequences (1) or single items (2) may stand. -/
def write (level : ℕ) : Regex → List Char
  | empty => bound (1 < level) []
  | lit c => escaped ['\\', '^', '$', '.', '|', '?', '*', '+', '(', ')', '[', ']', '{', '}'] c
  | any => ['.']
  | cls negated ranges => '[' :: (if negated then ['^'] else []) ++ ranges.flatMap rangeText ++ [']']
  | bol => ['^']
  | eol => ['$']
  | cat a b => bound (1 < level) (a.write 1 ++ b.write 1)
  | alt a b => bound (0 < level) (a.write 0 ++ '|' :: b.write 0)
  | group a => '(' :: a.write 0 ++ [')']
  | rep a q => bound (1 < level) (a.write 2 ++ q.text)

def text (r : Regex) : String := String.ofList (r.write 0)

end Regex

/-! ### What they match -/

/-- The numbers of repetitions that are admitted. -/
def Quant.Admits : Quant → ℕ → Prop
  | .star, _ => True
  | .plus, k => 1 ≤ k
  | .opt, k => k ≤ 1
  | .exactly n, k => k = n
  | .atLeast n, k => n ≤ k
  | .between n extra, k => n ≤ k ∧ k ≤ n + extra

/-- Parts of a text, one behind the other. -/
inductive Repeated (R : (before part behind : List Char) → Prop) :
    ℕ → (before part behind : List Char) → Prop
  | none {before behind : List Char} : Repeated R 0 before [] behind
  | more {n : ℕ} {before part rest behind : List Char} (first : R before part (rest ++ behind))
      (others : Repeated R n (before ++ part) rest behind) : Repeated R (n + 1) before (part ++ rest) behind

namespace Regex

/-- Whether a class of ranges has the character. -/
def inRanges (ranges : List (Char × Char)) (c : Char) : Bool := ranges.any fun r => r.1 ≤ c && c ≤ r.2

/-- The regex matches a part of a text between what stands before it and behind it. -/
def At : Regex → (before part behind : List Char) → Prop
  | empty, _, part, _ => part = []
  | lit c, _, part, _ => part = [c]
  | any, _, part, _ => ∃ c, part = [c]
  | cls negated ranges, _, part, _ => ∃ c, part = [c] ∧ inRanges ranges c ≠ negated
  | bol, before, part, _ => part = [] ∧ before = []
  | eol, _, part, behind => part = [] ∧ behind = []
  | cat a b, before, part, behind =>
      ∃ first second, part = first ++ second ∧ a.At before first (second ++ behind) ∧
        b.At (before ++ first) second behind
  | alt a b, before, part, behind => a.At before part behind ∨ b.At before part behind
  | group a, before, part, behind => a.At before part behind
  | rep a q, before, part, behind => ∃ n, q.Admits n ∧ Repeated a.At n before part behind

/-- The regex matches some part of the text. -/
def Matches (r : Regex) (t : List Char) : Prop :=
  ∃ before part behind, t = before ++ part ++ behind ∧ r.At before part behind

/-- The regex is nowhere in the text. -/
def Misses (r : Regex) (t : List Char) : Prop := ¬ r.Matches t

end Regex

/-! ### Texts of one character -/

namespace Quant

/-- Whether no repetition is admitted, a single one, and any at all. -/
def zero : Quant → Bool
  | .star | .opt => true
  | .plus => false
  | .exactly n | .atLeast n | .between n _ => n == 0

def one : Quant → Bool
  | .star | .plus | .opt => true
  | .exactly n => n == 1
  | .atLeast n => n ≤ 1
  | .between n extra => n ≤ 1 && 1 ≤ n + extra

def some : Quant → Bool
  | .star | .plus | .opt | .atLeast _ => true
  | .exactly n => 1 ≤ n
  | .between n extra => 1 ≤ n + extra

variable {q : Quant}

theorem zero_iff : q.zero = true ↔ q.Admits 0 := by
  cases q <;> simp [zero, Admits]
  all_goals omega

theorem one_iff : q.one = true ↔ q.Admits 1 := by
  cases q <;> simp [one, Admits]
  all_goals omega

theorem some_iff : q.some = true ↔ ∃ n, q.Admits (n + 1) := by
  cases q with
  | star => exact iff_of_true rfl ⟨0, trivial⟩
  | plus => exact iff_of_true rfl ⟨0, Nat.le_refl 1⟩
  | opt => exact iff_of_true rfl ⟨0, Nat.le_refl 1⟩
  | exactly n =>
      simp only [some, Admits, decide_eq_true_eq]
      exact ⟨fun le => ⟨n - 1, by omega⟩, fun ⟨k, same⟩ => by omega⟩
  | atLeast n => exact iff_of_true rfl ⟨n, Nat.le_succ n⟩
  | between n extra =>
      simp only [some, Admits, decide_eq_true_eq]
      exact ⟨fun le => ⟨n + extra - 1, by omega⟩, fun ⟨k, le, le'⟩ => by omega⟩

end Quant

section Repeated

variable {R : List Char → List Char → List Char → Prop} {n : ℕ} {before behind : List Char} {c : Char}

theorem Repeated.mono {R' : List Char → List Char → List Char → Prop} {before' behind' part : List Char}
    (h : Repeated R n before part behind)
    (free : ∀ before part behind before' behind', R before part behind → R' before' part behind') :
    Repeated R' n before' part behind' := by
  induction h generalizing before' with
  | none => exact .none
  | more first _ ih => exact .more (free _ _ _ _ _ first) ih

/-- Nothing, repeated. -/
theorem repeated_nil : Repeated R n before [] behind ↔ n = 0 ∨ R before [] behind := by
  constructor
  · intro h
    generalize empty : ([] : List Char) = part at h
    cases h with
    | none => exact .inl rfl
    | more first others =>
        obtain ⟨rfl, rfl⟩ := List.append_eq_nil_iff.mp empty.symm
        exact .inr first
  · rintro (rfl | once)
    · exact .none
    · induction n with
      | zero => exact .none
      | succ n ih =>
          have first : R before [] ([] ++ behind) := once
          have others : Repeated R n (before ++ []) [] behind := by
            rw [List.append_nil]
            exact ih
          exact .more first others

theorem one_first (once : R [] [c] []) (others : Repeated R n [c] [] []) : Repeated R (n + 1) [] [c] [] := by
  have all : Repeated R (n + 1) [] ([c] ++ []) [] := .more once others
  exact all

/-- One character among repetitions: one of them has it, and any other is empty before or behind. -/
theorem repeated_singleton : Repeated R n [] [c] [] ↔
    n ≠ 0 ∧ R [] [c] [] ∧ (n = 1 ∨ R [] [] [c] ∨ R [c] [] []) := by
  constructor
  · intro h
    induction n with
    | zero => cases h
    | succ n ih =>
        generalize single : [c] = part at h
        cases h with
        | @more _ _ part rest _ first others =>
            refine ⟨Nat.succ_ne_zero n, ?_⟩
            rcases List.append_eq_singleton_iff.mp single.symm with ⟨rfl, rfl⟩ | ⟨rfl, rfl⟩
            · exact ⟨(ih others).2.1, .inr (.inl first)⟩
            · refine ⟨first, ?_⟩
              rcases repeated_nil.mp others with rfl | behind
              · exact .inl rfl
              · exact .inr (.inr behind)
  · rintro ⟨positive, once, others⟩
    obtain ⟨n, rfl⟩ := Nat.exists_eq_succ_of_ne_zero positive
    rcases others with single | front | back
    · obtain rfl : n = 0 := by omega
      exact one_first once .none
    · clear positive
      induction n with
      | zero => exact one_first once .none
      | succ n ih =>
          have later : Repeated R (n + 1 + 1) [] ([] ++ [c]) [] := .more front ih
          exact later
    · exact one_first once (repeated_nil.mpr (.inr back))

end Repeated

namespace Regex

/-- Whether nothing is matched in front of a text's first character. -/
def atStart : Regex → Bool
  | empty | bol => true
  | lit _ | any | cls _ _ | eol => false
  | cat a b => a.atStart && b.atStart
  | alt a b => a.atStart || b.atStart
  | group a => a.atStart
  | rep a q => q.zero || q.some && a.atStart

/-- Whether nothing is matched behind a text's last character. -/
def atEnd : Regex → Bool
  | empty | eol => true
  | lit _ | any | cls _ _ | bol => false
  | cat a b => a.atEnd && b.atEnd
  | alt a b => a.atEnd || b.atEnd
  | group a => a.atEnd
  | rep a q => q.zero || q.some && a.atEnd

/-- Whether a character that is a whole text is matched. -/
def takes (c : Char) : Regex → Bool
  | empty | bol | eol => false
  | lit d => c == d
  | any => true
  | cls negated ranges => inRanges ranges c != negated
  | cat a b => a.atStart && b.takes c || a.takes c && b.atEnd
  | alt a b => a.takes c || b.takes c
  | group a => a.takes c
  | rep a q => a.takes c && (q.one || q.some && (a.atStart || a.atEnd))

/-- The regex is not to be found in the character. -/
def leavesOut (r : Regex) (c : Char) : Bool := !(r.atStart || r.takes c || r.atEnd)

variable {r a b : Regex} {q : Quant} {c : Char} {before part behind t : List Char}

theorem at_rep_nil : (rep a q).At before [] behind ↔ q.zero = true ∨ q.some = true ∧ a.At before [] behind := by
  rw [Quant.zero_iff, Quant.some_iff]
  constructor
  · rintro ⟨n, admits, repeated⟩
    cases n with
    | zero => exact .inl admits
    | succ n => exact .inr ⟨⟨n, admits⟩, (repeated_nil.mp repeated).resolve_left (Nat.succ_ne_zero n)⟩
  · rintro (admits | ⟨⟨n, admits⟩, once⟩)
    · exact ⟨0, admits, .none⟩
    · exact ⟨n + 1, admits, repeated_nil.mpr (.inr once)⟩

theorem at_cat_nil : (cat a b).At before [] behind ↔ a.At before [] behind ∧ b.At before [] behind := by
  constructor
  · rintro ⟨first, second, empty, left, right⟩
    obtain ⟨rfl, rfl⟩ := List.append_eq_nil_iff.mp empty.symm
    rw [List.append_nil] at right
    exact ⟨left, right⟩
  · rintro ⟨left, right⟩
    refine ⟨[], [], rfl, left, ?_⟩
    rwa [List.append_nil]

theorem atStart_iff (some : behind ≠ []) : r.At [] [] behind ↔ r.atStart = true := by
  induction r with
  | empty | bol => simp [At, atStart]
  | lit | any | cls => simp [At, atStart]
  | eol => simpa [At, atStart] using some
  | cat a b iha ihb => rw [at_cat_nil, iha, ihb, atStart, Bool.and_eq_true]
  | alt a b iha ihb => rw [At, iha, ihb, atStart, Bool.or_eq_true]
  | group a ih => exact ih
  | rep a q ih => rw [at_rep_nil, ih, atStart, Bool.or_eq_true, Bool.and_eq_true]

theorem atEnd_iff (some : before ≠ []) : r.At before [] [] ↔ r.atEnd = true := by
  induction r with
  | empty | eol => simp [At, atEnd]
  | lit | any | cls => simp [At, atEnd]
  | bol => simpa [At, atEnd] using some
  | cat a b iha ihb => rw [at_cat_nil, iha, ihb, atEnd, Bool.and_eq_true]
  | alt a b iha ihb => rw [At, iha, ihb, atEnd, Bool.or_eq_true]
  | group a ih => exact ih
  | rep a q ih => rw [at_rep_nil, ih, atEnd, Bool.or_eq_true, Bool.and_eq_true]

theorem takes_iff : r.At [] [c] [] ↔ r.takes c = true := by
  induction r with
  | empty | bol | eol => simp [At, takes]
  | lit d => simp [At, takes]
  | any => simp [At, takes]
  | cls negated ranges => simp [At, takes]
  | cat a b iha ihb =>
      rw [takes, Bool.or_eq_true, Bool.and_eq_true, Bool.and_eq_true, ← iha, ← ihb,
        ← atStart_iff (List.cons_ne_nil c []), ← atEnd_iff (List.cons_ne_nil c [])]
      constructor
      · rintro ⟨first, second, single, left, right⟩
        rcases List.append_eq_singleton_iff.mp single.symm with ⟨rfl, rfl⟩ | ⟨rfl, rfl⟩
        · exact .inl ⟨left, right⟩
        · exact .inr ⟨left, right⟩
      · rintro (⟨left, right⟩ | ⟨left, right⟩)
        · exact ⟨[], [c], rfl, left, right⟩
        · exact ⟨[c], [], rfl, left, right⟩
  | alt a b iha ihb => rw [At, iha, ihb, takes, Bool.or_eq_true]
  | group a ih => exact ih
  | rep a q ih =>
      rw [takes, Bool.and_eq_true, Bool.or_eq_true, Bool.and_eq_true, Bool.or_eq_true, ← ih,
        ← atStart_iff (List.cons_ne_nil c []), ← atEnd_iff (List.cons_ne_nil c []), Quant.one_iff, Quant.some_iff]
      constructor
      · rintro ⟨n, admits, repeated⟩
        obtain ⟨positive, once, others⟩ := repeated_singleton.mp repeated
        refine ⟨once, ?_⟩
        rcases others with rfl | empty
        · exact .inl admits
        · obtain ⟨n, rfl⟩ := Nat.exists_eq_succ_of_ne_zero positive
          exact .inr ⟨⟨n, admits⟩, empty⟩
      · rintro ⟨once, single | ⟨⟨n, admits⟩, empty⟩⟩
        · exact ⟨1, single, repeated_singleton.mpr ⟨Nat.one_ne_zero, once, .inl rfl⟩⟩
        · exact ⟨n + 1, admits, repeated_singleton.mpr ⟨Nat.succ_ne_zero n, once, .inr empty⟩⟩

/-- What is read off the operators is what is found in a text of one character. -/
theorem leavesOut_iff : r.leavesOut c = true ↔ r.Misses [c] := by
  unfold leavesOut Misses
  rw [Bool.not_eq_true', ← Bool.not_eq_true, Bool.or_eq_true, Bool.or_eq_true, ← takes_iff,
    ← atStart_iff (List.cons_ne_nil c []), ← atEnd_iff (List.cons_ne_nil c [])]
  refine not_congr ⟨?_, ?_⟩
  · rintro ((start | takes) | stop)
    · exact ⟨[], [], [c], rfl, start⟩
    · exact ⟨[], [c], [], rfl, takes⟩
    · exact ⟨[c], [], [], rfl, stop⟩
  · rintro ⟨before, part, behind, single, matched⟩
    rcases List.append_eq_singleton_iff.mp single.symm with ⟨front, rfl⟩ | ⟨front, rfl⟩
    · obtain ⟨rfl, rfl⟩ := List.append_eq_nil_iff.mp front
      exact .inl (.inl matched)
    · rcases List.append_eq_singleton_iff.mp front with ⟨rfl, rfl⟩ | ⟨rfl, rfl⟩
      · exact .inl (.inr matched)
      · exact .inr matched

/-! ### Regexes without anchors -/

def anchorless : Regex → Bool
  | empty | lit _ | any | cls _ _ => true
  | bol | eol => false
  | cat a b | alt a b => a.anchorless && b.anchorless
  | group a | rep a _ => a.anchorless

/-- Without anchors what stands around a part is all the same. -/
theorem at_anywhere (free : r.anchorless = true) {before' behind' : List Char} (h : r.At before part behind) :
    r.At before' part behind' := by
  induction r generalizing before part behind before' behind' with
  | empty | lit | any | cls => exact h
  | bol | eol => cases free
  | cat a b iha ihb =>
      obtain ⟨freea, freeb⟩ := (Bool.and_eq_true _ _).mp free
      obtain ⟨first, second, same, left, right⟩ := h
      exact ⟨first, second, same, iha freea left, ihb freeb right⟩
  | alt a b iha ihb =>
      obtain ⟨freea, freeb⟩ := (Bool.and_eq_true _ _).mp free
      exact h.imp (iha freea) (ihb freeb)
  | group a ih => exact ih free h
  | rep a q ih =>
      obtain ⟨n, admits, repeated⟩ := h
      exact ⟨n, admits, repeated.mono fun _ _ _ _ _ once => ih free once⟩

/-- What is found in a text is found in any text around it. -/
theorem Matches.around (free : r.anchorless = true) (h : r.Matches t) (before behind : List Char) :
    r.Matches (before ++ t ++ behind) := by
  obtain ⟨front, part, back, rfl, matched⟩ := h
  exact ⟨before ++ front, part, back ++ behind, by simp, at_anywhere free matched⟩

/-- Where a regex without anchors misses a text, it misses each of its characters. -/
theorem Misses.leavesOut (free : r.anchorless = true) (h : r.Misses t) (mem : c ∈ t) : r.leavesOut c = true := by
  obtain ⟨before, behind, rfl⟩ := List.append_of_mem mem
  refine leavesOut_iff.mpr fun single => h ?_
  have found := single.around free before behind
  rwa [List.append_assoc] at found

end Regex

end Echo.Lib
