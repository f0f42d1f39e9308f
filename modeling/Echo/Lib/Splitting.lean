import Mathlib.Data.List.Infix

/-!
Text taken apart: around the first occurrence of a pattern, into its words, and
without what repeats at its end. What is found within the front of a text is found
in the text, and the other way round; and words that are closed within the front
are words of the whole.
-/

namespace Echo.Lib

variable {α : Type _}

/-- A property of all elements of a list, tested one after the other. -/
theorem forall_of_all {p : α → Prop} [DecidablePred p] {l : List α}
    (tested : (l.all fun a => decide (p a)) = true) : ∀ a ∈ l, p a :=
  fun a mem => of_decide_eq_true (List.all_eq_true.mp tested a mem)

/-- What stands in a joined text stands in one of its parts, or between them. -/
theorem mem_intercalate {sep c : α} {parts : List (List α)} (mem : c ∈ [sep].intercalate parts) :
    c = sep ∨ ∃ part ∈ parts, c ∈ part := by
  induction parts with
  | nil => simp at mem
  | cons part parts ih =>
      cases parts with
      | nil => exact .inr ⟨part, List.mem_cons_self, by simpa using mem⟩
      | cons part' parts =>
          rw [List.intercalate_cons_cons, List.mem_append, List.mem_append] at mem
          rcases mem with (own | same) | later
          · exact .inr ⟨part, List.mem_cons_self, own⟩
          · exact .inl (List.mem_singleton.mp same)
          · refine (ih later).imp_right ?_
            rintro ⟨part, among, mem⟩
            exact ⟨part, List.mem_cons_of_mem _ among, mem⟩

/-! ### Around a pattern -/

section Once

variable [DecidableEq α] {pat l front back : List α}

/-- What stands before the first occurrence of `pat`, and what follows it. -/
def splitOnce (pat : List α) : List α → Option (List α × List α)
  | [] => if pat = [] then some ([], []) else none
  | a :: l =>
      if pat <+: a :: l then some ([], (a :: l).drop pat.length)
      else (splitOnce pat l).map fun (front, back) => (a :: front, back)

theorem splitOnce_eq (h : splitOnce pat l = some (front, back)) : l = front ++ (pat ++ back) := by
  induction l generalizing front with
  | nil =>
      unfold splitOnce at h
      split at h
      · rename_i empty
        cases h
        simp [empty]
      · contradiction
  | cons a l ih =>
      unfold splitOnce at h
      split at h
      · rename_i found
        obtain ⟨rest, same⟩ := found
        cases h
        rw [← same, List.drop_left]
        rfl
      · obtain ⟨⟨front', back'⟩, later, same⟩ := Option.map_eq_some_iff.mp h
        cases same
        rw [ih later]
        rfl

/-- A map that makes the separator of nothing else leaves it where it is. -/
theorem splitOnce_map {f : α → α} {d : α} (same : ∀ a, f a = d ↔ a = d) (l : List α) :
    splitOnce [d] (l.map f) = (splitOnce [d] l).map (Prod.map (List.map f) (List.map f)) := by
  induction l with
  | nil => rfl
  | cons a l ih =>
      have here : [d] <+: f a :: l.map f ↔ [d] <+: a :: l := by
        rw [List.cons_prefix_cons, List.cons_prefix_cons, eq_comm, same, eq_comm]
        simp
      rw [List.map_cons]
      unfold splitOnce
      by_cases found : [d] <+: a :: l
      · rw [if_pos (here.mpr found), if_pos found]
        rfl
      · rw [if_neg (mt here.mp found), if_neg found, ih]
        cases splitOnce [d] l <;> rfl

/-- A pattern is where it was when the text goes on. -/
theorem splitOnce_append (h : splitOnce pat l = some (front, back)) (rest : List α) :
    splitOnce pat (l ++ rest) = some (front, back ++ rest) := by
  induction l generalizing front with
  | nil =>
      unfold splitOnce at h
      split at h
      · rename_i empty
        cases h
        subst empty
        cases rest <;> rfl
      · contradiction
  | cons a l ih =>
      have whole := splitOnce_eq h
      unfold splitOnce at h
      rw [List.cons_append]
      unfold splitOnce
      split at h
      · rename_i found
        cases h
        rw [← List.cons_append, if_pos (found.trans (List.prefix_append (a :: l) rest)),
          List.drop_append_of_le_length found.length_le]
      · rename_i elsewhere
        obtain ⟨⟨front', back'⟩, later, same⟩ := Option.map_eq_some_iff.mp h
        cases same
        have fits : pat.length ≤ (a :: l).length := by
          have lengths := congrArg List.length whole
          simp only [List.length_cons, List.length_append] at lengths ⊢
          omega
        have still : ¬ pat <+: a :: (l ++ rest) := by
          intro found
          rw [← List.cons_append] at found
          exact elsewhere (List.prefix_of_prefix_length_le found (List.prefix_append _ _) fits)
        rw [if_neg still, ih later]
        rfl

/-- A pattern that ends within the front of a text is found there. -/
theorem splitOnce_of_append {rest : List α} (h : splitOnce pat (l ++ rest) = some (front, back))
    (fits : front.length + pat.length ≤ l.length) :
    ∃ back', splitOnce pat l = some (front, back') ∧ back = back' ++ rest := by
  induction l generalizing front with
  | nil =>
      simp only [List.length_nil, Nat.le_zero, Nat.add_eq_zero_iff, List.length_eq_zero_iff] at fits
      obtain ⟨rfl, rfl⟩ := fits
      have whole := splitOnce_eq h
      exact ⟨[], rfl, by simpa using whole.symm⟩
  | cons a l ih =>
      rw [List.cons_append] at h
      unfold splitOnce at h ⊢
      split at h
      · rename_i found
        cases h
        have within : pat <+: a :: l := by
          rw [← List.cons_append] at found
          refine List.prefix_of_prefix_length_le found (List.prefix_append _ _) ?_
          simpa using fits
        rw [if_pos within]
        refine ⟨_, rfl, ?_⟩
        rw [← List.cons_append, List.drop_append_of_le_length within.length_le]
      · rename_i elsewhere
        obtain ⟨⟨front', back'⟩, later, same⟩ := Option.map_eq_some_iff.mp h
        cases same
        have still : ¬ pat <+: a :: l := by
          intro found
          exact elsewhere (found.trans (List.prefix_append (a :: l) rest))
        obtain ⟨back'', found, same⟩ := ih later (by simp only [List.length_cons] at fits; omega)
        rw [if_neg still, found]
        exact ⟨back'', rfl, same⟩

theorem splitOnce_single {a : α} (elsewhere : a ∉ front) (back : List α) :
    splitOnce [a] (front ++ a :: back) = some (front, back) := by
  induction front with
  | nil =>
      have here : [a] <+: a :: back := ⟨back, rfl⟩
      rw [List.nil_append]
      unfold splitOnce
      rw [if_pos here]
      rfl
  | cons b front ih =>
      rw [List.mem_cons, not_or] at elsewhere
      have later : ¬ [a] <+: b :: (front ++ a :: back) := by
        rw [List.cons_prefix_cons]
        rintro ⟨same, _⟩
        exact elsewhere.1 same
      rw [List.cons_append]
      unfold splitOnce
      rw [if_neg later, ih elsewhere.2]
      rfl

theorem splitOnce_single_none {a : α} (nowhere : a ∉ l) : splitOnce [a] l = none := by
  induction l with
  | nil =>
      unfold splitOnce
      rw [if_neg (List.cons_ne_nil a [])]
  | cons b l ih =>
      rw [List.mem_cons, not_or] at nowhere
      have later : ¬ [a] <+: b :: l := by
        rw [List.cons_prefix_cons]
        rintro ⟨same, _⟩
        exact nowhere.1 same
      unfold splitOnce
      rw [if_neg later, ih nowhere.2]
      rfl

end Once

/-! ### Words -/

section Words

variable {blank : α → Bool} {w l : List α}

/-- The words of a text, where `w` is what has been read of the first. -/
def wordsFrom (blank : α → Bool) (w : List α) : List α → List (List α)
  | [] => if w.isEmpty then [] else [w]
  | a :: l =>
      if blank a then if w.isEmpty then wordsFrom blank [] l else w :: wordsFrom blank [] l
      else wordsFrom blank (w ++ [a]) l

/-- The longest stretches of the text without blanks. -/
def words (blank : α → Bool) (l : List α) : List (List α) := wordsFrom blank [] l

/-- A word that was begun is the first. -/
theorem wordsFrom_cons (begun : w ≠ []) (l : List α) :
    ∃ v rest, wordsFrom blank w l = (w ++ v) :: rest := by
  induction l generalizing w with
  | nil => exact ⟨[], [], by simp [wordsFrom, begun]⟩
  | cons a l ih =>
      unfold wordsFrom
      split
      · rw [if_neg (by simpa using begun)]
        exact ⟨[], _, by rw [List.append_nil]⟩
      · obtain ⟨v, rest, same⟩ := ih (w := w ++ [a]) (by simp)
        exact ⟨a :: v, rest, by rw [same, List.append_assoc]; rfl⟩

theorem wordsFrom_append_blank {b : α} (isBlank : blank b = true) (l rest : List α) :
    wordsFrom blank w (l ++ b :: rest) = wordsFrom blank w (l ++ [b]) ++ words blank rest := by
  induction l generalizing w with
  | nil =>
      simp only [List.nil_append, wordsFrom, isBlank, if_true]
      split
      · rfl
      · rfl
  | cons a l ih =>
      rw [List.cons_append, List.cons_append]
      unfold wordsFrom
      split
      · split
        · exact ih
        · rw [ih]
          rfl
      · exact ih

/-- A blank parts the words before it from those after it. -/
theorem words_append_blank {b : α} (isBlank : blank b = true) (l rest : List α) :
    words blank (l ++ b :: rest) = words blank (l ++ [b]) ++ words blank rest :=
  wordsFrom_append_blank isBlank l rest

theorem wordsFrom_concat_blank {b : α} (isBlank : blank b = true) (l : List α) :
    wordsFrom blank w (l ++ [b]) = wordsFrom blank w l := by
  induction l generalizing w with
  | nil =>
      rw [List.nil_append]
      simp only [wordsFrom, isBlank, if_true, List.isEmpty_nil]
  | cons a l ih =>
      rw [List.cons_append]
      simp only [wordsFrom, ih]

/-- A blank at the end closes a word and adds none. -/
theorem words_concat_blank {b : α} (isBlank : blank b = true) (l : List α) :
    words blank (l ++ [b]) = words blank l := wordsFrom_concat_blank isBlank l

theorem wordsFrom_append_solid {b : α} (solid : blank b = false) (l : List α) :
    ∃ before, ∀ rest, ∃ w' after,
      b ∈ w' ∧ wordsFrom blank w (l ++ b :: rest) = before ++ w' :: after := by
  induction l generalizing w with
  | nil =>
      refine ⟨[], fun rest => ?_⟩
      obtain ⟨v, after, same⟩ := @wordsFrom_cons α blank (w ++ [b]) (by simp) rest
      refine ⟨w ++ [b] ++ v, after, by simp, ?_⟩
      rw [List.nil_append, List.nil_append, ← same]
      simp [wordsFrom, solid]
  | cons a l ih =>
      simp only [List.cons_append]
      unfold wordsFrom
      split
      · split
        · exact ih
        · obtain ⟨before, split⟩ := ih (w := [])
          refine ⟨w :: before, fun rest => ?_⟩
          obtain ⟨w', after, mem, same⟩ := split rest
          exact ⟨w', after, mem, by rw [same]; rfl⟩
      · exact ih

/-- The words before the one with `b` in it do not depend on what follows. -/
theorem words_append_solid {b : α} (solid : blank b = false) (l : List α) :
    ∃ before, ∀ rest, ∃ w after, b ∈ w ∧ words blank (l ++ b :: rest) = before ++ w :: after :=
  wordsFrom_append_solid solid l

theorem words_cons_solid {b : α} (solid : blank b = false) (rest : List α) :
    ∃ v after, words blank (b :: rest) = (b :: v) :: after := by
  obtain ⟨v, after, same⟩ := @wordsFrom_cons α blank [b] (by simp) rest
  refine ⟨v, after, ?_⟩
  rw [List.singleton_append] at same
  rw [← same]
  simp [words, wordsFrom, solid]

/-- What has been read of a word stands at the front of it. -/
theorem wordsFrom_append_cons {u v : List α} {vs : List (List α)} (begun : w ≠ [])
    (read : wordsFrom blank w l = v :: vs) : wordsFrom blank (u ++ w) l = (u ++ v) :: vs := by
  induction l generalizing w with
  | nil =>
      rw [wordsFrom, if_neg (by simpa using begun)] at read
      cases read
      rw [wordsFrom, if_neg (by simp [begun])]
  | cons a l ih =>
      unfold wordsFrom at read ⊢
      by_cases isBlank : blank a = true
      · rw [if_pos isBlank, if_neg (by simpa using begun)] at read
        rw [if_pos isBlank, if_neg (by simp [begun])]
        cases read
        rfl
      · rw [if_neg isBlank] at read ⊢
        rw [List.append_assoc]
        exact ih (by simp) read

/-- A stretch without blanks before a word makes it longer. -/
theorem words_append_word {b : α} {u v rest : List α} {vs : List (List α)}
    (solid : ∀ a ∈ u, blank a = false) (solidHead : blank b = false)
    (read : words blank (b :: rest) = v :: vs) : words blank (u ++ b :: rest) = (u ++ v) :: vs := by
  have through : words blank (u ++ b :: rest) = wordsFrom blank u (b :: rest) := by
    have general : ∀ w, wordsFrom blank w (u ++ b :: rest) = wordsFrom blank (w ++ u) (b :: rest) := by
      induction u with
      | nil => simp
      | cons a u ih =>
          intro w
          rw [List.cons_append, wordsFrom, solid a List.mem_cons_self, if_neg Bool.false_ne_true,
            ih fun x mem => solid x (List.mem_cons_of_mem a mem), List.append_assoc]
          rfl
    exact general []
  have begun : wordsFrom blank [b] rest = v :: vs := by
    rw [words, wordsFrom, solidHead, if_neg Bool.false_ne_true] at read
    exact read
  rw [through, wordsFrom, solidHead, if_neg Bool.false_ne_true]
  exact wordsFrom_append_cons (by simp) begun

theorem words_dropWhile (l : List α) : words blank (l.dropWhile blank) = words blank l := by
  induction l with
  | nil => rfl
  | cons a l ih =>
      by_cases isBlank : blank a = true
      · rw [List.dropWhile_cons_of_pos isBlank, ih]
        conv_rhs => rw [words, wordsFrom, if_pos isBlank, if_pos List.isEmpty_nil]
        rfl
      · rw [List.dropWhile_cons_of_neg isBlank]

theorem mem_wordsFrom {v : List α} (solid : ∀ a ∈ w, blank a = false)
    (mem : v ∈ wordsFrom blank w l) : v ≠ [] ∧ ∀ a ∈ v, blank a = false := by
  induction l generalizing w with
  | nil =>
      unfold wordsFrom at mem
      split at mem
      · cases mem
      · rename_i begun
        cases List.mem_singleton.mp mem
        exact ⟨by simpa using begun, solid⟩
  | cons a l ih =>
      unfold wordsFrom at mem
      split_ifs at mem with isBlank begun
      · exact ih (by simp) mem
      · rcases List.mem_cons.mp mem with rfl | later
        · exact ⟨by simpa using begun, solid⟩
        · exact ih (by simp) later
      · refine ih (fun b held => ?_) mem
        rcases List.mem_append.mp held with old | new
        · exact solid b old
        · cases List.mem_singleton.mp new
          simpa using isBlank

/-- A word is not empty, and no blank is in it. -/
theorem mem_words {v : List α} (mem : v ∈ words blank l) : v ≠ [] ∧ ∀ a ∈ v, blank a = false :=
  mem_wordsFrom (by simp) mem

theorem wordsFrom_solid (solid : ∀ a ∈ l, blank a = false) :
    wordsFrom blank w l = if (w ++ l).isEmpty then [] else [w ++ l] := by
  induction l generalizing w with
  | nil => rw [List.append_nil, wordsFrom]
  | cons a l ih =>
      rw [wordsFrom, solid a List.mem_cons_self, if_neg Bool.false_ne_true,
        ih fun b mem => solid b (List.mem_cons_of_mem a mem), List.append_assoc]
      rfl

/-- A text without blanks is a word. -/
theorem words_solid (nonempty : l ≠ []) (solid : ∀ a ∈ l, blank a = false) : words blank l = [l] := by
  rw [words, wordsFrom_solid solid, List.nil_append, if_neg (by simpa using nonempty)]

theorem wordsFrom_solid_append {b : α} (isBlank : blank b = true) (nonempty : w ++ l ≠ [])
    (solid : ∀ a ∈ l, blank a = false) (rest : List α) :
    wordsFrom blank w (l ++ b :: rest) = (w ++ l) :: words blank rest := by
  induction l generalizing w with
  | nil =>
      rw [List.append_nil] at nonempty ⊢
      rw [List.nil_append, wordsFrom, if_pos isBlank, if_neg (by simpa using nonempty)]
      rfl
  | cons a l ih =>
      rw [List.cons_append, wordsFrom, solid a List.mem_cons_self, if_neg Bool.false_ne_true,
        ih (by simp) fun c mem => solid c (List.mem_cons_of_mem a mem), List.append_assoc]
      rfl

/-- A stretch without blanks, closed by one, is the first word. -/
theorem words_solid_append {b : α} (isBlank : blank b = true) (nonempty : l ≠ [])
    (solid : ∀ a ∈ l, blank a = false) (rest : List α) :
    words blank (l ++ b :: rest) = l :: words blank rest :=
  wordsFrom_solid_append isBlank (by simpa using nonempty) solid rest

/-- Words written out with a blank before each but the first are read back. -/
theorem words_flatMap {b : α} (isBlank : blank b = true) {ws : List (List α)}
    (nonempty : l ≠ []) (solid : ∀ a ∈ l, blank a = false)
    (nonempties : ∀ w ∈ ws, w ≠ []) (solids : ∀ w ∈ ws, ∀ a ∈ w, blank a = false) :
    words blank (l ++ ws.flatMap (b :: ·)) = l :: ws := by
  induction ws generalizing l with
  | nil => rw [List.flatMap_nil, List.append_nil, words_solid nonempty solid]
  | cons w ws ih =>
      rw [List.flatMap_cons, List.cons_append, words_solid_append isBlank nonempty solid,
        ih (nonempties w List.mem_cons_self) (solids w List.mem_cons_self)
          (fun v mem => nonempties v (List.mem_cons_of_mem w mem))
          (fun v mem => solids v (List.mem_cons_of_mem w mem))]

end Words

/-! ### What repeats at the end -/

section Trim

variable [DecidableEq α] {pat l : List α}

/-- The text without the `pat` that it ends in, however often. -/
def trimEnd (pat l : List α) : List α :=
  if _ : pat ≠ [] ∧ pat <:+ l then trimEnd pat (l.take (l.length - pat.length)) else l
termination_by l.length
decreasing_by
  rename_i ends
  have positive := List.length_pos_of_ne_nil ends.1
  have fits := ends.2.length_le
  simp only [List.length_take]
  omega

/-- What was trimmed is `pat` over and over. -/
theorem trimEnd_append (pat l : List α) :
    ∃ n, l = trimEnd pat l ++ (List.replicate n pat).flatten := by
  induction l using trimEnd.induct pat with
  | case1 l ends ih =>
      obtain ⟨n, same⟩ := ih
      refine ⟨n + 1, ?_⟩
      rw [trimEnd, dif_pos ends, List.replicate_succ', List.flatten_append, ← List.append_assoc,
        ← same]
      obtain ⟨front, rfl⟩ := ends.2
      simp
  | case2 l ends =>
      refine ⟨0, ?_⟩
      rw [trimEnd, dif_neg ends]
      simp

theorem trimEnd_concat (nonempty : pat ≠ []) (l : List α) : trimEnd pat (l ++ pat) = trimEnd pat l := by
  rw [trimEnd, dif_pos ⟨nonempty, List.suffix_append l pat⟩]
  simp

end Trim

/-- Texts that go on after `pat` was repeated agree on how often, or one of them
goes on with it. -/
theorem replicate_append_cancel {n n' : Nat} {rest rest' : List α}
    {pat : List α}
    (same : (List.replicate n pat).flatten ++ rest = (List.replicate n' pat).flatten ++ rest') :
    n = n' ∨ pat <+: rest ∨ pat <+: rest' := by
  induction n generalizing n' with
  | zero =>
      cases n' with
      | zero => exact .inl rfl
      | succ n' =>
          refine .inr (.inl ⟨(List.replicate n' pat).flatten ++ rest', ?_⟩)
          simpa [List.replicate_succ] using same.symm
  | succ n ih =>
      cases n' with
      | zero =>
          refine .inr (.inr ⟨(List.replicate n pat).flatten ++ rest, ?_⟩)
          simpa [List.replicate_succ] using same
      | succ n' =>
          have shorter : (List.replicate n pat).flatten ++ rest =
              (List.replicate n' pat).flatten ++ rest' := by
            simpa [List.replicate_succ] using same
          rcases ih shorter with rfl | goesOn
          · exact .inl rfl
          · exact .inr goesOn

/-! ### The first of a list -/

/-- Where the first to pass one test passes the other, and the other way round, they
are the same. -/
theorem find?_same {p q : α → Bool} {l : List α} {a b : α} (firstP : l.find? p = some a)
    (firstQ : l.find? q = some b) (passes : q a = true) (passes' : p b = true) : a = b := by
  induction l with
  | nil => contradiction
  | cons c l ih =>
      rw [List.find?_cons] at firstP firstQ
      cases now : p c with
      | true =>
          rw [now] at firstP
          cases firstP
          rw [passes] at firstQ
          cases firstQ
          rfl
      | false =>
          rw [now] at firstP
          cases nowQ : q c with
          | true =>
              rw [nowQ] at firstQ
              cases firstQ
              rw [now] at passes'
              contradiction
          | false =>
              rw [nowQ] at firstQ
              exact ih firstP firstQ

end Echo.Lib
