import Mathlib.Data.List.Infix
import Mathlib.Data.List.Basic

/-!
The bracket structure of JSON texts: how deep a text has opened, and whether it
stands inside a string or behind one. It decides nothing else about the grammar,
and that is enough for one fact: behind the beginning of an object, no text that
starts like an object completes it to a value.
-/

namespace Echo.Lib.Brackets

/-- Where a scan stands: between the tokens at some depth, inside a string at
that depth, after the backslash of an escape, behind the closing quote, or at a
character no JSON text has there. -/
inductive Scan where
  | outside (depth : Nat)
  | string (depth : Nat)
  | escape (depth : Nat)
  | closed (depth : Nat)
  | stuck
  deriving DecidableEq, Repr

/-- The white space of JSON. -/
def isBlank (c : Char) : Bool := c = ' ' || c = '\t' || c = '\n' || c = '\r'

/-- Close one bracket. -/
def Scan.leave : Nat → Scan
  | 0 => .stuck
  | d + 1 => .outside d

def Scan.step : Scan → Char → Scan
  | .outside d, c =>
      if c = '{' ∨ c = '[' then .outside (d + 1)
      else if c = '}' ∨ c = ']' then .leave d
      else if c = '"' then .string d
      else if c = '\\' then .stuck
      else .outside d
  | .string d, c => if c = '"' then .closed d else if c = '\\' then .escape d else .string d
  | .escape d, _ => .string d
  | .closed d, c =>
      if isBlank c then .closed d
      else if c = ':' ∨ c = ',' then .outside d
      else if c = '}' ∨ c = ']' then .leave d
      else .stuck
  | .stuck, _ => .stuck

def Scan.run (s : Scan) (text : List Char) : Scan := text.foldl Scan.step s

@[simp] theorem Scan.run_nil (s : Scan) : s.run [] = s := rfl

@[simp] theorem Scan.run_cons (s : Scan) (c : Char) (text : List Char) :
    s.run (c :: text) = (s.step c).run text := rfl

@[simp] theorem Scan.run_append (s : Scan) (first rest : List Char) :
    s.run (first ++ rest) = (s.run first).run rest := List.foldl_append

@[simp] theorem Scan.run_stuck (text : List Char) : Scan.stuck.run text = .stuck := by
  induction text with
  | nil => rfl
  | cons c text ih => exact ih

/-- What a scan reads without getting stuck, it reads the beginnings of. -/
theorem Scan.run_front {s : Scan} (front back : List Char) (fine : s.run (front ++ back) ≠ .stuck) :
    s.run front ≠ .stuck := by
  intro stuck
  rw [Scan.run_append, stuck, Scan.run_stuck] at fine
  contradiction

/-- One value in brackets: it opens with one and closes it with its last
character, not before. -/
structure Value (body : List Char) : Prop where
  opens : body.head? = some '{' ∨ body.head? = some '['
  closes : Scan.run (.outside 0) body = .outside 0
  open_before : ∀ front back, body = front ++ back → front ≠ [] → back ≠ [] →
    Scan.run (.outside 0) front ≠ .outside 0

theorem value_iff {body : List Char} :
    Value body ↔
      (body.head? = some '{' ∨ body.head? = some '[') ∧
        Scan.run (.outside 0) body = .outside 0 ∧
        ∀ n < body.length, n ≠ 0 → Scan.run (.outside 0) (body.take n) ≠ .outside 0 := by
  constructor
  · intro h
    refine ⟨h.opens, h.closes, fun n less some => ?_⟩
    refine h.open_before (body.take n) (body.drop n) (List.take_append_drop n body).symm ?_ ?_
    · rw [ne_eq, List.take_eq_nil_iff, not_or]
      exact ⟨some, List.length_pos_iff.mp (by omega)⟩
    · rw [ne_eq, List.drop_eq_nil_iff]
      omega
  · rintro ⟨opens, closes, before⟩
    refine ⟨opens, closes, fun front back cut kept missing => ?_⟩
    have pos := List.length_pos_iff.mpr kept
    have less := List.length_pos_iff.mpr missing
    have here := before front.length (by rw [cut, List.length_append]; omega) (by omega)
    rwa [cut, List.take_left] at here

instance (body : List Char) : Decidable (Value body) := decidable_of_iff' _ value_iff

/-- A value with white space around it. -/
def Text (text : List Char) : Prop :=
  ∃ lead body trail, text = lead ++ body ++ trail ∧
    lead.all isBlank = true ∧ trail.all isBlank = true ∧ Value body

theorem step_blank {c : Char} (blank : isBlank c = true) (d : Nat) :
    (Scan.outside d).step c = .outside d := by
  simp only [isBlank, Bool.or_eq_true, decide_eq_true_eq] at blank
  rcases blank with ((rfl | rfl) | rfl) | rfl <;> rfl

theorem run_blank {space : List Char} (blank : space.all isBlank = true) (d : Nat) :
    (Scan.outside d).run space = .outside d := by
  induction space with
  | nil => rfl
  | cons c space ih =>
      rw [List.all_cons, Bool.and_eq_true] at blank
      rw [Scan.run_cons, step_blank blank.1, ih blank.2]

theorem Value.cons {body : List Char} (h : Value body) :
    ∃ c rest, body = c :: rest ∧ (c = '{' ∨ c = '[') := by
  cases body with
  | nil =>
      rcases h.opens with opens | opens <;> contradiction
  | cons c rest =>
      rcases h.opens with opens | opens
      · exact ⟨c, rest, rfl, .inl (Option.some.inj opens)⟩
      · exact ⟨c, rest, rfl, .inr (Option.some.inj opens)⟩

theorem Value.ne_nil {body : List Char} (h : Value body) : body ≠ [] := by
  obtain ⟨c, rest, rfl, _⟩ := h.cons
  exact List.cons_ne_nil c rest

theorem Value.not_blank {body rest : List Char} (h : Value body) :
    (body ++ rest).all isBlank ≠ true := by
  obtain ⟨c, tail, rfl, bracket⟩ := h.cons
  intro blank
  rw [List.cons_append, List.all_cons, Bool.and_eq_true] at blank
  rcases bracket with rfl | rfl
  · exact absurd blank.1 (by decide)
  · exact absurd blank.1 (by decide)

/-- A text that starts with a value, or the beginning of one, has no white space
before its own. -/
theorem Text.of_bracket {c : Char} {rest : List Char} (h : Text (c :: rest))
    (bracket : c = '{' ∨ c = '[') :
    ∃ body trail, c :: rest = body ++ trail ∧ trail.all isBlank = true ∧ Value body := by
  obtain ⟨lead, body, trail, spelt, blank, after, value⟩ := h
  cases lead with
  | nil => exact ⟨body, trail, spelt, after, value⟩
  | cons c' lead =>
      obtain rfl : c = c' := (List.cons.inj spelt).1
      rw [List.all_cons, Bool.and_eq_true] at blank
      rcases bracket with rfl | rfl
      · exact absurd blank.1 (by decide)
      · exact absurd blank.1 (by decide)

theorem Text.closes {text : List Char} (h : Text text) :
    Scan.run (.outside 0) text = .outside 0 := by
  obtain ⟨lead, body, trail, rfl, blank, after, value⟩ := h
  rw [Scan.run_append, Scan.run_append, run_blank blank, value.closes, run_blank after]

/-! ### A value read where it does not start -/

/-- The scan `n` brackets deeper. -/
def Scan.deepen (n : Nat) : Scan → Scan
  | .outside d => .outside (d + n)
  | .string d => .string (d + n)
  | .escape d => .escape (d + n)
  | .closed d => .closed (d + n)
  | .stuck => .stuck

theorem leave_deepen (n : Nat) {d : Nat} (fine : Scan.leave d ≠ .stuck) :
    Scan.leave (d + n) = (Scan.leave d).deepen n := by
  cases d with
  | zero => exact absurd rfl fine
  | succ d =>
      rw [Nat.succ_add]
      rfl

theorem step_deepen (n : Nat) (s : Scan) (c : Char) (fine : s.step c ≠ .stuck) :
    (s.deepen n).step c = (s.step c).deepen n := by
  cases s with
  | outside d =>
      simp only [Scan.deepen, Scan.step] at fine ⊢
      split
      · simp [Nat.add_right_comm]
      · rename_i notOpen
        rw [if_neg notOpen] at fine
        split
        · rename_i closing
          rw [if_pos closing] at fine
          exact leave_deepen n fine
        · split
          · rfl
          · split <;> rfl
  | string d =>
      simp only [Scan.deepen, Scan.step]
      split
      · rfl
      · split <;> rfl
  | escape d => rfl
  | closed d =>
      simp only [Scan.deepen, Scan.step] at fine ⊢
      split
      · rfl
      · rename_i notBlank
        rw [if_neg notBlank] at fine
        split
        · rfl
        · rename_i notNext
          rw [if_neg notNext] at fine
          split
          · rename_i closing
            rw [if_pos closing] at fine
            exact leave_deepen n fine
          · rfl
  | stuck => rfl

theorem run_deepen (n : Nat) (s : Scan) (text : List Char) (fine : s.run text ≠ .stuck) :
    (s.deepen n).run text = (s.run text).deepen n := by
  induction text generalizing s with
  | nil => rfl
  | cons c text ih =>
      have step : s.step c ≠ .stuck := by
        intro stuck
        rw [Scan.run_cons, stuck, Scan.run_stuck] at fine
        contradiction
      rw [Scan.run_cons, step_deepen n s c step, Scan.run_cons, ih (s.step c) fine]

/-- An object whose first key starts with a letter. -/
structure Object (body : List Char) : Prop extends Value body where
  keyed : ∃ c rest, body = '{' :: '"' :: c :: rest ∧ c.isAlpha = true

instance (body : List Char) : Decidable (Object body) :=
  decidable_of_iff
    (Value body ∧ body.take 2 = ['{', '"'] ∧ ((body.drop 2).head?).any (·.isAlpha) = true) <| by
      constructor
      · rintro ⟨value, start, key⟩
        refine ⟨value, ?_⟩
        rcases body with _ | ⟨b, _ | ⟨q, _ | ⟨c, rest⟩⟩⟩
        · contradiction
        · contradiction
        · contradiction
        · obtain ⟨rfl, quote⟩ := List.cons.inj start
          obtain rfl := (List.cons.inj quote).1
          exact ⟨c, rest, rfl, key⟩
      · rintro ⟨value, c, rest, rfl, key⟩
        exact ⟨value, rfl, key⟩

/-- No key starts behind a closing quote. -/
theorem step_closed_alpha {c : Char} (alpha : c.isAlpha = true) (d : Nat) :
    (Scan.closed d).step c = .stuck := by
  have plain : ∀ other : Char, other.isAlpha = false → c ≠ other := by
    rintro other not rfl
    rw [alpha] at not
    contradiction
  have blank : isBlank c = false := by
    simp [isBlank, plain ' ' (by decide), plain '\t' (by decide), plain '\n' (by decide),
      plain '\r' (by decide)]
  simp only [Scan.step, blank, plain ':' (by decide), plain ',' (by decide),
    plain '}' (by decide), plain ']' (by decide)]
  rfl

/-- The beginning of an object, scanned from anywhere but the top level, does not
end there. -/
theorem Object.run_front_ne {front back : List Char} (h : Object (front ++ back)) {s : Scan}
    (inside : s ≠ .outside 0) : s.run front ≠ .outside 0 := by
  have fine : Scan.run (.outside 0) front ≠ .stuck := by
    refine Scan.run_front front back ?_
    rw [h.closes]
    exact Scan.noConfusion
  -- Inside a string its quote ends the string, and a key cannot follow.
  have string : ∀ d, (Scan.string d).run front ≠ .outside 0 := by
    intro d
    obtain ⟨c, rest, spelt, key⟩ := h.keyed
    rcases front with _ | ⟨b, _ | ⟨q, _ | ⟨c', more⟩⟩⟩
    · exact Scan.noConfusion
    · obtain rfl := (List.cons.inj spelt).1
      exact Scan.noConfusion
    · obtain ⟨rfl, quote⟩ := List.cons.inj spelt
      obtain rfl := (List.cons.inj quote).1
      exact Scan.noConfusion
    · obtain ⟨rfl, quote⟩ := List.cons.inj spelt
      obtain ⟨rfl, keys⟩ := List.cons.inj quote
      obtain rfl := (List.cons.inj keys).1
      show ((Scan.closed d).step c').run more ≠ .outside 0
      rw [step_closed_alpha key, Scan.run_stuck]
      exact Scan.noConfusion
  cases s with
  | outside d =>
      have deeper := run_deepen d (.outside 0) front fine
      simp only [Scan.deepen, Nat.zero_add] at deeper
      rw [deeper]
      cases reached : Scan.run (.outside 0) front with
      | outside e =>
          intro same
          refine inside (congrArg Scan.outside ?_)
          have sum : e + d = 0 := Scan.outside.inj same
          omega
      | string e => exact Scan.noConfusion
      | escape e => exact Scan.noConfusion
      | closed e => exact Scan.noConfusion
      | stuck => exact Scan.noConfusion
  | string d => exact string d
  | escape d =>
      -- Its bracket ends the escape, as it would go on in the string.
      cases front with
      | nil => exact Scan.noConfusion
      | cons b front =>
          obtain ⟨c, rest, spelt, _⟩ := h.keyed
          obtain rfl := (List.cons.inj spelt).1
          exact string d
  | closed d =>
      cases front with
      | nil => exact Scan.noConfusion
      | cons b front =>
          obtain ⟨c, rest, spelt, _⟩ := h.keyed
          obtain rfl := (List.cons.inj spelt).1
          show Scan.stuck.run front ≠ .outside 0
          rw [Scan.run_stuck]
          exact Scan.noConfusion
  | stuck =>
      rw [Scan.run_stuck]
      exact Scan.noConfusion

/-- A beginning of a value is not a value, the whole of it apart. -/
theorem Value.not_text_of_front {body front back : List Char} (h : Value body)
    (cut : body = front ++ back) (kept : front ≠ []) (missing : back ≠ []) : ¬ Text front :=
  fun text => h.open_before front back cut kept missing text.closes

/-- An object written behind the beginning of another does not make a value. -/
theorem Value.not_text_append {body front back next : List Char} (h : Value body)
    (cut : body = front ++ back) (kept : front ≠ []) (object : Object next) :
    ¬ Text (front ++ next) := by
  intro text
  by_cases missing : back = []
  · -- The first value is complete, and the text goes on behind it.
    rw [missing, List.append_nil] at cut
    subst cut
    obtain ⟨body', trail, spelt, blank, value'⟩ : ∃ body' trail, body ++ next = body' ++ trail ∧
        trail.all isBlank = true ∧ Value body' := by
      obtain ⟨c, rest, rfl, bracket⟩ := h.cons
      exact text.of_bracket bracket
    rcases List.append_eq_append_iff.mp spelt with ⟨extra, longer, rest⟩ | ⟨extra, shorter, rest⟩
    · by_cases same : extra = []
      · subst same
        rw [List.nil_append] at rest
        rw [← rest, ← List.append_nil next] at blank
        exact object.not_blank blank
      · exact value'.open_before body extra longer h.ne_nil same h.closes
    · by_cases same : extra = []
      · subst same
        rw [List.nil_append] at rest
        rw [rest, ← List.append_nil next] at blank
        exact object.not_blank blank
      · exact h.open_before body' extra shorter value'.ne_nil same value'.closes
  · have closes := text.closes
    rw [Scan.run_append] at closes
    rw [← List.append_nil next] at object
    exact object.run_front_ne (h.open_before front back cut kept missing) closes

end Echo.Lib.Brackets
