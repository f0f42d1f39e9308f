import Echo.Lib.Runs
import Mathlib.Data.List.Induction
import Mathlib.Order.Basic

/-!
Patterns of a text replaced by values: one pattern after the other, each wherever it is
found by then, or all at once, reading the text they stand in from left to right.

The two differ where a pass finds a pattern that is not one of the text it began with. To
tell, a text is marked: each letter of it by its place, and each letter of a value as
inserted. Where every pattern begins with a letter that comes in it only there, one after
the other is all at once just as long as every pass finds what stands in the text.
-/

namespace Echo.Lib.Substitution

variable {α β : Type} [DecidableEq α]

/-- A pattern and what it is replaced by. -/
structure Rule (α : Type) where
  pat : List α
  val : List α

section Texts

-- How the letters of a text read, and how the letters of a value are put into it.
variable (f : β → α) (ins : α → β)

/-- Replace a pattern wherever it is found, once `skip` letters are passed over. -/
def replaceFrom (r : Rule α) : Nat → List β → List β
  | _, [] => []
  | skip + 1, _ :: l => replaceFrom r skip l
  | 0, b :: l =>
      if r.pat.isPrefixOf ((b :: l).map f) then
        r.val.map ins ++ replaceFrom r (r.pat.length - 1) l
      else b :: replaceFrom r 0 l

/-- What a pass finds. -/
def foundFrom (r : Rule α) : Nat → List β → List (List β)
  | _, [] => []
  | skip + 1, _ :: l => foundFrom r skip l
  | 0, b :: l =>
      if r.pat.isPrefixOf ((b :: l).map f) then
        (b :: l).take r.pat.length :: foundFrom r (r.pat.length - 1) l
      else foundFrom r 0 l

/-- Replace at every place the first of the patterns that stands there. -/
def substituteFrom (rules : List (Rule α)) : Nat → List β → List β
  | _, [] => []
  | skip + 1, _ :: l => substituteFrom rules skip l
  | 0, b :: l =>
      match rules.find? fun r => r.pat.isPrefixOf ((b :: l).map f) with
      | some r => r.val.map ins ++ substituteFrom rules (r.pat.length - 1) l
      | none => b :: substituteFrom rules 0 l

def replace (text : List β) (r : Rule α) : List β := replaceFrom f ins r 0 text

def found (text : List β) (r : Rule α) : List (List β) := foundFrom f r 0 text

def substitute (rules : List (Rule α)) (text : List β) : List β := substituteFrom f ins rules 0 text

variable {f ins}

theorem replaceFrom_eq (r : Rule α) (skip : Nat) (text : List β) :
    replaceFrom f ins r skip text = replace f ins (text.drop skip) r := by
  induction text generalizing skip with
  | nil => cases skip <;> rfl
  | cons b text ih =>
      cases skip with
      | zero => rfl
      | succ skip => exact ih skip

theorem foundFrom_eq (r : Rule α) (skip : Nat) (text : List β) :
    foundFrom f r skip text = found f (text.drop skip) r := by
  induction text generalizing skip with
  | nil => cases skip <;> rfl
  | cons b text ih =>
      cases skip with
      | zero => rfl
      | succ skip => exact ih skip

theorem substituteFrom_eq (rules : List (Rule α)) (skip : Nat) (text : List β) :
    substituteFrom f ins rules skip text = substitute f ins rules (text.drop skip) := by
  induction text generalizing skip with
  | nil => cases skip <;> rfl
  | cons b text ih =>
      cases skip with
      | zero => rfl
      | succ skip => exact ih skip

@[simp] theorem substitute_nil (rules : List (Rule α)) : substitute f ins rules [] = [] := rfl

omit [DecidableEq α] in
theorem map_value (read : ∀ a, f (ins a) = a) (r : Rule α) : (r.val.map ins).map f = r.val.map id := by
  rw [List.map_map]
  exact List.map_congr_left fun a _ => read a

theorem replace_map (read : ∀ a, f (ins a) = a) (text : List β) (r : Rule α) :
    (replace f ins text r).map f = replace id id (text.map f) r := by
  suffices all : ∀ skip, (replaceFrom f ins r skip text).map f =
      replaceFrom id id r skip (text.map f) from all 0
  induction text with
  | nil => exact fun skip => by cases skip <;> rfl
  | cons b text ih =>
      intro skip
      cases skip with
      | succ skip => exact ih skip
      | zero =>
          rw [List.map_cons, replaceFrom, replaceFrom, List.map_id, List.map_cons]
          split
          · rw [List.map_append, map_value read, ih]
          · rw [List.map_cons, ih]

theorem substitute_map (read : ∀ a, f (ins a) = a) (rules : List (Rule α)) (text : List β) :
    (substitute f ins rules text).map f = substitute id id rules (text.map f) := by
  suffices all : ∀ skip, (substituteFrom f ins rules skip text).map f =
      substituteFrom id id rules skip (text.map f) from all 0
  induction text with
  | nil => exact fun skip => by cases skip <;> rfl
  | cons b text ih =>
      intro skip
      cases skip with
      | succ skip => exact ih skip
      | zero =>
          rw [List.map_cons, substituteFrom, substituteFrom, List.map_id, List.map_cons]
          cases rules.find? fun r => r.pat.isPrefixOf (f b :: text.map f) with
          | none => exact congrArg (f b :: ·) (ih 0)
          | some r =>
              dsimp only
              rw [List.map_append, map_value read, ih]

end Texts

/-! ### Marked texts -/

/-- A letter with its place in the text, or inserted. -/
abbrev Marked (α : Type) := α × Option Nat

def inserted (a : α) : Marked α := (a, none)

/-- A text whose first letter is at the place `p`. -/
def marked (p : Nat) : List α → List (Marked α)
  | [] => []
  | a :: text => (a, some p) :: marked (p + 1) text

/-- What was found is letters that stand side by side in the text. -/
def Stands (occurrence : List (Marked α)) : Prop :=
  ∃ p, occurrence.map Prod.snd = (List.range' p occurrence.length).map some

/-- Everything the pass finds stands in the text. -/
def AllStand (text : List (Marked α)) (r : Rule α) : Prop :=
  ∀ occurrence ∈ found Prod.fst text r, Stands occurrence

/-- The pattern begins with a letter that comes in it only there. -/
def Rule.Headed (sigil : α) (r : Rule α) : Prop := ∃ body, r.pat = sigil :: body ∧ sigil ∉ body

section MarkedTexts

variable {sigil : α} {rules : List (Rule α)} {r : Rule α} {text : List α} {p : Nat}

omit [DecidableEq α] in
@[simp] theorem map_fst_marked (p : Nat) (text : List α) : (marked p text).map Prod.fst = text := by
  induction text generalizing p with
  | nil => rfl
  | cons a text ih => rw [marked, List.map_cons, ih]

omit [DecidableEq α] in
theorem drop_marked (p k : Nat) (text : List α) :
    (marked p text).drop k = marked (p + k) (text.drop k) := by
  induction text generalizing p k with
  | nil => cases k <;> rfl
  | cons a text ih =>
      cases k with
      | zero => rfl
      | succ k =>
          rw [marked, List.drop_succ_cons, List.drop_succ_cons, ih]
          congr 1
          omega

omit [DecidableEq α] in
theorem Rule.Headed.length_pos (headed : r.Headed sigil) : 0 < r.pat.length := by
  obtain ⟨body, split, -⟩ := headed
  rw [split]
  exact Nat.succ_pos _

/-- One step of the substitution of a marked text. -/
theorem substitute_marked_cons (a : α) (text : List α) :
    substitute Prod.fst inserted rules (marked p (a :: text)) =
      match rules.find? fun r => r.pat.isPrefixOf (a :: text) with
      | some r => r.val.map inserted ++
          substitute Prod.fst inserted rules
            (marked (p + (1 + (r.pat.length - 1))) (text.drop (r.pat.length - 1)))
      | none => (a, some p) :: substitute Prod.fst inserted rules (marked (p + 1) text) := by
  unfold substitute
  rw [marked, substituteFrom, List.map_cons, map_fst_marked]
  cases rules.find? fun r => r.pat.isPrefixOf (a :: text) with
  | none => rfl
  | some r =>
      dsimp only
      rw [substituteFrom_eq, drop_marked, Nat.add_assoc]
      rfl

/-- A letter that is marked with its place is the letter there. -/
theorem getElem?_of_mem_substitute {a : α} {q : Nat}
    (mem : (a, some q) ∈ substitute Prod.fst inserted rules (marked p text)) :
    p ≤ q ∧ text[q - p]? = some a := by
  suffices all : ∀ n, ∀ text : List α, text.length ≤ n → ∀ p,
      (a, some q) ∈ substitute Prod.fst inserted rules (marked p text) →
        p ≤ q ∧ text[q - p]? = some a from
    all _ text (Nat.le_refl _) p mem
  intro n
  induction n with
  | zero =>
      intro text short p mem
      rw [List.length_eq_zero_iff.mp (Nat.le_zero.mp short)] at mem
      contradiction
  | succ n ih =>
      intro text short p mem
      cases text with
      | nil => contradiction
      | cons b text =>
          rw [substitute_marked_cons] at mem
          have shorter : text.length ≤ n := Nat.le_of_succ_le_succ short
          cases stands : rules.find? fun r => r.pat.isPrefixOf (b :: text) with
          | none =>
              rw [stands] at mem
              rcases List.mem_cons.mp mem with here | later
              · cases here
                simp
              · obtain ⟨le, letter⟩ := ih text shorter (p + 1) later
                refine ⟨by omega, ?_⟩
                rw [show q - p = q - (p + 1) + 1 by omega, List.getElem?_cons_succ]
                exact letter
          | some r =>
              rw [stands] at mem
              rcases List.mem_append.mp mem with value | later
              · obtain ⟨c, -, same⟩ := List.mem_map.mp value
                cases same
              · have drops : (text.drop (r.pat.length - 1)).length ≤ n := by
                  rw [List.length_drop]
                  omega
                obtain ⟨le, letter⟩ := ih _ drops _ later
                refine ⟨by omega, ?_⟩
                rw [List.getElem?_drop] at letter
                rw [show q - p = r.pat.length - 1 + (q - (p + (1 + (r.pat.length - 1)))) + 1 by omega,
                  List.getElem?_cons_succ]
                exact letter

/-- A text without the letter that patterns begin with is left as it is. -/
theorem substitute_plain (headed : ∀ r ∈ rules, r.Headed sigil) (body rest : List α)
    (plain : sigil ∉ body) (p : Nat) :
    substitute Prod.fst inserted rules (marked p (body ++ rest)) =
      marked p body ++ substitute Prod.fst inserted rules (marked (p + body.length) rest) := by
  induction body generalizing p with
  | nil => rfl
  | cons a body ih =>
      have none_stands : (rules.find? fun r => r.pat.isPrefixOf (a :: (body ++ rest))) = none := by
        rw [List.find?_eq_none]
        intro r mem starts
        obtain ⟨tail, split, -⟩ := headed r mem
        rw [List.isPrefixOf_iff_prefix, split, List.cons_prefix_cons] at starts
        exact plain (starts.1 ▸ List.mem_cons_self)
      rw [List.cons_append, substitute_marked_cons, none_stands]
      dsimp only
      rw [ih (fun mem => plain (List.mem_cons_of_mem _ mem)), marked, List.cons_append,
        List.length_cons]
      congr 4
      omega

/-- A pass that finds only what stands in the text finds nothing in inserted letters. -/
theorem replace_inserted (headed : r.Headed sigil) (value : List α) (rest : List (Marked α))
    (stand : AllStand (value.map inserted ++ rest) r) :
    replace Prod.fst inserted (value.map inserted ++ rest) r =
        value.map inserted ++ replace Prod.fst inserted rest r ∧ AllStand rest r := by
  induction value with
  | nil => exact ⟨rfl, stand⟩
  | cons a value ih =>
      rw [List.map_cons, List.cons_append] at stand ⊢
      have misses :
          ¬ r.pat.isPrefixOf ((inserted a :: (value.map inserted ++ rest)).map Prod.fst) = true := by
        intro starts
        have first : (inserted a :: (value.map inserted ++ rest)).take r.pat.length ∈
            found Prod.fst (inserted a :: (value.map inserted ++ rest)) r := by
          unfold found
          rw [foundFrom, if_pos starts]
          exact List.mem_cons_self
        obtain ⟨p, places⟩ := stand _ first
        obtain ⟨k, long⟩ := Nat.exists_eq_succ_of_ne_zero (Nat.pos_iff_ne_zero.mp headed.length_pos)
        rw [long, List.take_succ_cons, List.map_cons, List.length_cons, List.range'_succ,
          List.map_cons] at places
        cases (List.cons.inj places).1
      have later : AllStand (value.map inserted ++ rest) r := by
        intro occurrence mem
        refine stand occurrence ?_
        unfold found
        rwa [foundFrom, if_neg misses]
      obtain ⟨replaced, stand⟩ := ih later
      refine ⟨?_, stand⟩
      rw [List.cons_append, ← replaced]
      unfold replace
      rw [replaceFrom, if_neg misses]

theorem replace_cons_of_not (b : Marked α) (rest : List (Marked α))
    (misses : ¬ r.pat.isPrefixOf ((b :: rest).map Prod.fst) = true) :
    replace Prod.fst inserted (b :: rest) r = b :: replace Prod.fst inserted rest r := by
  unfold replace
  rw [replaceFrom, if_neg misses]

theorem found_cons_of_not (b : Marked α) (rest : List (Marked α))
    (misses : ¬ r.pat.isPrefixOf ((b :: rest).map Prod.fst) = true) :
    found Prod.fst (b :: rest) r = found Prod.fst rest r := by
  unfold found
  rw [foundFrom, if_neg misses]

/-- Where a pattern stands, its letters are passed over. -/
theorem replace_pattern (headed : r.Headed sigil) (p : Nat) (rest : List (Marked α)) :
    replace Prod.fst inserted (marked p r.pat ++ rest) r =
        r.val.map inserted ++ replace Prod.fst inserted rest r ∧
      found Prod.fst (marked p r.pat ++ rest) r = marked p r.pat :: found Prod.fst rest r := by
  have starts : r.pat.isPrefixOf ((marked p r.pat ++ rest).map Prod.fst) = true := by
    rw [List.isPrefixOf_iff_prefix, List.map_append, map_fst_marked]
    exact List.prefix_append _ _
  have length : (marked p r.pat).length = r.pat.length := by
    rw [← List.length_map (f := Prod.fst), map_fst_marked]
  obtain ⟨body, split, -⟩ := headed
  have unfolded : marked p r.pat = (sigil, some p) :: marked (p + 1) body := by
    rw [split]
    rfl
  have passed : (marked (p + 1) body ++ rest).drop (r.pat.length - 1) = rest := by
    have body_length : (marked (p + 1) body).length = r.pat.length - 1 := by
      rw [unfolded, List.length_cons] at length
      omega
    rw [← body_length, List.drop_left]
  have whole : ((sigil, some p) :: (marked (p + 1) body ++ rest)).take r.pat.length =
      marked p r.pat := by
    rw [← List.cons_append, ← unfolded, ← length, List.take_left]
  rw [unfolded, List.cons_append] at starts ⊢
  unfold replace found
  rw [replaceFrom, foundFrom, if_pos starts, if_pos starts, replaceFrom_eq, foundFrom_eq, passed,
    whole, unfolded]
  exact ⟨rfl, rfl⟩

/-- A pattern that is found side by side from some place on stands there in the text. -/
theorem prefix_of_stands {a : α} {rest : List (Marked α)}
    (letters : ∀ c q, (c, some q) ∈ (a, some p) :: rest → p ≤ q ∧ text[q - p]? = some c)
    (starts : r.pat.isPrefixOf (((a, some p) :: rest).map Prod.fst) = true)
    (positive : 0 < r.pat.length)
    (stands : Stands (((a, some p) :: rest).take r.pat.length)) : r.pat <+: text := by
  rw [List.isPrefixOf_iff_prefix] at starts
  obtain ⟨q, places⟩ := stands
  have long : r.pat.length ≤ ((a, some p) :: rest).length := by
    have le := starts.length_le
    rwa [List.length_map] at le
  have taken : (((a, some p) :: rest).take r.pat.length).length = r.pat.length := by
    rw [List.length_take]
    omega
  rw [taken] at places
  have first : q = p := by
    have heads := congrArg List.head? places
    obtain ⟨k, succ⟩ := Nat.exists_eq_succ_of_ne_zero (Nat.pos_iff_ne_zero.mp positive)
    rw [succ, List.take_succ_cons, List.map_cons, List.range'_succ, List.map_cons] at heads
    simpa using heads.symm
  subst first
  rw [List.prefix_iff_getElem?]
  intro i less
  have mem : (r.pat[i], some (q + i)) ∈ (a, some q) :: rest := by
    have inside : i < ((a, some q) :: rest).length := Nat.lt_of_lt_of_le less long
    have letter : (((a, some q) :: rest)[i]).1 = r.pat[i] := by
      have same := List.prefix_iff_getElem?.mp starts i less
      rw [List.getElem?_map, List.getElem?_eq_getElem inside] at same
      exact Option.some.inj same
    have place : (((a, some q) :: rest)[i]).2 = some (q + i) := by
      have same : ((((a, some q) :: rest).take r.pat.length).map Prod.snd)[i]? =
          ((List.range' q r.pat.length).map some)[i]? := by rw [places]
      rw [List.getElem?_map, List.getElem?_take_of_lt less, List.getElem?_eq_getElem inside,
        List.getElem?_map, List.getElem?_range' less, Nat.one_mul] at same
      exact Option.some.inj same
    have pair : ((a, some q) :: rest)[i] = (r.pat[i], some (q + i)) := Prod.ext letter place
    rw [← pair]
    exact List.getElem_mem inside
  have letter := (letters _ _ mem).2
  rwa [show q + i - q = i by omega] at letter

/-- A pass that finds only what stands in the text adds its rule to those substituted. -/
theorem replace_substitute (rules_headed : ∀ r ∈ rules, r.Headed sigil) (headed : r.Headed sigil)
    (text : List α) (p : Nat)
    (stand : AllStand (substitute Prod.fst inserted rules (marked p text)) r) :
    replace Prod.fst inserted (substitute Prod.fst inserted rules (marked p text)) r =
      substitute Prod.fst inserted (rules ++ [r]) (marked p text) := by
  suffices all : ∀ n, ∀ text : List α, text.length ≤ n → ∀ p,
      AllStand (substitute Prod.fst inserted rules (marked p text)) r →
        replace Prod.fst inserted (substitute Prod.fst inserted rules (marked p text)) r =
          substitute Prod.fst inserted (rules ++ [r]) (marked p text) from
    all _ text (Nat.le_refl _) p stand
  intro n
  induction n with
  | zero =>
      intro text short p stand
      rw [List.length_eq_zero_iff.mp (Nat.le_zero.mp short)]
      rfl
  | succ n ih =>
      intro text short p stand
      cases text with
      | nil => rfl
      | cons a text =>
          have shorter : text.length ≤ n := Nat.le_of_succ_le_succ short
          have drops (k : Nat) : (text.drop k).length ≤ n := by
            rw [List.length_drop]
            omega
          have letters (c : α) (q : Nat)
              (mem : (c, some q) ∈ substitute Prod.fst inserted rules (marked p (a :: text))) :
              p ≤ q ∧ (a :: text)[q - p]? = some c := getElem?_of_mem_substitute mem
          rw [substitute_marked_cons] at stand letters
          rw [substitute_marked_cons, substitute_marked_cons, List.find?_append]
          cases first : rules.find? fun r => r.pat.isPrefixOf (a :: text) with
          | some rule =>
              rw [first] at stand
              -- The rule stands here for both; its value is passed over.
              obtain ⟨replaced, stand⟩ := replace_inserted headed rule.val _ stand
              refine replaced.trans (congrArg (rule.val.map inserted ++ ·) ?_)
              exact ih _ (drops _) _ stand
          | none =>
              rw [first] at stand letters
              dsimp only [Option.none_or] at stand letters ⊢
              by_cases here : r.pat.isPrefixOf (a :: text) = true
              · -- The pattern stands here, and no other begins inside it.
                obtain ⟨rest, split⟩ := List.isPrefixOf_iff_prefix.mp here
                obtain ⟨body, pattern, plain⟩ := headed
                rw [pattern, List.cons_append] at split
                obtain ⟨rfl, rfl⟩ := List.cons.inj split
                have whole : (sigil, some p) :: substitute Prod.fst inserted rules
                    (marked (p + 1) (body ++ rest)) = marked p r.pat ++
                      substitute Prod.fst inserted rules (marked (p + (1 + body.length)) rest) := by
                  rw [substitute_plain rules_headed body rest plain, pattern, Nat.add_assoc]
                  rfl
                rw [whole] at stand ⊢
                obtain ⟨replaced, finds⟩ := replace_pattern (r := r) ⟨body, pattern, plain⟩ p
                  (substitute Prod.fst inserted rules (marked (p + (1 + body.length)) rest))
                have only : ([r].find? fun r => r.pat.isPrefixOf (sigil :: (body ++ rest))) = some r :=
                  List.find?_cons_of_pos here
                rw [replaced, only]
                dsimp only
                have past : r.pat.length - 1 = body.length := by
                  rw [pattern, List.length_cons, Nat.add_sub_cancel]
                rw [past, List.drop_left]
                refine congrArg (r.val.map inserted ++ ·) (ih rest ?_ _ ?_)
                · rw [List.length_append] at shorter
                  omega
                · intro occurrence mem
                  refine stand occurrence ?_
                  rw [finds]
                  exact List.mem_cons_of_mem _ mem
              · have misses : ¬ r.pat.isPrefixOf (((a, some p) ::
                    substitute Prod.fst inserted rules (marked (p + 1) text)).map Prod.fst) = true := by
                  intro starts
                  have occurrence : ((a, some p) ::
                      substitute Prod.fst inserted rules (marked (p + 1) text)).take r.pat.length ∈
                      found Prod.fst ((a, some p) ::
                        substitute Prod.fst inserted rules (marked (p + 1) text)) r := by
                    unfold found
                    rw [foundFrom, if_pos starts]
                    exact List.mem_cons_self
                  have stands := prefix_of_stands letters starts headed.length_pos
                    (stand _ occurrence)
                  exact here (List.isPrefixOf_iff_prefix.mpr stands)
                have none : ([r].find? fun r => r.pat.isPrefixOf (a :: text)) = none :=
                  List.find?_cons_of_neg here
                rw [replace_cons_of_not _ _ misses, none]
                refine congrArg ((a, some p) :: ·) (ih text shorter (p + 1) ?_)
                intro occurrence mem
                refine stand occurrence ?_
                rwa [found_cons_of_not _ _ misses]

end MarkedTexts

/-! ### One after the other and all at once -/

/-- The marked text after some passes. -/
abbrev passed (text : List α) (rules : List (Rule α)) : List (Marked α) :=
  after (replace Prod.fst inserted) (marked 0 text) rules

/-- The marked text with some rules substituted. -/
abbrev substituted (text : List α) (rules : List (Rule α)) : List (Marked α) :=
  substitute Prod.fst inserted rules (marked 0 text)

theorem substitute_no_rules (l : List (Marked α)) : substitute Prod.fst inserted [] l = l := by
  induction l with
  | nil => rfl
  | cons b l ih => exact congrArg (b :: ·) ih

/-- The passes find only what stands in the text just where they would in the text with
the rules before them substituted; and then they do what the substitution does. -/
theorem passed_exact {sigil : α} (text : List α) (rules : List (Rule α))
    (headed : ∀ r ∈ rules, r.Headed sigil) :
    (Stepwise (fun done r => AllStand (passed text done) r) rules ↔
        Stepwise (fun done r => AllStand (substituted text done) r) rules) ∧
      (Stepwise (fun done r => AllStand (substituted text done) r) rules →
        passed text rules = substituted text rules) := by
  induction rules using List.reverseRecOn with
  | nil => exact ⟨⟨fun _ => stepwise_nil, fun _ => stepwise_nil⟩,
      fun _ => (substitute_no_rules _).symm⟩
  | append_singleton rules r ih =>
      obtain ⟨same, equal⟩ := ih fun r mem => headed r (List.mem_append_left _ mem)
      rw [stepwise_concat, stepwise_concat]
      constructor
      · constructor
        · rintro ⟨all, last⟩
          have all' := same.mp all
          exact ⟨all', equal all' ▸ last⟩
        · rintro ⟨all, last⟩
          exact ⟨same.mpr all, (equal all).symm ▸ last⟩
      · rintro ⟨all, last⟩
        unfold passed at equal ⊢
        rw [after_concat, equal all]
        exact replace_substitute (fun r mem => headed r (List.mem_append_left _ mem))
          (headed r (List.mem_append_right _ List.mem_cons_self)) text 0 last

/-- Without the marks, the passes are those over the text itself. -/
theorem map_fst_passed (text : List α) (rules : List (Rule α)) :
    (passed text rules).map Prod.fst = after (replace id id) text rules := by
  induction rules using List.reverseRecOn with
  | nil => exact map_fst_marked 0 text
  | append_singleton rules r ih =>
      unfold passed at ih ⊢
      rw [after_concat, after_concat, replace_map (fun _ => rfl), ih]

theorem map_fst_substituted (text : List α) (rules : List (Rule α)) :
    (substituted text rules).map Prod.fst = substitute id id rules text := by
  unfold substituted
  rw [substitute_map (fun _ => rfl), map_fst_marked]

end Echo.Lib.Substitution
