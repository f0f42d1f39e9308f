import Echo.Link.Redact

/-!
A line with its credential left open. The lines of a slot differ only in the
credential, and `redact` returns one text for all of them exactly when one and the
same rule cuts them all before it.
-/

namespace Echo

open Echo.Lib

/-! ### The words of a message -/

/-- The words that decide whether a message carries a credential. -/
def vocabulary : List String := SECRET_CMDS ++ ["ns", "nickserv", "set", "password"]

/-- A word that decides nothing. -/
def Inert (w : List Char) : Prop := ∀ v ∈ vocabulary, lowercase w ≠ v.toList

theorem inert_nil : Inert [] := by
  unfold Inert
  decide

theorem inert_of_colon {w : List Char} (mem : ':' ∈ w) : Inert w := by
  intro v known same
  have spelled : ':' ∈ v.toList := by
    rw [← same]
    exact List.mem_map.mpr ⟨':', mem, by decide⟩
  have plain : ∀ v ∈ vocabulary, ':' ∉ v.toList := by decide
  exact plain v known spelled

theorem inert_cons {x : Char} (rare : x = 'x' ∨ x = 'z') (w : List Char) : Inert (x :: w) := by
  intro v known same
  have first : v.toList.head? = some x.toLower := by
    rw [← same]
    rfl
  have plain : ∀ v ∈ vocabulary, v.toList.head? ≠ some 'x' ∧ v.toList.head? ≠ some 'z' := by decide
  rcases rare with rfl | rfl
  · exact (plain v known).1 first
  · exact (plain v known).2 first

theorem secretCommand_inert {w : List Char} (inert : Inert w) (ws : List (List Char)) :
    secretCommand (lowercase w) ws = false := by
  have listed : SECRET_CMDS.any (·.toList == lowercase w) = false := by
    rw [List.any_eq_false]
    intro v known
    have differs := inert v (List.mem_append_left _ known)
    simpa using Ne.symm differs
  have set : (lowercase w == "set".toList) = false := beq_false_of_ne (inert "set" (by decide))
  unfold secretCommand
  rw [listed, set]
  rfl

theorem secretCommand_cons_inert {w : List Char} (inert : Inert w) (cmd : List Char)
    (ws : List (List Char)) : secretCommand cmd (w :: ws) = secretCommand cmd [] := by
  have password : (lowercase w == "password".toList) = false :=
    beq_false_of_ne (inert "password" (by decide))
  unfold secretCommand
  simp only [List.head?_cons, Option.any_some, password, List.head?_nil, Option.any_none]

/-- Whether a word asks for the one after it. -/
def unwraps (w : List Char) : Prop :=
  (lowercase w == "ns".toList || lowercase w == "nickserv".toList) = true

theorem secretWords_unwraps {a : List Char} (ns : unwraps a) (ws : List (List Char)) :
    secretWords (a :: ws) = secretCommand (lowercase (ws.headD [])) ws.tail := if_pos ns

theorem secretWords_cons {a : List Char} (ns : ¬ unwraps a) (ws : List (List Char)) :
    secretWords (a :: ws) = secretCommand (lowercase a) ws := if_neg ns

/-- Words after one that decides nothing decide nothing either. -/
theorem secretWords_inert {w : List Char} (inert : Inert w) (before after : List (List Char)) :
    secretWords (before ++ w :: after) = secretWords before := by
  rcases before with _ | ⟨a, before⟩
  · have ns : ¬ unwraps w := by
      unfold unwraps
      rw [beq_false_of_ne (inert "ns" (by decide)), beq_false_of_ne (inert "nickserv" (by decide))]
      simp
    rw [List.nil_append, secretWords_cons ns, secretCommand_inert inert]
    rfl
  · rw [List.cons_append]
    by_cases ns : unwraps a
    · rw [secretWords_unwraps ns, secretWords_unwraps ns]
      rcases before with _ | ⟨b, _ | ⟨c, before⟩⟩
      · exact (secretCommand_inert inert after).trans (secretCommand_inert inert_nil []).symm
      · exact secretCommand_cons_inert inert (lowercase b) after
      · rfl
    · rw [secretWords_cons ns, secretWords_cons ns]
      rcases before with _ | ⟨b, before⟩
      · exact secretCommand_cons_inert inert (lowercase a) after
      · rfl

theorem secretCommand_append {cmd : List Char} {ws : List (List Char)}
    (secret : secretCommand cmd ws = true) (more : List (List Char)) :
    secretCommand cmd (ws ++ more) = true := by
  unfold secretCommand at *
  cases ws with
  | nil =>
      simp only [List.head?_nil, Option.any_none, Bool.and_false, Bool.or_false] at secret
      rw [secret, Bool.true_or]
  | cons w ws => exact secret

/-- A command that carries a credential does so whatever follows. -/
theorem secretWords_append {ws : List (List Char)} (secret : secretWords ws = true)
    (more : List (List Char)) : secretWords (ws ++ more) = true := by
  cases ws with
  | nil => exact absurd secret (by decide)
  | cons a ws =>
      rw [List.cons_append]
      by_cases ns : unwraps a
      · rw [secretWords_unwraps ns] at secret ⊢
        cases ws with
        | nil => exact absurd secret (by simp [secretCommand_inert inert_nil])
        | cons b ws => exact secretCommand_append secret more
      · rw [secretWords_cons ns] at secret ⊢
        exact secretCommand_append secret more

/-! ### Rules on the front of a line -/

section Front

variable {front kept rest : List Char} {mark : Char}

/-- The front of a text up to a blank or a colon says whether the whole is a secret. -/
theorem secretWords_front (marked : isWhitespace mark = true ∨ mark = ':')
    (secret : secretWords (words isWhitespace (front ++ [mark])) = true) (more : List Char) :
    secretWords (words isWhitespace (front ++ [mark] ++ more)) = true := by
  rw [List.append_assoc, List.singleton_append]
  rcases marked with blank | rfl
  · rw [words_append_blank blank]
    exact secretWords_append secret _
  · obtain ⟨before, parts⟩ := @words_append_solid _ isWhitespace ':' rfl front
    obtain ⟨w, after, mem, same⟩ := parts []
    obtain ⟨w', after', mem', same'⟩ := parts more
    rw [same, secretWords_inert (inert_of_colon mem)] at secret
    rw [same', secretWords_inert (inert_of_colon mem')]
    exact secret

/-- A word that starts with a rare letter adds nothing to the front. -/
theorem secretWords_rare {x : Char} (rare : x = 'x' ∨ x = 'z')
    (marked : isWhitespace mark = true ∨ mark = ':') (more : List Char) :
    secretWords (words isWhitespace (front ++ [mark] ++ x :: more)) =
      secretWords (words isWhitespace (front ++ [mark])) := by
  rw [List.append_assoc, List.singleton_append]
  rcases marked with blank | rfl
  · have solid : isWhitespace x = false := by rcases rare with rfl | rfl <;> rfl
    obtain ⟨v, after, same⟩ := words_cons_solid solid more
    rw [words_append_blank blank, same]
    exact secretWords_inert (inert_cons rare v) _ after
  · obtain ⟨before, parts⟩ := @words_append_solid _ isWhitespace ':' rfl front
    obtain ⟨w, after, mem, same⟩ := parts []
    obtain ⟨w', after', mem', same'⟩ := parts (x :: more)
    rw [same, same', secretWords_inert (inert_of_colon mem),
      secretWords_inert (inert_of_colon mem')]

namespace Rule

variable {rule rule' : Rule} {line : List Char}

/-- What the part that a rule keeps ends in. -/
def ending : Rule → List Char
  | .trailer _ => " :".toList
  | .authenticate => "AUTHENTICATE ".toList
  | .sasl mode => mode.toList

theorem split_eq (h : rule.split line = some (kept, rest)) :
    line = kept ++ rest ∧ rule.ending <:+ kept := by
  cases rule with
  | trailer kw =>
      obtain ⟨⟨before, after⟩, verb, h⟩ := Option.bind_eq_some_iff.mp h
      obtain ⟨⟨params, text⟩, colon, h⟩ := Option.bind_eq_some_iff.mp h
      cases h
      constructor
      · rw [splitOnce_eq verb, splitOnce_eq colon]
        simp only [List.append_assoc]
      · refine ⟨before ++ (kw.toList ++ params), ?_⟩
        rw [List.append_assoc, List.append_assoc]
        rfl
  | authenticate =>
      obtain ⟨⟨before, data⟩, verb, h⟩ := Option.bind_eq_some_iff.mp h
      cases h
      refine ⟨?_, before, rfl⟩
      rw [splitOnce_eq verb, List.append_assoc]
  | sasl mode =>
      obtain ⟨⟨before, after⟩, verb, h⟩ := Option.bind_eq_some_iff.mp h
      obtain ⟨⟨params, data⟩, moded, h⟩ := Option.bind_eq_some_iff.mp h
      cases h
      constructor
      · rw [splitOnce_eq verb, splitOnce_eq moded, List.append_assoc, List.append_assoc]
      · exact ⟨before ++ params, List.append_assoc before params mode.toList⟩

/-- A rule that finds its place in the front of a line finds it in the line. -/
theorem split_append (h : rule.split front = some (kept, rest)) (more : List Char) :
    rule.split (front ++ more) = some (kept, rest ++ more) := by
  cases rule with
  | trailer kw =>
      obtain ⟨⟨before, after⟩, verb, h⟩ := Option.bind_eq_some_iff.mp h
      obtain ⟨⟨params, text⟩, colon, h⟩ := Option.bind_eq_some_iff.mp h
      cases h
      refine Option.bind_eq_some_iff.mpr ⟨_, splitOnce_append verb more, ?_⟩
      exact Option.bind_eq_some_iff.mpr ⟨_, splitOnce_append colon more, rfl⟩
  | authenticate =>
      obtain ⟨⟨before, data⟩, verb, h⟩ := Option.bind_eq_some_iff.mp h
      cases h
      exact Option.bind_eq_some_iff.mpr ⟨_, splitOnce_append verb more, rfl⟩
  | sasl mode =>
      obtain ⟨⟨before, after⟩, verb, h⟩ := Option.bind_eq_some_iff.mp h
      obtain ⟨⟨params, data⟩, moded, h⟩ := Option.bind_eq_some_iff.mp h
      cases h
      refine Option.bind_eq_some_iff.mpr ⟨_, splitOnce_append verb more, ?_⟩
      refine Option.bind_eq_some_iff.mpr ⟨(params, rest ++ more), ?_, rfl⟩
      rw [← List.append_assoc]
      exact splitOnce_append moded more

/-- The mode of a relayed exchange stands after the verb. -/
theorem mode_after_verb {mode : String} (known : .sasl mode ∈ rules) {after params data : List Char}
    (moded : splitOnce mode.toList (" SASL ".toList ++ after) = some (params, data)) :
    " SASL ".toList.length < params.length + mode.toList.length := by
  by_contra early
  obtain ⟨data', within, -⟩ := splitOnce_of_append moded (not_lt.mp early)
  have absent : ∀ rule ∈ rules, ∀ mode, rule = .sasl mode →
      splitOnce mode.toList " SASL ".toList = none := by
    simp only [rules, List.forall_mem_cons]
    simp
    decide
  rw [absent _ known mode rfl] at within
  contradiction

/-- A rule that keeps no more than the front of a line found its place there. -/
theorem split_of_append (known : rule ∈ rules) {more : List Char}
    (h : rule.split (front ++ more) = some (kept, rest)) (fits : kept.length ≤ front.length) :
    ∃ rest', rule.split front = some (kept, rest') ∧ rest = rest' ++ more := by
  cases rule with
  | trailer kw =>
      obtain ⟨⟨before, after⟩, verb, h⟩ := Option.bind_eq_some_iff.mp h
      obtain ⟨⟨params, text⟩, colon, h⟩ := Option.bind_eq_some_iff.mp h
      cases h
      simp only [List.length_append] at fits
      obtain ⟨after', verb', rfl⟩ := splitOnce_of_append verb (by omega)
      have lengths := congrArg List.length (splitOnce_eq verb')
      simp only [List.length_append] at lengths
      obtain ⟨text', colon', rfl⟩ := splitOnce_of_append colon (by omega)
      refine ⟨text', ?_, rfl⟩
      refine Option.bind_eq_some_iff.mpr ⟨_, verb', ?_⟩
      exact Option.bind_eq_some_iff.mpr ⟨_, colon', rfl⟩
  | authenticate =>
      obtain ⟨⟨before, data⟩, verb, h⟩ := Option.bind_eq_some_iff.mp h
      cases h
      simp only [List.length_append] at fits
      obtain ⟨data', verb', rfl⟩ := splitOnce_of_append verb fits
      exact ⟨data', Option.bind_eq_some_iff.mpr ⟨_, verb', rfl⟩, rfl⟩
  | sasl mode =>
      obtain ⟨⟨before, after⟩, verb, h⟩ := Option.bind_eq_some_iff.mp h
      obtain ⟨⟨params, data⟩, moded, h⟩ := Option.bind_eq_some_iff.mp h
      cases h
      simp only [List.length_append] at fits
      have later := mode_after_verb known moded
      obtain ⟨after', verb', rfl⟩ := splitOnce_of_append verb (by omega)
      have lengths := congrArg List.length (splitOnce_eq verb')
      simp only [List.length_append] at lengths
      rw [← List.append_assoc] at moded
      obtain ⟨data', moded', rfl⟩ := splitOnce_of_append moded (by
        simp only [List.length_append]
        omega)
      refine ⟨data', ?_, rfl⟩
      refine Option.bind_eq_some_iff.mpr ⟨_, verb', ?_⟩
      exact Option.bind_eq_some_iff.mpr ⟨_, moded', rfl⟩

/-- What is logged before the marker. -/
def core : Rule → List Char → List Char
  | .trailer _, kept => trimEnd " :".toList kept ++ " :".toList
  | _, kept => kept

theorem scrub_eq (rule : Rule) (kept : List Char) : rule.scrub kept = rule.core kept ++ marker := by
  cases rule with
  | trailer kw => exact (List.append_assoc _ _ _).symm
  | authenticate => rfl
  | sasl mode => rfl

theorem ending_core (ends : rule.ending <:+ kept) : rule.ending <:+ rule.core kept := by
  cases rule with
  | trailer kw => exact List.suffix_append _ _
  | authenticate => exact ends
  | sasl mode => exact ends

/-- Of what a rule keeps, it logs all but the ` :` that repeats at the end. -/
theorem kept_core (ends : rule.ending <:+ kept) :
    ∃ n, kept = rule.core kept ++ (List.replicate n " :".toList).flatten ∧
      (n = 0 ∨ ∃ kw, rule = .trailer kw) := by
  cases rule with
  | trailer kw =>
      obtain ⟨before, same⟩ := ends
      change before ++ " :".toList = kept at same
      obtain ⟨n, repeats⟩ := trimEnd_append " :".toList before
      refine ⟨n, ?_, .inr ⟨kw, rfl⟩⟩
      have trimmed : trimEnd " :".toList kept = trimEnd " :".toList before := by
        rw [← same, trimEnd_concat (by decide)]
      change kept = trimEnd " :".toList kept ++ " :".toList ++ _
      rw [trimmed, List.append_assoc, ← List.flatten_cons, ← List.replicate_succ,
        List.replicate_succ', List.flatten_append, ← List.append_assoc, ← repeats, ← same]
      simp
  | authenticate => exact ⟨0, (List.append_nil kept).symm, .inl rfl⟩
  | sasl mode => exact ⟨0, (List.append_nil kept).symm, .inl rfl⟩

def isTrailer : Rule → Bool
  | .trailer _ => true
  | _ => false

/-- What is logged tells the rule, but for the verb of a message. -/
theorem eq_of_ending (known : rule ∈ rules) (known' : rule' ∈ rules) {text : List Char}
    (ends : rule.ending <:+ text) (ends' : rule'.ending <:+ text) :
    rule = rule' ∨ rule.isTrailer = true ∧ rule'.isTrailer = true := by
  have told : ∀ rule ∈ rules, ∀ rule' ∈ rules, rule.ending <:+ rule'.ending →
      rule = rule' ∨ rule.isTrailer = true ∧ rule'.isTrailer = true := by
    decide
  rcases List.suffix_or_suffix_of_suffix ends ends' with shorter | shorter
  · exact told rule known rule' known' shorter
  · exact (told rule' known' rule known shorter).imp Eq.symm And.symm

end Rule

end Front

/-! ### Slots -/

/-- An event with its credential left open. -/
inductive Shape where
  | privmsg (sender target before after : List Char) (msgid : Option (List Char))
  | sasl (client agent : List Char) (rest : List (List Char))
  | accountRequest (reqid origin kind account p2 : List Char)

def Shape.event : Shape → List Char → NetEvent
  | .privmsg sender target before after msgid, c =>
      .privmsg sender target (before ++ c ++ after) msgid
  | .sasl client agent rest, c => .sasl client agent "C".toList (c :: rest)
  | .accountRequest reqid origin kind account p2, c =>
      .accountRequest reqid origin kind account p2 c

/-- Letters and digits, and at least one. -/
def IsWord (c : List Char) : Prop := c ≠ [] ∧ ∀ x ∈ c, x.isAlphanum = true

/-- A line whose credential, which follows a blank or a colon, is left open: with any
word in its place it is parsed into the one event with that credential. -/
structure Slot (uid : List Char) where
  before : List Char
  mark : Char
  after : List Char
  shape : Shape
  marked : isWhitespace mark = true ∨ mark = ':'
  takes : ∀ c, IsWord c → parse (before ++ [mark] ++ (c ++ after)) = [shape.event c] ∧
    credential uid (shape.event c) = some c

theorem Rule.applies_iff {rule : Rule} {line : List Char} :
    rule.applies line = true ↔
      ∃ kept rest, rule.split line = some (kept, rest) ∧ rule.secret rest = true := by
  unfold applies
  rcases rule.split line with _ | ⟨kept, rest⟩ <;> simp

/-- The first rule to apply cuts the line. -/
theorem cut_of_first {rule : Rule} {line : List Char}
    (first : rules.find? (·.applies line) = some rule) :
    ∃ kept rest, rule.split line = some (kept, rest) ∧ rule.secret rest = true ∧
      redact line = rule.scrub kept := by
  have applies : rule.applies line = true := List.find?_some (p := fun rule : Rule => rule.applies line) first
  obtain ⟨kept, rest, cut, secret⟩ := Rule.applies_iff.mp applies
  refine ⟨kept, rest, cut, secret, ?_⟩
  unfold redact
  rw [first]
  dsimp only
  rw [cut]
  rfl

namespace Slot

variable {uid : List Char} (s : Slot uid)

def lead : List Char := s.before ++ [s.mark]

/-- The line with the credential in its place. -/
def line (c : List Char) : List Char := s.lead ++ (c ++ s.after)

/-- The line is one of the slot's: the credential stays the credential. -/
def Holds (c : List Char) : Prop :=
  parse (s.line c) = [s.shape.event c] ∧ credential uid (s.shape.event c) = some c

/-- One rule is the first to apply, whatever the credential is, and it finds its
place before the credential. -/
def Sealed : Prop :=
  ∃ rule, (rule.split s.lead).isSome = true ∧
    ∀ c, s.Holds c → rules.find? (·.applies (s.line c)) = some rule

variable {s} {rule : Rule} {kept rest c : List Char} {x : Char}

theorem redact_first (first : rules.find? (·.applies (s.line c)) = some rule)
    (place : rule.split s.lead = some (kept, rest)) : redact (s.line c) = rule.scrub kept := by
  obtain ⟨kept', rest', cut, -, logged⟩ := cut_of_first first
  unfold line at cut
  rw [Rule.split_append place] at cut
  cases cut
  exact logged

/-- With a rare letter for a credential, either a rule cuts before it or it shows. -/
theorem cut_or_shown (rare : x = 'x' ∨ x = 'z') :
    (∃ rule kept rest, rules.find? (·.applies (s.line [x])) = some rule ∧
        rule.split s.lead = some (kept, rest)) ∨
      (redact (s.line [x]))[s.lead.length]? = some x := by
  have there : (s.line [x])[s.lead.length]? = some x := by
    unfold line
    rw [List.getElem?_append_right (Nat.le_refl _), Nat.sub_self]
    rfl
  cases first : rules.find? (·.applies (s.line [x])) with
  | none =>
      right
      unfold redact
      rw [first]
      exact there
  | some rule =>
      have known := List.mem_of_find?_eq_some first
      obtain ⟨kept, rest, cut, -, logged⟩ := cut_of_first first
      by_cases fits : kept.length ≤ s.lead.length
      · obtain ⟨rest', place, -⟩ := Rule.split_of_append known cut fits
        exact .inl ⟨rule, kept, rest', rfl, place⟩
      · right
        obtain ⟨whole, ends⟩ := Rule.split_eq cut
        obtain ⟨n, repeats, -⟩ := Rule.kept_core ends
        have inKept : kept[s.lead.length]? = some x := by
          rw [whole, List.getElem?_append_left (by omega)] at there
          exact there
        rw [logged, Rule.scrub_eq]
        by_cases inCore : s.lead.length < (rule.core kept).length
        · rw [List.getElem?_append_left inCore]
          rw [repeats, List.getElem?_append_left inCore] at inKept
          exact inKept
        · -- What is trimmed is made of colons and spaces.
          rw [repeats, List.getElem?_append_right (by omega)] at inKept
          have mem := List.mem_of_getElem? inKept
          obtain ⟨pat, repeated, inPat⟩ := List.mem_flatten.mp mem
          rw [List.eq_of_mem_replicate repeated] at inPat
          rcases rare with rfl | rfl
          · exact absurd inPat (by decide)
          · exact absurd inPat (by decide)

/-- What a message rule finds before the credential decides for every credential. -/
theorem secret_trailer {kw : String} (rare : x = 'x' ∨ x = 'z')
    (place : (Rule.trailer kw).split s.lead = some (kept, rest))
    (secret : (Rule.trailer kw).secret (rest ++ x :: s.after) = true) (more : List Char) :
    (Rule.trailer kw).secret (rest ++ more) = true := by
  have whole : s.before ++ [s.mark] = kept ++ rest := (Rule.split_eq place).1
  change secretWords (words isWhitespace (rest ++ x :: s.after)) = true at secret
  change secretWords (words isWhitespace (rest ++ more)) = true
  rcases List.eq_nil_or_concat rest with rfl | ⟨front, b, rfl⟩
  · have solid : isWhitespace x = false := by rcases rare with rfl | rfl <;> rfl
    obtain ⟨v, after, same⟩ := words_cons_solid solid s.after
    rw [List.nil_append, same, ← List.nil_append (_ :: after),
      secretWords_inert (inert_cons rare v)] at secret
    exact absurd secret (by decide)
  · rw [List.concat_eq_append] at whole secret ⊢
    rw [← List.append_assoc] at whole
    obtain ⟨-, same⟩ := List.append_inj' whole rfl
    cases same
    rw [secretWords_rare rare s.marked] at secret
    exact secretWords_front s.marked secret more

theorem not_secret_colon {kw : String} {text : List Char} (goesOn : " :".toList <+: text) :
    (Rule.trailer kw).secret text = false := by
  obtain ⟨more, rfl⟩ := goesOn
  obtain ⟨v, after, same⟩ := @words_cons_solid _ isWhitespace ':' rfl more
  have colon : words isWhitespace (" :".toList ++ more) = words isWhitespace (':' :: more) := rfl
  change secretWords (words isWhitespace (" :".toList ++ more)) = false
  rw [colon, same, ← List.nil_append (_ :: after), secretWords_inert (inert_of_colon (by simp))]
  decide

/-- A credential that is logged like a rare letter which a rule cuts off is cut off
by the same rule. -/
theorem first_of_same (rare : x = 'x' ∨ x = 'z')
    (first : rules.find? (·.applies (s.line [x])) = some rule)
    (place : rule.split s.lead = some (kept, rest)) (same : redact (s.line c) = rule.scrub kept) :
    rules.find? (·.applies (s.line c)) = some rule := by
  have known := List.mem_of_find?_eq_some first
  obtain ⟨whole, ends⟩ := Rule.split_eq place
  have cutRare := Rule.split_append place ([x] ++ s.after)
  have cut := Rule.split_append place (c ++ s.after)
  have secretRare : rule.secret (rest ++ x :: s.after) = true := by
    obtain ⟨kept', rest', cut', secret', -⟩ := cut_of_first first
    unfold line at cut'
    rw [cutRare] at cut'
    cases cut'
    exact secret'
  have applies (trailer : rule.isTrailer = true) : rule.applies (s.line c) = true := by
    cases rule with
    | trailer kw =>
        unfold Rule.applies line
        rw [cut]
        exact secret_trailer rare place secretRare _
    | _ => contradiction
  cases first' : rules.find? (·.applies (s.line c)) with
  | none =>
      exfalso
      have never : rule.applies (s.line c) = false := by
        simpa using List.find?_eq_none.mp first' rule known
      have unchanged : redact (s.line c) = s.line c := by
        unfold redact
        rw [first']
      rw [unchanged] at same
      cases trailer : rule.isTrailer with
      | true =>
          rw [applies trailer] at never
          contradiction
      | false =>
          -- What is cut off would have to be the marker, which is cut off too.
          have marked : rest ++ (c ++ s.after) = Rule.marker := by
            unfold line at same
            rw [whole, List.append_assoc] at same
            cases rule with
            | trailer kw => contradiction
            | authenticate => exact List.append_cancel_left same
            | sasl mode => exact List.append_cancel_left same
          have secret : rule.secret Rule.marker = true := by
            cases rule with
            | trailer kw => contradiction
            | authenticate => decide
            | sasl mode => exact (by decide : (Rule.sasl "").secret Rule.marker = true)
          unfold Rule.applies line at never
          rw [cut, marked] at never
          exact absurd (never.symm.trans secret) (by simp)
  | some rule' =>
      have known' := List.mem_of_find?_eq_some first'
      obtain ⟨kept', rest', cut', secret', logged⟩ := cut_of_first first'
      obtain ⟨whole', ends'⟩ := Rule.split_eq cut'
      have cores : rule'.core kept' = rule.core kept := by
        rw [logged, Rule.scrub_eq, Rule.scrub_eq] at same
        exact List.append_cancel_right same
      have endsCore' := Rule.ending_core ends'
      rw [cores] at endsCore'
      rcases Rule.eq_of_ending known known' (Rule.ending_core ends) endsCore' with
        rfl | ⟨trailer, trailer'⟩
      · rfl
      · -- Both are message rules, and they cut at one place.
        obtain ⟨n, repeats, -⟩ := Rule.kept_core ends
        obtain ⟨n', repeats', -⟩ := Rule.kept_core ends'
        rw [cores] at repeats'
        have goesOn : (List.replicate n " :".toList).flatten ++ (rest ++ (c ++ s.after)) =
            (List.replicate n' " :".toList).flatten ++ rest' := by
          unfold line at whole'
          rw [whole, repeats, repeats', List.append_assoc, List.append_assoc,
            List.append_assoc] at whole'
          exact List.append_cancel_left whole'
        cases rule with
        | trailer kw =>
            cases rule' with
            | trailer kw' =>
                have once : n = n' := by
                  rcases replicate_append_cancel goesOn with once | more | more
                  · exact once
                  · have secret := secret_trailer rare place secretRare (c ++ s.after)
                    rw [not_secret_colon more] at secret
                    contradiction
                  · rw [not_secret_colon more] at secret'
                    contradiction
                subst once
                rw [← repeats] at repeats'
                subst repeats'
                have fits : kept'.length ≤ s.lead.length := by
                  rw [whole, List.length_append]
                  omega
                unfold line at cut'
                obtain ⟨rest'', place', -⟩ := Rule.split_of_append known' cut' fits
                have same_rest : rest'' = rest :=
                  List.append_cancel_left ((Rule.split_eq place').1.symm.trans whole)
                subst same_rest
                have appliesRare : (Rule.trailer kw').applies (s.line [x]) = true :=
                  Rule.applies_iff.mpr ⟨_, _, Rule.split_append place' _, secretRare⟩
                exact congrArg some (find?_same first' first appliesRare (applies rfl))
            | _ => contradiction
        | _ => contradiction

/-- The lines that differ only in the credential are logged alike exactly when one
rule cuts all of them before it. -/
theorem redact_alike_iff (s : Slot uid) :
    (∀ c c', s.Holds c → s.Holds c' → redact (s.line c) = redact (s.line c')) ↔ s.Sealed := by
  constructor
  · intro alike
    have letter {x : Char} (rare : x = 'x' ∨ x = 'z') : s.Holds [x] := by
      refine s.takes [x] ⟨by simp, ?_⟩
      rcases rare with rfl | rfl <;> simp
    obtain ⟨x, rare, rule, kept, rest, first, place⟩ : ∃ x, (x = 'x' ∨ x = 'z') ∧
        ∃ rule kept rest, rules.find? (·.applies (s.line [x])) = some rule ∧
          rule.split s.lead = some (kept, rest) := by
      rcases cut_or_shown (s := s) (x := 'x') (.inl rfl) with cut | shown
      · exact ⟨'x', .inl rfl, cut⟩
      · rcases cut_or_shown (s := s) (x := 'z') (.inr rfl) with cut | shown'
        · exact ⟨'z', .inr rfl, cut⟩
        · rw [alike _ _ (letter (.inl rfl)) (letter (.inr rfl)), shown'] at shown
          exact absurd shown (by decide)
    refine ⟨rule, by rw [place]; rfl, fun c held => ?_⟩
    refine first_of_same rare first place ?_
    rw [alike c [x] held (letter rare), redact_first first place]
  · rintro ⟨rule, found, first⟩ c c' held held'
    obtain ⟨⟨kept, rest⟩, place⟩ := Option.isSome_iff_exists.mp found
    rw [redact_first (first c held) place, redact_first (first c' held') place]

/-- A message whose verb is written in capitals, behind a source or tags, and whose
text names a listed command before the credential. -/
theorem sealed_of_listed (place : (Rule.trailer " PRIVMSG ").split s.lead = some (kept, rest))
    (listed : secretWords (words isWhitespace rest) = true) : s.Sealed := by
  refine ⟨.trailer " PRIVMSG ", by rw [place]; rfl, fun c _ => ?_⟩
  have whole : s.before ++ [s.mark] = kept ++ rest := (Rule.split_eq place).1
  have applies : (Rule.trailer " PRIVMSG ").applies (s.line c) = true := by
    refine Rule.applies_iff.mpr ⟨_, _, Rule.split_append place _, ?_⟩
    rcases List.eq_nil_or_concat rest with rfl | ⟨front, b, rfl⟩
    · exact absurd listed (by decide)
    · rw [List.concat_eq_append] at whole listed ⊢
      rw [← List.append_assoc] at whole
      obtain ⟨-, same⟩ := List.append_inj' whole rfl
      cases same
      exact secretWords_front s.marked listed _
  unfold rules
  rw [List.find?_cons, applies]

/-- A line in which no rule finds its place before the credential is not. -/
theorem not_sealed_of_no_place (nowhere : ∀ rule ∈ rules, rule.split s.lead = none) :
    ¬ s.Sealed := by
  rintro ⟨rule, found, first⟩
  have held : s.Holds ['x'] := s.takes ['x'] ⟨by simp, by simp⟩
  have known := List.mem_of_find?_eq_some (first ['x'] held)
  rw [nowhere rule known] at found
  contradiction

/-- The lines by which a user drops their account. -/
def dropTyped : Slot [] where
  before := ":u PRIVMSG NickServ :DROP".toList
  mark := ' '
  after := []
  shape := .privmsg "u".toList "NickServ".toList "DROP ".toList [] none
  marked := .inl rfl
  takes c isWord := by
    have tokens : ("PRIVMSG NickServ :DROP ".toList ++ c).splitOn ' ' =
        "PRIVMSG".toList :: "NickServ".toList :: (":DROP ".toList ++ c).splitOn ' ' := by
      have parts : "PRIVMSG NickServ :DROP ".toList ++ c =
          "PRIVMSG".toList ++ ' ' :: ("NickServ".toList ++ ' ' :: (":DROP ".toList ++ c)) := rfl
      rw [parts, List.splitOn_append_cons_self_of_not_mem (by decide),
        List.splitOn_append_cons_self_of_not_mem (by decide)]
    have args : words isWhitespace ("DROP ".toList ++ c) = ["DROP".toList, c] := by
      have parts : words isWhitespace ("DROP ".toList ++ c) =
          "DROP".toList :: words isWhitespace c := rfl
      rw [parts, words_solid isWord.1 fun x mem => isWhitespace_of_alphanum (isWord.2 x mem)]
    rw [List.append_nil, Shape.event, List.append_nil]
    constructor
    · change parseVerb (":u PRIVMSG NickServ :DROP ".toList ++ c) (some "u".toList)
        ("PRIVMSG NickServ :DROP ".toList ++ c) none = _
      unfold parseVerb
      rw [tokens]
      rfl
    · change (passwordAt (words isWhitespace ("DROP ".toList ++ c))).bind
        ((words isWhitespace ("DROP ".toList ++ c))[·]?) = some c
      rw [args]
      rfl

/-- The password with which an account is dropped is logged. -/
theorem drop_logged :
    dropTyped.Holds "hunter22".toList ∧ dropTyped.Holds "letmein1".toList ∧
      redact (dropTyped.line "hunter22".toList) = ":u PRIVMSG NickServ :DROP hunter22".toList ∧
      redact (dropTyped.line "hunter22".toList) ≠ redact (dropTyped.line "letmein1".toList) := by
  refine ⟨dropTyped.takes _ ⟨by decide, forall_of_all (by decide)⟩,
    dropTyped.takes _ ⟨by decide, forall_of_all (by decide)⟩, ?_⟩
  constructor
  · decide +kernel
  · decide +kernel

end Slot

end Echo
