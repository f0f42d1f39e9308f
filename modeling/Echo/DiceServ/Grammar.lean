import Echo.DiceServ.Expr

/-!
The grammar of the expressions, from the loosest level to the tightest, and that the parser
implements it: it accepts a list of tokens with a tree exactly if the whole list is a sum
that stands for the tree. It never has more than six calls open for each token and six more.
-/

namespace Echo.DiceServ

open Echo.Lib Echo.Lib.Chains

variable {N : Type}

inductive Level where
  | sum
  | product
  | signed
  | power
  | dice
  | sides
  | atom
  deriving DecidableEq, Repr

/-- The arguments of a call with commas between them. -/
def joined (first : List (Tok N)) (others : List (List (Tok N) × Ast N)) : List (Tok N) :=
  first ++ others.flatMap fun arg => .comma :: arg.1

/-- What lists of tokens stand for, at each level. -/
inductive Derives (k : Constants N) : Level → List (Tok N) → Ast N → Prop
  | term {ts a} (product : Derives k .product ts a) : Derives k .sum ts a
  | sum {op ts us a b} (additive : op = .add ∨ op = .sub) (left : Derives k .sum ts a)
      (right : Derives k .product us b) : Derives k .sum (ts ++ .op op :: us) (.bin op a b)
  | factor {ts a} (signed : Derives k .signed ts a) : Derives k .product ts a
  | product {op ts us a b} (multiplicative : op = .mul ∨ op = .div ∨ op = .rem)
      (left : Derives k .product ts a) (right : Derives k .signed us b) :
      Derives k .product (ts ++ .op op :: us) (.bin op a b)
  | implicit {ts us a b} (starts : startsAtom us = true) (noDice : isDice us = false)
      (left : Derives k .product ts a) (right : Derives k .signed us b) :
      Derives k .product (ts ++ us) (.bin .mul a b)
  | neg {ts a} (signed : Derives k .signed ts a) : Derives k .signed (.op .sub :: ts) (.neg a)
  | plus {ts a} (signed : Derives k .signed ts a) : Derives k .signed (.op .add :: ts) a
  | unsigned {ts a} (power : Derives k .power ts a) : Derives k .signed ts a
  | base {ts a} (dice : Derives k .dice ts a) : Derives k .power ts a
  | power {ts us a b} (base : Derives k .dice ts a) (exponent : Derives k .signed us b) :
      Derives k .power (ts ++ .op .pow :: us) (.bin .pow a b)
  | value {ts a} (noDice : isDice ts = false) (atom : Derives k .atom ts a) : Derives k .dice ts a
  | die {name us b} (d : isD name = true) (sides : Derives k .sides us b) :
      Derives k .dice (.ident name :: us) (.dice (.num k.one) b)
  | dice {name ts us a b} (d : isD name = true) (count : Derives k .dice ts a) (sides : Derives k .sides us b) :
      Derives k .dice (ts ++ .ident name :: us) (.dice a b)
  | percent : Derives k .sides [.op .rem] (.num k.hundred)
  | sides {ts a} (atom : Derives k .atom ts a) : Derives k .sides ts a
  | num {n} : Derives k .atom [.num n] (.num n)
  | parens {ts a} (sum : Derives k .sum ts a) : Derives k .atom (.lparen :: (ts ++ [.rparen])) a
  | e {name} (named : toAsciiLowercase name = "e") : Derives k .atom [.ident name] (.num k.e)
  | pi {name} (named : toAsciiLowercase name = "pi") : Derives k .atom [.ident name] (.num k.pi)
  | func {name first a others} (notE : toAsciiLowercase name ≠ "e") (notPi : toAsciiLowercase name ≠ "pi")
      (arg : Derives k .sum first a) (args : ∀ arg ∈ others, Derives k .sum arg.1 arg.2) :
      Derives k .atom (.ident name :: .lparen :: (joined first others ++ [.rparen]))
        (.func (toAsciiLowercase name) (a :: others.map (·.2)))

variable {k : Constants N}

theorem Derives.ne_nil {l : Level} {ts : List (Tok N)} {a : Ast N} (derives : Derives k l ts a) : ts ≠ [] := by
  induction derives <;> simp_all

@[simp] theorem startsAtom_append {ts rest : List (Tok N)} (some : ts ≠ []) :
    startsAtom (ts ++ rest) = startsAtom ts := by
  cases ts with
  | nil => exact absurd rfl some
  | cons t ts => cases t <;> rfl

@[simp] theorem isDice_append {ts rest : List (Tok N)} (some : ts ≠ []) : isDice (ts ++ rest) = isDice ts := by
  cases ts with
  | nil => exact absurd rfl some
  | cons t ts => cases t <;> rfl

/-! ### What the parser accepts -/

/-- What a function of the parser reads is a phrase of its level. -/
def Sound (k : Constants N) (l : Level) (read : List (Tok N) → Except Failure (Ast N × List (Tok N))) : Prop :=
  ∀ {toks a rest}, read toks = .ok (a, rest) → ∃ ts, toks = ts ++ rest ∧ Derives k l ts a

section Sound

variable {read : List (Tok N) → Except Failure (Ast N × List (Tok N))} {frames : Nat}

theorem addNext_grows (sound : Sound k .product read) : Grows (Derives k .sum) (addNext read) where
  grows {rest more rest'} goes := by
    cases rest with
    | nil => cases goes
    | cons t rest =>
      cases t with
      | op op =>
        simp only [addNext, Option.ite_none_right_eq_some, Option.some.injEq, right, map_ok] at goes
        obtain ⟨additive, ⟨b, rest'⟩, reads, ⟨⟩⟩ := goes
        obtain ⟨us, rfl, derives⟩ := sound reads
        exact ⟨.op op :: us, by simp, rfl, fun left => .sum additive left derives⟩
      | _ => cases goes

theorem mulNext_grows (sound : Sound k .signed read) : Grows (Derives k .product) (mulNext read) where
  grows {rest more rest'} goes := by
    rw [mulNext.eq_def] at goes
    split at goes
    · simp only [Option.ite_none_right_eq_some, Option.some.injEq, right, map_ok] at goes
      obtain ⟨multiplicative, ⟨b, rest'⟩, reads, ⟨⟩⟩ := goes
      obtain ⟨us, rfl, derives⟩ := sound reads
      exact ⟨.op _ :: us, by simp, rfl, fun left => .product multiplicative left derives⟩
    · simp only [Option.ite_none_right_eq_some, Option.some.injEq, right, map_ok, Bool.and_eq_true,
        Bool.not_eq_true'] at goes
      obtain ⟨⟨starts, noDice⟩, ⟨b, rest'⟩, reads, ⟨⟩⟩ := goes
      obtain ⟨us, rfl, derives⟩ := sound reads
      rw [startsAtom_append derives.ne_nil] at starts
      rw [isDice_append derives.ne_nil] at noDice
      exact ⟨us, derives.ne_nil, rfl, fun left => .implicit starts noDice left derives⟩

theorem sides_sound (sound : Sound k .atom read) : Sound k .sides (sides k read) := by
  intro toks a rest reads
  rw [sides.eq_def] at reads
  split at reads
  · cases reads
    exact ⟨[.op .rem], rfl, .percent⟩
  · obtain ⟨ts, rfl, derives⟩ := sound reads
    exact ⟨ts, rfl, .sides derives⟩

/-- What a number of dice is read from: nothing, for the one die of a leading `d`. -/
def Counted (k : Constants N) (ts : List (Tok N)) (a : Ast N) : Prop :=
  Derives k .dice ts a ∨ ts = [] ∧ a = .num k.one

theorem diceNext_grows (sound : Sound k .atom read) : Grows (Counted k) (diceNext k read) where
  grows {rest more rest'} goes := by
    rw [diceNext.eq_def] at goes
    split at goes
    · simp only [Option.ite_none_right_eq_some, Option.some.injEq, map_ok] at goes
      obtain ⟨d, ⟨b, rest'⟩, reads, ⟨⟩⟩ := goes
      obtain ⟨us, rfl, derives⟩ := sides_sound sound reads
      refine ⟨.ident _ :: us, by simp, rfl, ?_⟩
      rintro ts a (count | ⟨rfl, rfl⟩)
      · exact .inl (.dice d count derives)
      · exact .inl (.die d derives)
    · cases goes

theorem diceNext_isDice {toks : List (Tok N)} (d : isDice toks = true) : diceNext k read toks ≠ none := by
  cases toks with
  | nil => cases d
  | cons t toks =>
    cases t with
    | ident name => simp_all [diceNext, isDice]
    | _ => cases d

/-- The arguments of a call, and the tokens they are read from. -/
def Arguments (k : Constants N) (ts : List (Tok N)) (args : List (Ast N)) : Prop :=
  ∃ first a others, ts = joined first others ∧ args = a :: others.map (·.2) ∧ Derives k .sum first a ∧
    ∀ arg ∈ others, Derives k .sum arg.1 arg.2

theorem argNext_grows (sound : Sound k .sum read) : Grows (Arguments k) (argNext read) where
  grows {rest more rest'} goes := by
    rw [argNext.eq_def] at goes
    split at goes
    · simp only [Option.some.injEq, map_ok] at goes
      obtain ⟨⟨b, rest'⟩, reads, ⟨⟩⟩ := goes
      obtain ⟨us, rfl, derives⟩ := sound reads
      refine ⟨.comma :: us, by simp, rfl, ?_⟩
      rintro ts args ⟨first, a, others, rfl, rfl, arg, args⟩
      refine ⟨first, a, others ++ [(us, b)], by simp [joined], by simp, arg, ?_⟩
      simp only [List.mem_append, List.mem_singleton]
      rintro arg (mem | rfl)
      · exact args arg mem
      · exact derives
    · cases goes

theorem add_sound (sound : Sound k .product (mul k frames)) : Sound k .sum (add k (frames + 1)) := by
  intro toks a rest reads
  rw [add, bind_ok] at reads
  obtain ⟨⟨left, rest₁⟩, first, reads⟩ := reads
  obtain ⟨ts, rfl, derives⟩ := sound first
  obtain ⟨us, rfl, derives, -⟩ := chain_ok (addNext_grows sound) (.term derives) reads
  exact ⟨ts ++ us, by rw [List.append_assoc], derives⟩

theorem mul_sound (sound : Sound k .signed (unary k frames)) : Sound k .product (mul k (frames + 1)) := by
  intro toks a rest reads
  rw [mul, bind_ok] at reads
  obtain ⟨⟨left, rest₁⟩, first, reads⟩ := reads
  obtain ⟨ts, rfl, derives⟩ := sound first
  obtain ⟨us, rfl, derives, -⟩ := chain_ok (mulNext_grows sound) (.factor derives) reads
  exact ⟨ts ++ us, by rw [List.append_assoc], derives⟩

theorem unary_sound (signed : Sound k .signed (unary k frames)) (power : Sound k .power (pow k frames)) :
    Sound k .signed (unary k (frames + 1)) := by
  intro toks a rest reads
  rw [unary.eq_def] at reads
  simp only at reads
  split at reads
  · obtain ⟨⟨b, rest₁⟩, first, ⟨⟩⟩ := map_ok.mp reads
    obtain ⟨ts, rfl, derives⟩ := signed first
    exact ⟨_ :: ts, rfl, .neg derives⟩
  · obtain ⟨ts, rfl, derives⟩ := signed reads
    exact ⟨_ :: ts, rfl, .plus derives⟩
  · obtain ⟨ts, rfl, derives⟩ := power reads
    exact ⟨ts, rfl, .unsigned derives⟩

theorem pow_sound (dice : Sound k .dice (dice k frames)) (signed : Sound k .signed (unary k frames)) :
    Sound k .power (pow k (frames + 1)) := by
  intro toks a rest reads
  rw [pow, bind_ok] at reads
  obtain ⟨⟨base, rest₁⟩, first, reads⟩ := reads
  obtain ⟨ts, rfl, derives⟩ := dice first
  simp only at reads
  split at reads
  · obtain ⟨⟨more, rest₂⟩, second, ⟨⟩⟩ := map_ok.mp reads
    obtain ⟨⟨exponent, rest₂⟩, second, ⟨⟩⟩ := map_ok.mp second
    obtain ⟨us, rfl, derives'⟩ := signed second
    exact ⟨ts ++ .op .pow :: us, by simp, .power derives derives'⟩
  · cases reads
    exact ⟨ts, rfl, .base derives⟩

theorem dice_sound (sound : Sound k .atom (atom k frames)) : Sound k .dice (dice k (frames + 1)) := by
  intro toks a rest reads
  rw [dice, bind_ok] at reads
  obtain ⟨⟨left, rest₁⟩, first, reads⟩ := reads
  rw [count] at first
  split at first
  · cases first
    obtain ⟨us, rfl, derives | ⟨rfl, rfl⟩, stops⟩ := chain_ok (diceNext_grows sound) (.inr ⟨rfl, rfl⟩) reads
    · exact ⟨us, rfl, derives⟩
    · exact absurd stops (diceNext_isDice ‹_›)
  · obtain ⟨ts, rfl, derives⟩ := sound first
    rename_i noDice
    rw [isDice_append derives.ne_nil, Bool.not_eq_true] at noDice
    obtain ⟨us, rfl, derives | ⟨none, -⟩, -⟩ :=
      chain_ok (diceNext_grows sound) (.inl (.value noDice derives)) reads
    · exact ⟨ts ++ us, by rw [List.append_assoc], derives⟩
    · exact absurd none (by simp [derives.ne_nil])

theorem call_sound {lname name : String} (sound : Sound k .sum read) {toks rest : List (Tok N)} {a : Ast N}
    (reads : call lname name read toks = .ok (a, rest)) :
    ∃ ts args, toks = .lparen :: (ts ++ .rparen :: rest) ∧ Arguments k ts args ∧ a = .func lname args := by
  rw [call.eq_def] at reads
  split at reads
  · obtain ⟨⟨first, rest₁⟩, begins, goesOn⟩ := bind_ok.mp reads
    obtain ⟨ts, rfl, derives⟩ := sound begins
    obtain ⟨⟨args, rest₂⟩, goes, closes⟩ := bind_ok.mp goesOn
    have arguments : Arguments k ts [first] := ⟨ts, first, [], by simp [joined], rfl, derives, by simp⟩
    obtain ⟨us, rfl, arguments, -⟩ := chain_ok (argNext_grows sound) arguments goes
    split at closes
    · rename_i same
      cases same
      cases closes
      exact ⟨ts ++ us, args, by simp, arguments, rfl⟩
    · cases closes
  · cases reads

theorem atom_sound (sound : Sound k .sum (add k frames)) : Sound k .atom (atom k (frames + 1)) := by
  intro toks a rest reads
  rw [atom.eq_def] at reads
  simp only at reads
  split at reads
  · cases reads
    exact ⟨[.num _], rfl, .num⟩
  · obtain ⟨⟨e, rest₁⟩, first, closes⟩ := bind_ok.mp reads
    obtain ⟨ts, rfl, derives⟩ := sound first
    split at closes
    · rename_i same
      cases same
      cases closes
      exact ⟨.lparen :: (ts ++ [.rparen]), by simp, .parens derives⟩
    · cases closes
  · split at reads
    · cases reads
      exact ⟨[.ident _], rfl, .e ‹_›⟩
    · split at reads
      · cases reads
        exact ⟨[.ident _], rfl, .pi ‹_›⟩
      · obtain ⟨_, _, rfl, ⟨first, b, others, rfl, rfl, arg, args⟩, rfl⟩ := call_sound sound reads
        exact ⟨_ :: .lparen :: (joined first others ++ [.rparen]), by simp, .func ‹_› ‹_› arg args⟩
  · cases reads

end Sound

/-- The functions of the parser with so many calls. -/
structure AllSound (k : Constants N) (frames : Nat) : Prop where
  add : Sound k .sum (add k frames)
  mul : Sound k .product (mul k frames)
  unary : Sound k .signed (unary k frames)
  pow : Sound k .power (pow k frames)
  dice : Sound k .dice (dice k frames)
  atom : Sound k .atom (atom k frames)

theorem sound (k : Constants N) (frames : Nat) : AllSound k frames := by
  induction frames with
  | zero =>
    have none {l : Level} {read} (fails : ∀ toks, read toks = .error .frames) : Sound k l read :=
      fun {toks} _ _ reads => by rw [fails toks] at reads; cases reads
    exact ⟨none fun _ => by rw [add], none fun _ => by rw [mul], none fun _ => by rw [unary],
      none fun _ => by rw [pow], none fun _ => by rw [dice], none fun _ => by rw [atom]⟩
  | succ frames ih =>
    exact ⟨add_sound ih.mul, mul_sound ih.unary, unary_sound ih.unary ih.pow, pow_sound ih.dice ih.unary,
      dice_sound ih.atom, atom_sound ih.add⟩

/-! ### What it does not leave out -/

/-- Nothing is read on behind a power, -/
def endsPower : List (Tok N) → Bool
  | .op .pow :: _ => false
  | rest => !isDice rest

/-- behind a product -/
def endsProduct : List (Tok N) → Bool
  | .op op :: _ => op = .add ∨ op = .sub
  | rest => !startsAtom rest

/-- or behind a sum. -/
def endsSum : List (Tok N) → Bool
  | .op _ :: _ => false
  | rest => !startsAtom rest

/-- A function reads a phrase whatever comes behind it, if it ends there. -/
def Complete (read : Nat → List (Tok N) → Except Failure (Ast N × List (Tok N))) (ends : List (Tok N) → Bool)
    (calls : Nat) (ts : List (Tok N)) (a : Ast N) : Prop :=
  ∀ n rest, 6 * ts.length + calls ≤ n → ends rest = true → read n (ts ++ rest) = .ok (a, rest)

/-- A function with a loop reads a phrase and goes on with its loop behind it. -/
def Continues (read : Nat → List (Tok N) → Except Failure (Ast N × List (Tok N)))
    (next : Nat → Next (Tok N) Failure (Ast N)) (ends : List (Tok N) → Bool) (calls : Nat) (ts : List (Tok N))
    (a : Ast N) : Prop :=
  ∀ n rest, 6 * ts.length + calls ≤ n → ends rest = true →
    read (n + 1) (ts ++ rest) = chain .rounds (next n) a rest

theorem Continues.complete {read : Nat → List (Tok N) → Except Failure (Ast N × List (Tok N))}
    {next : Nat → Next (Tok N) Failure (Ast N)} {ends ends' : List (Tok N) → Bool} {calls : Nat} {ts : List (Tok N)}
    {a : Ast N} (continues : Continues read next ends calls ts a)
    (stops : ∀ {n rest}, ends' rest = true → ends rest = true ∧ next n rest = none) :
    Complete read ends' (calls + 1) ts a := by
  intro n rest enough ended
  obtain ⟨n, rfl⟩ := Nat.exists_eq_succ_of_ne_zero (Nat.ne_of_gt (Nat.lt_of_lt_of_le (by omega) enough))
  rw [continues n _ (by omega) (@stops n _ ended).1, chain_stop (stops ended).2]

/-- What the parser does with the phrases of each level. -/
def Reads (k : Constants N) : Level → List (Tok N) → Ast N → Prop
  | .sum => Continues (add k) (fun n => addNext (mul k n)) endsProduct 5
  | .product => Continues (mul k) (fun n => mulNext (unary k n)) endsPower 4
  | .signed => Complete (unary k) endsPower 4
  | .power => Complete (pow k) endsPower 3
  | .dice => Continues (dice k) (fun n => diceNext k (atom k n)) (fun _ => true) 1
  | .sides => Complete (fun n => sides k (atom k n)) (fun _ => true) 1
  | .atom => Complete (atom k) (fun _ => true) 1

section Ends

variable {read : List (Tok N) → Except Failure (Ast N × List (Tok N))} {rest : List (Tok N)}

theorem noDice_stops (noDice : isDice rest = false) : diceNext k read rest = none := by
  match rest with
  | [] | .num _ :: _ | .op _ :: _ | .lparen :: _ | .rparen :: _ | .comma :: _ => rfl
  | .ident name :: _ => simpa [isDice, diceNext] using noDice

theorem noDice_of_endsPower (ends : endsPower rest = true) : isDice rest = false := by
  rw [endsPower.eq_def] at ends
  split at ends
  · cases ends
  · simpa using ends

theorem endsProduct_stops (ends : endsProduct rest = true) : endsPower rest = true ∧ mulNext read rest = none := by
  match rest with
  | [] | .rparen :: _ | .comma :: _ => exact ⟨rfl, rfl⟩
  | .op op :: _ => cases op <;> simp_all [endsProduct, endsPower, mulNext, isDice]
  | .num _ :: _ | .ident _ :: _ | .lparen :: _ => cases ends

/-- What begins with an atom is read on behind a product, but not behind a power. -/
theorem implicit_goes (starts : startsAtom rest = true) (noDice : isDice rest = false) :
    endsPower rest = true ∧ mulNext read rest = some (right .mul (read rest)) := by
  match rest with
  | [] | .op _ :: _ | .rparen :: _ | .comma :: _ => cases starts
  | .num _ :: _ | .lparen :: _ => exact ⟨rfl, rfl⟩
  | .ident _ :: _ => simp_all [endsPower, mulNext]

theorem endsSum_stops (ends : endsSum rest = true) : endsProduct rest = true ∧ addNext read rest = none := by
  match rest with
  | [] | .rparen :: _ | .comma :: _ => exact ⟨rfl, rfl⟩
  | .op _ :: _ | .num _ :: _ | .ident _ :: _ | .lparen :: _ => cases ends

end Ends

variable {ts us rest : List (Tok N)} {a b : Ast N} {op : Op}

theorem Reads.add (reads : Reads k .sum ts a) : Complete (DiceServ.add k) endsSum 6 ts a :=
  Continues.complete reads fun ends => endsSum_stops ends

theorem Reads.mul (reads : Reads k .product ts a) : Complete (DiceServ.mul k) endsProduct 5 ts a :=
  Continues.complete reads fun ends => endsProduct_stops ends

theorem Reads.dice (reads : Reads k .dice ts a) : Complete (DiceServ.dice k) (fun rest => !isDice rest) 2 ts a :=
  Continues.complete reads fun {_ rest} ends => ⟨rfl, noDice_stops ((Bool.not_eq_true' (isDice rest)).mp ends)⟩

theorem starts_behind (starts : startsAtom us = true) : startsAtom (us ++ rest) = true := by
  have begun : us ≠ [] := by rintro rfl; cases starts
  rwa [startsAtom_append begun]

theorem noDice_behind (begun : us ≠ []) (noDice : isDice us = false) : isDice (us ++ rest) = false := by
  rwa [isDice_append begun]

theorem reads_term (reads : Reads k .product ts a) : Reads k .sum ts a := by
  intro n rest enough ends
  simp [DiceServ.add, Reads.mul reads n rest (by omega) ends, bind, Except.bind]

theorem reads_sum (additive : op = .add ∨ op = .sub) (left : Reads k .sum ts a) (right : Reads k .product us b) :
    Reads k .sum (ts ++ .op op :: us) (.bin op a b) := by
  intro n rest enough ends
  simp only [List.length_append, List.length_cons] at enough
  have goes : addNext (DiceServ.mul k n) (.op op :: (us ++ rest)) = some (.ok (fun left => .bin op left b, rest)) := by
    simp [addNext, additive, DiceServ.right, right.mul n _ (by omega) ends, Except.map]
  rw [List.append_assoc, List.cons_append, left n _ (by omega) (by simp [endsProduct, additive]),
    chain_next (addNext_grows (sound k n).mul) goes]

theorem reads_factor (reads : Reads k .signed ts a) : Reads k .product ts a := by
  intro n rest enough ends
  simp [DiceServ.mul, reads n rest (by omega) ends, bind, Except.bind]

theorem reads_product (multiplicative : op = .mul ∨ op = .div ∨ op = .rem) (left : Reads k .product ts a)
    (right : Reads k .signed us b) : Reads k .product (ts ++ .op op :: us) (.bin op a b) := by
  intro n rest enough ends
  simp only [List.length_append, List.length_cons] at enough
  have goes : mulNext (unary k n) (.op op :: (us ++ rest)) = some (.ok (fun left => .bin op left b, rest)) := by
    simp [mulNext, multiplicative, DiceServ.right, right n _ (by omega) ends, Except.map]
  have endsOp : endsPower (.op op :: (us ++ rest)) = true := by
    rcases multiplicative with rfl | rfl | rfl <;> rfl
  rw [List.append_assoc, List.cons_append, left n _ (by omega) endsOp,
    chain_next (mulNext_grows (sound k n).unary) goes]

theorem reads_implicit (starts : startsAtom us = true) (noDice : isDice us = false) (left : Reads k .product ts a)
    (right : Reads k .signed us b) : Reads k .product (ts ++ us) (.bin .mul a b) := by
  intro n rest enough ends
  simp only [List.length_append] at enough
  have begun : us ≠ [] := by rintro rfl; cases starts
  have goesOn : endsPower (us ++ rest) = true ∧
      mulNext (unary k n) (us ++ rest) = some (DiceServ.right .mul (unary k n (us ++ rest))) :=
    implicit_goes (starts_behind starts) (noDice_behind begun noDice)
  have goes : mulNext (unary k n) (us ++ rest) = some (.ok (fun left => .bin .mul left b, rest)) := by
    simp [goesOn.2, DiceServ.right, right n _ (by omega) ends, Except.map]
  rw [List.append_assoc, left n _ (by omega) goesOn.1,
    chain_next (mulNext_grows (sound k n).unary) goes]

theorem unary_starts {n : Nat} {toks : List (Tok N)} (starts : startsAtom toks = true) :
    unary k (n + 1) toks = pow k n toks := by
  match toks with
  | [] | .op _ :: _ | .rparen :: _ | .comma :: _ => cases starts
  | .num _ :: _ | .lparen :: _ | .ident _ :: _ => simp [unary]

theorem sides_starts {read : List (Tok N) → Except Failure (Ast N × List (Tok N))} {toks : List (Tok N)}
    (starts : startsAtom toks = true) : sides k read toks = read toks := by
  match toks with
  | [] | .op _ :: _ | .rparen :: _ | .comma :: _ => cases starts
  | .num _ :: _ | .lparen :: _ | .ident _ :: _ => rfl

theorem diceNext_sides {read : List (Tok N) → Except Failure (Ast N × List (Tok N))} {name : String}
    {toks : List (Tok N)} (d : isD name = true) (reads : sides k read toks = .ok (b, rest)) :
    diceNext k read (.ident name :: toks) = some (.ok (fun left => .dice left b, rest)) := by
  simp [diceNext, d, reads, Except.map]

theorem reads_neg (reads : Reads k .signed ts a) : Reads k .signed (.op .sub :: ts) (.neg a) := by
  intro n rest enough ends
  simp only [List.length_cons] at enough
  obtain ⟨n, rfl⟩ := Nat.exists_eq_add_of_le' (show 1 ≤ n by omega)
  simp [unary, reads n _ (by omega) ends, Except.map]

theorem reads_plus (reads : Reads k .signed ts a) : Reads k .signed (.op .add :: ts) a := by
  intro n rest enough ends
  simp only [List.length_cons] at enough
  obtain ⟨n, rfl⟩ := Nat.exists_eq_add_of_le' (show 1 ≤ n by omega)
  simp [unary, reads n _ (by omega) ends]

theorem reads_unsigned (starts : startsAtom ts = true) (reads : Reads k .power ts a) : Reads k .signed ts a := by
  intro n rest enough ends
  obtain ⟨n, rfl⟩ := Nat.exists_eq_add_of_le' (show 1 ≤ n by omega)
  rw [unary_starts (starts_behind starts), reads n _ (by omega) ends]

theorem reads_base (reads : Reads k .dice ts a) : Reads k .power ts a := by
  intro n rest enough ends
  obtain ⟨n, rfl⟩ := Nat.exists_eq_add_of_le' (show 1 ≤ n by omega)
  have first := Reads.dice reads n rest (by omega) (by simp [noDice_of_endsPower ends])
  simp only [pow, first, bind, Except.bind]
  split
  · cases ends
  · rfl

theorem reads_power (base : Reads k .dice ts a) (exponent : Reads k .signed us b) :
    Reads k .power (ts ++ .op .pow :: us) (.bin .pow a b) := by
  intro n rest enough ends
  simp only [List.length_append, List.length_cons] at enough
  obtain ⟨n, rfl⟩ := Nat.exists_eq_add_of_le' (show 1 ≤ n by omega)
  have first := Reads.dice base n (.op .pow :: (us ++ rest)) (by omega) rfl
  have second := exponent n _ (by omega) ends
  simp [pow, first, second, DiceServ.right, bind, Except.bind, Except.map]

theorem reads_value (noDice : isDice ts = false) (begun : ts ≠ []) (reads : Reads k .atom ts a) :
    Reads k .dice ts a := by
  intro n rest enough ends
  simp [dice, count, noDice_behind begun noDice, reads n _ (by omega) rfl, bind, Except.bind]

theorem reads_die {name : String} (d : isD name = true) (right : Reads k .sides us b) :
    Reads k .dice (.ident name :: us) (.dice (.num k.one) b) := by
  intro n rest enough ends
  simp only [List.length_cons] at enough
  have begins : isDice (.ident name :: (us ++ rest)) = true := d
  simp only [List.cons_append, dice, count, begins, if_true, bind, Except.bind]
  exact chain_next (diceNext_grows (sound k n).atom) (diceNext_sides d (right n _ (by omega) rfl))

theorem reads_dice {name : String} (d : isD name = true) (left : Reads k .dice ts a) (right : Reads k .sides us b) :
    Reads k .dice (ts ++ .ident name :: us) (.dice a b) := by
  intro n rest enough ends
  simp only [List.length_append, List.length_cons] at enough
  rw [List.append_assoc, left n _ (by omega) rfl]
  exact chain_next (diceNext_grows (sound k n).atom) (diceNext_sides d (right n _ (by omega) rfl))

theorem reads_percent : Reads k .sides [.op .rem] (.num k.hundred) := fun _ _ _ _ => rfl

theorem reads_sides (starts : startsAtom ts = true) (reads : Reads k .atom ts a) : Reads k .sides ts a := by
  intro n rest enough ends
  exact (sides_starts (starts_behind starts)).trans (reads n rest enough rfl)

theorem reads_num {m : N} : Reads k .atom [.num m] (.num m) := by
  intro n rest enough ends
  obtain ⟨n, rfl⟩ := Nat.exists_eq_add_of_le' (show 1 ≤ n by omega)
  simp [atom]

theorem reads_e {name : String} (named : toAsciiLowercase name = "e") : Reads k .atom [.ident name] (.num k.e) := by
  intro n rest enough ends
  obtain ⟨n, rfl⟩ := Nat.exists_eq_add_of_le' (show 1 ≤ n by omega)
  simp [atom, named]

theorem reads_pi {name : String} (named : toAsciiLowercase name = "pi") :
    Reads k .atom [.ident name] (.num k.pi) := by
  intro n rest enough ends
  obtain ⟨n, rfl⟩ := Nat.exists_eq_add_of_le' (show 1 ≤ n by omega)
  simp [atom, named]

theorem reads_parens (reads : Reads k .sum ts a) : Reads k .atom (.lparen :: (ts ++ [.rparen])) a := by
  intro n rest enough ends
  simp only [List.length_cons, List.length_append] at enough
  obtain ⟨n, rfl⟩ := Nat.exists_eq_add_of_le' (show 1 ≤ n by omega)
  have inner := Reads.add reads n (.rparen :: rest) (by omega) rfl
  simp [atom, inner, bind, Except.bind]

/-- The rest of the arguments of a call. -/
theorem reads_args {others : List (List (Tok N) × Ast N)} (args : ∀ arg ∈ others, Reads k .sum arg.1 arg.2)
    {n : Nat} (enough : 6 * (others.flatMap fun arg => .comma :: arg.1).length + 6 ≤ n) (left : List (Ast N)) :
    chain .rounds (argNext (add k n)) left ((others.flatMap fun arg => .comma :: arg.1) ++ .rparen :: rest) =
      .ok (left ++ others.map (·.2), .rparen :: rest) := by
  induction others generalizing left with
  | nil =>
    rw [List.map_nil, List.append_nil]
    exact chain_stop rfl
  | cons arg others ih =>
    simp only [List.flatMap_cons, List.length_append, List.length_cons] at enough
    have ends : endsSum ((others.flatMap fun arg => .comma :: arg.1) ++ .rparen :: rest) = true := by
      cases others <;> rfl
    have goes : argNext (add k n)
        (.comma :: (arg.1 ++ ((others.flatMap fun arg => .comma :: arg.1) ++ .rparen :: rest))) =
        some (.ok (fun args => args ++ [arg.2], (others.flatMap fun arg => .comma :: arg.1) ++ .rparen :: rest)) := by
      simp [argNext, Reads.add (args arg List.mem_cons_self) n _ (by omega) ends, Except.map]
    rw [List.flatMap_cons, List.cons_append, List.cons_append, List.append_assoc,
      chain_next (argNext_grows (sound k n).add) goes,
      ih (fun arg mem => args arg (List.mem_cons_of_mem _ mem)) (by omega)]
    simp

theorem reads_func {name : String} {others : List (List (Tok N) × Ast N)} (notE : toAsciiLowercase name ≠ "e")
    (notPi : toAsciiLowercase name ≠ "pi") (arg : Reads k .sum ts a)
    (args : ∀ arg ∈ others, Reads k .sum arg.1 arg.2) :
    Reads k .atom (.ident name :: .lparen :: (joined ts others ++ [.rparen]))
      (.func (toAsciiLowercase name) (a :: others.map (·.2))) := by
  intro n rest enough ends
  simp only [joined, List.length_cons, List.length_append] at enough
  obtain ⟨n, rfl⟩ := Nat.exists_eq_add_of_le' (show 1 ≤ n by omega)
  have ends : endsSum ((others.flatMap fun arg => .comma :: arg.1) ++ .rparen :: rest) = true := by
    cases others <;> rfl
  have first := Reads.add arg n _ (by omega) ends
  have goesOn := @reads_args _ k rest others args n (by omega) [a]
  simp [atom, notE, notPi, call, joined, first, goesOn, bind, Except.bind]

theorem Derives.starts {l : Level} (derives : Derives k l ts a) (tight : l = .power ∨ l = .dice ∨ l = .atom) :
    startsAtom ts = true := by
  induction derives with
  | base _ ih => exact ih (by simp)
  | power _ _ ih => exact starts_behind (ih (by simp))
  | value _ _ ih => exact ih (by simp)
  | dice _ _ _ ih => exact starts_behind (ih (by simp))
  | die | num | parens | e | pi | func => rfl
  | term | sum | factor | product | implicit | neg | plus | unsigned | percent | sides => simp at tight

/-- A phrase of the grammar is read as what it stands for. -/
theorem Derives.reads {l : Level} (derives : Derives k l ts a) : Reads k l ts a := by
  induction derives with
  | term _ ih => exact reads_term ih
  | sum additive _ _ left right => exact reads_sum additive left right
  | factor _ ih => exact reads_factor ih
  | product multiplicative _ _ left right => exact reads_product multiplicative left right
  | implicit starts noDice _ _ left right => exact reads_implicit starts noDice left right
  | neg _ ih => exact reads_neg ih
  | plus _ ih => exact reads_plus ih
  | unsigned derives ih => exact reads_unsigned (derives.starts (by simp)) ih
  | base _ ih => exact reads_base ih
  | power _ _ base exponent => exact reads_power base exponent
  | value noDice derives ih => exact reads_value noDice derives.ne_nil ih
  | die d _ sides => exact reads_die d sides
  | dice d _ _ count sides => exact reads_dice d count sides
  | percent => exact reads_percent
  | sides derives ih => exact reads_sides (derives.starts (by simp)) ih
  | num => exact reads_num
  | parens _ ih => exact reads_parens ih
  | e named => exact reads_e named
  | pi named => exact reads_pi named
  | func notE notPi _ _ arg args => exact reads_func notE notPi arg args

/-! ### How many calls are open -/

/-- A result that is no failure, or one with a message. -/
def Tells {α : Type _} (parsed : Except Failure α) : Prop :=
  ∀ failure, parsed = .error failure → ∃ text, failure = .error text

/-- A function has calls and rounds enough for inputs of so many tokens. -/
def Enough (m : Nat) (read : List (Tok N) → Except Failure (Ast N × List (Tok N))) : Prop :=
  ∀ toks, toks.length ≤ m → Tells (read toks)

section Tells

variable {α β : Type _} {parsed : Except Failure α}

theorem tells_ok (a : α) : Tells (.ok a) := by simp [Tells]

theorem tells_text (text : String) : Tells (.error (.error text) : Except Failure α) := by simp [Tells]

theorem tells_map {f : α → β} (tells : Tells parsed) : Tells (parsed.map f) := by
  cases parsed with
  | ok => simp [Tells, Except.map]
  | error failure => simpa [Tells, Except.map] using tells

theorem tells_bind {f : α → Except Failure β} (tells : Tells parsed)
    (goesOn : ∀ a, parsed = .ok a → Tells (f a)) : Tells (parsed >>= f) := by
  cases parsed with
  | ok a => exact goesOn a rfl
  | error failure => simpa [Tells, bind, Except.bind] using tells

theorem tells_chain {Phrase : List (Tok N) → α → Prop} {next : Next (Tok N) Failure α} {left : α}
    {rest : List (Tok N)} (grows : Grows Phrase next)
    (tells : ∀ toks parsed, toks.length ≤ rest.length → next toks = some parsed → Tells parsed) :
    Tells (chain .rounds next left rest) := by
  intro failure fails
  obtain ⟨us, toks, rfl, failed⟩ := chain_error grows fails
  exact tells toks _ (by simp) failed failure rfl

end Tells

section Enough

variable {read : List (Tok N) → Except Failure (Ast N × List (Tok N))} {m n : Nat} {toks : List (Tok N)}

theorem addNext_tells {parsed} (enough : Enough m read) (fits : toks.length ≤ m)
    (goes : addNext read toks = some parsed) : Tells parsed := by
  rw [addNext.eq_def] at goes
  split at goes
  · simp only [Option.ite_none_right_eq_some, Option.some.injEq] at goes
    rw [← goes.2]
    exact tells_map (enough _ (Nat.le_of_succ_le fits))
  · cases goes

theorem mulNext_tells {parsed} (enough : Enough m read) (fits : toks.length ≤ m)
    (goes : mulNext read toks = some parsed) : Tells parsed := by
  rw [mulNext.eq_def] at goes
  split at goes
  · simp only [Option.ite_none_right_eq_some, Option.some.injEq] at goes
    rw [← goes.2]
    exact tells_map (enough _ (Nat.le_of_succ_le fits))
  · simp only [Option.ite_none_right_eq_some, Option.some.injEq] at goes
    rw [← goes.2]
    exact tells_map (enough _ fits)

theorem diceNext_tells {parsed} (enough : Enough m read) (fits : toks.length ≤ m)
    (goes : diceNext k read toks = some parsed) : Tells parsed := by
  rw [diceNext.eq_def] at goes
  split at goes
  · simp only [Option.ite_none_right_eq_some, Option.some.injEq] at goes
    rw [← goes.2]
    refine tells_map ?_
    rw [sides.eq_def]
    split
    · exact tells_ok _
    · exact enough _ (Nat.le_of_succ_le fits)
  · cases goes

theorem argNext_tells {parsed} (enough : Enough m read) (fits : toks.length ≤ m)
    (goes : argNext read toks = some parsed) : Tells parsed := by
  rw [argNext.eq_def] at goes
  split at goes
  · cases goes
    exact tells_map (enough _ (Nat.le_of_succ_le fits))
  · cases goes

theorem add_enough (enough : Enough m (mul k n)) : Enough m (add k (n + 1)) := by
  intro toks fits
  rw [add]
  refine tells_bind (enough toks fits) fun (left, rest) reads => ?_
  obtain ⟨ts, rfl, -⟩ := (sound k n).mul reads
  refine tells_chain (addNext_grows (sound k n).mul) fun toks parsed shorter => addNext_tells enough ?_
  simp only [List.length_append] at fits
  omega

theorem mul_enough (enough : Enough m (unary k n)) : Enough m (mul k (n + 1)) := by
  intro toks fits
  rw [mul]
  refine tells_bind (enough toks fits) fun (left, rest) reads => ?_
  obtain ⟨ts, rfl, -⟩ := (sound k n).unary reads
  refine tells_chain (mulNext_grows (sound k n).unary) fun toks parsed shorter => mulNext_tells enough ?_
  simp only [List.length_append] at fits
  omega

theorem unary_enough (signed : ∀ m' < m, Enough m' (unary k n)) (power : Enough m (pow k n)) :
    Enough m (unary k (n + 1)) := by
  intro toks fits
  rw [unary.eq_def]
  simp only
  split
  · exact tells_map (signed _ fits _ (Nat.le_refl _))
  · exact signed _ fits _ (Nat.le_refl _)
  · exact power _ fits

theorem pow_enough (dice : Enough m (dice k n)) (signed : ∀ m' < m, Enough m' (unary k n)) :
    Enough m (pow k (n + 1)) := by
  intro toks fits
  rw [pow]
  refine tells_bind (dice toks fits) fun (base, rest) reads => ?_
  obtain ⟨ts, rfl, -⟩ := (sound k n).dice reads
  simp only [List.length_append] at fits
  simp only
  split
  · refine tells_map (tells_map (signed _ ?_ _ (Nat.le_refl _)))
    simp only [List.length_cons] at fits
    omega
  · exact tells_ok _

theorem dice_enough (enough : Enough m (atom k n)) : Enough m (dice k (n + 1)) := by
  intro toks fits
  rw [dice]
  have counts : Tells (count k (atom k n) toks) := by
    rw [count]
    split
    · exact tells_ok _
    · exact enough toks fits
  refine tells_bind counts fun (left, rest) reads => ?_
  have shorter : rest.length ≤ toks.length := by
    rw [count] at reads
    split at reads
    · cases reads
      exact Nat.le_refl _
    · obtain ⟨ts, rfl, -⟩ := (sound k n).atom reads
      simp
  exact tells_chain (diceNext_grows (sound k n).atom) fun toks parsed shorter' =>
    diceNext_tells enough (Nat.le_trans (Nat.le_trans shorter' shorter) fits)

theorem call_enough {lname name : String} (sound : Sound k .sum read) (enough : ∀ m' < m, Enough m' read)
    (fits : toks.length ≤ m) : Tells (call lname name read toks) := by
  rw [call.eq_def]
  split
  · refine tells_bind (enough _ fits _ (Nat.le_refl _)) fun (first, rest) reads => ?_
    obtain ⟨ts, rfl, -⟩ := sound reads
    refine tells_bind ?_ fun (args, rest) _ => ?_
    · refine tells_chain (argNext_grows sound) fun toks parsed shorter => argNext_tells (enough _ fits) ?_
      simp only [List.length_append]
      omega
    · split
      · exact tells_ok _
      · exact tells_text _
  · exact tells_text _

theorem atom_enough (enough : ∀ m' < m, Enough m' (add k n)) : Enough m (atom k (n + 1)) := by
  intro toks fits
  rw [atom.eq_def]
  simp only
  split
  · exact tells_ok _
  · refine tells_bind (enough _ fits _ (Nat.le_refl _)) fun (e, rest) _ => ?_
    split
    · exact tells_ok _
    · exact tells_text _
  · split
    · exact tells_ok _
    · split
      · exact tells_ok _
      · exact call_enough (sound k n).add enough (Nat.le_of_succ_le fits)
  · exact tells_text _

end Enough

/-- How many calls each function needs. -/
structure AllEnough (k : Constants N) (n : Nat) : Prop where
  add : ∀ {m}, 6 * m + 6 ≤ n → Enough m (add k n)
  mul : ∀ {m}, 6 * m + 5 ≤ n → Enough m (mul k n)
  unary : ∀ {m}, 6 * m + 4 ≤ n → Enough m (unary k n)
  pow : ∀ {m}, 6 * m + 3 ≤ n → Enough m (pow k n)
  dice : ∀ {m}, 6 * m + 2 ≤ n → Enough m (dice k n)
  atom : ∀ {m}, 6 * m + 1 ≤ n → Enough m (atom k n)

theorem enough (k : Constants N) (n : Nat) : AllEnough k n := by
  induction n with
  | zero => constructor <;> intros <;> omega
  | succ n ih =>
    constructor <;> intro m calls
    · exact add_enough (ih.mul (by omega))
    · exact mul_enough (ih.unary (by omega))
    · exact unary_enough (fun m' less => ih.unary (by omega)) (ih.pow (by omega))
    · exact pow_enough (ih.dice (by omega)) fun m' less => ih.unary (by omega)
    · exact dice_enough (ih.atom (by omega))
    · exact atom_enough fun m' less => ih.add (by omega)

/-! ### The parser and the grammar -/

theorem parse_tells {frames : Nat} {toks : List (Tok N)} (calls : 6 * (toks.length + 1) ≤ frames) :
    Tells (parse k frames toks) := by
  rw [parse]
  refine tells_bind ((enough k frames).add calls toks (Nat.le_refl _)) fun (e, rest) _ => ?_
  dsimp only
  split
  · exact tells_ok _
  · exact tells_text _

theorem derives_of_parse {frames : Nat} {toks : List (Tok N)} (parses : parse k frames toks = .ok a) :
    Derives k .sum toks a := by
  obtain ⟨⟨e, rest⟩, reads, closes⟩ := bind_ok.mp parses
  obtain ⟨ts, rfl, derives⟩ := (sound k frames).add reads
  dsimp only at closes
  split at closes
  · rename_i none
    cases closes
    rwa [none, List.append_nil]
  · cases closes

theorem parse_of_derives {frames : Nat} {toks : List (Tok N)} (calls : 6 * (toks.length + 1) ≤ frames)
    (derives : Derives k .sum toks a) : parse k frames toks = .ok a := by
  have reads := Reads.add derives.reads frames [] calls rfl
  rw [List.append_nil] at reads
  simp [parse, reads, bind, Except.bind]

end Echo.DiceServ
