import Echo.DiceServ.Grammar

/-!
How a tree is written: with parentheses where an operand is looser than its place allows and
nowhere else, and with the `*` left out, or not, where the grammar lets it. Whatever is written
for a tree is read as the tree.
-/

namespace Echo.DiceServ

open Echo.Lib

variable {N : Type}

/-- How tight a level binds. -/
def Level.tight : Level → Nat
  | .sum => 0
  | .product => 1
  | .signed => 2
  | .power => 3
  | .dice => 4
  | .sides => 5
  | .atom => 6

/-- The level of an operator and of its operands. -/
def Op.level : Op → Level
  | .add | .sub => .sum
  | .mul | .div | .rem => .product
  | .pow => .power

def Op.leftLevel : Op → Level
  | .add | .sub => .sum
  | .mul | .div | .rem => .product
  | .pow => .dice

def Op.rightLevel : Op → Level
  | .add | .sub => .product
  | .mul | .div | .rem | .pow => .signed

def Ast.level : Ast N → Level
  | .num _ | .func _ _ => .atom
  | .neg _ => .signed
  | .bin op _ _ => op.level
  | .dice _ _ => .dice

/-- What is written for an operand at a place of some level. -/
def within (place level : Level) (written : List (List (Tok N))) : List (List (Tok N)) :=
  if place.tight ≤ level.tight then written else written.map fun ts => .lparen :: (ts ++ [.rparen])

/-- An operator between its operands. A `*` may be left implicit before what begins with an atom. -/
def infixes (op : Op) (left right : List (Tok N)) : List (List (Tok N)) :=
  if op = .mul ∧ startsAtom right ∧ ¬ isDice right then [left ++ .op op :: right, left ++ right]
  else [left ++ .op op :: right]

mutual

/-- All that may be written for a tree. -/
def renderings : Ast N → List (List (Tok N))
  | .num n => [[.num n]]
  | .neg a => (within .signed a.level (renderings a)).map fun ts => .op .sub :: ts
  | .bin op a b =>
    (within op.leftLevel a.level (renderings a)).flatMap fun left =>
      (within op.rightLevel b.level (renderings b)).flatMap fun right => infixes op left right
  | .dice a b =>
    (within .dice a.level (renderings a)).flatMap fun left =>
      (within .sides b.level (renderings b)).map fun right => left ++ .ident "d" :: right
  | .func name args => (arguments args).map fun ts => .ident name :: .lparen :: (ts ++ [.rparen])

/-- The arguments of a call, of which there is one at least. -/
def arguments : List (Ast N) → List (List (Tok N))
  | [] => []
  | a :: args => (renderings a).flatMap fun first => (furtherArguments args).map fun others => first ++ others

def furtherArguments : List (Ast N) → List (List (Tok N))
  | [] => [[]]
  | a :: args => (renderings a).flatMap fun arg => (furtherArguments args).map fun others => .comma :: (arg ++ others)

end

/-- Trees whose functions have names in lower case that stand for nothing else, and arguments. -/
inductive Proper : Ast N → Prop
  | num {n} : Proper (.num n)
  | neg {a} (operand : Proper a) : Proper (.neg a)
  | bin {op a b} (left : Proper a) (right : Proper b) : Proper (.bin op a b)
  | dice {a b} (count : Proper a) (sides : Proper b) : Proper (.dice a b)
  | func {name args} (lower : toAsciiLowercase name = name) (notD : name ≠ "d") (notE : name ≠ "e")
      (notPi : name ≠ "pi") (some : args ≠ []) (all : ∀ a ∈ args, Proper a) : Proper (.func name args)

variable {k : Constants N} {l : Level} {ts us : List (Tok N)} {a b : Ast N}

/-! ### Tighter phrases at looser places -/

section Loosen

variable (noDice : isDice ts = false) (derives : Derives k l ts a) (whole : l ≠ .sides)
include noDice derives whole

theorem Derives.toDice (tight : 4 ≤ l.tight) : Derives k .dice ts a := by
  cases l with
  | dice => exact derives
  | atom => exact .value noDice derives
  | sides => exact absurd rfl whole
  | _ => simp [Level.tight] at tight

theorem Derives.toPower (tight : 3 ≤ l.tight) : Derives k .power ts a := by
  cases l with
  | power => exact derives
  | _ => exact .base (derives.toDice noDice whole (by simp_all [Level.tight]))

theorem Derives.toSigned (tight : 2 ≤ l.tight) : Derives k .signed ts a := by
  cases l with
  | signed => exact derives
  | _ => exact .unsigned (derives.toPower noDice whole (by simp_all [Level.tight]))

theorem Derives.toProduct (tight : 1 ≤ l.tight) : Derives k .product ts a := by
  cases l with
  | product => exact derives
  | _ => exact .factor (derives.toSigned noDice whole (by simp_all [Level.tight]))

theorem Derives.toSum : Derives k .sum ts a := by
  cases l with
  | sum => exact derives
  | _ => exact .term (derives.toProduct noDice whole (by simp_all [Level.tight]))

theorem Derives.loosen {place : Level} (tight : place.tight ≤ l.tight) : Derives k place ts a := by
  cases place with
  | sum => exact derives.toSum noDice whole
  | product => exact derives.toProduct noDice whole tight
  | signed => exact derives.toSigned noDice whole tight
  | power => exact derives.toPower noDice whole tight
  | dice => exact derives.toDice noDice whole tight
  | sides => cases l with
    | atom => exact .sides derives
    | _ => simp_all [Level.tight]
  | atom => cases l with
    | atom => exact derives
    | _ => simp_all [Level.tight]

end Loosen

/-! ### What is written is a phrase -/

/-- Something written for a tree is a phrase of its level, and does not begin with a die. -/
def Written (k : Constants N) (a : Ast N) : Prop :=
  ∀ ts ∈ renderings a, Derives k a.level ts a ∧ isDice ts = false

theorem level_ne_sides (a : Ast N) : a.level ≠ .sides := by
  cases a with
  | bin op => cases op <;> simp [Ast.level, Op.level]
  | _ => simp [Ast.level]

theorem Written.within (written : Written k a) (place : Level) :
    ∀ ts ∈ within place a.level (renderings a), Derives k place ts a ∧ isDice ts = false := by
  intro ts mem
  rw [DiceServ.within] at mem
  split at mem
  · obtain ⟨derives, noDice⟩ := written ts mem
    exact ⟨derives.loosen noDice (level_ne_sides a) ‹_›, noDice⟩
  · obtain ⟨us, inner, rfl⟩ := List.mem_map.mp mem
    obtain ⟨derives, noDice⟩ := written us inner
    have parens := Derives.parens (derives.toSum noDice (level_ne_sides a))
    exact ⟨parens.loosen rfl (by simp) (by cases place <;> simp [Level.tight]), rfl⟩

theorem derives_between {op : Op} (left : Derives k op.leftLevel ts a) (right : Derives k op.rightLevel us b) :
    Derives k op.level (ts ++ .op op :: us) (.bin op a b) := by
  cases op with
  | add => exact .sum (by simp) left right
  | sub => exact .sum (by simp) left right
  | mul => exact .product (by simp) left right
  | div => exact .product (by simp) left right
  | rem => exact .product (by simp) left right
  | pow => exact .power left right

theorem written_num {n : N} : Written k (.num n) := by
  simp [Written, renderings, Ast.level, Derives.num, isDice]

theorem written_neg (operand : Written k a) : Written k (.neg a) := by
  intro ts mem
  simp only [renderings, List.mem_map] at mem
  obtain ⟨us, mem, rfl⟩ := mem
  exact ⟨.neg (operand.within _ us mem).1, rfl⟩

theorem written_bin {op : Op} (left : Written k a) (right : Written k b) : Written k (.bin op a b) := by
  intro ts mem
  simp only [renderings, List.mem_flatMap] at mem
  obtain ⟨us, memLeft, vs, memRight, mem⟩ := mem
  obtain ⟨first, noDice⟩ := left.within _ us memLeft
  obtain ⟨second, -⟩ := right.within _ vs memRight
  have plain : Derives k op.level (us ++ .op op :: vs) (.bin op a b) ∧ isDice (us ++ .op op :: vs) = false :=
    ⟨derives_between first second, noDice_behind first.ne_nil noDice⟩
  rw [infixes] at mem
  split at mem
  · rename_i implicit
    obtain ⟨rfl, starts, begins⟩ := implicit
    rcases List.mem_pair.mp mem with rfl | rfl
    · exact plain
    · exact ⟨.implicit starts (by simpa using begins) first second, noDice_behind first.ne_nil noDice⟩
  · rw [List.mem_singleton.mp mem]
    exact plain

theorem written_dice (left : Written k a) (right : Written k b) : Written k (.dice a b) := by
  intro ts mem
  simp only [renderings, List.mem_flatMap, List.mem_map] at mem
  obtain ⟨us, memLeft, vs, memRight, rfl⟩ := mem
  obtain ⟨first, noDice⟩ := left.within _ us memLeft
  obtain ⟨second, -⟩ := right.within _ vs memRight
  exact ⟨.dice (by decide) first second, noDice_behind first.ne_nil noDice⟩

theorem Written.whole (written : Written k a) (mem : ts ∈ renderings a) : Derives k .sum ts a :=
  (written ts mem).1.toSum (written ts mem).2 (level_ne_sides a)

/-- The further arguments of a call are phrases behind commas. -/
theorem furtherArguments_written {args : List (Ast N)} (written : ∀ a ∈ args, Written k a)
    (mem : ts ∈ furtherArguments args) :
    ∃ others : List (List (Tok N) × Ast N), ts = (others.flatMap fun arg => .comma :: arg.1) ∧
      others.map (·.2) = args ∧ ∀ arg ∈ others, Derives k .sum arg.1 arg.2 := by
  induction args generalizing ts with
  | nil => exact ⟨[], by simpa [furtherArguments] using mem, rfl, by simp⟩
  | cons a args ih =>
    simp only [furtherArguments, List.mem_flatMap, List.mem_map] at mem
    obtain ⟨us, memFirst, vs, memRest, rfl⟩ := mem
    obtain ⟨others, rfl, rfl, derives⟩ := ih (fun a mem => written a (List.mem_cons_of_mem _ mem)) memRest
    have first := (written a List.mem_cons_self).whole memFirst
    exact ⟨(us, a) :: others, by simp, rfl, List.forall_mem_cons.mpr ⟨first, derives⟩⟩

theorem written_func {name : String} {args : List (Ast N)} (lower : toAsciiLowercase name = name) (notD : name ≠ "d")
    (notE : name ≠ "e") (notPi : name ≠ "pi") (written : ∀ a ∈ args, Written k a) :
    Written k (.func name args) := by
  intro ts mem
  simp only [renderings, List.mem_map] at mem
  obtain ⟨us, mem, rfl⟩ := mem
  cases args with
  | nil => simp [arguments] at mem
  | cons a args =>
    simp only [arguments, List.mem_flatMap, List.mem_map] at mem
    obtain ⟨first, memFirst, rest, memRest, rfl⟩ := mem
    obtain ⟨others, rfl, rfl, derives⟩ :=
      furtherArguments_written (fun a mem => written a (List.mem_cons_of_mem _ mem)) memRest
    have arg := (written a List.mem_cons_self).whole memFirst
    have called := @Derives.func N k name _ _ _ (by rwa [lower]) (by rwa [lower]) arg derives
    rw [lower] at called
    refine ⟨called, ?_⟩
    have folded : toAsciiLowercase "d" = "d" := by decide
    simp [isDice, isD, eqIgnoreAsciiCase, lower, notD, folded]

theorem Proper.written (proper : Proper a) : Written k a := by
  induction proper with
  | num => exact written_num
  | neg _ ih => exact written_neg ih
  | bin _ _ left right => exact written_bin left right
  | dice _ _ left right => exact written_dice left right
  | func lower notD notE notPi _ _ ih => exact written_func lower notD notE notPi ih

/-! ### Every tree is written somehow -/

theorem within_ne_nil {place level : Level} {written : List (List (Tok N))} (some : written ≠ []) :
    within place level written ≠ [] := by
  rw [within]
  split <;> simp [some]

theorem infixes_ne_nil (op : Op) (left right : List (Tok N)) : infixes op left right ≠ [] := by
  rw [infixes]
  split <;> simp

theorem flatMap_ne_nil {α β : Type _} {xs : List α} {f : α → List β} (some : xs ≠ [])
    (each : ∀ x, f x ≠ []) : xs.flatMap f ≠ [] := by
  obtain ⟨x, mem⟩ := List.exists_mem_of_ne_nil xs some
  intro none
  exact each x (List.flatMap_eq_nil_iff.mp none x mem)

theorem furtherArguments_ne_nil {args : List (Ast N)} (some : ∀ a ∈ args, renderings a ≠ []) :
    furtherArguments args ≠ [] := by
  induction args with
  | nil => simp [furtherArguments]
  | cons a args ih =>
    rw [furtherArguments]
    have rest := ih fun a mem => some a (List.mem_cons_of_mem _ mem)
    exact flatMap_ne_nil (some a List.mem_cons_self) fun first => by simp [rest]

theorem Proper.renderings_ne_nil (proper : Proper a) : renderings a ≠ [] := by
  induction proper with
  | num => simp [renderings]
  | neg _ ih => simp [renderings, within_ne_nil ih]
  | bin _ _ left right =>
    rw [renderings]
    exact flatMap_ne_nil (within_ne_nil left) fun us =>
      flatMap_ne_nil (within_ne_nil right) fun vs => infixes_ne_nil _ us vs
  | dice _ _ left right =>
    rw [renderings]
    exact flatMap_ne_nil (within_ne_nil left) fun us => by simp [within_ne_nil right]
  | @func name args _ _ _ _ some _ ih =>
    cases args with
    | nil => exact absurd rfl some
    | cons a args =>
      have rest := furtherArguments_ne_nil fun a mem => ih a (List.mem_cons_of_mem _ mem)
      simp only [renderings, arguments, ne_eq, List.map_eq_nil_iff]
      exact flatMap_ne_nil (ih a List.mem_cons_self) fun first => by simp [rest]

/-- The parser implements the grammar: it reads every way of writing a tree as the tree, accepts
exactly what the grammar has a tree for, and is done with six calls open for each token and
six more. -/
theorem parser_implements_grammar (k : Constants N) :
    (∀ ast, Proper ast → renderings ast ≠ [] ∧ ∀ toks ∈ renderings ast, ∀ frames,
        6 * (toks.length + 1) ≤ frames → parse k frames toks = .ok ast) ∧
      (∀ frames toks ast, parse k frames toks = .ok ast → Derives k .sum toks ast) ∧
      ∀ frames toks, 6 * (toks.length + 1) ≤ frames →
        (∀ ast, Derives k .sum toks ast → parse k frames toks = .ok ast) ∧
          parse k frames toks ≠ .error .frames ∧ parse k frames toks ≠ .error .rounds := by
  refine ⟨fun ast proper => ⟨proper.renderings_ne_nil, fun toks mem frames calls => ?_⟩,
    fun frames toks ast parses => derives_of_parse parses, fun frames toks calls => ⟨?_, ?_, ?_⟩⟩
  · exact parse_of_derives calls (proper.written.whole mem)
  · exact fun ast derives => parse_of_derives calls derives
  · intro out
    obtain ⟨text, same⟩ := parse_tells calls _ out
    cases same
  · intro out
    obtain ⟨text, same⟩ := parse_tells calls _ out
    cases same

/-- A name in upper case comes back in lower case. -/
theorem upper_case_folds :
    let toks : List (Tok Nat) := [.ident "SIN", .lparen, .num 1, .rparen]
    renderings (.func "SIN" [.num 1]) = [toks] ∧
      parse ⟨1, 100, 2, 3⟩ 30 toks = .ok (.func "sin" [.num 1]) ∧
      parse ⟨1, 100, 2, 3⟩ 30 toks ≠ .ok (.func "SIN" [.num 1]) := by
  have folds : parse ⟨1, 100, 2, 3⟩ 30 [.ident "SIN", .lparen, .num 1, .rparen] = .ok (.func "sin" [.num 1]) := rfl
  refine ⟨rfl, folds, ?_⟩
  rw [folds]
  simp

end Echo.DiceServ
