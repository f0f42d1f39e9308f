import Echo.Lib.AsciiCase
import Echo.Lib.Chains

/-!
The expressions of the dice service (`diceserv/src/expr.rs`): tokens, trees and the parser. The
numbers are not looked into. A function of the parser is given the calls it may have open at
a time, itself among them.
-/

namespace Echo.DiceServ

open Echo.Lib Echo.Lib.Chains

inductive Op where
  | add
  | sub
  | mul
  | div
  | rem
  | pow
  deriving DecidableEq, Repr

/-- Tokens. A name is a function, a constant or the dice operator. -/
inductive Tok (N : Type) where
  | num (n : N)
  | ident (name : String)
  | op (op : Op)
  | lparen
  | rparen
  | comma
  deriving DecidableEq, Repr

inductive Ast (N : Type) where
  | num (n : N)
  | neg (a : Ast N)
  | bin (op : Op) (a b : Ast N)
  | dice (n sides : Ast N)
  | func (name : String) (args : List (Ast N))
  deriving Repr

/-- The numbers that the parser puts in by itself. -/
structure Constants (N : Type) where
  one : N
  hundred : N
  e : N
  pi : N

/-- Why there is no tree: a message for the user, or there were too few calls or rounds. -/
inductive Failure where
  | error (text : String)
  | frames
  | rounds
  deriving DecidableEq, Repr

variable {N : Type}

def isD (name : String) : Bool := eqIgnoreAsciiCase name "d"

def isDice : List (Tok N) → Bool
  | .ident name :: _ => isD name
  | _ => false

/-- Whether the next token can begin an atom. -/
def startsAtom : List (Tok N) → Bool
  | .num _ :: _ | .ident _ :: _ | .lparen :: _ => true
  | _ => false

/-- The right operand of an operator, to be put behind a left one. -/
def right (op : Op) (operand : Except Failure (Ast N × List (Tok N))) :
    Except Failure ((Ast N → Ast N) × List (Tok N)) :=
  operand.map fun (b, rest) => (fun left => .bin op left b, rest)

/-! ### Parts of the parser -/

section Parts

/-- The loop of `add`. -/
def addNext (mul : List (Tok N) → Except Failure (Ast N × List (Tok N))) : Next (Tok N) Failure (Ast N)
  | .op op :: rest => if op = .add ∨ op = .sub then some (right op (mul rest)) else none
  | _ => none

/-- The loop of `mul`. -/
def mulNext (unary : List (Tok N) → Except Failure (Ast N × List (Tok N))) : Next (Tok N) Failure (Ast N)
  | .op op :: rest => if op = .mul ∨ op = .div ∨ op = .rem then some (right op (unary rest)) else none
  -- Implicit multiplication: 2pi, 3(4), 2d6 2.
  | rest => if startsAtom rest && !isDice rest then some (right .mul (unary rest)) else none

/-- How many dice. A leading `d` means one die: d6 = 1d6. -/
def count (k : Constants N) (atom : List (Tok N) → Except Failure (Ast N × List (Tok N))) (toks : List (Tok N)) :
    Except Failure (Ast N × List (Tok N)) :=
  if isDice toks then .ok (.num k.one, toks) else atom toks

/-- The sides of a die. `d%` is percentile. -/
def sides (k : Constants N) (atom : List (Tok N) → Except Failure (Ast N × List (Tok N))) :
    List (Tok N) → Except Failure (Ast N × List (Tok N))
  | .op .rem :: rest => .ok (.num k.hundred, rest)
  | rest => atom rest

/-- The loop of `dice`. -/
def diceNext (k : Constants N) (atom : List (Tok N) → Except Failure (Ast N × List (Tok N))) :
    Next (Tok N) Failure (Ast N)
  | .ident name :: rest =>
    if isD name then some ((sides k atom rest).map fun (b, rest) => (fun left => .dice left b, rest)) else none
  | _ => none

/-- The loop over the arguments of a function. -/
def argNext (add : List (Tok N) → Except Failure (Ast N × List (Tok N))) : Next (Tok N) Failure (List (Ast N))
  | .comma :: rest => some ((add rest).map fun (arg, rest) => (fun args => args ++ [arg], rest))
  | _ => none

/-- The arguments of a function, behind its name. -/
def call (lname name : String) (add : List (Tok N) → Except Failure (Ast N × List (Tok N))) :
    List (Tok N) → Except Failure (Ast N × List (Tok N))
  | .lparen :: rest => do
    let (first, rest) ← add rest
    match ← chain .rounds (argNext add) [first] rest with
    | (args, .rparen :: rest) => .ok (.func lname args, rest)
    | _ => .error (.error s!"missing ) after {lname}(...)")
  | _ => .error (.error s!"unknown name '{name}'")

end Parts

/-! ### The parser -/

variable (k : Constants N)

mutual

def add : Nat → List (Tok N) → Except Failure (Ast N × List (Tok N))
  | 0, _ => .error .frames
  | frames + 1, toks => do
    let (left, rest) ← mul frames toks
    chain .rounds (addNext (mul frames)) left rest

def mul : Nat → List (Tok N) → Except Failure (Ast N × List (Tok N))
  | 0, _ => .error .frames
  | frames + 1, toks => do
    let (left, rest) ← unary frames toks
    chain .rounds (mulNext (unary frames)) left rest

def unary : Nat → List (Tok N) → Except Failure (Ast N × List (Tok N))
  | 0, _ => .error .frames
  | frames + 1, toks =>
    match toks with
    | .op .sub :: rest => (unary frames rest).map fun (a, rest) => (.neg a, rest)
    | .op .add :: rest => unary frames rest
    | toks => pow frames toks

def pow : Nat → List (Tok N) → Except Failure (Ast N × List (Tok N))
  | 0, _ => .error .frames
  | frames + 1, toks => do
    let (base, rest) ← dice frames toks
    match rest with
    -- Right-associative, and the exponent may be signed (2^-3).
    | .op .pow :: rest => (right .pow (unary frames rest)).map fun (more, rest) => (more base, rest)
    | rest => .ok (base, rest)

def dice : Nat → List (Tok N) → Except Failure (Ast N × List (Tok N))
  | 0, _ => .error .frames
  | frames + 1, toks => do
    let (left, rest) ← count k (atom frames) toks
    chain .rounds (diceNext k (atom frames)) left rest

def atom : Nat → List (Tok N) → Except Failure (Ast N × List (Tok N))
  | 0, _ => .error .frames
  | frames + 1, toks =>
    match toks with
    | .num n :: rest => .ok (.num n, rest)
    | .lparen :: rest => do
      match ← add frames rest with
      | (e, .rparen :: rest) => .ok (e, rest)
      | _ => .error (.error "missing closing parenthesis")
    | .ident name :: rest =>
      let lname := toAsciiLowercase name
      if lname = "e" then .ok (.num k.e, rest)
      else if lname = "pi" then .ok (.num k.pi, rest)
      else call lname name (add frames) rest
    | _ => .error (.error "expected a value")

end

def parse (frames : Nat) (toks : List (Tok N)) : Except Failure (Ast N) := do
  let (e, rest) ← add k frames toks
  if rest = [] then .ok e else .error (.error "trailing characters in expression")

end Echo.DiceServ
