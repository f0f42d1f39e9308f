import Echo.GameServ.Play
import Echo.Lib.Assoc

/-!
The counters of the ladder and what is read off them: each is read back as what it was
bumped for, and the record that STATS shows of an account, which is its row in TOP, is what
the results counted come to.
-/

namespace Echo.GameServ

open Echo.Lib

/-- How a ranked game between two accounts ended. -/
structure Result where
  gt : GameType
  accA : String
  accB : String
  outcome : Outcome
  deriving DecidableEq, Repr

namespace Result

variable (r : Result)

def winner : Option String :=
  match r.outcome with
  | .win .a => some r.accA
  | .win .b => some r.accB
  | .draw => none

def loser : Option String :=
  match r.outcome with
  | .win .a => some r.accB
  | .win .b => some r.accA
  | .draw => none

def drawn : List String :=
  match r.outcome with
  | .draw => [r.accA, r.accB]
  | .win _ => []

/-- The counters it bumps. -/
def keys : List String :=
  r.winner.toList.map (counterKey r.gt 'w') ++ r.loser.toList.map (counterKey r.gt 'l') ++
    r.drawn.map (counterKey r.gt 'd')

end Result

/-! ### Reading the ladder -/

/-- The record that results come to. -/
def standing (results : List Result) (gt : GameType) (account : String) : Stats where
  wins := results.countP fun r => r.gt == gt && r.winner == some account
  losses := results.countP fun r => r.gt == gt && r.loser == some account
  draws := results.countP fun r => r.gt == gt && r.drawn.contains account

/-- The network's counters, one of them raised. -/
def bump (stats : Assoc String Nat) (key : String) : Assoc String Nat :=
  stats.insert key ((stats.lookup key).getD 0 + 1)

def statCounters (stats : Assoc String Nat) : List (String × Nat) := stats.entries.map fun e => (e.1, e.2)

/-- The row of an account, empty if there is none. -/
def row (rows : List (String × Stats)) (account : String) : Stats := (rows.lookup account).getD {}

end Echo.GameServ
