import Echo.Db.Codes
import Echo.Db.Offers

/-!
The ids of juped servers. They come from a counter, which a restart puts at the number
of jupes its file adds and which goes round: an id is handed out again once the counter
stands where it stood before, and nothing asks whether a jupe still has it.
-/

namespace Echo.Jupes

open Echo.Lib

/-- One thing that happens to the jupes, or to the file they are written to. -/
inductive Action where
  | add (name reason : String)
  | del (name : String)
  | compact (env : Env)
  | reopen
  | faults (outcomes : List Bool)

/-- The action of the store. -/
def Action.act : Action → Echo.Action
  | .add name reason => .call .still (.jupeAdd name reason)
  | .del name => .call .still (.jupeDel name)
  | .compact env => .compact env
  | .reopen => .reopen
  | .faults outcomes => .faults outcomes

def step (db : Db) (a : Action) : Db := db.step a.act

/-- No two jupes of the store have one id. -/
def Apart (s : Store) : Prop := (s.net.jupes.map (·.sid)).Nodup

variable {db : Db} {s : Store} {name reason : String} {seq : Nat}

end Echo.Jupes
