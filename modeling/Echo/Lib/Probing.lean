import Mathlib.Logic.Function.Iterate
import Mathlib.Tactic.Common

/-!
Names from a counter: the first that is free, of so many that follow the counter, or else the one
after those.
-/

namespace Echo.Lib

variable {κ α : Type _} (candidate : κ → α) (next : κ → κ) (free : α → Bool)

/-- The name that is picked and the counter behind it, after so many rounds of probing. -/
def probe : ℕ → κ → α × κ
  | 0, k => (candidate k, next k)
  | rounds + 1, k => if free (candidate k) then (candidate k, next k) else probe rounds (next k)

variable {candidate next free}

end Echo.Lib
