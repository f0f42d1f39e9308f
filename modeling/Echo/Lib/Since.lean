import Echo.Lib.Runs
import Mathlib.Data.List.Induction

/-!
Facts that some steps of a run set and others clear. Such a fact holds after a run exactly if it
has been set and not cleared since.
-/

namespace Echo.Lib

variable {σ α : Type _} {step : σ → α → σ} {Sets Clears : σ → α → Prop}

end Echo.Lib
