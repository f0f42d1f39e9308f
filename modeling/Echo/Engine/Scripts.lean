import Echo.Engine.Text
import Echo.Lib.Splitting
import Mathlib.Data.List.Count
import Mathlib.Data.List.Nodup

/-!
What the look-alike guard tells apart. It sorts the characters of a name into buckets, one
for each range of code points it lists and one for every other letter, and refuses a name
with two buckets, or with none but letters that look Latin. So it separates scripts where,
on the name at hand, the buckets are the scripts.
-/

namespace Echo

open Echo.Lib

section Names

variable (u : Unicode)

/-- The bucket a character counts in, if it counts. -/
def bucket (c : Char) : Option Nat :=
  match scriptId c.toNat with
  | some (_, id) => some id
  | none => if u.alphabetic c then some 99 else none

/-- No invisible character and no stylised letter. -/
def Plain (name : List Char) : Prop :=
  ∀ c ∈ name, isInvisible c.toNat = false ∧ isFancyLatin c.toNat = false

/-- Whether a character is in the ranges of Latin. -/
def isLatin (c : Char) : Bool := (scriptId c.toNat).any fun p => p.1 == .latin

/-- What the rest of a name adds to a scan. -/
structure Counted (name : List Char) (scan scan' : ScriptScan) : Prop where
  scripts : ∀ id, id ∈ scan'.scripts ↔ id ∈ scan.scripts ∨ ∃ c ∈ name, bucket u c = some id
  nodup : scan.scripts.Nodup → scan'.scripts.Nodup
  hasLatin : scan'.hasLatin = (scan.hasLatin || name.any isLatin)
  letters : scan'.letters = scan.letters + name.countP fun c => (bucket u c).isSome
  confusables : scan'.confusables = scan.confusables + name.countP fun c => isLatinConfusable c.toNat

-- The script of a letter.
variable {σ : Type} (script : Char → σ)

end Names

end Echo
