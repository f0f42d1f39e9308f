import Echo.Lib.Runs
import Mathlib.Algebra.Order.Field.Basic
import Mathlib.Data.List.Induction
import Mathlib.Tactic.Linarith
import Mathlib.Tactic.Ring

/-!
Token buckets: what a bucket holds grows at a rate up to a burst, and a request takes one token or
is refused. What it holds is the most that, from any request on, would keep what is granted
within the burst and what has come in since; so a request is granted exactly if this bound allows it.
-/

namespace Echo.Lib

/-- How much may be held, how fast it grows, and that it does not shrink. -/
structure BucketRate (K : Type _) [Field K] [LinearOrder K] where
  burst : K
  perUnit : K
  nonneg : 0 ≤ perUnit

/-- A request and whether it was granted. -/
abbrev Request (K : Type _) := K × Bool

section

variable {K : Type _} [Field K]

def granted (history : List (Request K)) : K := (history.countP (·.2) : Nat)

theorem granted_append (first rest : List (Request K)) :
    granted (first ++ rest) = granted first + granted rest := by
  simp [granted]

end

variable {K : Type _} [Field K] [LinearOrder K] (r : BucketRate K)

/-- Another `x` now, with what has been granted from any request on, stays within the burst and what has come in
since that request. -/
def Within (history : List (Request K)) (now x : K) : Prop :=
  x ≤ r.burst ∧ ∀ before e rest, history = before ++ e :: rest →
    x + granted (e :: rest) ≤ r.burst + (now - e.1) * r.perUnit

variable {r} {history : List (Request K)} {now t x : K}

theorem within_nil : Within r ([] : List (Request K)) now x ↔ x ≤ r.burst := by
  simp [Within]

variable [IsStrictOrderedRing K]

/-- What is within bounds after one request more. -/
theorem within_concat (later : now ≤ t) (answer : Bool) :
    Within r (history ++ [(now, answer)]) t x ↔
      x ≤ r.burst ∧
        Within r history now (x + granted [(now, answer)] - (t - now) * r.perUnit) := by
  have grown : 0 ≤ (t - now) * r.perUnit := mul_nonneg (sub_nonneg.mpr later) r.nonneg
  have elapsed (e : K) : (t - e) * r.perUnit = (t - now) * r.perUnit + (now - e) * r.perUnit := by ring
  constructor
  · rintro ⟨most, bounded⟩
    refine ⟨most, ?_, fun before e rest split => ?_⟩
    · have last := bounded history (now, answer) [] rfl
      linarith
    · have wider := bounded before e (rest ++ [(now, answer)]) (by rw [split, List.append_assoc, List.cons_append])
      rw [← List.cons_append, granted_append, elapsed] at wider
      linarith
  · rintro ⟨most, own, bounded⟩
    refine ⟨most, fun before e rest split => ?_⟩
    rcases List.eq_nil_or_concat rest with rfl | ⟨rest, last, rfl⟩
    · obtain ⟨-, same⟩ := List.append_inj' split rfl
      obtain rfl := (List.cons.inj same).1
      dsimp only
      linarith
    · rw [List.concat_eq_append] at split ⊢
      have whole : history ++ [(now, answer)] = (before ++ e :: rest) ++ [last] := by
        rw [split, List.append_assoc, List.cons_append]
      obtain ⟨rfl, same⟩ := List.append_inj' whole rfl
      obtain rfl := (List.cons.inj same).1
      have shorter := bounded before e rest rfl
      rw [← List.cons_append, granted_append, elapsed]
      linarith

/-- What a bucket holds after a request, said by its bounds. -/
theorem within_take {held : K} (known : ∀ y, y ≤ held ↔ Within r history now y) (later : now ≤ t) (x : K) :
    x ≤ min (held - granted [(now, decide (1 ≤ held))] + (t - now) * r.perUnit) r.burst ↔
      Within r (history ++ [(now, decide (1 ≤ held))]) t x := by
  rw [within_concat later, ← known, le_min_iff, and_comm]
  refine and_congr_right fun _ => ?_
  constructor <;> intro le <;> linarith

/-- A request is granted or not, and what has been granted is no more than may have been. -/
theorem Within.granted_le {held : K} (known : ∀ y, y ≤ held ↔ Within r history now y) (some : 0 ≤ held)
    {before rest : List (Request K)} {e : Request K} (split : history = before ++ e :: rest) :
    granted (e :: rest) ≤ r.burst + (now - e.1) * r.perUnit := by
  have bounded := ((known 0).mp some).2 before e rest split
  linarith

/-! ### Buckets -/

structure Bucket (K : Type _) where
  tokens : K
  last : K

namespace Bucket

variable (r) (b : Bucket K)

def full (now : K) : Bucket K := ⟨r.burst, now⟩

/-- What it holds by now. -/
def refilled (now : K) : K := min (b.tokens + (now - b.last) * r.perUnit) r.burst

def take (now : K) : Bucket K × Bool :=
  let tokens := b.refilled r now
  if 1 ≤ tokens then (⟨tokens - 1, now⟩, true) else (⟨tokens, now⟩, false)

/-- A bucket and the requests it has answered. -/
structure Served (K : Type _) where
  bucket : Bucket K
  history : List (Request K) := []

def Served.step (s : Served K) (now : K) : Served K :=
  ⟨(s.bucket.take r now).1, s.history ++ [(now, (s.bucket.take r now).2)]⟩

variable {r b}

omit [IsStrictOrderedRing K] in
theorem take_eq (now : K) :
    b.take r now =
      (⟨b.refilled r now - granted [(now, decide (1 ≤ b.refilled r now))], now⟩,
        decide (1 ≤ b.refilled r now)) := by
  by_cases some : 1 ≤ b.refilled r now <;> simp [take, granted, some]

/-- What a bucket holds that was full to begin with. -/
theorem held_iff {start : K} {times : List K} {now : K} (ordered : (start :: times ++ [now]).Pairwise (· ≤ ·)) (x : K) :
    let s := after (Served.step r) ⟨full r start, []⟩ times
    x ≤ s.bucket.refilled r now ↔ Within r s.history now x := by
  induction times using List.reverseRecOn generalizing now x with
  | nil =>
      have later : start ≤ now := by simpa using ordered
      have grown : 0 ≤ (now - start) * r.perUnit := mul_nonneg (sub_nonneg.mpr later) r.nonneg
      simp only [after_nil, within_nil, full, refilled]
      rw [min_eq_right (by linarith)]
  | append_singleton times last ih =>
      intro s
      have before : (start :: times ++ [last]).Pairwise (· ≤ ·) := by
        rw [← List.cons_append] at ordered
        exact (List.pairwise_append.mp ordered).1
      have later : last ≤ now := (List.pairwise_append.mp ordered).2.2 last (by simp) now (by simp)
      have known := ih before
      have served : s = Served.step r (after (Served.step r) ⟨full r start, []⟩ times) last := after_concat ..
      rw [served]
      simp only [Served.step, take_eq]
      exact within_take known later x

/-- A request is granted exactly if the bounds allow one more. -/
theorem granted_iff {start : K} {times : List K} {now : K} (ordered : (start :: times ++ [now]).Pairwise (· ≤ ·)) :
    let s := after (Served.step r) ⟨full r start, []⟩ times
    (s.bucket.take r now).2 = true ↔ Within r s.history now 1 := by
  intro s
  rw [take_eq, decide_eq_true_eq]
  exact held_iff ordered 1

end Bucket

end Echo.Lib
