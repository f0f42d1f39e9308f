import Echo.Engine.Limiter
import Echo.Lib.TokenBucket

/-!
What flood control lets through of each host: a command goes through exactly if the commands of its
host that did since any earlier one are within the burst and what has been refilled since.
Sweeping full buckets away makes no difference to it.
-/

namespace Echo.CmdLimiter

open Std (ExtTreeMap)
open Echo.Lib

def inSeconds (n : Nat) : ℚ := n / 10 ^ 9

theorem cmdRefillPerSec_nonneg : 0 ≤ cmdRefillPerSec := by norm_num [cmdRefillPerSec]

def cmdRate : BucketRate ℚ := ⟨cmdBurst, cmdRefillPerSec, cmdRefillPerSec_nonneg⟩

/-- The limiter after some commands. -/
def served (l : CmdLimiter) (run : List Command) : CmdLimiter :=
  after (fun l c => (l.checkAt c.host c.now).1) l run

/-- The commands of a host, and which went through. -/
def commandsOf (host : String) (answered : List (Command × CmdVerdict)) : List (Request ℚ) :=
  (answered.filter fun a => a.1.host == host).map fun a => (inSeconds a.1.now, a.2 == .allow)

variable {l : CmdLimiter} {now t : Nat} {host : String} {run : List Command} {c : Command}

theorem inSeconds_le (le : now ≤ t) : inSeconds now ≤ inSeconds t := by
  unfold inSeconds
  have later : (now : ℚ) ≤ t := by exact_mod_cast le
  linarith

theorem elapsed_eq (le : now ≤ t) : ((t - now : Nat) : ℚ) / 10 ^ 9 = inSeconds t - inSeconds now := by
  unfold inSeconds
  rw [Nat.cast_sub le, sub_div]

theorem tokensAt_sweep (le : now ≤ t) :
    tokensAt (l.sweep now).buckets[host]? t = tokensAt l.buckets[host]? t := by
  rw [getElem?_sweep]
  split
  · rfl
  · cases held : l.buckets[host]? with
    | none => rfl
    | some b =>
        by_cases full : cmdBurst ≤ b.refilled now
        · have gone : (some b).filter (fun b => b.refilled now < cmdBurst) = none := by simpa using full
          rw [gone]
          exact (min_eq_right (full.trans (refilled_mono b le))).symm
        · have stays : (some b).filter (fun b => b.refilled now < cmdBurst) = some b := by
            simpa using not_le.mp full
          rw [stays]

theorem verdicts_concat (l : CmdLimiter) (run : List Command) (c : Command) :
    verdicts checkAt l (run ++ [c]) =
      verdicts checkAt l run ++ [(c, ((served l run).checkAt c.host c.now).2)] := by
  induction run generalizing l with
  | nil => rfl
  | cons d run ih =>
      rw [List.cons_append, verdicts, ih]
      rfl

theorem allow_iff (l : CmdLimiter) (key : String) (now : Nat) :
    (l.checkAt key now).2 = .allow ↔ 1 ≤ tokensAt l.buckets[key]? now := by
  rw [checkAt, serve_eq, tokensAt_sweep le_rfl]
  unfold verdict
  split
  · simp_all
  · split <;> simp_all

/-- What a host that has just been served can spend later. -/
theorem tokensAt_served (l : CmdLimiter) (key : String) (le : now ≤ t) :
    tokensAt (l.checkAt key now).1.buckets[key]? t =
      min (tokensAt l.buckets[key]? now -
          granted [(inSeconds now, decide (1 ≤ tokensAt l.buckets[key]? now))] +
        (inSeconds t - inSeconds now) * cmdRate.perUnit) cmdRate.burst := by
  rw [checkAt, getElem?_serve, if_pos rfl, tokensAt_spent, tokensAt_sweep le_rfl, elapsed_eq le]
  by_cases some : 1 ≤ tokensAt l.buckets[key]? now <;> simp [some, granted, cmdRate]

/-- What a host can spend after a run. -/
theorem tokens_iff (ordered : run.Pairwise (·.now ≤ ·.now)) (past : ∀ c ∈ run, c.now ≤ now) (host : String)
    (x : ℚ) :
    x ≤ tokensAt (served {} run).buckets[host]? now ↔
      Within cmdRate (commandsOf host (verdicts checkAt {} run)) (inSeconds now) x := by
  induction run using List.reverseRecOn generalizing now x with
  | nil =>
      have none : tokensAt (served {} []).buckets[host]? now = cmdBurst := by
        simp [served, tokensAt]
      rw [none]
      exact (within_nil (r := cmdRate)).symm
  | append_singleton run c ih =>
      obtain ⟨before, -, first⟩ := List.pairwise_append.mp ordered
      have later : c.now ≤ now := past c (by simp)
      have old (x : ℚ) := ih before (fun d mem => first d mem c (by simp)) x
      have grown : served {} (run ++ [c]) = ((served {} run).checkAt c.host c.now).1 := after_concat ..
      rw [grown, verdicts_concat]
      unfold commandsOf
      rw [List.filter_append, List.map_append]
      by_cases own : c.host = host
      · subst own
        have answer : (((served {} run).checkAt c.host c.now).2 == .allow) =
            decide (1 ≤ tokensAt (served {} run).buckets[c.host]? c.now) := by
          rw [Bool.eq_iff_iff, beq_iff_eq, allow_iff, decide_eq_true_eq]
        simp only [List.filter_cons, beq_self_eq_true, if_true, List.filter_nil, List.map_cons, List.map_nil, answer]
        rw [tokensAt_served _ _ later]
        exact within_take old (inSeconds_le later) x
      · have others : ((served {} run).checkAt c.host c.now).1.buckets[host]? =
            ((served {} run).sweep c.now).buckets[host]? := by
          rw [checkAt, getElem?_serve, if_neg own]
        rw [others, tokensAt_sweep later]
        simp only [List.filter_cons, beq_iff_eq, own, if_false, List.filter_nil, List.map_nil, List.append_nil]
        exact ih before (fun d mem => past d (List.mem_append_left _ mem)) x

/-- A host that has used up its burst. -/
def burst : List Command := List.replicate 15 ⟨"192.0.2.1", 0⟩

end Echo.CmdLimiter
