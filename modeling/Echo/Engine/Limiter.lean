import Echo.Db.Types
import Echo.Lib.Runs
import Mathlib.Algebra.Order.Field.Rat
import Mathlib.Tactic.Linarith
import Mathlib.Tactic.Positivity

/-!
Flood control of the service commands (`CmdLimiter` in `engine/mod.rs`): a bucket of
tokens a host, refilled over time, and one warning a window once it is empty. Tokens are
exact; times are nanoseconds of a clock that does not go back.

A bucket that has refilled is swept away as one that tells nothing, but it also tells
when its host was last warned.
-/

namespace Echo

open Std (ExtTreeMap)
open Echo.Lib

/-! ### The limiter -/

structure CmdBucket where
  tokens : ℚ
  last : Nat
  lastWarn : Option Nat

structure CmdLimiter where
  buckets : Table CmdBucket := ∅
  lastSweep : Option Nat := none

inductive CmdVerdict where
  | allow | warn | drop
  deriving DecidableEq

namespace CmdLimiter

def seconds (n : Nat) : Nat := n * 10 ^ 9

def cmdBurst : ℚ := 15
def cmdRefillPerSec : ℚ := 1 / 2
def cmdWarnEvery : Nat := seconds 30
def cmdSweepEvery : Nat := seconds 60

end CmdLimiter

open CmdLimiter

/-- What the bucket holds by now, were there no limit to it. -/
def CmdBucket.refilled (b : CmdBucket) (now : Nat) : ℚ :=
  b.tokens + ((now - b.last : Nat) : ℚ) / 10 ^ 9 * cmdRefillPerSec

namespace CmdLimiter

/-- Drop the full buckets, once a minute. -/
def sweep (l : CmdLimiter) (now : Nat) : CmdLimiter :=
  if l.lastSweep.any (now - · < cmdSweepEvery) then l
  else { buckets := l.buckets.filter fun _ b => b.refilled now < cmdBurst, lastSweep := some now }

/-- `check_at` once it has swept. -/
def serve (l : CmdLimiter) (key : String) (now : Nat) : CmdLimiter × CmdVerdict :=
  let b := l.buckets[key]?.getD { tokens := cmdBurst, last := now, lastWarn := none }
  let tokens := min (b.refilled now) cmdBurst
  let put (b : CmdBucket) : CmdLimiter := { l with buckets := l.buckets.insert key b }
  if 1 ≤ tokens then (put { b with tokens := tokens - 1, last := now }, .allow)
  else if b.lastWarn.all (cmdWarnEvery ≤ now - ·) then
    (put { tokens, last := now, lastWarn := some now }, .warn)
  else (put { b with tokens, last := now }, .drop)

def checkAt (l : CmdLimiter) (key : String) (now : Nat) : CmdLimiter × CmdVerdict :=
  (l.sweep now).serve key now

/-! ### Runs -/

/-- A command of a host. -/
structure Command where
  host : String
  now : Nat

/-- The verdicts on some commands, under a way to check one. -/
def verdicts (check : CmdLimiter → String → Nat → CmdLimiter × CmdVerdict) :
    CmdLimiter → List Command → List (Command × CmdVerdict)
  | _, [] => []
  | l, c :: commands =>
      (c, (check l c.host c.now).2) :: verdicts check (check l c.host c.now).1 commands

/-- The sweep due now, if any, drops no bucket whose host was warned within the window. -/
def Spares (l : CmdLimiter) (now : Nat) : Prop :=
  l.lastSweep.any (now - · < cmdSweepEvery) = false →
    ∀ (key : String) (b : CmdBucket), l.buckets[key]? = some b → cmdBurst ≤ b.refilled now →
      b.lastWarn.all (cmdWarnEvery ≤ now - ·) = true

/-! ### What a bucket tells -/

section Buckets

/-- The tokens a host can spend. One without a bucket has a full one. -/
def tokensAt (b : Option CmdBucket) (now : Nat) : ℚ :=
  b.elim cmdBurst fun b => min (b.refilled now) cmdBurst

/-- The host may be warned. -/
def due (b : Option CmdBucket) (now : Nat) : Bool :=
  (b.bind (·.lastWarn)).all (cmdWarnEvery ≤ now - ·)

/-- No later command tells the two apart. -/
def Alike (since : Nat) (b b' : Option CmdBucket) : Prop :=
  ∀ t, since ≤ t → tokensAt b t = tokensAt b' t ∧ due b t = due b' t

def verdict (tokens : ℚ) (due : Bool) : CmdVerdict :=
  if 1 ≤ tokens then .allow else if due then .warn else .drop

/-- The bucket a command leaves. -/
def spent (b : Option CmdBucket) (now : Nat) : CmdBucket :=
  { tokens := if 1 ≤ tokensAt b now then tokensAt b now - 1 else tokensAt b now
    last := now
    lastWarn :=
      if verdict (tokensAt b now) (due b now) = .warn then some now else b.bind (·.lastWarn) }

variable {b b' : Option CmdBucket} {t t' : Nat}

theorem refilled_mono (b : CmdBucket) (le : t ≤ t') : b.refilled t ≤ b.refilled t' := by
  have elapsed : ((t - b.last : Nat) : ℚ) ≤ ((t' - b.last : Nat) : ℚ) := by
    exact_mod_cast Nat.sub_le_sub_right le b.last
  unfold CmdBucket.refilled cmdRefillPerSec
  linarith

theorem Alike.mono (alike : Alike t b b') (le : t ≤ t') : Alike t' b b' :=
  fun u later => alike u (le.trans later)

theorem Alike.refl (b : Option CmdBucket) : Alike t b b := fun _ _ => ⟨rfl, rfl⟩

/-- A command answers by what the bucket tells, and keeps the account. -/
theorem serve_eq (l : CmdLimiter) (key : String) (now : Nat) :
    l.serve key now =
      ({ l with buckets := l.buckets.insert key (spent l.buckets[key]? now) },
        verdict (tokensAt l.buckets[key]? now) (due l.buckets[key]? now)) := by
  have tokens : min ((l.buckets[key]?.getD ⟨cmdBurst, now, none⟩).refilled now) cmdBurst =
      tokensAt l.buckets[key]? now := by
    cases l.buckets[key]? with
    | none => simp [CmdBucket.refilled, tokensAt]
    | some b => rfl
  have warned : (l.buckets[key]?.getD ⟨cmdBurst, now, none⟩).lastWarn =
      l.buckets[key]?.bind (·.lastWarn) := by
    cases l.buckets[key]? <;> rfl
  unfold serve spent verdict
  dsimp only
  rw [tokens, warned]
  change (if _ then _ else if due l.buckets[key]? now = true then _ else _) = _
  by_cases enough : 1 ≤ tokensAt l.buckets[key]? now
  · simp [enough]
  · by_cases owed : due l.buckets[key]? now = true
    · simp [enough, owed]
    · simp [enough, owed]

theorem tokensAt_spent (b : Option CmdBucket) (now t : Nat) :
    tokensAt (some (spent b now)) t =
      min ((if 1 ≤ tokensAt b now then tokensAt b now - 1 else tokensAt b now) +
        ((t - now : Nat) : ℚ) / 10 ^ 9 * cmdRefillPerSec) cmdBurst :=
  rfl

theorem due_spent (b : Option CmdBucket) (now t : Nat) :
    due (some (spent b now)) t =
      if verdict (tokensAt b now) (due b now) = .warn then decide (cmdWarnEvery ≤ t - now)
      else due b t := by
  have last : due (some (spent b now)) t = (if verdict (tokensAt b now) (due b now) = .warn
      then some now else b.bind (·.lastWarn)).all (cmdWarnEvery ≤ t - ·) := rfl
  rw [last]
  split <;> rfl

/-- What is alike before a command is alike after it. -/
theorem Alike.spent (alike : Alike t b b') (le : t ≤ t') :
    Alike t' (some (CmdLimiter.spent b t')) (some (CmdLimiter.spent b' t')) := by
  intro u later
  obtain ⟨tokens, owed⟩ := alike t' le
  rw [tokensAt_spent, tokensAt_spent, due_spent, due_spent, tokens, owed,
    (alike u (le.trans later)).2]
  exact ⟨rfl, rfl⟩

end Buckets

/-! ### Two limiters -/

section Limiters

variable {l m : CmdLimiter} {t t' now : Nat} {key host : String}

/-- No later command tells the two limiters apart. -/
def AlikeAll (since : Nat) (l m : CmdLimiter) : Prop :=
  ∀ key : String, Alike since l.buckets[key]? m.buckets[key]?

theorem AlikeAll.mono (alike : AlikeAll t l m) (le : t ≤ t') : AlikeAll t' l m :=
  fun key => (alike key).mono le

theorem getElem?_serve (l : CmdLimiter) (key host : String) (now : Nat) :
    (l.serve key now).1.buckets[host]? =
      if key = host then some (spent l.buckets[key]? now) else l.buckets[host]? := by
  rw [serve_eq, ExtTreeMap.getElem?_insert]
  exact if_congr Std.LawfulEqCmp.compare_eq_iff_eq rfl rfl

theorem AlikeAll.verdict (alike : AlikeAll t l m) (le : t ≤ now) (key : String) :
    (l.serve key now).2 = (m.serve key now).2 := by
  obtain ⟨tokens, owed⟩ := alike key now le
  rw [serve_eq, serve_eq, tokens, owed]

theorem AlikeAll.serve (alike : AlikeAll t l m) (le : t ≤ now) (key : String) :
    AlikeAll now (l.serve key now).1 (m.serve key now).1 := by
  intro host
  rw [getElem?_serve, getElem?_serve]
  by_cases own : key = host
  · rw [if_pos own, if_pos own]
    exact (alike key).spent le
  · rw [if_neg own, if_neg own]
    exact (alike host).mono le

theorem getElem?_sweep (l : CmdLimiter) (now : Nat) (host : String) :
    (l.sweep now).buckets[host]? =
      if l.lastSweep.any (now - · < cmdSweepEvery) = true then l.buckets[host]?
      else l.buckets[host]?.filter fun b => b.refilled now < cmdBurst := by
  unfold sweep
  split
  · rfl
  · rw [ExtTreeMap.getElem?_filter']

end Limiters

/-! ### The window -/

end CmdLimiter

end Echo
