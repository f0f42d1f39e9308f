import Echo.Db.Run
import Mathlib.Order.WithBot
import Mathlib.Algebra.BigOperators.Group.List.Basic
import Mathlib.Algebra.Order.Monoid.Unbundled.WithTop

/-!
The sets that badwords and forbidden vhosts are compiled to (`build_badword_set`).

A pattern is accepted one by one, with regard to case, and compiled with all the others of
its list, without regard to case and under the size limit of a single one. A list that is
too large for it compiles to the set that matches nothing.
-/

namespace Echo

open Echo.Lib

def BADWORD_SIZE_LIMIT : Nat := 2 ^ 20

/-- The regex crate: what patterns and sets compile to in size, with `⊤` for what is no
regex, and what a pattern matches without regard to case. -/
structure RegexCrate where
  size : (caseInsensitive : Bool) → (pattern : String) → WithTop Nat
  setSize : List String → WithTop Nat
  isMatch : (pattern text : String) → Bool
  /-- A set holds each of its patterns. -/
  sum_le : ∀ patterns, (patterns.map (size true)).sum ≤ setSize patterns

namespace RegexCrate

variable (r : RegexCrate)

/-- A pattern compiles on its own, as those that take it ask. -/
def compiles (pattern : String) : Bool := decide (r.size false pattern ≤ BADWORD_SIZE_LIMIT)

/-- What the set of a list of patterns matches. -/
def buildBadwordSet (patterns : List String) (text : String) : Bool :=
  if r.setSize patterns ≤ BADWORD_SIZE_LIMIT then patterns.any (r.isMatch · text)
  else false

/-- The set of a list matches what one of its patterns matches. -/
def SetExact (patterns : List String) : Prop :=
  ∀ text, r.buildBadwordSet patterns text = true ↔ ∃ p ∈ patterns, r.isMatch p text = true

/-- `badword_add` has taken the pattern. -/
def BadwordTaken (pattern : String) : Prop :=
  ∃ (env : Env) (channel : String) (db db' : Db), env.regexCompiles = r.compiles ∧
    (Db.badwordAdd env channel pattern).run.run db = (.ok true, db')

/-- `vhost_forbid_add` has taken the pattern. -/
def VhostForbidTaken (pattern : String) : Prop :=
  ∃ (env : Env) (db db' : Db), env.regexCompiles = r.compiles ∧
    (Db.vhostForbidAdd env pattern).run.run db = (.ok true, db')

variable {r} {patterns : List String} {pattern : String}

/-- A set that fits is exact. -/
theorem setExact_of_fits (fits : r.setSize patterns ≤ BADWORD_SIZE_LIMIT) : r.SetExact patterns := by
  intro text
  unfold buildBadwordSet
  rw [if_pos fits, List.any_eq_true]

/-- One that does not fit matches nothing. -/
theorem buildBadwordSet_of_overfull (overfull : ¬ r.setSize patterns ≤ BADWORD_SIZE_LIMIT)
    (text : String) : r.buildBadwordSet patterns text = false := if_neg overfull

theorem compiles_of_badwordTaken (taken : r.BadwordTaken pattern) : r.compiles pattern = true := by
  obtain ⟨env, channel, db, db', same, ran⟩ := taken
  by_contra bad
  rw [← same] at bad
  unfold Db.badwordAdd at ran
  rw [Bool.not_eq_true] at bad
  rw [bad] at ran
  cases congrArg Prod.fst ran

theorem compiles_of_vhostForbidTaken (taken : r.VhostForbidTaken pattern) :
    r.compiles pattern = true := by
  obtain ⟨env, db, db', same, ran⟩ := taken
  by_contra bad
  rw [← same] at bad
  unfold Db.vhostForbidAdd at ran
  rw [Bool.not_eq_true] at bad
  rw [bad] at ran
  cases congrArg Prod.fst ran

end RegexCrate

/-- The set of a list of patterns is exact if and only if it compiles within the limit, or
none of its patterns matches anything. -/
theorem setExact_iff (r : RegexCrate) (patterns : List String) :
    r.SetExact patterns ↔
      r.setSize patterns ≤ BADWORD_SIZE_LIMIT ∨ ∀ p ∈ patterns, ∀ text, r.isMatch p text = false := by
  constructor
  · intro exact_set
    refine or_iff_not_imp_left.mpr fun overfull p listed text => ?_
    by_contra hit
    have matched := (exact_set text).mpr ⟨p, listed, by simpa using hit⟩
    rw [RegexCrate.buildBadwordSet_of_overfull overfull] at matched
    cases matched
  · rintro (fits | idle)
    · exact RegexCrate.setExact_of_fits fits
    · intro text
      by_cases fits : r.setSize patterns ≤ BADWORD_SIZE_LIMIT
      · exact RegexCrate.setExact_of_fits fits text
      · rw [RegexCrate.buildBadwordSet_of_overfull fits]
        constructor
        · intro impossible
          cases impossible
        · rintro ⟨p, listed, hit⟩
          rw [idle p listed text] at hit
          cases hit

/-! ### Two large patterns -/

namespace RegexCrate

/-- Every pattern takes 600,000 bytes, and matches the text it spells. -/
def bulky : RegexCrate where
  size _ _ := 600000
  setSize patterns := (patterns.map fun _ => (600000 : WithTop Nat)).sum
  isMatch pattern text := pattern == text
  sum_le _ := le_rfl

/-- The surroundings with the crate's answers. -/
def bulkyEnv : Env := { Env.still with regexCompiles := bulky.compiles }

/-- A store in which one channel is registered. -/
def oneChannel : Db :=
  after Db.step (Db.fresh "a")
    [.call .still (.registerPrepared "alice" ⟨"v", "v", @rfl Bool false⟩ none),
      .call .still (.registerChannel "#a" "alice")]

/-- With the first of two patterns listed. -/
def oneBadword : Db := ((Db.badwordAdd bulkyEnv "#a" "spam").run.run oneChannel).2

theorem bulky_taken :
    (bulky.BadwordTaken "spam" ∧ bulky.BadwordTaken "eggs") ∧
      bulky.VhostForbidTaken "spam" ∧ bulky.VhostForbidTaken "eggs" := by
  refine ⟨⟨⟨bulkyEnv, "#a", oneChannel, oneBadword, rfl, Prod.ext ?_ rfl⟩,
    ⟨bulkyEnv, "#a", oneBadword, _, rfl, Prod.ext ?_ rfl⟩⟩,
    ⟨bulkyEnv, oneChannel, _, rfl, Prod.ext ?_ rfl⟩, ⟨bulkyEnv, oneChannel, _, rfl, Prod.ext ?_ rfl⟩⟩ <;>
    rfl

/-- Each pattern is taken, by either command, and their set matches nothing. -/
theorem badwords_switched_off :
    (∀ p ∈ ["spam", "eggs"], bulky.BadwordTaken p ∧ bulky.VhostForbidTaken p) ∧
      bulky.SetExact ["spam"] ∧ ¬ bulky.SetExact ["spam", "eggs"] := by
  refine ⟨?_, setExact_of_fits (by decide), fun exact_set => ?_⟩
  · obtain ⟨⟨spam, eggs⟩, spam', eggs'⟩ := bulky_taken
    exact List.forall_mem_cons.mpr ⟨⟨spam, spam'⟩, List.forall_mem_singleton.mpr ⟨eggs, eggs'⟩⟩
  · have matched := (exact_set "spam").mpr ⟨"spam", by simp, by decide⟩
    exact absurd matched (by decide)

end RegexCrate

end Echo
