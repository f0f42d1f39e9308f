import Echo.Engine.Kicker
import Echo.Engine.PatternSets
import Echo.Engine.Triggers

/-!
The compiled badwords and triggers of the channels, held by the engine from one line to the
next (`engine/kicker.rs`). What is held of a channel is used as long as the revision of its
list and the second of its registration are those it was compiled under; a channel that is
dropped, renamed or registered again leaves what is held of it behind.
-/

namespace Echo

open Echo.Lib
open Triggers (CachedTriggers Captures TriggerRt)

namespace KickerCaches

/-- The compiled badwords of a channel. -/
structure CachedBadwords where
  rev : Nat
  ts : Nat
  set : (text : String) → Bool

/-- A line said to a channel, with what the network knows then. -/
structure Line where
  «from» : String
  channel : String
  text : String
  now : Nat
  /-- Whether who says it is an operator there, or has voice. -/
  isOp : Bool
  isVoiced : Bool
  uidByNick : String → Option String
  nickOf : String → Option String

/-- `kicker_check` comes to the channel's badwords. -/
def Line.meetsBadwords (line : Line) (c : ChannelInfo) : Bool :=
  let k := c.kickers
  k.any && !(k.dontkickops && line.isOp) && !(k.dontkickvoices && line.isVoiced) &&
    (c.assignedBot.bind line.uidByNick).isSome && (k.violation line.text).isNone &&
    k.badwords && !c.badwords.isEmpty

/-- `trigger_response` comes to the channel's triggers. -/
def Line.meetsTriggers (line : Line) (c : ChannelInfo) : Bool :=
  !c.triggers.isEmpty && (c.assignedBot.bind line.uidByNick).isSome

/-- The records, and what is held of the channels by their folded names. -/
structure Kept where
  db : Db
  badwords : Assoc String CachedBadwords := ∅
  triggers : Assoc String CachedTriggers := ∅

/-- One thing that happens to them. -/
inductive Act where
  /-- Anything that changes the records. -/
  | store (a : Action)
  | kickerCheck (line : Line)
  | triggerResponse (line : Line)
  | prune

-- The regex crate: a set of badwords, and a trigger's pattern if it can be compiled.
variable (r : RegexCrate) (compile : (pattern : String) → Option ((text : String) → Option Captures))

/-- The channel's badwords as they were last compiled, or compiled anew. -/
def cachedBadwords (cache : Assoc String CachedBadwords) (k : String) (c : ChannelInfo) : CachedBadwords :=
  match cache.lookup k with
  | some held => if (held.rev, held.ts) = (c.badwordsRev % 2 ^ 64, c.ts) then held else compiled
  | none => compiled
where
  compiled : CachedBadwords := ⟨c.badwordsRev % 2 ^ 64, c.ts, r.buildBadwordSet c.badwords⟩

namespace Kept

variable (w : Kept)

/-- The badwords that a line is held against, if it is. -/
def badwordsFor (line : Line) : Option CachedBadwords :=
  ((w.db.channel line.channel).filter line.meetsBadwords).map
    (cachedBadwords r w.badwords (key line.channel))

/-- The triggers that a line is held against, if it is. -/
def triggersFor (line : Line) : Option (List TriggerRt) :=
  ((w.db.channel line.channel).filter line.meetsTriggers).map fun c =>
    (Triggers.cached compile w.triggers (toAsciiLowercase line.channel) c).entries

/-- Forget what is held of channels that are no more. -/
def pruneKickerCaches : Kept :=
  { w with
    badwords := Assoc.retain (fun k _ => (w.db.channel k).isSome) w.badwords
    triggers := Assoc.retain (fun k _ => (w.db.channel k).isSome) w.triggers }

def step : Act → Kept
  -- A restart holds nothing yet.
  | .store .reopen => { db := w.db.step .reopen }
  | .store a => { w with db := w.db.step a }
  | .kickerCheck line =>
      match w.badwordsFor r line with
      | none => w
      | some held => { w with badwords := w.badwords.insert (key line.channel) held }
  | .triggerResponse line =>
      { w with
        triggers := (Triggers.triggerResponse compile line.uidByNick line.nickOf
          (w.db.channel line.channel) w.triggers line.now line.from line.channel line.text).1 }
  | .prune => w.pruneKickerCaches

end Kept

end KickerCaches

end Echo
