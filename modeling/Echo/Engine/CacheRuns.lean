import Echo.Db.Aging
import Echo.Db.CoreRun
import Echo.Engine.KickerCaches

/-!
Runs of the records and of what is held of the channels' lists. What is held of a name was
built from one state of the list of the channel registered there, or of a channel registered
in another second; and no name is to be given to a channel of the second of what is held.
-/

namespace Echo

open Std (ExtTreeMap)
open Echo.Lib
open Triggers (CachedTriggers Captures TriggerRt)

namespace KickerCaches

variable {r : RegexCrate} {compile : (pattern : String) → Option ((text : String) → Option Captures)}
variable {w : Kept} {line : Line}

/-! ### What is held -/

def CachedBadwords.toHeld (held : CachedBadwords) : Held (String → Bool) := ⟨held.rev, held.ts, held.set⟩

/-- Triggers apart from when they last fired. -/
def rested (entries : List TriggerRt) : List TriggerRt := entries.map ({ · with lastFired := 0 })

def heldTriggers (held : CachedTriggers) : Held (List TriggerRt) := ⟨held.rev, held.ts, rested held.entries⟩

/-- A channel's triggers compiled, those that can be. -/
def compiledTriggers (compile : (pattern : String) → Option ((text : String) → Option Captures))
    (triggers : List Trigger) : List TriggerRt :=
  triggers.filterMap fun t => (compile t.pattern).map fun captures =>
    { captures, response := t.response, cooldown := t.cooldown, lastFired := 0 }

theorem rested_compiled (triggers : List Trigger) :
    rested (compiledTriggers compile triggers) = compiledTriggers compile triggers := by
  unfold rested compiledTriggers
  rw [List.map_filterMap]
  refine List.filterMap_congr fun t _ => ?_
  rw [Option.map_map]
  rfl

theorem rested_fire (now : Nat) (text : String) (entries : List TriggerRt) :
    rested (Triggers.fire now text entries).1 = rested entries := by
  induction entries with
  | nil => rfl
  | cons e entries ih =>
      unfold Triggers.fire
      split
      · exact congrArg (_ :: ·) ih
      · split <;> rfl

theorem toHeld_cached (cache : Assoc String CachedBadwords) (k : String) (c : ChannelInfo) :
    (cachedBadwords r cache k c).toHeld =
      .fetch r.buildBadwordSet (2 ^ 64) ((cache.lookup k).map CachedBadwords.toHeld) c.badwordSource := by
  unfold cachedBadwords
  cases cache.lookup k with
  | none => rfl
  | some held => exact apply_ite CachedBadwords.toHeld _ _ _

theorem heldTriggers_cached (cache : Assoc String CachedTriggers) (k : String) (c : ChannelInfo) :
    heldTriggers (Triggers.cached compile cache k c) =
      .fetch (compiledTriggers compile) (2 ^ 64) ((cache.lookup k).map heldTriggers) c.triggerSource := by
  have compiled : heldTriggers (Triggers.cached.compiled compile c) =
      .fresh (compiledTriggers compile) (2 ^ 64) c.triggerSource :=
    congrArg (Held.mk _ _) (rested_compiled c.triggers)
  unfold Triggers.cached
  cases cache.lookup k with
  | none => exact compiled
  | some held =>
      dsimp only
      rw [apply_ite heldTriggers, compiled]
      rfl

/-- What is held of a name was built from the list of its channel, if of this registration. -/
structure Sound (r : RegexCrate) (compile : (pattern : String) → Option ((text : String) → Option Captures))
    (w : Kept) : Prop where
  wf : w.db.Wf
  badwords : ∀ (k : String) c, w.db.channels[k]? = some c →
    ∀ e ∈ (w.badwords.lookup k).map CachedBadwords.toHeld,
      Held.Backed r.buildBadwordSet (2 ^ 64) e c.badwordSource
  triggers : ∀ (k : String) c, w.db.channels[k]? = some c →
    ∀ e ∈ (w.triggers.lookup k).map heldTriggers,
      Held.Backed (compiledTriggers compile) (2 ^ 64) e c.triggerSource

/-! ### Steps -/

/-- Nothing is held of the name from a registration of this second. -/
structure Apart (w : Kept) (name : String) (ts : Nat) : Prop where
  badwords : ∀ held, w.badwords.lookup (key name) = some held → held.ts ≠ ts
  triggers : ∀ held, w.triggers.lookup (key name) = some held → held.ts ≠ ts

/-- The name that an event gives to a channel, if any, has nothing held of it from the second of
that channel's registration. -/
def Given (w : Kept) : Event → Prop
  | .channelRegistered name _ ts => Apart w name ts
  | .channelRenamed old new =>
      ∀ c, w.db.channels[key old]? = some c → key old ≠ key new → Apart w new c.ts
  | _ => True

/-- Where nothing is held yet, all of it is sound. -/
theorem Sound.unheld {db : Db} (wf : db.Wf) : Sound r compile { db } where
  wf := wf
  badwords _ _ _ e mem := by
    change e ∈ (none : Option CachedBadwords).map CachedBadwords.toHeld at mem
    cases mem
  triggers _ _ _ e mem := by
    change e ∈ (none : Option CachedTriggers).map heldTriggers at mem
    cases mem

theorem Sound.moves (sound : Sound r compile w) {db' : Db} (wf : db'.Wf)
    (from_ : ∀ (k : String) c', db'.channels[k]? = some c' →
      (∃ c, w.db.channels[k]? = some c ∧ c.Ages c') ∨ ∃ name, key name = k ∧ Apart w name c'.ts) :
    Sound r compile { w with db := db' } := by
  refine ⟨wf, fun k c' held e mem => ?_, fun k c' held e mem => ?_⟩
  · rcases from_ k c' held with ⟨c, was, ages⟩ | ⟨name, rfl, apart⟩
    · exact (sound.badwords k c was e mem).ages ages.badwords
    · obtain ⟨held, found, rfl⟩ := Option.map_eq_some_iff.mp mem
      exact Held.backed_apart (apart.badwords held found)
  · rcases from_ k c' held with ⟨c, was, ages⟩ | ⟨name, rfl, apart⟩
    · exact (sound.triggers k c was e mem).ages ages.triggers
    · obtain ⟨held, found, rfl⟩ := Option.map_eq_some_iff.mp mem
      exact Held.backed_apart (apart.triggers held found)

theorem Sound.same (sound : Sound r compile w) {db' : Db} (wf : db'.Wf) (same : db'.toStore = w.db.toStore) :
    Sound r compile { w with db := db' } :=
  sound.moves wf fun k c held => .inl ⟨c, (congrArg (·.channels[k]?) same) ▸ held, .refl c⟩

/-- An event that gives a name away carefully leaves what is held sound. -/
theorem Sound.event (sound : Sound r compile w) {e : Event} (given : Given w e) {db' : Db} (wf : db'.Wf)
    (stores : db'.toStore = apply w.db.toStore e) : Sound r compile { w with db := db' } := by
  have channels : db'.channels = (apply w.db.toStore e).channels := congrArg Store.channels stores
  refine sound.moves wf fun k c' held => ?_
  rw [channels] at held
  by_cases registered : ∃ name founder ts, e = .channelRegistered name founder ts
  · obtain ⟨name, founder, ts, rfl⟩ := registered
    rcases Store.channels_registered held with ⟨same, rfl⟩ | was
    · exact .inr ⟨name, same, given⟩
    · exact .inl ⟨c', was, .refl c'⟩
  by_cases renamed : ∃ old new, e = .channelRenamed old new
  · obtain ⟨old, new, rfl⟩ := renamed
    rcases Store.channels_renamed held with ⟨rfl, moved, was, ages⟩ | was
    · by_cases same : key old = key new
      · exact .inl ⟨moved, same ▸ was, ages⟩
      · refine .inr ⟨new, rfl, ?_⟩
        rw [show c'.ts = moved.ts from ages.badwords.ts]
        exact given moved was same
    · exact .inl ⟨c', was, .refl c'⟩
  · refine .inl (Store.ages_apply ?_ ?_ k c' held)
    · exact fun name founder ts same => registered ⟨name, founder, ts, same⟩
    · exact fun old new same => renamed ⟨old, new, same⟩

/-- A logged edit is made if the event reached the log. -/
theorem logged_stores {ε : Type} (event : Event) (onError : IoError → ε) (write : Store → Store) (db : Db) :
    ((Db.logged event onError write).run.run db).2.toStore = db.toStore ∨
      ((Db.logged event onError write).run.run db).2.toStore = write db.toStore := by
  rw [Db.run_logged]
  rcases db.log.append event with ⟨log, err | ⟨⟩⟩
  · exact .inl rfl
  · exact .inr rfl

/-- The records are as they were, or moved by a registration of a free name. -/
theorem registerChannel_stores (env : Env) (name founder : String) (db : Db) :
    (((Call.registerChannel name founder).run env).run db).2.toStore = db.toStore ∨
      db.channels.contains (key name) = false ∧
        (((Call.registerChannel name founder).run env).run db).2.toStore =
          apply db.toStore (.channelRegistered name founder env.now) := by
  change ((Db.registerChannel env name founder).run.run db).2.toStore = _ ∨
    _ ∧ ((Db.registerChannel env name founder).run.run db).2.toStore = _
  unfold Db.registerChannel
  change ((if db.channels.contains (key name) then throw .exists else _ : DbM ChanError Unit).run.run db).2.toStore = _ ∨
    _ ∧ ((if db.channels.contains (key name) then throw .exists else _ : DbM ChanError Unit).run.run db).2.toStore = _
  cases free : db.channels.contains (key name) with
  | true => exact .inl rfl
  | false =>
      rw [if_neg Bool.false_ne_true]
      exact (logged_stores _ _ _ db).imp_right fun stores => ⟨rfl, stores⟩

/-- The records are as they were, or moved by a rename to a free name. -/
theorem renameChannel_stores (env : Env) (old new : String) (db : Db) :
    (((Call.renameChannel old new).run env).run db).2.toStore = db.toStore ∨
      (key old ≠ key new → db.channels.contains (key new) = false) ∧
        (((Call.renameChannel old new).run env).run db).2.toStore =
          apply db.toStore (.channelRenamed old new) := by
  change ((Db.renameChannel old new).run.run db).2.toStore = _ ∨
    _ ∧ ((Db.renameChannel old new).run.run db).2.toStore = _
  unfold Db.renameChannel
  rw [run_get_bindE]
  cases db.channels[key old]? with
  | none => exact .inl rfl
  | some c =>
      dsimp only
      by_cases taken : key old ≠ key new ∧ db.channels.contains (key new) = true
      · rw [if_pos taken]
        exact .inl rfl
      · rw [if_neg taken]
        refine (logged_stores _ _ _ db).imp_right fun stores => ⟨fun other => ?_, stores⟩
        exact Bool.eq_false_iff.mpr fun held => taken ⟨other, held⟩

/-- What is asked of a step: that no name is given to a channel registered in the second of what
is held of it, and that the lists that a line meets were written less than `2 ^ 64` times. -/
def Clear (w : Kept) : Act → Prop
  | .store (.call env (.registerChannel name founder)) =>
      w.db.channels.contains (key name) = false → Given w (.channelRegistered name founder env.now)
  | .store (.call _ (.renameChannel old new)) =>
      (key old ≠ key new → w.db.channels.contains (key new) = false) → Given w (.channelRenamed old new)
  | .store (.ingest _ entry) => w.db.adopts entry = true → Given w entry.event
  | .kickerCheck line => ∀ c ∈ w.db.channel line.channel, line.meetsBadwords c = true → c.badwordsRev < 2 ^ 64
  | .triggerResponse line => ∀ c ∈ w.db.channel line.channel, line.meetsTriggers c = true → c.triggersRev < 2 ^ 64
  | _ => True

theorem Sound.store (sound : Sound r compile w) {a : Action} (clear : Clear w (.store a)) :
    Sound r compile (w.step r compile (.store a)) := by
  have wf : (w.db.step a).Wf := Db.wf_step sound.wf a
  cases a with
  | call env c =>
      cases replaced : c.replaces with
      | false => exact sound.moves wf fun k c' held => .inl (Call.older sound.wf replaced k c' held)
      | true =>
          cases c with
          | registerChannel name founder =>
              rcases registerChannel_stores env name founder w.db with same | ⟨free, stores⟩
              · exact sound.same wf same
              · exact sound.event (clear free) wf stores
          | renameChannel old new =>
              rcases renameChannel_stores env old new w.db with same | ⟨free, stores⟩
              · exact sound.same wf same
              · exact sound.event (clear free) wf stores
          | _ => contradiction
  | ingest env entry =>
      have stores : (w.db.step (.ingest env entry)).toStore =
          if w.db.adopts entry then apply w.db.toStore entry.event else w.db.toStore :=
        Db.step_ingest_adopts env entry
      cases taken : w.db.adopts entry with
      | true =>
          rw [taken, if_pos rfl] at stores
          exact sound.event (clear taken) wf stores
      | false =>
          rw [taken, if_neg Bool.false_ne_true] at stores
          exact sound.same wf stores
  | compact env =>
      refine sound.same wf ?_
      rw [Db.step_compact]
  | reopen => exact .unheld wf
  | wire signing outbound => exact sound.same wf rfl
  | faults outcomes => exact sound.same wf rfl

theorem Sound.kickerCheck (sound : Sound r compile w) : Sound r compile (w.step r compile (.kickerCheck line)) := by
  rw [Kept.step]
  cases met : w.badwordsFor r line with
  | none => exact sound
  | some held =>
      refine ⟨sound.wf, fun k c' there e mem => ?_, sound.triggers⟩
      dsimp only at mem there
      rw [Assoc.lookup_insert_eq] at mem
      split at mem
      · rename_i same
        obtain ⟨c, found, rfl⟩ := Option.map_eq_some_iff.mp met
        obtain ⟨found, -⟩ := Option.filter_eq_some_iff.mp found
        have here : w.db.channels[k]? = some c := same ▸ found
        obtain rfl := Option.some.inj (here.symm.trans there)
        obtain rfl := Option.some.inj mem
        rw [toHeld_cached]
        exact Held.backed_fetch (sound.badwords _ c found)
      · exact sound.badwords k c' there e mem

theorem Sound.triggerResponse (sound : Sound r compile w) :
    Sound r compile (w.step r compile (.triggerResponse line)) := by
  refine ⟨sound.wf, sound.badwords, fun k c' there e mem => ?_⟩
  change e ∈ ((Triggers.triggerResponse compile line.uidByNick line.nickOf
    (w.db.channel line.channel) w.triggers line.now line.from line.channel line.text).1.lookup k).map heldTriggers at mem
  unfold Triggers.triggerResponse at mem
  dsimp only at mem
  split at mem
  · exact sound.triggers k c' there e mem
  · rename_i c botuid met
    dsimp only at mem
    rw [Assoc.lookup_insert_eq] at mem
    split at mem
    · rename_i same
      obtain ⟨c₀, found, met⟩ := Option.bind_eq_some_iff.mp met
      have here : w.db.channels[k]? = some c₀ := same ▸ found
      obtain rfl := Option.some.inj (here.symm.trans there)
      split at met
      · cases met
      · obtain ⟨_, -, pair⟩ := Option.map_eq_some_iff.mp met
        obtain ⟨rfl, rfl⟩ := Prod.mk.inj pair
        obtain rfl := Option.some.inj mem
        unfold heldTriggers
        dsimp only
        rw [rested_fire]
        change Held.Backed _ _ (heldTriggers (Triggers.cached compile w.triggers (toAsciiLowercase line.channel) _)) _
        rw [heldTriggers_cached]
        exact Held.backed_fetch (sound.triggers _ _ found)
    · exact sound.triggers k c' there e mem

theorem Sound.prune (sound : Sound r compile w) : Sound r compile w.pruneKickerCaches := by
  have kept {α : Type} {cache : Assoc String α} {k : String} {v : α}
      (found : (Assoc.retain (fun k _ => (w.db.channel k).isSome) cache).lookup k = some v) :
      cache.lookup k = some v := by
    rw [Assoc.lookup_retain] at found
    exact (Option.filter_eq_some_iff.mp found).1
  refine ⟨sound.wf, fun k c there e mem => ?_, fun k c there e mem => ?_⟩
  · obtain ⟨held, found, rfl⟩ := Option.map_eq_some_iff.mp mem
    exact sound.badwords k c there _ (Option.mem_map_of_mem _ (kept found))
  · obtain ⟨held, found, rfl⟩ := Option.map_eq_some_iff.mp mem
    exact sound.triggers k c there _ (Option.mem_map_of_mem _ (kept found))

theorem Sound.step (sound : Sound r compile w) {a : Act} (clear : Clear w a) : Sound r compile (w.step r compile a) := by
  cases a with
  | store a => exact sound.store clear
  | kickerCheck line => exact sound.kickerCheck
  | triggerResponse line => exact sound.triggerResponse
  | prune => exact sound.prune

/-! ### Runs -/

/-- What a line is held against is compiled from its channel's lists as they are. -/
def Coherent (r : RegexCrate) (compile : (pattern : String) → Option ((text : String) → Option Captures))
    (w : Kept) : Act → Prop
  | .kickerCheck line => ∀ c ∈ w.db.channel line.channel, ∀ held ∈ w.badwordsFor r line,
      held.set = r.buildBadwordSet c.badwords
  | .triggerResponse line => ∀ c ∈ w.db.channel line.channel, ∀ entries ∈ w.triggersFor compile line,
      rested entries = compiledTriggers compile c.triggers
  | _ => True

theorem Sound.coherent (sound : Sound r compile w) {a : Act} (clear : Clear w a) : Coherent r compile w a := by
  cases a with
  | store | prune => trivial
  | kickerCheck line =>
      intro c here held met
      obtain ⟨c', found, rfl⟩ := Option.map_eq_some_iff.mp met
      obtain ⟨found, meets⟩ := Option.filter_eq_some_iff.mp found
      obtain rfl := Option.some.inj (found.symm.trans here)
      change (cachedBadwords r w.badwords (key line.channel) c').toHeld.built = _
      rw [toHeld_cached]
      exact Held.built_fetch (sound.badwords _ c' found) (clear c' found meets)
  | triggerResponse line =>
      intro c here entries met
      obtain ⟨c', found, rfl⟩ := Option.map_eq_some_iff.mp met
      obtain ⟨found, meets⟩ := Option.filter_eq_some_iff.mp found
      obtain rfl := Option.some.inj (found.symm.trans here)
      change (heldTriggers (Triggers.cached compile w.triggers (toAsciiLowercase line.channel) c')).built = _
      rw [heldTriggers_cached]
      exact Held.built_fetch (sound.triggers _ c' found) (clear c' found meets)

/-- In a run in which no name is given to a channel of the second of what is held of it, and no list
comes to `2 ^ 64` writes, every line is held against the channel's lists as they are. -/
theorem coherent_of_clear (r : RegexCrate)
    (compile : (pattern : String) → Option ((text : String) → Option Captures))
    (origin : String) (file : List LogEntry) (acts : List Act)
    (clear : Along (Kept.step r compile) Clear { db := Db.open' origin file } acts) :
    Along (Kept.step r compile) (Coherent r compile) { db := Db.open' origin file } acts :=
  clear.of_invariant (I := Sound r compile) (fun _ _ sound clear => sound.step clear)
    (fun _ _ sound clear => sound.coherent clear) (.unheld (Db.wf_open origin file))

theorem apart_of_stamps {name : String} {ts : Nat} (badwords : (w.badwords.lookup (key name)).map (·.ts) ≠ some ts)
    (triggers : (w.triggers.lookup (key name)).map (·.ts) ≠ some ts) : Apart w name ts where
  badwords held found same := badwords (by rw [found, ← same]; rfl)
  triggers held found same := triggers (by rw [found, ← same]; rfl)

/-! ### Two registrations -/

/-- A line whose bot is there. -/
def saidIn (channel text : String) : Line := ⟨"u", channel, text, 0, false, false, some, some⟩

/-- A channel is registered and its bot kicks for one badword. -/
def guarded (now : Nat) (channel pattern : String) : List Act :=
  [.store (.call { Env.still with now } (.registerChannel channel "alice")),
    .store (.call .still (.assignBot channel "Botty")),
    .store (.call .still (.setKicker channel .badwords true)),
    .store (.call .still (.badwordAdd channel pattern))]

/-- The channel is dropped and registered again, with another badword. -/
def registeredAgain (now : Nat) : List Act :=
  guarded 0 "#c" "spam" ++ .kickerCheck (saidIn "#c" "hello") :: .store (.call .still (.dropChannel "#c")) ::
    guarded now "#c" "eggs"

/-- In another second, the new badword alone is looked for. -/
theorem coherent_registeredAgain :
    Along (Kept.step .bulky fun _ => none) (Coherent .bulky fun _ => none) { db := Db.open' "a" [] }
      (registeredAgain 5 ++ [.kickerCheck (saidIn "#c" "spam")]) := by
  refine coherent_of_clear .bulky (fun _ => none) "a" [] _ ⟨fun _ => ?_, trivial, trivial, trivial, ?_, trivial,
    fun _ => ?_, trivial, trivial, trivial, ?_, trivial⟩
  · exact apart_of_stamps (by decide +kernel) (by decide +kernel)
  · change ∀ c ∈ _, _
    decide +kernel
  · exact apart_of_stamps (by decide +kernel) (by decide +kernel)
  · change ∀ c ∈ _, _
    decide +kernel

/-- In the same second, a line is held against the badwords of the dropped channel. -/
theorem badwords_outlive_channel :
    ¬ ∀ (r : RegexCrate) (compile : (pattern : String) → Option ((text : String) → Option Captures))
      (origin : String) (file : List LogEntry) (acts : List Act),
      Along (Kept.step r compile) (Coherent r compile) { db := Db.open' origin file } acts := by
  intro coherent
  have run := coherent .bulky (fun _ => none) "a" [] (registeredAgain 0 ++ [.kickerCheck (saidIn "#c" "spam")])
  have last := (along_append.mp run).2.1
  have listed : ((after (Kept.step .bulky fun _ => none) { db := Db.open' "a" [] } (registeredAgain 0)).db.channel
      "#c").map (·.badwords) = some ["eggs"] := by decide +kernel
  have applied : ((after (Kept.step .bulky fun _ => none) { db := Db.open' "a" [] } (registeredAgain 0)).badwordsFor
      .bulky (saidIn "#c" "spam")).map (·.set "spam") = some true := by decide +kernel
  obtain ⟨c, registered, badwords⟩ := Option.map_eq_some_iff.mp listed
  obtain ⟨held, met, kicks⟩ := Option.map_eq_some_iff.mp applied
  have same := congrFun (last c registered held met) "spam"
  rw [kicks, badwords] at same
  exact absurd same (by decide)

end KickerCaches

end Echo
