import Echo.Db.Types
import Echo.Lib.AsciiCase
import Echo.Lib.Assoc
import Echo.Lib.Substitution

/-!
The automatic responses of a channel's bot (`trigger_response` in `engine/kicker.rs`): the
first trigger whose pattern a line matches gives a response, with the captured groups and
the speaker's nick filled into its template. They are filled in one after the other, each
also into what those before it have put there.
-/

namespace Echo.Triggers

open Echo.Lib
open Echo.Lib.Substitution

/-! ### Responses -/

/-- A matched pattern's groups, the whole match first. A group may have matched nothing. -/
abbrev Captures := List (Option String)

/-- A compiled trigger. -/
structure TriggerRt where
  captures : (text : String) → Option Captures
  response : String
  cooldown : Nat
  lastFired : Nat

structure CachedTriggers where
  rev : Nat
  ts : Nat
  entries : List TriggerRt

/-- The groups, from the highest number down, and then the nick. -/
def rules (caps : Captures) (nick : String) : List (Rule Char) :=
  ((List.range' 1 (caps.length - 1)).reverse.map fun i =>
      { pat := '$' :: (toString i).toList, val := ((caps[i]?).join.getD "").toList }) ++
    [{ pat := "$nick".toList, val := nick.toList }]

/-- One `str::replace` after the other. -/
def filled (response : String) (caps : Captures) (nick : String) : String :=
  String.ofList (after (replace id id) response.toList (rules caps nick))

/-- The first trigger that matches, unless it is cooling down. -/
def fire (now : Nat) (text : String) : List TriggerRt → List TriggerRt × Option (String × Captures)
  | [] => ([], none)
  | e :: entries =>
      match e.captures text with
      | none =>
          let (entries, response) := fire now text entries
          (e :: entries, response)
      | some caps =>
          if now - e.lastFired < e.cooldown then (e :: entries, none)
          else ({ e with lastFired := now } :: entries, some (e.response, caps))

/-- What is said to a channel. -/
structure Said where
  «from» : String
  «to» : String
  text : String

section

-- A pattern compiled, if it can be; the network's nicks and uids.
variable (compile : (pattern : String) → Option ((text : String) → Option Captures))
  (uidByNick nickOf : String → Option String)

/-- The channel's triggers as they were last compiled, or compiled anew. -/
def cached (cache : Assoc String CachedTriggers) (key : String) (c : ChannelInfo) : CachedTriggers :=
  match cache.lookup key with
  | some held => if (held.rev, held.ts) = (c.triggersRev % 2 ^ 64, c.ts) then held else compiled
  | none => compiled
where
  compiled : CachedTriggers :=
    { rev := c.triggersRev % 2 ^ 64
      ts := c.ts
      entries := c.triggers.filterMap fun t => (compile t.pattern).map fun captures =>
        { captures, response := t.response, cooldown := t.cooldown, lastFired := 0 } }

/-- The response to a line, and the cache it leaves. -/
def triggerResponse (c : Option ChannelInfo) (cache : Assoc String CachedTriggers) (now : Nat)
    («from» channel text : String) : Assoc String CachedTriggers × Option Said :=
  let found := c.bind fun c =>
    if c.triggers.isEmpty then none
    else (c.assignedBot.bind uidByNick).map fun botuid => (c, botuid)
  match found with
  | none => (cache, none)
  | some (c, botuid) =>
      let key := toAsciiLowercase channel
      let held := cached compile cache key c
      let nick := (nickOf «from»).getD «from»
      let (entries, response) := fire now text held.entries
      (cache.insert key { held with entries },
        response.map fun (response, caps) =>
          { «from» := botuid, «to» := channel, text := filled response caps nick })

end

/-- What fires is a trigger the line matches, with what it captured. -/
theorem fires {now : Nat} {text response : String} {caps : Captures} {entries : List TriggerRt}
    (fired : (fire now text entries).2 = some (response, caps)) :
    ∃ e ∈ entries, e.captures text = some caps ∧ e.response = response := by
  induction entries with
  | nil => contradiction
  | cons e entries ih =>
      unfold fire at fired
      cases matched : e.captures text with
      | none =>
          rw [matched] at fired
          obtain ⟨e', mem, captured, same⟩ := ih fired
          exact ⟨e', List.mem_cons_of_mem e mem, captured, same⟩
      | some own =>
          rw [matched] at fired
          dsimp only at fired
          split at fired
          · contradiction
          · cases fired
            exact ⟨e, List.mem_cons_self, matched, rfl⟩

/-- The reply is the template of a trigger the line matches, filled. -/
theorem triggerResponse_text {compile : String → Option (String → Option Captures)}
    {uidByNick nickOf : String → Option String} {c : Option ChannelInfo}
    {cache : Assoc String CachedTriggers} {now : Nat} {speaker channel text : String} {said : Said}
    (reply : (triggerResponse compile uidByNick nickOf c cache now speaker channel text).2 =
      some said) :
    ∃ (e : TriggerRt) (caps : Captures), e.captures text = some caps ∧
      said.text = filled e.response caps ((nickOf speaker).getD speaker) := by
  unfold triggerResponse at reply
  dsimp only at reply
  split at reply
  · contradiction
  · obtain ⟨⟨response, caps⟩, fired, rfl⟩ := Option.map_eq_some_iff.mp reply
    obtain ⟨e, -, captured, rfl⟩ := fires fired
    exact ⟨e, caps, captured, rfl⟩

/-! ### The placeholders -/

/-- The template with every placeholder that stands in it replaced at once: reading from
left to right, by the group of the highest number that is there. -/
def simultaneous (response : String) (caps : Captures) (nick : String) : String :=
  String.ofList (substitute id id (rules caps nick) response.toList)

/-- Of two numbers that both begin a text, the higher is the longer. -/
theorem longer_of_higher {i j : Nat} {text : List Char} (higher : j < i)
    (first : (toString i).toList <+: text) (second : (toString j).toList <+: text) :
    (toString j).toList.length < (toString i).toList.length := by
  have digits (n : Nat) : (toString n).toList = Nat.toDigits 10 n := Nat.toList_repr
  rw [digits] at first second
  rw [digits, digits]
  by_contra not_longer
  have le : (Nat.toDigits 10 i).length ≤ (Nat.toDigits 10 j).length := not_lt.mp not_longer
  rcases Nat.lt_or_ge (Nat.toDigits 10 i).length (Nat.toDigits 10 j).length with less | ge
  · have small : i < 10 ^ (Nat.toDigits 10 i).length :=
      (Nat.length_toDigits_le_iff (by decide) Nat.length_toDigits_pos).mp le_rfl
    have large : ¬ j < 10 ^ (Nat.toDigits 10 i).length := fun few =>
      absurd ((Nat.length_toDigits_le_iff (by decide) Nat.length_toDigits_pos).mpr few)
        (not_le.mpr less)
    omega
  · have same : Nat.toDigits 10 i = Nat.toDigits 10 j :=
      (List.prefix_of_prefix_length_le first second le).eq_of_length (le_antisymm le ge)
    have equal := congrArg (Nat.ofDigitChars 10 · 0) same
    simp only [Nat.ofDigitChars_ten_toDigits] at equal
    omega

theorem headed_rules (caps : Captures) (nick : String) :
    ∀ r ∈ rules caps nick, r.Headed '$' := by
  intro r mem
  rcases List.mem_append.mp mem with group | last
  · obtain ⟨i, -, rfl⟩ := List.mem_map.mp group
    refine ⟨(toString i).toList, rfl, fun dollar => ?_⟩
    rw [show (toString i).toList = Nat.toDigits 10 i from Nat.toList_repr] at dollar
    exact absurd (Nat.isDigit_of_mem_toDigits (by decide) (by decide) dollar) (by decide)
  · rw [List.mem_singleton.mp last]
    exact ⟨"nick".toList, rfl, by decide⟩

/-- Every pass replaces only placeholders that stand in the template, not ones that some
inserted letter has a part in or that come together where another was taken out. -/
def OnlyStanding (response : String) (caps : Captures) (nick : String) : Prop :=
  Stepwise (fun done r => AllStand (passed response.toList done) r) (rules caps nick)

/-- With the groups above it filled in, the template has no `$i` with an inserted letter,
nor one put together of letters apart; and with all filled in, no such `$nick`. -/
def Uninjected (response : String) (caps : Captures) (nick : String) : Prop :=
  Stepwise (fun done r => AllStand (substituted response.toList done) r) (rules caps nick)

/-- The response is the template filled at once, with nothing replaced but its own
placeholders, just when nothing is injected. -/
theorem filled_simultaneous_iff (response : String) (caps : Captures) (nick : String) :
    (filled response caps nick = simultaneous response caps nick ∧
        OnlyStanding response caps nick) ↔ Uninjected response caps nick := by
  obtain ⟨same, equal⟩ := passed_exact response.toList _ (headed_rules caps nick)
  constructor
  · rintro ⟨-, standing⟩
    exact same.mp standing
  · intro uninjected
    refine ⟨?_, same.mpr uninjected⟩
    unfold filled simultaneous
    rw [← map_fst_passed, ← map_fst_substituted, equal uninjected]

/-- The second group of a line is the placeholder of the first. -/
theorem filled_injected :
    filled "You said $2, $nick" [some "tell bob $1", some "bob", some "$1"] "alice" =
        "You said bob, alice" ∧
      simultaneous "You said $2, $nick" [some "tell bob $1", some "bob", some "$1"] "alice" =
        "You said $1, alice" := by
  decide +kernel

end Echo.Triggers
