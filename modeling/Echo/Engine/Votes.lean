import Echo.Lib.Assoc
import Echo.Lib.Runs
import Echo.Login.Doors
import Mathlib.Data.Finset.Card
import Mathlib.Data.List.Induction

/-!
Community moderation (`handle_vote` in `engine/kicker.rs`): a tally a target, by nick, of
the voters of one vote or the other. What a tally stands for is its ballot, the votes cast
since it was opened; a vote that passes is measured against them.
-/

namespace Echo.Votes

open Echo.Lib

/-! ### The vote command -/

/-- What a vote looks up in the network and in the store. -/
structure View where
  /-- `kickers.votekick` of a channel, 0 if it is not registered. -/
  threshold : (channel : String) → Nat
  assignedBot : (channel : String) → Option String
  uidByNick : String → Option String
  channelMembers : (channel : String) → List String
  nickOf : (uid : String) → Option String
  hostOf : (uid : String) → Option String
  accountOf : (uid : String) → Option String
  isBot : (uid : String) → Bool
  operPrivs : (account : String) → Bool
  isOp : (channel account : String) → Bool

/-- A line to a channel, and what is known when it comes. -/
structure Line where
  «from» : String
  channel : String
  text : String
  now : Nat
  view : View

inductive Action where
  | privmsg («from» «to» text : String)
  | channelMode («from» channel modes : String)
  | kick («from» channel uid reason : String)
  deriving DecidableEq

/-- A vote that is let through. -/
structure Vote where
  ban : Bool
  voter : String
  channel : String
  /-- The nick of the target, as it has it. -/
  target : String
  targetUid : String
  botuid : String
  threshold : Nat
  now : Nat
  host : Option String

structure VoteState where
  ban : Bool
  voters : Finset String
  started : Nat

abbrev Key := String × String

/-- The tallies, by channel and nick in lowercase. -/
abbrev Tallies := Assoc Key VoteState

def voteTtl : Nat := 120

def Vote.key (v : Vote) : Key := (toAsciiLowercase v.channel, toAsciiLowercase v.target)

/-- The vote a text asks for, and its target. -/
def command (text : String) : Option (Bool × String) :=
  let verb :=
    match "!votekick ".toList.isPrefixOf? text.toList with
    | some t => some (false, t)
    | none => ("!voteban ".toList.isPrefixOf? text.toList).map (true, ·)
  verb.bind fun (ban, raw) =>
    let target := trim (String.ofList raw)
    if target.isEmpty ∨ ' ' ∈ target.toList then none else some (ban, target)

/-- The checks on a vote: nothing to be counted, what is said instead, or a vote. -/
def hear (l : Line) : Option (List Action ⊕ Vote) := do
  let (ban, target) ← command l.text
  let threshold := l.view.threshold l.channel
  let botnick ← l.view.assignedBot l.channel
  if threshold = 0 then none
  let botuid ← l.view.uidByNick botnick
  let targetUid ← l.view.uidByNick target
  if targetUid ∉ l.view.channelMembers l.channel then none
  let display := (l.view.nickOf targetUid).getD target
  let account := l.view.accountOf targetUid
  let isOper := account.any l.view.operPrivs
  let isChanop := account.any (l.view.isOp l.channel)
  if l.view.isBot targetUid || isOper || isChanop then
    some (.inl [.privmsg botuid l.channel ("\x02" ++ display ++ "\x02 can't be voted out.")])
  else
    some (.inr
      { ban, voter := l.from, channel := l.channel, target := display, targetUid, botuid, threshold
        now := l.now, host := l.view.hostOf targetUid })

/-- What a vote that passes brings about. -/
def Vote.passed (v : Vote) (count : Nat) : List Action :=
  let ban :=
    match v.ban, v.host with
    | true, some host => [.channelMode v.botuid v.channel ("+b *!*@" ++ host)]
    | _, _ => []
  ban ++
    [.privmsg v.botuid v.channel
        ("Vote passed — \x02" ++ v.target ++ "\x02 has been " ++
          (if v.ban then "banned" else "kicked") ++ "."),
      .kick v.botuid v.channel v.targetUid
        ("Voted out by the channel (" ++ toString count ++ " votes)")]

/-- Count a vote, once a voter. -/
def count (tallies : Tallies) (v : Vote) : Tallies × Option (List Action) :=
  let tallies := Assoc.retain (fun _ vs => v.now - vs.started ≤ voteTtl) tallies
  let vs := (tallies.lookup v.key).getD { ban := v.ban, voters := ∅, started := v.now }
  if v.voter ∈ vs.voters then (tallies.insert v.key { vs with ban := v.ban }, none)
  else
    let voters := insert v.voter vs.voters
    let count := voters.card % 2 ^ 16
    if count < v.threshold then
      (tallies.insert v.key { vs with ban := v.ban, voters },
        some [.privmsg v.botuid v.channel
          ("\x02" ++ toString count ++ "\x02/\x02" ++ toString v.threshold ++ "\x02 votes to " ++
            (if v.ban then "ban" else "kick") ++ " \x02" ++ v.target ++ "\x02.")])
    else (tallies.erase v.key, some (v.passed count))

def handleVote (tallies : Tallies) (l : Line) : Tallies × Option (List Action) :=
  match hear l with
  | none => (tallies, none)
  | some (.inl out) => (tallies, some out)
  | some (.inr v) => count tallies v

def step (tallies : Tallies) (l : Line) : Tallies := (handleVote tallies l).1

/-! ### Ballots -/

/-- The vote a line casts. -/
def cast (l : Line) : Option Vote := (hear l).bind Sum.getRight?

def voters (votes : List Vote) : Finset String := (votes.map (·.voter)).toFinset

/-- The ballot a vote is added to: a ballot that has lapsed is as none. -/
def standing (votes : List Vote) (now : Nat) : List Vote :=
  if votes.head?.all (now - ·.now ≤ voteTtl) then votes else []

/-- The vote passes: it is the voter's first, and enough have voted. -/
def Passes (votes : List Vote) (v : Vote) : Prop :=
  v.voter ∉ voters votes ∧ v.threshold ≤ (insert v.voter (voters votes)).card % 2 ^ 16

instance (votes : List Vote) (v : Vote) : Decidable (Passes votes v) :=
  inferInstanceAs (Decidable (_ ∧ _))

/-- The ballot of a target after a line. -/
def ballotStep (key : Key) (votes : List Vote) (l : Line) : List Vote :=
  match cast l with
  | none => votes
  | some v =>
      let votes := standing votes v.now
      if v.key ≠ key then votes else if Passes votes v then [] else votes ++ [v]

/-- The votes cast on a target since its tally was opened. -/
def ballot (key : Key) (history : List Line) : List Vote := after (ballotStep key) [] history

/-- What the tally of a ballot is. -/
def tally : List Vote → Option VoteState
  | [] => none
  | first :: rest =>
      some
        { ban := ((first :: rest).getLast (List.cons_ne_nil first rest)).ban
          voters := voters (first :: rest)
          started := first.now }

section Ballots

variable {votes : List Vote} {v w : Vote} {key : Key} {l : Line} {tallies : Tallies}
  {history : List Line}

theorem mem_voters {voter : String} : voter ∈ voters votes ↔ ∃ w ∈ votes, w.voter = voter := by
  unfold voters
  rw [List.mem_toFinset, List.mem_map]

theorem voters_concat : voters (votes ++ [v]) = insert v.voter (voters votes) := by
  ext voter
  rw [Finset.mem_insert, mem_voters, mem_voters]
  constructor
  · rintro ⟨w, mem, rfl⟩
    rcases List.mem_append.mp mem with old | last
    · exact .inr ⟨w, old, rfl⟩
    · rw [List.mem_singleton.mp last]
      exact .inl rfl
  · rintro (rfl | ⟨w, mem, rfl⟩)
    · exact ⟨v, by simp, rfl⟩
    · exact ⟨w, List.mem_append_left _ mem, rfl⟩

theorem tally_concat :
    tally (votes ++ [v]) =
      some
        { ban := v.ban
          voters := insert v.voter (voters votes)
          started := ((tally votes).getD ⟨v.ban, ∅, v.now⟩).started } := by
  rw [← voters_concat]
  cases votes with
  | nil => rfl
  | cons first rest =>
      rw [List.cons_append]
      unfold tally
      simp

/-- The tallies that have lapsed are those of the ballots that have. -/
theorem tally_standing (votes : List Vote) (now : Nat) :
    (tally votes).filter (fun vs => now - vs.started ≤ voteTtl) = tally (standing votes now) := by
  cases votes with
  | nil => rfl
  | cons first rest =>
      unfold standing
      rw [List.head?_cons, Option.all_some, tally, Option.filter_some]
      split <;> rfl

theorem voters_tally (votes : List Vote) (ban : Bool) (now : Nat) :
    ((tally votes).getD ⟨ban, ∅, now⟩).voters = voters votes := by
  cases votes <;> rfl

/-! ### The tallies of a history -/

/-- The tallies are those of the ballots. -/
def Holds (tallies : Tallies) (history : List Line) : Prop :=
  ∀ key, tallies.lookup key = tally (ballot key history)

theorem ballot_concat (key : Key) (history : List Line) (l : Line) :
    ballot key (history ++ [l]) = ballotStep key (ballot key history) l := after_concat ..

theorem cast_of_hear_vote (heard : hear l = some (.inr v)) : cast l = some v := by
  unfold cast
  rw [heard]
  rfl

theorem Holds.retain (holds : Holds tallies history) (now : Nat) (key : Key) :
    (Assoc.retain (fun _ vs => now - vs.started ≤ voteTtl) tallies).lookup key =
      tally (standing (ballot key history) now) := by
  rw [Assoc.lookup_retain, holds key]
  exact tally_standing _ now

theorem Holds.count (holds : Holds tallies history) (voted : cast l = some v) :
    Holds (count tallies v).1 (history ++ [l]) := by
  intro key
  rw [ballot_concat]
  have step : ballotStep key (ballot key history) l =
      if v.key ≠ key then standing (ballot key history) v.now
      else if Passes (standing (ballot key history) v.now) v then []
      else standing (ballot key history) v.now ++ [v] := by
    unfold ballotStep
    rw [voted]
  rw [step]
  unfold Votes.count
  dsimp only
  rw [holds.retain v.now v.key, voters_tally]
  have put (vs : VoteState) (same : some vs = tally (standing (ballot v.key history) v.now ++ [v]))
      (none : ¬ Passes (standing (ballot v.key history) v.now) v) :
      ((Assoc.retain (fun _ vs => v.now - vs.started ≤ voteTtl) tallies).insert v.key vs).lookup key =
        tally (if v.key ≠ key then standing (ballot key history) v.now
          else if Passes (standing (ballot key history) v.now) v then []
          else standing (ballot key history) v.now ++ [v]) := by
    rw [Assoc.lookup_insert_eq]
    by_cases own : v.key = key
    · subst own
      rw [if_pos rfl, same, if_neg (not_not.mpr rfl), if_neg none]
    · rw [if_neg (Ne.symm own), if_pos own]
      exact holds.retain v.now key
  by_cases again : v.voter ∈ voters (standing (ballot v.key history) v.now)
  · rw [if_pos again]
    refine put _ ?_ fun passes => passes.1 again
    rw [tally_concat, Finset.insert_eq_of_mem again, ← voters_tally _ v.ban v.now]
  · rw [if_neg again]
    split
    · rename_i few
      refine put _ tally_concat.symm fun passes => ?_
      exact absurd passes.2 (not_le.mpr few)
    · rename_i enough
      have passes : Passes (standing (ballot v.key history) v.now) v := ⟨again, not_lt.mp enough⟩
      dsimp only
      rw [Assoc.lookup_erase_eq]
      by_cases own : v.key = key
      · subst own
        rw [if_pos rfl, if_neg (not_not.mpr rfl), if_pos passes]
        rfl
      · rw [if_neg (Ne.symm own), if_pos own]
        exact holds.retain v.now key

/-- One line. -/
theorem Holds.step (holds : Holds tallies history) (l : Line) :
    Holds (step tallies l) (history ++ [l]) := by
  unfold Votes.step handleVote
  match heard : hear l with
  | some (.inr v) => exact holds.count (cast_of_hear_vote heard)
  | none =>
      intro key
      rw [ballot_concat, ballotStep, cast, heard]
      exact holds key
  | some (.inl out) =>
      intro key
      rw [ballot_concat, ballotStep, cast, heard]
      exact holds key

/-- Any lines, one after the other. -/
theorem holds_after (history : List Line) : Holds (after step ∅ history) history := by
  induction history using List.reverseRecOn with
  | nil => exact fun _ => rfl
  | append_singleton history l ih =>
      rw [after_concat]
      exact ih.step l

end Ballots

/-- A line is told that its target stays, or is a vote of its sender, with a number of
votes to reach. -/
theorem hear_spec {l : Line} {heard : List Action ⊕ Vote} (hears : hear l = some heard) :
    (∃ bot text, heard = .inl [.privmsg bot l.channel text]) ∨
      ∃ v, heard = .inr v ∧ v.now = l.now ∧ v.voter = l.from ∧ 0 < v.threshold := by
  unfold hear at hears
  simp only [bind, Option.bind_eq_some_iff] at hears
  obtain ⟨⟨ban, target⟩, -, botnick, -, passed⟩ := hears
  split at passed
  · contradiction
  · rename_i positive
    simp only [Option.bind_eq_some_iff] at passed
    obtain ⟨botuid, -, targetUid, -, checked⟩ := passed
    split at checked
    · contradiction
    · split at checked
      · cases checked
        exact .inl ⟨_, _, rfl⟩
      · cases checked
        exact .inr ⟨_, rfl, rfl, rfl, Nat.pos_of_ne_zero positive⟩

/-- A vote is its line's. -/
theorem cast_facts {l : Line} {v : Vote} (voted : cast l = some v) :
    v.now = l.now ∧ v.voter = l.from ∧ 0 < v.threshold := by
  obtain ⟨heard, hears, is_vote⟩ := Option.bind_eq_some_iff.mp voted
  rcases hear_spec hears with ⟨bot, text, rfl⟩ | ⟨v', rfl, facts⟩
  · contradiction
  · cases is_vote
    exact facts

/-! ### What a vote that passes rests on -/

section Windows

variable {history : List Line} {l : Line} {v : Vote} {key : Key}

/-- The votes cast on a target in some lines. -/
def castOn (key : Key) (lines : List Line) : List Vote :=
  (lines.filterMap cast).filter (·.key = key)

theorem castOn_append (first rest : List Line) :
    castOn key (first ++ rest) = castOn key first ++ castOn key rest := by
  unfold castOn
  rw [List.filterMap_append, List.filter_append]

theorem castOn_singleton :
    castOn key [l] = (cast l).toList.filter (·.key = key) := by
  unfold castOn
  cases voted : cast l with
  | none => simp [voted]
  | some v => simp [voted]

/-- Some last lines of a history in which the votes of a ballot were cast. The first of
them cast the first. -/
def Window (key : Key) (votes : List Vote) (history window : List Line) : Prop :=
  window <:+ history ∧ castOn key window = votes ∧
    ∀ first ∈ window.head?, ∃ v ∈ votes.head?, v.now = first.now

theorem exists_window_nil (history : List Line) : ∃ window, Window key [] history window :=
  ⟨[], List.nil_suffix, rfl, by simp⟩

/-- A ballot that a line adds nothing to. -/
theorem Window.concat {votes : List Vote} {window : List Line} (w : Window key votes history window)
    (none : castOn key [l] = []) : ∃ window, Window key votes (history ++ [l]) window := by
  obtain ⟨⟨front, split⟩, votes_in, opened⟩ := w
  cases window with
  | nil =>
      cases votes_in
      exact exists_window_nil _
  | cons first window =>
      refine ⟨first :: window ++ [l], ⟨front, ?_⟩, ?_, ?_⟩
      · rw [← List.append_assoc, split]
      · rw [castOn_append, none, votes_in, List.append_nil]
      · intro opener mem
        exact opened opener mem

/-- A ballot that a line adds its vote to. -/
theorem Window.vote {votes : List Vote} {window : List Line} (w : Window key votes history window)
    (voted : cast l = some v) (own : v.key = key) :
    ∃ window, Window key (votes ++ [v]) (history ++ [l]) window := by
  have added : castOn key [l] = [v] := by
    rw [castOn_singleton, voted]
    simp [own]
  obtain ⟨⟨front, split⟩, votes_in, opened⟩ := w
  cases window with
  | nil =>
      cases votes_in
      refine ⟨[l], List.suffix_append history [l], added, fun first mem => ?_⟩
      obtain rfl := Option.some.inj (Option.mem_def.mp mem)
      exact ⟨v, rfl, (cast_facts voted).1⟩
  | cons first window =>
      refine ⟨first :: window ++ [l], ⟨front, ?_⟩, ?_, ?_⟩
      · rw [← List.append_assoc, split]
      · rw [castOn_append, added, votes_in]
      · intro opener mem
        obtain ⟨w, head, same⟩ := opened opener mem
        refine ⟨w, ?_, same⟩
        rw [List.head?_append, Option.mem_def.mp head]
        rfl

theorem exists_window_standing {votes : List Vote} {window : List Line} {history : List Line}
    (w : Window key votes history window) (now : Nat) :
    ∃ window, Window key (standing votes now) history window := by
  unfold standing
  split
  · exact ⟨window, w⟩
  · exact exists_window_nil history

theorem exists_window (key : Key) (history : List Line) :
    ∃ window, Window key (ballot key history) history window := by
  induction history using List.reverseRecOn with
  | nil => exact exists_window_nil []
  | append_singleton history l ih =>
      obtain ⟨window, w⟩ := ih
      rw [ballot_concat]
      unfold ballotStep
      cases voted : cast l with
      | none => exact w.concat (by rw [castOn_singleton, voted]; rfl)
      | some v =>
          dsimp only
          obtain ⟨window, w⟩ := exists_window_standing w v.now
          split
          · rename_i other
            exact w.concat (by rw [castOn_singleton, voted]; simp [other])
          · rename_i own
            split
            · exact exists_window_nil _
            · exact w.vote voted (not_not.mp own)

/-- Enough voters have cast a vote of a kind on the target of a vote, in lines that go
back no further than a tally lasts. -/
def Backed (history : List Line) (v : Vote) (kind : Vote → Bool) : Prop :=
  ∃ window, window <:+ history ∧ (∀ first ∈ window.head?, v.now - first.now ≤ voteTtl) ∧
    v.threshold ≤ (voters ((castOn v.key window).filter kind)).card

/-- The votes counted with one that passes. -/
def counted (before : List Line) (v : Vote) : List Vote :=
  standing (ballot v.key before) v.now ++ [v]

theorem backed_of_passes {before : List Line} {kind : Vote → Bool} (voted : cast l = some v)
    (passes : Passes (standing (ballot v.key before) v.now) v)
    (all : ∀ w ∈ counted before v, ∃ w' ∈ counted before v, w'.voter = w.voter ∧ kind w' = true) :
    Backed (before ++ [l]) v kind := by
  obtain ⟨window, w⟩ := exists_window v.key before
  obtain ⟨window, w⟩ := exists_window_standing w v.now
  obtain ⟨window, last, votes, opened⟩ := w.vote voted rfl
  refine ⟨window, last, fun first mem => ?_, ?_⟩
  · obtain ⟨w, head, same⟩ := opened first mem
    rw [← same]
    unfold standing at head
    split at head
    · rename_i recent
      cases votes_before : ballot v.key before with
      | nil =>
          rw [votes_before] at head
          obtain rfl := Option.some.inj (Option.mem_def.mp head)
          exact (Nat.sub_self v.now).trans_le (Nat.zero_le _)
      | cons opener rest =>
          rw [votes_before] at head recent
          obtain rfl := Option.some.inj (Option.mem_def.mp head)
          simpa using recent
    · obtain rfl := Option.some.inj (Option.mem_def.mp head)
      exact (Nat.sub_self v.now).trans_le (Nat.zero_le _)
  · have kinds : voters ((castOn v.key window).filter kind) = voters (counted before v) := by
      rw [votes]
      ext voter
      rw [mem_voters, mem_voters]
      constructor
      · rintro ⟨w, mem, rfl⟩
        exact ⟨w, List.mem_of_mem_filter mem, rfl⟩
      · rintro ⟨w, mem, rfl⟩
        obtain ⟨w', among, same, right⟩ := all w mem
        exact ⟨w', List.mem_filter.mpr ⟨among, right⟩, same⟩
    rw [kinds, counted, voters_concat]
    exact passes.2.trans (Nat.mod_le _ _)

/-! ### Sanctions -/

/-- All else that is said is said in the channel. -/
def Action.Sanctions : Action → Prop
  | .privmsg .. => False
  | _ => True

theorem not_sanctions_of_hear {out : List Action} (heard : hear l = some (.inl out)) {a : Action}
    (mem : a ∈ out) : ¬ a.Sanctions := by
  rcases hear_spec heard with ⟨bot, text, told⟩ | ⟨v, vote, -⟩
  · cases told
    rw [List.mem_singleton.mp mem]
    exact id
  · cases vote

/-- A sanction is that of a vote that passes. -/
theorem passes_of_sanction {before : List Line} {a : Action} (sanction : a.Sanctions)
    (mem : a ∈ (handleVote (after step ∅ before) l).2.getD []) :
    ∃ v, cast l = some v ∧ Passes (standing (ballot v.key before) v.now) v ∧
      ∃ count, a ∈ v.passed count := by
  have holds := holds_after before
  unfold handleVote at mem
  match heard : hear l with
  | none =>
      rw [heard] at mem
      contradiction
  | some (.inl out) =>
      rw [heard] at mem
      exact absurd sanction (not_sanctions_of_hear heard mem)
  | some (.inr v) =>
      rw [heard] at mem
      refine ⟨v, cast_of_hear_vote heard, ?_⟩
      unfold count at mem
      dsimp only at mem
      rw [holds.retain v.now v.key, voters_tally] at mem
      split at mem
      · contradiction
      · rename_i new
        split at mem
        · rw [List.mem_singleton.mp mem] at sanction
          exact sanction.elim
        · rename_i enough
          exact ⟨⟨new, not_lt.mp enough⟩, _, mem⟩

/-- A !voteban reaches the threshold on a tally with a voter who has only voted to kick. -/
def MixedBan (before : List Line) (l : Line) : Prop :=
  ∃ v, cast l = some v ∧ v.ban = true ∧ Passes (standing (ballot v.key before) v.now) v ∧
    ∃ w ∈ standing (ballot v.key before) v.now,
      ∀ w' ∈ standing (ballot v.key before) v.now, w'.voter = w.voter → w'.ban = false

/-- Whoever is kicked has been voted against by enough. -/
def KicksBacked (before : List Line) (l : Line) : Prop :=
  ∀ bot channel uid reason,
    .kick bot channel uid reason ∈ (handleVote (after step ∅ before) l).2.getD [] →
      ∃ v, cast l = some v ∧ v.targetUid = uid ∧ Backed (before ++ [l]) v fun _ => true

/-- Whoever is banned has been voted to be banned by enough. -/
def BansBacked (before : List Line) (l : Line) : Prop :=
  ∀ bot channel modes,
    .channelMode bot channel modes ∈ (handleVote (after step ∅ before) l).2.getD [] →
      ∃ v, cast l = some v ∧ v.ban = true ∧ Backed (before ++ [l]) v (·.ban)

theorem kicksBacked (before : List Line) (l : Line) : KicksBacked before l := by
  intro bot channel uid reason mem
  obtain ⟨v, voted, passes, count, among⟩ :=
    passes_of_sanction (a := .kick bot channel uid reason) trivial mem
  refine ⟨v, voted, ?_, backed_of_passes voted passes fun w mem => ⟨w, mem, rfl, rfl⟩⟩
  unfold Vote.passed at among
  rcases List.mem_append.mp among with ban | said
  · split at ban
    · simp at ban
    · contradiction
  · rcases List.mem_pair.mp said with told | kick
    · cases told
    · exact (Action.kick.inj kick).2.2.1.symm

theorem bansBacked {before : List Line} (unmixed : ¬ MixedBan before l) : BansBacked before l := by
  intro bot channel modes mem
  obtain ⟨v, voted, passes, count, among⟩ :=
    passes_of_sanction (a := .channelMode bot channel modes) trivial mem
  have ban : v.ban = true := by
    cases to_ban : v.ban with
    | true => rfl
    | false =>
        unfold Vote.passed at among
        rw [to_ban] at among
        simp at among
  refine ⟨v, voted, ban, backed_of_passes voted passes fun w mem => ?_⟩
  by_contra none
  rcases List.mem_append.mp mem with old | own
  · refine unmixed ⟨v, voted, ban, passes, w, old, fun w' among same => ?_⟩
    cases to_ban : w'.ban with
    | false => rfl
    | true => exact absurd ⟨w', List.mem_append_left _ among, same, to_ban⟩ none
  · rw [List.mem_singleton.mp own] at none
    exact none ⟨v, List.mem_append_right _ List.mem_cons_self, rfl, ban⟩

/-- In every run, each kick has its votes; and where no !voteban completes a tally with a
voter who has only voted to kick, each ban has its own. -/
theorem votes_backed (run : List Line) :
    Stepwise KicksBacked run ∧
      (Stepwise (fun before l => ¬ MixedBan before l) run → Stepwise BansBacked run) :=
  ⟨fun before l _ _ => kicksBacked before l,
    fun unmixed before l rest split => bansBacked (unmixed before l rest split)⟩

theorem Backed.le_card {v : Vote} {kind : Vote → Bool} (backed : Backed history v kind) :
    v.threshold ≤ (voters ((castOn v.key history).filter kind)).card := by
  obtain ⟨window, ⟨front, split⟩, -, enough⟩ := backed
  refine enough.trans (Finset.card_le_card fun voter mem => ?_)
  rw [mem_voters] at mem ⊢
  obtain ⟨w, among, same⟩ := mem
  refine ⟨w, ?_, same⟩
  rw [← split, castOn_append, List.filter_append]
  exact List.mem_append_right _ among

end Windows

/-- A channel of three and their bot; two votes are enough. -/
def room : View where
  threshold _ := 2
  assignedBot _ := some "keeper"
  uidByNick nick :=
    if nick = "keeper" then some "00AAAAAAA" else if nick = "bob" then some "0IRAAAAAC" else none
  channelMembers _ := ["0IRAAAAAA", "0IRAAAAAB", "0IRAAAAAC"]
  nickOf uid := if uid = "0IRAAAAAC" then some "bob" else none
  hostOf _ := some "home.example"
  accountOf _ := none
  isBot uid := uid = "00AAAAAAA"
  operPrivs _ := false
  isOp _ _ := false

/-- One votes to kick bob, and the other to ban. -/
def votekick : Line := ⟨"0IRAAAAAA", "#a", "!votekick bob", 100, room⟩
def voteban : Line := ⟨"0IRAAAAAB", "#a", "!voteban bob", 110, room⟩

theorem banned_by_one :
    .channelMode "00AAAAAAA" "#a" "+b *!*@home.example" ∈
        (handleVote (after step ∅ [votekick]) voteban).2.getD [] ∧
      ¬ BansBacked [votekick] voteban := by
  have banned : .channelMode "00AAAAAAA" "#a" "+b *!*@home.example" ∈
      (handleVote (after step ∅ [votekick]) voteban).2.getD [] := by decide +kernel
  refine ⟨banned, fun backed => ?_⟩
  obtain ⟨v, voted, -, enough⟩ := backed _ _ _ banned
  have enough := enough.le_card
  have few : (cast voteban).all fun v =>
      (voters ((castOn v.key ([votekick] ++ [voteban])).filter (·.ban))).card < v.threshold := by
    decide +kernel
  rw [voted] at few
  exact absurd enough (not_le.mpr (of_decide_eq_true few))

end Echo.Votes
