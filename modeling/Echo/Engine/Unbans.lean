import Echo.Db.Run
import Echo.Engine.Handle
import Echo.Lib.Runs

/-!
Timed bans. Every call takes the bans that are due out of the queue before it looks
at its event; whatever the event and however its arm returns, they go out with the
call, except where a fingerprint logs nobody in.
-/

namespace Echo

open Std (ExtTreeMap)
open Echo.Lib

namespace Dispatcher

variable {ρ : Type} (p : Parts ρ)

/-- A call sends out the bans that are due, each once and before anything else, and
keeps the others in the queue, followed by those the kicker records now. -/
structure Lifts (e : Dispatcher ρ) (call : Call) : Prop where
  sent : ∃ more, (e.handle p call.now call.event).2 =
    (e.pendingUnbans.filter (·.at ≤ call.now)).map PendingUnban.lift ++ more
  kept : ∃ recorded, (e.handle p call.now call.event).1.pendingUnbans =
      e.pendingUnbans.filter (fun u => !(u.at ≤ call.now)) ++ recorded ∧
    ∀ u ∈ recorded, call.now < u.at

/-- A ban is due while a fingerprint comes in that logs nobody in: it is empty, its
user is logged in, or it has no owner or a suspended one. -/
def Drops (e : Dispatcher ρ) (call : Call) : Prop :=
  (∃ u ∈ e.pendingUnbans, u.at ≤ call.now) ∧ ∃ uid fp, call.event = .userCert uid fp ∧
    (fp = "" ∨ (p.accountOf (p.setUserCert uid fp e.rest) uid).isSome = true ∨
      ∀ account ∈ e.db.certfpOwner p.env fp,
        e.db.isSuspended { p.env with now := call.now } account = true)

/-! ### The queue -/

section Queue

variable {p} {now : Nat} {e : Dispatcher ρ}

/-- What the kicker records is due later. -/
def Records (now : Nat) (e e' : Dispatcher ρ) : Prop :=
  ∃ recorded, e'.pendingUnbans = e.pendingUnbans ++ recorded ∧ ∀ u ∈ recorded, now < u.at

theorem Records.of_same {e' : Dispatcher ρ} (same : e'.pendingUnbans = e.pendingUnbans) :
    Records now e e' := ⟨[], by simpa using same, by simp⟩

theorem pendingUnbans_kickReason (s : Speakers ρ) (now : Nat) (e : Dispatcher ρ) (c : ChannelInfo) («from» channel text : String) :
    (e.kickReason s now c «from» channel text).1.pendingUnbans = e.pendingUnbans := by
  unfold kickReason
  dsimp only
  repeat' split
  all_goals rfl

theorem records_timesToBan (s : Speakers ρ) (now : Nat) (e : Dispatcher ρ) (k : KickerSettings) (botuid «from» channel : String) :
    Records now e (e.timesToBan s now k botuid «from» channel).1 := by
  unfold timesToBan
  dsimp only
  split
  · exact .of_same rfl
  split
  · exact .of_same rfl
  split
  · exact .of_same rfl
  split
  · exact .of_same rfl
  · rename_i timed
    refine ⟨_, rfl, ?_⟩
    intro u mem
    rw [List.mem_singleton.mp mem]
    change now < now + k.banExpire
    omega

theorem records_kickerCheck (s : Speakers ρ) (now : Nat) (e : Dispatcher ρ) («from» channel text : String) :
    Records now e (e.kickerCheck s now «from» channel text).1 := by
  unfold kickerCheck
  cases e.db.channel channel with
  | none => exact .of_same rfl
  | some c =>
      dsimp only
      split
      · exact .of_same rfl
      split
      · exact .of_same rfl
      rename_i botuid _
      have counted := pendingUnbans_kickReason s now e c «from» channel text
      split
      · rename_i judged
        rw [judged] at counted
        exact .of_same counted
      · rename_i e' reason judged
        rw [judged] at counted
        split
        · exact .of_same counted
        · obtain ⟨recorded, queue, later⟩ :=
            records_timesToBan s now e' c.kickers botuid «from» channel
          exact ⟨recorded, by rw [queue, counted], later⟩

theorem records_dispatch (p : Parts ρ) (now : Nat) (e : Dispatcher ρ) («from» «to» text : String) (msgid : Option String) :
    Records now e (e.dispatch p now «from» «to» text msgid).1 := by
  unfold dispatch
  split
  · dsimp only
    cases p.handleVote «from» «to» text e.toHost with
    | some voted => exact .of_same rfl
    | none =>
        obtain ⟨recorded, queue, later⟩ := records_kickerCheck p.toSpeakers now
          { e with toHost := (p.fantasy «from» «to» text e.toHost).1 } «from» «to» text
        refine ⟨recorded, ?_, later⟩
        dsimp only
        split <;> exact queue
  · exact .of_same rfl

end Queue

/-! ### What goes out -/

section Out

variable {p} {now : Nat} {e : Dispatcher ρ}

/-- What is lifted passes the tail of a call unchanged. -/
theorem stampIncidents_lifts (lifted : List PendingUnban) (evout : List NetAction) (r : ρ) :
    (stampIncidents p now r (lifted.map PendingUnban.lift ++ evout)).2 =
      lifted.map PendingUnban.lift ++ (stampIncidents p now r evout).2 := by
  induction lifted with
  | nil => rfl
  | cons u lifted ih => exact congrArg (u.lift :: ·) ih

/-- A call that finishes sends what was lifted, and leaves the queue alone. -/
def Sends (e : Dispatcher ρ) (lifted : List PendingUnban) (done : Dispatcher ρ × List NetAction) :
    Prop :=
  done.1.pendingUnbans = e.pendingUnbans ∧ ∃ more, done.2 = lifted.map PendingUnban.lift ++ more

theorem sends_finish (p : Parts ρ) (now : Nat) (e : Dispatcher ρ) (h : Host ρ) (lifted : List PendingUnban) (evout : List NetAction) :
    Sends e lifted (finish p now { e with toHost := h } (lifted.map PendingUnban.lift) evout) := by
  refine ⟨rfl, ?_⟩
  unfold finish
  dsimp only
  split
  · exact ⟨_, stampIncidents_lifts lifted evout _⟩
  · rw [stampIncidents_lifts, List.map_append, List.map_map]
    exact ⟨_, rfl⟩

theorem sends_userConnect (lifted : List PendingUnban) (uid nick host ip : String) :
    Sends e lifted (e.userConnect p now (lifted.map PendingUnban.lift) uid nick host ip) := by
  unfold userConnect
  dsimp only
  split
  · exact sends_finish p now _ _ lifted _
  split
  · exact sends_finish p now _ _ lifted _
  · exact sends_finish p now _ _ lifted _

theorem sends_join (lifted : List PendingUnban) (uid channel : String) (op : Bool) :
    Sends e lifted (e.join p now (lifted.map PendingUnban.lift) uid channel op) := by
  unfold join
  dsimp only
  split
  · exact sends_finish p now _ _ lifted _
  split
  · exact sends_finish p now _ _ lifted _
  · exact sends_finish p now _ _ lifted _

theorem sends_strip (lifted : List PendingUnban) (channel uid mode : String) (given : Bool)
    (unfit : ChannelInfo → Option String → Bool) :
    Sends e lifted (e.strip p now (lifted.map PendingUnban.lift) channel uid mode given unfit) := by
  unfold strip
  dsimp only
  split
  · exact sends_finish p now _ _ lifted _
  · exact sends_finish p now _ _ lifted _

theorem sends_userKilled (lifted : List PendingUnban) (uid : String) :
    Sends e lifted (e.userKilled p now (lifted.map PendingUnban.lift) uid) := by
  unfold userKilled
  split
  · exact sends_finish p now _ _ lifted _
  split
  · exact sends_finish p now _ _ lifted _
  · exact sends_finish p now _ _ lifted _

/-- The arm of a fingerprint finishes where it logs somebody in, and only there. -/
theorem userCert_cases (p : Parts ρ) (now : Nat) (e : Dispatcher ρ) (out : List NetAction) (uid fp : String) :
    (fp = "" ∨ (p.accountOf (p.setUserCert uid fp e.rest) uid).isSome = true ∨
        ∀ account ∈ e.db.certfpOwner p.env fp,
          e.db.isSuspended { p.env with now } account = true) ∧
      e.userCert p now out uid fp = ({ e with rest := p.setUserCert uid fp e.rest }, []) ∨
    ¬ (fp = "" ∨ (p.accountOf (p.setUserCert uid fp e.rest) uid).isSome = true ∨
        ∀ account ∈ e.db.certfpOwner p.env fp,
          e.db.isSuspended { p.env with now } account = true) ∧
      ∃ done, e.userCert p now out uid fp = e.finishWith p now out done := by
  unfold userCert
  dsimp only
  by_cases barred : fp = "" ∨ (p.accountOf (p.setUserCert uid fp e.rest) uid).isSome = true
  · rw [if_pos barred]
    exact .inl ⟨or_assoc.mp (.inl barred), rfl⟩
  · rw [if_neg barred, ← or_assoc]
    cases owned : e.db.certfpOwner p.env fp with
    | none => exact .inl ⟨.inr (by simp), rfl⟩
    | some account =>
        dsimp only
        by_cases suspended : e.db.isSuspended { p.env with now } account = true
        · rw [if_pos suspended]
          exact .inl ⟨.inr (by simpa using suspended), rfl⟩
        · rw [if_neg suspended]
          refine .inr ⟨?_, _, rfl⟩
          rintro (known | all)
          · exact barred known
          · exact suspended (all account rfl)

end Out

/-! ### Calls -/

section Calls

variable {p} {e : Dispatcher ρ}

theorem lifts_of_sends {call : Call}
    (sends : Sends (e.sweepUnbans call.now).1 (e.pendingUnbans.filter (·.at ≤ call.now))
      (e.handle p call.now call.event)) : Lifts p e call :=
  ⟨sends.2, [], by simpa [sweepUnbans] using sends.1, by simp⟩

theorem lifts_privmsg {now : Nat} («from» «to» text : String) (msgid : Option String) :
    Lifts p e ⟨now, .privmsg «from» «to» text msgid⟩ := by
  obtain ⟨recorded, queue, later⟩ :=
    records_dispatch p now (e.sweepUnbans now).1 «from» «to» text msgid
  have sends := sends_finish p now ((e.sweepUnbans now).1.dispatch p now «from» «to» text msgid).1
    ((e.sweepUnbans now).1.dispatch p now «from» «to» text msgid).1.toHost
    (e.pendingUnbans.filter (·.at ≤ now))
    ((e.sweepUnbans now).1.dispatch p now «from» «to» text msgid).2
  exact ⟨sends.2, recorded, sends.1.trans queue, later⟩

/-- A call lifts what is due exactly when it does not drop it. -/
theorem lifts_iff (e : Dispatcher ρ) (call : Call) : Lifts p e call ↔ ¬ Drops p e call := by
  obtain ⟨now, event⟩ := call
  have only {event : NetEvent} (other : ∀ uid fp, event ≠ .userCert uid fp) :
      ¬ Drops p e ⟨now, event⟩ := by
    rintro ⟨-, uid, fp, same, -⟩
    exact other uid fp same
  cases event with
  | userCert uid fp =>
      rcases userCert_cases p now (e.sweepUnbans now).1 (e.sweepUnbans now).2 uid fp with ⟨barred, returned⟩ | ⟨enters, done, finished⟩
      · have returns : e.handle p now (.userCert uid fp) = _ := returned
        constructor
        · rintro ⟨⟨more, sent⟩, -⟩ ⟨⟨u, mem, due⟩, -⟩
          rw [returns] at sent
          have lifted := (List.append_eq_nil_iff.mp sent.symm).1
          have listed : u ∈ e.pendingUnbans.filter (·.at ≤ now) :=
            List.mem_filter.mpr ⟨mem, decide_eq_true due⟩
          rw [List.map_eq_nil_iff.mp lifted] at listed
          contradiction
        · intro kept
          have nothing : e.pendingUnbans.filter (·.at ≤ now) = [] := by
            rw [List.filter_eq_nil_iff]
            intro u mem due
            exact kept ⟨⟨u, mem, of_decide_eq_true due⟩, uid, fp, rfl, barred⟩
          constructor
          · rw [returns]
            exact ⟨[], by simp [nothing]⟩
          · rw [returns]
            exact ⟨[], by simp [sweepUnbans], by simp⟩
      · have finishes : e.handle p now (.userCert uid fp) = _ := finished
        refine iff_of_true (lifts_of_sends ?_) ?_
        · rw [finishes]
          exact sends_finish ..
        · rintro ⟨-, uid', fp', same, barred⟩
          cases same
          exact enters barred
  | userConnect uid nick host ip =>
      exact iff_of_true (lifts_of_sends (sends_userConnect ..)) (only (by simp))
  | join uid channel op => exact iff_of_true (lifts_of_sends (sends_join ..)) (only (by simp))
  | channelOp channel uid op =>
      refine iff_of_true (lifts_of_sends ?_) (only (by simp))
      exact sends_strip (e := { (e.sweepUnbans now).1 with rest := _ }) ..
  | channelVoice channel uid voice =>
      refine iff_of_true (lifts_of_sends ?_) (only (by simp))
      exact sends_strip (e := { (e.sweepUnbans now).1 with rest := _ }) ..
  | userKilled uid => exact iff_of_true (lifts_of_sends (sends_userKilled ..)) (only (by simp))
  | privmsg «from» «to» text msgid => exact iff_of_true (lifts_privmsg ..) (only (by simp))
  | _ => exact iff_of_true (lifts_of_sends (sends_finish ..)) (only (by simp))

end Calls

/-- While no call comes at or after its deadline, a ban stays in the queue. -/
theorem waits {e : Dispatcher ρ} {calls : List Call} (run : Along (step p) (Lifts p) e calls)
    {u : PendingUnban} (mem : u ∈ e.pendingUnbans) (early : ∀ call ∈ calls, call.now < u.at) :
    u ∈ (after (step p) e calls).pendingUnbans := by
  induction calls generalizing e with
  | nil => exact mem
  | cons call calls ih =>
      obtain ⟨lifts, rest⟩ := run
      refine ih rest ?_ fun call mem => early call (List.mem_cons_of_mem _ mem)
      obtain ⟨recorded, queue, -⟩ := lifts.kept
      change u ∈ (e.handle p call.now call.event).1.pendingUnbans
      rw [queue]
      have later : call.now < u.at := early call List.mem_cons_self
      refine List.mem_append_left _ (List.mem_filter.mpr ⟨mem, ?_⟩)
      simpa using later

/-- Along any run from any engine: every call lifts what is due, each ban once, and
keeps the rest, exactly when no call drops what is due; and then the first call at
or after its deadline lifts a ban, whatever the event. -/
theorem unbans_lifted_iff (p : Parts ρ) (e : Dispatcher ρ) (calls : List Call) :
    (Along (step p) (Lifts p) e calls ↔ Along (step p) (fun e call => ¬ Drops p e call) e calls) ∧
      (Along (step p) (fun e call => ¬ Drops p e call) e calls →
        ∀ before waiting call rest, calls = before ++ (waiting ++ call :: rest) →
          ∀ u ∈ (after (step p) e before).pendingUnbans,
            (∀ call ∈ waiting, call.now < u.at) → u.at ≤ call.now →
              u.lift ∈ ((after (step p) e (before ++ waiting)).handle p call.now call.event).2) := by
  have same : Along (step p) (Lifts p) e calls ↔
      Along (step p) (fun e call => ¬ Drops p e call) e calls :=
    along_congr (J := fun _ => True) (fun _ _ _ => trivial) (fun e call _ => lifts_iff e call) trivial
  refine ⟨same, ?_⟩
  rintro run before waiting call rest rfl u mem early due
  obtain ⟨-, later⟩ := along_append.mp (same.mpr run)
  obtain ⟨waits', lifts, -⟩ := along_append.mp later
  have queued := waits p waits' mem early
  rw [after_append]
  obtain ⟨more, sent⟩ := lifts.sent
  rw [sent]
  exact List.mem_append_left _ (List.mem_map_of_mem (List.mem_filter.mpr ⟨queued, decide_eq_true due⟩))

/-! ### A ban that stays -/

/-- An engine with one speaker and a bot; nothing else answers. -/
def quiet : Parts ChatterState where
  isOp _ _ _ := false
  isVoiced _ _ _ := false
  uidByNick _ nick := if nick = "Bot" then some "00BAAAAAA" else none
  hostOf _ _ := some "pest.example"
  chatter state _ _ := state
  setChatter _ _ state _ := state
  badword _ _ := false
  ciHash := String.length
  warning _ _ reason := reason
  env := .still
  arm _ h := (h, [])
  accountOf _ _ := none
  nickOf _ _ := none
  isBot _ _ := false
  sid _ := "00B"
  defcon _ := 5
  channelModeSource _ _ := ""
  chanService _ := none
  operPrivs _ _ := false
  setUserCert _ _ r := r
  certfpLogin _ _ h := (h, [])
  userConnect _ _ _ _ r := r
  sessionLimitFor _ _ := none
  sessionCount _ _ := 0
  welcome _ _ h := (h, [])
  channelJoin _ _ _ h := (h, [])
  screenJoin _ _ h := (h, [])
  received _ _ _ h := (h, [])
  setOp _ _ _ r := r
  setVoice _ _ _ r := r
  reintroduce _ _ := none
  reviveBot _ h := (h, [])
  forgetUser _ h := (h, [])
  handleVote _ _ _ _ := none
  fantasy _ _ _ h := (h, [])
  triggerResponse _ _ _ h := (h, none)
  screenMessage _ _ _ h := (h, [])
  command _ _ _ _ h := (h, [])
  concluded out h := (h, out)
  trackAccounts _ h := h
  recordIncident _ _ r := (r, "1")
  standardReplies _ := true

/-- A channel where one line in bold gets its author banned for a minute. -/
def strict : Dispatcher ChatterState where
  db := after Db.step (.fresh "a")
    [.call .still (.botAdd "Bot" "bot" "services" "Bot"),
      .call .still (.registerChannel "#chan" "alice"), .call .still (.assignBot "#chan" "Bot"),
      .call .still (.setKicker "#chan" .bolds true), .call .still (.setTtb "#chan" 1),
      .call .still (.setBanExpire "#chan" 60)]
  rest := {}
  pendingUnbans := []

/-- A line in bold, a fingerprint of nobody a minute later, and a ping. -/
def dropping : List Call :=
  [⟨100, .privmsg "1AAAAAAAB" "#chan" "\x02hi" none⟩, ⟨160, .userCert "1AAAAAAAC" ""⟩,
    ⟨161, .ping "x" none⟩]

/-- The ban leaves the queue, and no call has lifted it. -/
theorem unban_lost :
    ((strict.handle quiet 100 (.privmsg "1AAAAAAAB" "#chan" "\x02hi" none)).1.pendingUnbans =
        [⟨160, "00BAAAAAA", "#chan", "*!*@pest.example"⟩]) ∧
      ¬ Along (step quiet) (Lifts quiet) strict dropping := by
  have recorded : (strict.handle quiet 100
      (.privmsg "1AAAAAAAB" "#chan" "\x02hi" none)).1.pendingUnbans =
        [⟨160, "00BAAAAAA", "#chan", "*!*@pest.example"⟩] := by decide +kernel
  refine ⟨recorded, ?_⟩
  rintro ⟨-, lifts, -⟩
  have queued : ⟨160, "00BAAAAAA", "#chan", "*!*@pest.example"⟩ ∈ (step quiet strict
      ⟨100, .privmsg "1AAAAAAAB" "#chan" "\x02hi" none⟩).pendingUnbans :=
    recorded ▸ List.mem_singleton_self _
  exact (lifts_iff _ _).mp lifts
    ⟨⟨_, queued, Nat.le_refl 160⟩, "1AAAAAAAC", "", rfl, .inl rfl⟩

end Dispatcher

end Echo
