import Echo.Lib.Runs
import Echo.Net.Engine

/-!
The sessions that are counted of an address against its live users, over any run.
A user whose address is not known is not counted.
-/

namespace Echo.Net

open Echo.Lib

/-! ### What an operation leaves of users and sessions -/

namespace Network

variable {n : Network}

/-- The live users of an address. -/
def live (n : Network) (ip : String) : Nat := Assoc.count (fun _ u => u.ip = ip) n.users

/-- Every known address has as many sessions as users, and an entry if it has any. -/
def Counted (n : Network) : Prop :=
  ∀ ip, n.sessions.lookup ip = if ip ≠ "" ∧ n.live ip ≠ 0 then some (n.live ip) else none

/-- Nothing is counted anew where the users and the sessions stay. -/
theorem Counted.congr {m : Network} (counted : n.Counted) (users : m.users = n.users)
    (sessions : m.sessions = n.sessions) : m.Counted := by
  unfold Counted live at counted ⊢
  rw [users, sessions]
  exact counted

theorem Counted.userConnect (counted : n.Counted) {uid : String} (fresh : uid ∉ n.users)
    (nick host ip : String) : (n.userConnect uid nick host ip).Counted := by
  intro address
  have users : (n.userConnect uid nick host ip).live address =
      n.live address + if ip = address then 1 else 0 := by
    unfold live Network.userConnect
    rw [Assoc.count_insert_of_new (AList.lookup_eq_none.mpr fresh)]
    simp
  have sessions : (n.userConnect uid nick host ip).sessions.lookup address =
      if ip ≠ "" ∧ address = ip then some ((n.sessions.lookup ip).getD 0 + 1)
      else n.sessions.lookup address := by
    unfold Network.userConnect
    by_cases unknown : ip = ""
    · simp [unknown]
    · simp [unknown, Assoc.lookup_insert_eq]
  rw [users, sessions, counted address]
  by_cases own : address = ip
  · subst own
    rw [counted address]
    by_cases unknown : address = ""
    · simp [unknown]
    · by_cases none : n.live address = 0
      · simp [unknown, none]
      · simp [unknown, none]
  · simp [own, Ne.symm own]

/-- A user has a session to release, and it is the user's own. -/
theorem Counted.release (counted : n.Counted) {uid : String} {u : User}
    (known : n.users.lookup uid = some u) (address : String) :
    (n.release u.ip).sessions.lookup address =
      if address ≠ "" ∧ n.live address - (if u.ip = address then 1 else 0) ≠ 0 then
        some (n.live address - if u.ip = address then 1 else 0) else none := by
  have among : 0 < n.live u.ip := by
    have whole : Assoc.count (fun _ v => v.ip = u.ip) (n.users.erase uid) + 1 = n.live u.ip := by
      have split := Assoc.count_erase (p := fun _ v => decide (v.ip = u.ip)) known
      rwa [if_pos (decide_eq_true rfl)] at split
    omega
  unfold Network.release
  by_cases unknown : u.ip = ""
  · have no_entry : n.sessions.lookup u.ip = none := by
      rw [counted u.ip, if_neg fun yes => yes.1 unknown]
    rw [no_entry]
    dsimp only
    rw [counted address]
    by_cases own : u.ip = address
    · simp [← own, unknown]
    · simp [own]
  · have entry : n.sessions.lookup u.ip = some (n.live u.ip) := by
      rw [counted u.ip, if_pos ⟨unknown, among.ne'⟩]
    rw [entry]
    dsimp only
    by_cases own : u.ip = address
    · subst own
      by_cases last : n.live u.ip - 1 = 0
      · simp [last]
      · simp [last, unknown]
    · by_cases last : n.live u.ip - 1 = 0
      · simp [last, own, Ne.symm own, counted address]
      · simp [last, own, Ne.symm own, counted address]

theorem Counted.userQuit (counted : n.Counted) (uid : String) (now : Nat) :
    (n.userQuit uid now).Counted := by
  intro address
  unfold live
  rw [users_userQuit]
  cases known : n.users.lookup uid with
  | none =>
      rw [Assoc.erase_of_lookup_eq_none known]
      have same : (n.userQuit uid now).sessions = n.sessions := by
        unfold Network.userQuit
        rw [known]
        rfl
      rw [same]
      exact counted address
  | some u =>
      have gone : Assoc.count (fun _ v => decide (v.ip = address)) (n.users.erase uid) =
          n.live address - if u.ip = address then 1 else 0 := by
        have split := Assoc.count_erase (p := fun _ v => decide (v.ip = address)) known
        unfold live
        rw [← split]
        by_cases own : u.ip = address <;> simp [own]
      have seen : (n.recordSeen (lc u.nick) ⟨u.nick, now, "quitting"⟩).Counted :=
        counted.congr rfl rfl
      have released := seen.release (by rwa [users_recordSeen]) address
      have same : (n.recordSeen (lc u.nick) ⟨u.nick, now, "quitting"⟩).live address =
          n.live address := by
        unfold live
        rw [users_recordSeen]
      rw [same] at released
      rw [gone, ← released]
      unfold Network.userQuit
      rw [known]
      rfl

theorem Counted.userNickChange (counted : n.Counted) (uid nick : String) (now : Nat) :
    (n.userNickChange uid nick now).Counted := by
  unfold Network.userNickChange
  cases known : n.users.lookup uid with
  | none => exact counted
  | some user =>
      intro address
      have same : Assoc.count (fun _ u => decide (u.ip = address))
          (n.users.insert uid { user with nick }) = n.live address :=
        Assoc.count_insert_of_same known rfl
      unfold live
      rw [users_recordSeen, sessions_recordSeen]
      dsimp only
      rw [same]
      exact counted address

theorem counted_nil : Counted {} := by
  intro ip
  rw [if_neg fun yes => yes.2 rfl]
  rfl

end Network

/-! ### Runs -/

namespace Engine

variable {e : Engine}

theorem counted_prune (counted : e.net.Counted) (channel : String) :
    (e.pruneChannelIfGone channel).net.Counted := by
  unfold pruneChannelIfGone
  split
  · exact counted
  · split
    · exact counted
    · exact counted.congr rfl rfl

theorem counted_pruneAll (counted : e.net.Counted) (channels : List String) :
    (channels.foldl pruneChannelIfGone e).net.Counted := by
  induction channels generalizing e with
  | nil => exact counted
  | cons channel channels ih => exact ih (counted_prune counted channel)

theorem counted_forgetUser (counted : e.net.Counted) (uid : String) (now : Nat) :
    (e.forgetUser uid now).net.Counted :=
  counted_pruneAll (e := { e with net := e.net.userQuit uid now }) (counted.userQuit uid now)
    (e.net.channelsOf uid)

theorem counted_forgetAll (counted : e.net.Counted) (uids : List String) (now : Nat) :
    (uids.foldl (fun e uid => e.forgetUser uid now) e).net.Counted := by
  induction uids generalizing e with
  | nil => exact counted
  | cons uid uids ih => exact ih (counted_forgetUser counted uid now)

theorem counted_forgetServers (counted : e.net.Counted) (sids : List String) (now : Nat) :
    (e.forgetServers sids now).net.Counted := by
  unfold forgetServers
  induction sids generalizing e with
  | nil => exact counted
  | cons sid sids ih => exact ih (counted_forgetAll counted _ now)

theorem counted_memberLeft (reconcile : Bots → Bots) (counted : e.net.Counted)
    (channel uid : String) (now : Nat) : (e.memberLeft reconcile channel uid now).net.Counted := by
  have parted : (e.net.channelPart channel uid now).Counted := by
    unfold Network.channelPart
    refine counted.congr ?_ ?_
    · rw [Network.users_seenThere]
      cases e.net.channels.lookup (lc channel) <;> rfl
    · rw [Network.sessions_seenThere]
      cases e.net.channels.lookup (lc channel) <;> rfl
  have pruned := counted_prune (e := { e with net := e.net.channelPart channel uid now }) parted channel
  have quiet (e : Engine) : (e.forgetChatter channel uid).net = e.net := by
    unfold forgetChatter
    cases e.chatter.lookup (lc channel) <;> rfl
  unfold memberLeft
  dsimp only
  split
  · rw [quiet]
    exact pruned
  · split
    · rw [quiet]
      exact pruned
    · rw [quiet]
      exact pruned

/-- A connecting uid is not in use. -/
def Fresh (e : Engine) : Event → Prop
  | .userConnect uid .. => uid ∉ e.net.users
  | _ => True

abbrev Admits (e : Engine) (timed : Nat × Event) : Prop := e.Fresh timed.2

/-- One event. -/
theorem counted_handle (reconcile : Bots → Bots) (counted : e.net.Counted) (now : Nat)
    {event : Event} (fresh : e.Fresh event) : (e.handle reconcile now event).net.Counted := by
  cases event with
  | userConnect uid nick host ip => exact counted.userConnect fresh nick host ip
  | nickChange uid nick => exact counted.userNickChange uid nick now
  | quit uid => exact counted_forgetUser counted uid now
  | userKilled uid =>
      unfold handle userKilled
      dsimp only
      split
      · exact counted
      · split
        · exact counted
        · exact counted_forgetUser counted uid now
  | login uid account =>
      unfold handle
      dsimp only
      split
      · exact counted.congr rfl rfl
      · exact counted.congr rfl rfl
  | join uid channel op =>
      refine counted.congr ?_ ?_
      · exact Network.users_seenThere ..
      · exact Network.sessions_seenThere ..
  | left uid channel => exact counted_memberLeft reconcile counted channel uid now
  | channelOp channel uid op => exact counted.congr rfl rfl
  | channelVoice channel uid voice => exact counted.congr rfl rfl
  | serverInfo sid name => exact counted.congr rfl rfl
  | serverLink sid parent => exact counted.congr rfl rfl
  | serverSplit server =>
      exact counted_forgetServers (e := { e with net := (e.net.serverSplit server).1 })
        (counted.congr rfl rfl) _ now

/-- The sessions of a run that begins with no users and connects fresh uids: in every
state, each known address has an entry, of as many sessions as it has live users, if it
has any, and none otherwise. None falls below one. -/
theorem sessions_exact (reconcile : Bots → Bots) {run : List (Nat × Event)}
    (empty : e.net = {}) (fresh : Along (step reconcile) Admits e run)
    {before : List (Nat × Event)} (reached : before <+: run) (ip : String) :
    let sessions := (after (step reconcile) e before).net.sessions
    let live := (after (step reconcile) e before).net.live ip
    (ip ≠ "" → (sessions.lookup ip).getD 0 = live) ∧
      (∀ count, sessions.lookup ip = some count → 0 < count) ∧
      (live = 0 ∨ ip = "" → ip ∉ sessions) := by
  obtain ⟨rest, rfl⟩ := reached
  have counted : (after (step reconcile) e before).net.Counted := by
    refine (along_append.mp fresh).1.invariant (I := fun e => e.net.Counted) ?_ ?_
    · intro e timed counted fresh
      exact counted_handle reconcile counted timed.1 fresh
    · rw [empty]
      exact Network.counted_nil
  intro sessions live
  have entry : sessions.lookup ip = if ip ≠ "" ∧ live ≠ 0 then some live else none := counted ip
  refine ⟨fun known => ?_, fun count held => ?_, fun none => ?_⟩
  · rw [entry]
    by_cases no : live = 0 <;> simp [known, no]
  · rw [entry] at held
    split at held
    · rename_i some
      cases held
      exact Nat.pos_of_ne_zero some.2
    · contradiction
  · rw [← AList.lookup_eq_none, entry, if_neg]
    rcases none with no | unknown
    · exact fun yes => yes.2 no
    · exact fun yes => yes.1 unknown

/-- Two users of one address, one of whom quits. -/
def twoUsers : List (Nat × Event) :=
  [(100, .userConnect "0IRAAAAAB" "alice" "home.example" "192.0.2.7"),
    (101, .userConnect "0IRAAAAAC" "bob" "home.example" "192.0.2.7"), (102, .quit "0IRAAAAAB")]

theorem sessions_exact_twoUsers :
    ({} : Engine).net = {} ∧ Along (step id) Admits {} twoUsers ∧
      ((after (step id) {} twoUsers).net.sessions.lookup "192.0.2.7").getD 0 = 1 := by
  have fresh : Along (step id) Admits {} twoUsers :=
    ⟨show "0IRAAAAAB" ∉ _ by decide, show "0IRAAAAAC" ∉ _ by decide +kernel, trivial, trivial⟩
  refine ⟨rfl, fresh, ?_⟩
  rw [(sessions_exact id rfl fresh List.prefix_rfl "192.0.2.7").1 (by decide)]
  decide +kernel

/-- A user whose address is not known has no session. -/
theorem unknown_address :
    Along (step id) Admits {} [(100, .userConnect "0IRAAAAAB" "alice" "home.example" "")] ∧
      let e := after (step id) {} [(100, .userConnect "0IRAAAAAB" "alice" "home.example" "")]
      e.net.live "" = 1 ∧ e.net.sessions.lookup "" = none :=
  ⟨⟨show "0IRAAAAAB" ∉ _ by decide, trivial⟩, by decide +kernel, by decide +kernel⟩

end Engine

end Echo.Net
