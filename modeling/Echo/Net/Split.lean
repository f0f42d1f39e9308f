import Echo.Net.Sessions

/-!
A netsplit. The servers that go are those below the one that left; with them goes every
user behind one of them, from every table that is keyed by uid, and nobody else.

A channel keeps members and ops that were never introduced as users, and a channel without
members goes with whatever ops and voices are still in it.
-/

namespace Echo.Net

open Echo.Lib

/-! ### The servers -/

namespace Network

variable (n : Network)

/-- The parent relation of the server tree. -/
def Parent (parent child : String) : Prop := n.servers.lookup child = some parent

theorem below_links {parent child : String} : n.links.Below parent child ↔ n.Parent parent child := by
  unfold Links.Below links Parent
  rw [← Assoc.mem_entries_iff, List.mem_map]
  constructor
  · rintro ⟨e, mem, same⟩
    obtain ⟨rfl, rfl⟩ := Prod.mk.inj same
    exact mem
  · intro mem
    exact ⟨_, mem, rfl⟩

theorem lookup_eraseAll {α : Type} (sids : List String) (m : Assoc String α) (s : String) :
    (sids.foldl (fun m s => m.erase s) m).lookup s = if s ∈ sids then none else m.lookup s := by
  induction sids generalizing m with
  | nil => rfl
  | cons sid sids ih =>
      rw [List.foldl_cons, ih, Assoc.lookup_erase_eq]
      by_cases own : s = sid
      · simp [own]
      · simp [own]

/-- The split gives the servers reachable from the one that left, each once, and takes
just these out of both tables. -/
theorem serverSplit_exact (sid : String) :
    (n.serverSplit sid).2.Nodup ∧
      (∀ s, s ∈ (n.serverSplit sid).2 ↔ Relation.ReflTransGen n.Parent sid s) ∧
      ∀ s, (n.serverSplit sid).1.servers.lookup s =
          (if s ∈ (n.serverSplit sid).2 then none else n.servers.lookup s) ∧
        (n.serverSplit sid).1.serverNames.lookup s =
          if s ∈ (n.serverSplit sid).2 then none else n.serverNames.lookup s := by
  have relation : n.links.Below = n.Parent :=
    funext fun parent => funext fun child => propext n.below_links
  obtain ⟨nodup, reached⟩ := descend_exact n.links sid
  rw [relation] at reached
  exact ⟨nodup, reached, fun s => ⟨lookup_eraseAll _ _ s, lookup_eraseAll _ _ s⟩⟩

end Network

/-! ### What is kept of a uid -/

namespace Engine

/-- A uid is in one of the sets of a channel. -/
def Has (set : Channel → Uids) (e : Engine) (channel uid : String) : Prop :=
  ∃ c, e.net.channels.lookup channel = some c ∧ uid ∈ set c

def bucket (e : Engine) (channel uid : String) : Option ChatterState :=
  (e.chatter.lookup channel).bind (·.lookup uid)

/-- Everything that is keyed by a uid, but its place in the channels. -/
structure Same (uid : String) (e e' : Engine) : Prop where
  users : e'.net.users.lookup uid = e.net.users.lookup uid
  accounts : e'.net.accounts.lookup uid = e.net.accounts.lookup uid
  saslSessions : e'.saslSessions.lookup uid = e.saslSessions.lookup uid
  saslSource : e'.saslSource.lookup uid = e.saslSource.lookup uid
  pending : e'.pendingEnforce.filter (·.uid = uid) = e.pendingEnforce.filter (·.uid = uid)
  chatter : ∀ channel, e'.bucket channel uid = e.bucket channel uid

/-- A uid keeps all it has, and its status wherever it is a member. -/
structure Untouched (uid : String) (e e' : Engine) : Prop extends Same uid e e' where
  members : ∀ channel, Has (·.members) e' channel uid ↔ Has (·.members) e channel uid
  ops : ∀ channel, Has (·.members) e channel uid →
    (Has (·.ops) e' channel uid ↔ Has (·.ops) e channel uid)
  voices : ∀ channel, Has (·.members) e channel uid →
    (Has (·.voices) e' channel uid ↔ Has (·.voices) e channel uid)

/-- Nothing is kept of a uid. -/
structure Forgotten (uid : String) (e : Engine) : Prop where
  users : uid ∉ e.net.users
  accounts : uid ∉ e.net.accounts
  members : ∀ channel, ¬ Has (·.members) e channel uid
  ops : ∀ channel, ¬ Has (·.ops) e channel uid
  voices : ∀ channel, ¬ Has (·.voices) e channel uid
  saslSessions : uid ∉ e.saslSessions
  saslSource : uid ∉ e.saslSource
  pending : ∀ p ∈ e.pendingEnforce, p.uid ≠ uid
  chatter : ∀ channel, e.bucket channel uid = none

variable {e e' e'' : Engine} {uid x : String}

theorem Untouched.refl : Untouched uid e e :=
  ⟨⟨rfl, rfl, rfl, rfl, rfl, fun _ => rfl⟩, fun _ => .rfl, fun _ _ => .rfl, fun _ _ => .rfl⟩

theorem Untouched.trans (first : Untouched uid e e') (second : Untouched uid e' e'') :
    Untouched uid e e'' where
  users := second.users.trans first.users
  accounts := second.accounts.trans first.accounts
  saslSessions := second.saslSessions.trans first.saslSessions
  saslSource := second.saslSource.trans first.saslSource
  pending := second.pending.trans first.pending
  chatter channel := (second.chatter channel).trans (first.chatter channel)
  members channel := (second.members channel).trans (first.members channel)
  ops channel member :=
    (second.ops channel ((first.members channel).mpr member)).trans (first.ops channel member)
  voices channel member :=
    (second.voices channel ((first.members channel).mpr member)).trans (first.voices channel member)

/-- What is forgotten stays so while it is not touched and no new status comes up. -/
structure Shrinks (uid : String) (e e' : Engine) : Prop where
  ops : ∀ channel, Has (·.ops) e' channel uid → Has (·.ops) e channel uid
  voices : ∀ channel, Has (·.voices) e' channel uid → Has (·.voices) e channel uid

theorem Forgotten.untouched (gone : Forgotten uid e) (same : Untouched uid e e')
    (shrinks : Shrinks uid e e') : Forgotten uid e' where
  users := by
    rw [← AList.lookup_eq_none, same.users, AList.lookup_eq_none]
    exact gone.users
  accounts := by
    rw [← AList.lookup_eq_none, same.accounts, AList.lookup_eq_none]
    exact gone.accounts
  members channel := (same.members channel).not.mpr (gone.members channel)
  ops channel held := gone.ops channel (shrinks.ops channel held)
  voices channel held := gone.voices channel (shrinks.voices channel held)
  saslSessions := by
    rw [← AList.lookup_eq_none, same.saslSessions, AList.lookup_eq_none]
    exact gone.saslSessions
  saslSource := by
    rw [← AList.lookup_eq_none, same.saslSource, AList.lookup_eq_none]
    exact gone.saslSource
  pending p mem own := by
    have among : p ∈ e'.pendingEnforce.filter (·.uid = uid) := by simp [mem, own]
    rw [same.pending] at among
    exact gone.pending p (List.mem_of_mem_filter among) own
  chatter channel := (same.chatter channel).trans (gone.chatter channel)

/-- Some uids are forgotten and every other is untouched. -/
structure Clears (gone : String → Prop) (e e' : Engine) : Prop where
  forgotten : ∀ x, gone x → Forgotten x e'
  others : ∀ x, ¬ gone x → Untouched x e e'
  shrinks : ∀ x, Shrinks x e e'

theorem Clears.refl : Clears (fun _ => False) e e :=
  ⟨fun _ no => no.elim, fun _ _ => .refl, fun _ => ⟨fun _ held => held, fun _ held => held⟩⟩

theorem Clears.trans {p q : String → Prop} (first : Clears p e e') (second : Clears q e' e'') :
    Clears (fun x => p x ∨ q x) e e'' := by
  constructor
  · intro x gone
    by_cases now : q x
    · exact second.forgotten x now
    · exact (first.forgotten x (gone.resolve_right now)).untouched (second.others x now)
        (second.shrinks x)
  · intro x spared
    exact (first.others x fun gone => spared (.inl gone)).trans
      (second.others x fun gone => spared (.inr gone))
  · intro x
    refine ⟨fun channel held => ?_, fun channel held => ?_⟩
    · exact (first.shrinks x).ops channel ((second.shrinks x).ops channel held)
    · exact (first.shrinks x).voices channel ((second.shrinks x).voices channel held)

theorem Clears.congr {p q : String → Prop} (clears : Clears p e e') (same : ∀ x, p x ↔ q x) :
    Clears q e e' := by
  have eq : p = q := funext fun x => propext (same x)
  exact eq ▸ clears

/-! ### Pruning -/

/-- Channels go that have no members. -/
def Prunes (e e' : Engine) : Prop :=
  ∃ channels, e' = { e with net := { e.net with channels } } ∧
    ∀ channel, channels.lookup channel = e.net.channels.lookup channel ∨
      channels.lookup channel = none ∧ ∀ x, ¬ Has (·.members) e channel x

theorem Prunes.refl : Prunes e e := ⟨e.net.channels, rfl, fun _ => .inl rfl⟩

theorem Prunes.has {set : Channel → Uids} (prunes : Prunes e e') {channel : String}
    (held : Has set e' channel x) : Has set e channel x := by
  obtain ⟨channels, rfl, pruned⟩ := prunes
  obtain ⟨c, known, mem⟩ := held
  refine ⟨c, ?_, mem⟩
  rcases pruned channel with same | ⟨none, -⟩
  · exact same.symm.trans known
  · cases none.symm.trans known

theorem Prunes.has_iff {set : Channel → Uids} (prunes : Prunes e e') {channel y : String}
    (member : Has (·.members) e channel y) : Has set e' channel x ↔ Has set e channel x := by
  refine ⟨prunes.has, ?_⟩
  obtain ⟨channels, rfl, pruned⟩ := prunes
  rintro ⟨c, known, mem⟩
  rcases pruned channel with same | ⟨-, empty⟩
  · exact ⟨c, same.trans known, mem⟩
  · exact absurd member (empty y)

theorem Prunes.trans (first : Prunes e e') (second : Prunes e' e'') : Prunes e e'' := by
  have members {channel : String} {x : String} (held : Has (·.members) e channel x) :
      Has (·.members) e' channel x := (first.has_iff held).mpr held
  obtain ⟨channels, rfl, pruned⟩ := first
  obtain ⟨channels', rfl, again⟩ := second
  refine ⟨channels', rfl, fun channel => ?_⟩
  rcases again channel with same | ⟨none, empty⟩
  · rcases pruned channel with before | gone
    · exact .inl (same.trans before)
    · exact .inr ⟨same.trans gone.1, gone.2⟩
  · exact .inr ⟨none, fun x held => empty x (members held)⟩

theorem prunes_prune (channel : String) : Prunes e (e.pruneChannelIfGone channel) := by
  unfold pruneChannelIfGone
  split
  · exact .refl
  · rename_i empty
    split
    · exact .refl
    · refine ⟨_, rfl, fun c => ?_⟩
      rw [Assoc.lookup_erase_eq]
      by_cases own : c = lc channel
      · refine .inr ⟨if_pos own, ?_⟩
        rintro x ⟨found, known, mem⟩
        refine empty ?_
        unfold Network.channelMembers
        rw [own] at known
        rw [known, List.isSome_head?]
        exact List.ne_nil_of_mem (AList.mem_keys.mp mem)
      · exact .inl (if_neg own)

theorem prunes_pruneAll (channels : List String) : Prunes e (channels.foldl pruneChannelIfGone e) := by
  induction channels generalizing e with
  | nil => exact .refl
  | cons channel channels ih => exact (prunes_prune channel).trans ih

/-! ### One user -/

/-- A uid that quits is in no set of a channel, and every other stays where it is. -/
theorem has_userQuit {set : Channel → Uids} (now : Nat) {channel : String}
    (part : ∀ c : Channel, x ∈ set (c.without uid) ↔ x ≠ uid ∧ x ∈ set c) :
    Has set { e with net := e.net.userQuit uid now } channel x ↔ x ≠ uid ∧ Has set e channel x := by
  unfold Has
  dsimp only
  rw [Network.channels_userQuit, Assoc.lookup_mapValues]
  cases e.net.channels.lookup channel with
  | none => simp
  | some c => simp [part]

theorem bucket_forgetChatterEverywhere (channel : String) :
    (e.forgetChatterEverywhere uid).bucket channel x =
      if x = uid then none else e.bucket channel x := by
  unfold bucket forgetChatterEverywhere
  dsimp only
  rw [Assoc.lookup_retain, Assoc.lookup_mapValues]
  cases e.chatter.lookup channel with
  | none => simp
  | some own =>
      rw [Option.map_some, Option.filter_some, Option.bind_some]
      have left : (own.erase uid).lookup x = if x = uid then none else own.lookup x :=
        Assoc.lookup_erase_eq own uid x
      by_cases empty : own.erase uid = ∅
      · rw [empty] at left ⊢
        rw [← left]
        rfl
      · have some_entry : (!(own.erase uid).entries.isEmpty) = true := by
          simpa using fun none : (own.erase uid).entries = [] => empty (AList.ext none)
        rw [if_pos some_entry, Option.bind_some, left]

/-- A user who is forgotten is forgotten everywhere, and nobody else is. -/
theorem forgetUser_clears (uid : String) (now : Nat) :
    Clears (· = uid) e (e.forgetUser uid now) := by
  have prunes := prunes_pruneAll (e := { e with net := e.net.userQuit uid now })
    (e.net.channelsOf uid)
  have has {set : Channel → Uids} {channel x : String}
      (part : ∀ c : Channel, x ∈ set (c.without uid) ↔ x ≠ uid ∧ x ∈ set c)
      (held : Has set (e.forgetUser uid now) channel x) : x ≠ uid ∧ Has set e channel x :=
    (has_userQuit now part).mp (prunes.has held)
  have has_iff {set : Channel → Uids} {channel x : String}
      (part : ∀ c : Channel, x ∈ set (c.without uid) ↔ x ≠ uid ∧ x ∈ set c) (other : x ≠ uid)
      (member : Has (·.members) e channel x) :
      Has set (e.forgetUser uid now) channel x ↔ Has set e channel x := by
    have stays : Has (·.members) { e with net := e.net.userQuit uid now } channel x :=
      (has_userQuit now fun _ => AList.mem_erase).mpr ⟨other, member⟩
    refine (prunes.has_iff stays).trans ((has_userQuit now part).trans ?_)
    exact and_iff_right other
  obtain ⟨channels, pruned, -⟩ := prunes
  have after_all : e.forgetUser uid now =
      ({ e with net := { e.net.userQuit uid now with channels } } : Engine).forgetClient uid := by
    unfold forgetUser
    dsimp only
    rw [pruned]
  have chatter (channel x : String) : (e.forgetUser uid now).bucket channel x =
      if x = uid then none else e.bucket channel x := by
    rw [after_all]
    exact bucket_forgetChatterEverywhere channel
  have users (x : String) : (e.forgetUser uid now).net.users.lookup x =
      if x = uid then none else e.net.users.lookup x := by
    rw [after_all, ← Assoc.lookup_erase_eq, ← Network.users_userQuit]
    rfl
  have accounts (x : String) : (e.forgetUser uid now).net.accounts.lookup x =
      if x = uid then none else e.net.accounts.lookup x := by
    rw [after_all, ← Assoc.lookup_erase_eq, ← Network.accounts_userQuit]
    rfl
  have sessions (x : String) : (e.forgetUser uid now).saslSessions.lookup x =
      if x = uid then none else e.saslSessions.lookup x := by
    rw [after_all, ← Assoc.lookup_erase_eq]
    rfl
  have source (x : String) : (e.forgetUser uid now).saslSource.lookup x =
      if x = uid then none else e.saslSource.lookup x := by
    rw [after_all, ← Assoc.lookup_erase_eq]
    rfl
  have pending : (e.forgetUser uid now).pendingEnforce =
      e.pendingEnforce.filter (·.uid ≠ uid) := by
    rw [after_all]
    rfl
  constructor
  · rintro x rfl
    constructor
    · rw [← AList.lookup_eq_none, users, if_pos rfl]
    · rw [← AList.lookup_eq_none, accounts, if_pos rfl]
    · exact fun channel held => (has (fun _ => AList.mem_erase) held).1 rfl
    · exact fun channel held => (has (fun _ => AList.mem_erase) held).1 rfl
    · exact fun channel held => (has (fun _ => AList.mem_erase) held).1 rfl
    · rw [← AList.lookup_eq_none, sessions, if_pos rfl]
    · rw [← AList.lookup_eq_none, source, if_pos rfl]
    · intro p mem
      rw [pending] at mem
      exact of_decide_eq_true (List.mem_filter.mp mem).2
    · exact fun channel => (chatter channel x).trans (if_pos rfl)
  · intro x other
    constructor
    · constructor
      · exact (users x).trans (if_neg other)
      · exact (accounts x).trans (if_neg other)
      · exact (sessions x).trans (if_neg other)
      · exact (source x).trans (if_neg other)
      · rw [pending, List.filter_filter]
        refine List.filter_congr fun p _ => ?_
        by_cases own : p.uid = x
        · simp [own, other]
        · simp [own]
      · exact fun channel => (chatter channel x).trans (if_neg other)
    · intro channel
      refine ⟨fun held => (has (fun _ => AList.mem_erase) held).2, fun held => ?_⟩
      exact (has_iff (fun _ => AList.mem_erase) other held).mpr held
    · exact fun channel => has_iff (fun _ => AList.mem_erase) other
    · exact fun channel => has_iff (fun _ => AList.mem_erase) other
  · intro x
    refine ⟨fun channel held => ?_, fun channel held => ?_⟩
    · exact (has (fun _ => AList.mem_erase) held).2
    · exact (has (fun _ => AList.mem_erase) held).2

theorem forgetAll_clears (uids : List String) (now : Nat) :
    Clears (· ∈ uids) e (uids.foldl (fun e uid => e.forgetUser uid now) e) := by
  induction uids generalizing e with
  | nil => exact Clears.refl.congr fun x => by simp
  | cons uid uids ih =>
      exact ((forgetUser_clears uid now).trans ih).congr fun x => List.mem_cons.symm

/-! ### A split -/

/-- The server's sid begins the uid. -/
def On (sid uid : String) : Prop := sid.toList <+: uid.toList

theorem mem_uidsOnServer {sid : String} :
    uid ∈ e.net.uidsOnServer sid ↔ uid ∈ e.net.users ∧ On sid uid := by
  unfold Network.uidsOnServer On
  rw [List.mem_filter, AList.mem_keys, List.isPrefixOf_iff_prefix]

/-- Of the users known before, those behind one of the servers are forgotten. -/
theorem forgetServers_clears (sids : List String) (now : Nat) :
    Clears (fun x => x ∈ e.net.users ∧ ∃ sid ∈ sids, On sid x) e (e.forgetServers sids now) := by
  unfold forgetServers
  induction sids generalizing e with
  | nil => exact Clears.refl.congr fun x => by simp
  | cons sid sids ih =>
      have first := forgetAll_clears (e := e) (e.net.uidsOnServer sid) now
      refine (first.trans ih).congr fun x => ?_
      rw [mem_uidsOnServer]
      constructor
      · rintro (⟨known, on⟩ | ⟨left, s, mem, on⟩)
        · exact ⟨known, sid, List.mem_cons_self, on⟩
        · have known : x ∈ e.net.users := by
            by_contra no
            have kept := first.others x fun gone => no (mem_uidsOnServer.mp gone).1
            rw [← AList.lookup_eq_none, ← kept.users, AList.lookup_eq_none] at no
            exact no left
          exact ⟨known, s, List.mem_cons_of_mem _ mem, on⟩
      · rintro ⟨known, s, mem, on⟩
        by_cases own : On sid x
        · exact .inl ⟨known, own⟩
        · right
          have kept := first.others x fun gone => own (mem_uidsOnServer.mp gone).2
          refine ⟨?_, s, ?_, on⟩
          · rwa [← AList.lookup_isSome, kept.users, AList.lookup_isSome]
          · rcases List.mem_cons.mp mem with rfl | mem
            · exact absurd on own
            · exact mem

/-- A split takes the servers reachable from the one that left, and every user whose uid
has the sid of one of them; nothing is left of these users, every other uid keeps what it
has, and the sessions are still as many as the users. -/
theorem serverSplit_closure (reconcile : Bots → Bots) (e : Engine) (now : Nat) (server : String) :
    let gone := (e.net.serverSplit server).2
    let e' := e.handle reconcile now (.serverSplit server)
    gone.Nodup ∧ (∀ s, s ∈ gone ↔ Relation.ReflTransGen e.net.Parent server s) ∧
      (∀ s, (e.net.serverSplit server).1.servers.lookup s =
          (if s ∈ gone then none else e.net.servers.lookup s) ∧
        (e.net.serverSplit server).1.serverNames.lookup s =
          if s ∈ gone then none else e.net.serverNames.lookup s) ∧
      (∀ uid ∈ e.net.users, (∃ sid ∈ gone, On sid uid) → Forgotten uid e') ∧
      (∀ uid, ¬ (uid ∈ e.net.users ∧ ∃ sid ∈ gone, On sid uid) → Untouched uid e e') ∧
      (e.net.Counted → e'.net.Counted) := by
  intro gone e'
  obtain ⟨nodup, reached, taken⟩ := e.net.serverSplit_exact server
  have clears := forgetServers_clears (e := { e with net := (e.net.serverSplit server).1 }) gone now
  refine ⟨nodup, reached, taken, fun uid known on => clears.forgotten uid ⟨known, on⟩, ?_, ?_⟩
  · intro uid spared
    obtain ⟨⟨users, accounts, sessions, source, pending, chatter⟩, members, ops, voices⟩ :=
      clears.others uid spared
    exact ⟨⟨users, accounts, sessions, source, pending, chatter⟩, members, ops, voices⟩
  · intro counted
    exact counted_forgetServers (e := { e with net := (e.net.serverSplit server).1 })
      (counted.congr rfl rfl) gone now

/-- A uid that joined without being introduced is still a member and an op after the split
of its server, and a client's exchange that is under way still there. -/
theorem strangers_remain :
    let e := after (step id) { saslSessions := AList.singleton "0IRAAAAAC" 100 }
      [(100, .serverLink "0IR" "00A"), (101, .join "0IRAAAAAB" "#a" true),
        (102, .serverSplit "0IR")]
    ((e.net.channels.lookup "#a").map fun c => (c.members.keys, c.ops.keys)) =
        some (["0IRAAAAAB"], ["0IRAAAAAB"]) ∧
      e.saslSessions.lookup "0IRAAAAAC" = some 100 ∧ On "0IR" "0IRAAAAAB" ∧ On "0IR" "0IRAAAAAC" := by
  refine ⟨by decide +kernel, by decide +kernel, ?_, ?_⟩
  · exact ⟨"AAAAAB".toList, by decide⟩
  · exact ⟨"AAAAAC".toList, by decide⟩

end Engine

end Echo.Net
