import Echo.Db.Run

/-!
Scope isolation: what other nodes send changes account identity and network
policy. Of a node's own state it reaches the channels alone, and there only the
access entries and the successors that name an account it drops.
-/

namespace Echo

open Std (ExtTreeMap)
open Echo.Lib

/-- Whether a name is among the names of gone accounts, in any letter case. -/
def namedIn (gone : List String) (name : String) : Bool :=
  gone.any fun account => eqIgnoreAsciiCase name account

/-- A channel without its references to gone accounts. Nothing but the access
list and the successor is touched. -/
def ChannelInfo.without (gone : List String) (c : ChannelInfo) : ChannelInfo :=
  { c with
    access := c.access.filter fun a => !namedIn gone a.account
    successor := c.successor.filter fun s => !namedIn gone s }

/-- The lists of a node that do not replicate: network policy left blank. -/
def NetData.ownPart (n : NetData) : NetData :=
  { n with
    akills := [], filters := [], forbids := [], notifies := [], groups := [], opers := ∅
    sessExceptions := [] }

/-- From `s` to `s'` a node's own state has lost its references to the gone
accounts, and is otherwise the same. -/
structure Isolated (gone : List String) (s s' : Store) : Prop where
  channels : ∀ name : String, s'.channels[name]? = s.channels[name]?.map (·.without gone)
  bots : s'.bots = s.bots
  hostCfg : s'.hostCfg = s.hostCfg
  net : s'.net.ownPart = s.net.ownPart

@[simp] theorem namedIn_nil (name : String) : namedIn [] name = false := rfl

theorem namedIn_append (gone later : List String) (name : String) :
    namedIn (gone ++ later) name = (namedIn gone name || namedIn later name) := List.any_append

@[simp] theorem ChannelInfo.without_nil (c : ChannelInfo) : c.without [] = c := by
  have access : c.access.filter (fun a => !namedIn [] a.account) = c.access := by simp
  have successor : c.successor.filter (fun s => !namedIn [] s) = c.successor := by
    cases c.successor <;> rfl
  unfold ChannelInfo.without
  rw [access, successor]

/-- References are lost for good: what goes later adds to what is gone. -/
theorem ChannelInfo.without_without (gone later : List String) (c : ChannelInfo) :
    (c.without gone).without later = c.without (gone ++ later) := by
  have access : (c.access.filter fun a => !namedIn gone a.account).filter
      (fun a => !namedIn later a.account) =
      c.access.filter fun a => !namedIn (gone ++ later) a.account := by
    rw [List.filter_filter]
    refine List.filter_congr fun a _ => ?_
    rw [namedIn_append, Bool.not_or, Bool.and_comm]
  have successor : (c.successor.filter fun s => !namedIn gone s).filter
      (fun s => !namedIn later s) =
      c.successor.filter fun s => !namedIn (gone ++ later) s := by
    cases c.successor with
    | none => rfl
    | some s =>
        simp only [Option.filter_some, namedIn_append]
        cases namedIn gone s <;> simp [Option.filter_some]
  unfold ChannelInfo.without
  simp only [access, successor]

theorem Store.purgeChannel_eq_without (account : String) (c : ChannelInfo) :
    Store.purgeChannel account c = c.without [account] := by
  have named : ∀ name : String, namedIn [account] name = eqIgnoreAsciiCase name account := by
    intro name
    simp [namedIn]
  have successor : (if c.successor.any fun s => eqIgnoreAsciiCase s account then none
      else c.successor) = c.successor.filter fun s => !namedIn [account] s := by
    cases c.successor with
    | none => rfl
    | some s =>
        rw [Option.any_some, Option.filter_some, named]
        cases eqIgnoreAsciiCase s account <;> rfl
  unfold Store.purgeChannel ChannelInfo.without
  rw [successor]
  simp only [named]

namespace Isolated

variable {gone later : List String} {s s' s'' : Store}

/-- A change that leaves a node's own state alone. -/
theorem of_eq (channels : s'.channels = s.channels) (bots : s'.bots = s.bots)
    (hostCfg : s'.hostCfg = s.hostCfg) (net : s'.net.ownPart = s.net.ownPart) :
    Isolated [] s s' where
  channels := by
    intro name
    rw [channels]
    cases s.channels[name]? with
    | none => rfl
    | some c => simp
  bots := bots
  hostCfg := hostCfg
  net := net

theorem refl (s : Store) : Isolated [] s s := of_eq rfl rfl rfl rfl

theorem trans (h : Isolated gone s s') (h' : Isolated later s' s'') :
    Isolated (gone ++ later) s s'' where
  channels := by
    intro name
    rw [h'.channels, h.channels]
    cases s.channels[name]? with
    | none => rfl
    | some c => simp [ChannelInfo.without_without]
  bots := h'.bots.trans h.bots
  hostCfg := h'.hostCfg.trans h.hostCfg
  net := h'.net.trans h.net

theorem adjustAccount (account : String) (f : Account → Account) :
    Isolated [] s (s.adjustAccount account f) := of_eq rfl rfl rfl rfl

theorem purgeAccountRefs (account : String) : Isolated [account] s (s.purgeAccountRefs account) where
  channels := by
    intro name
    change (s.channels.map fun _ c => Store.purgeChannel account c)[name]? = _
    rw [ExtTreeMap.getElem?_map]
    cases s.channels[name]? with
    | none => rfl
    | some c => exact congrArg some (Store.purgeChannel_eq_without account c)
  bots := rfl
  hostCfg := rfl
  net := rfl

end Isolated

/-- The account an event removes from every channel. -/
def Event.dropped : Event → List String
  | .accountDropped account => [account]
  | _ => []

/-- The fold of a Global event keeps a node's own state, up to the references to
an account it drops. -/
theorem apply_isolated {e : Event} (global : e.scope = .global) (s : Store) :
    Isolated e.dropped s (apply s e) := by
  cases e with
  | accountDropped account =>
      have erased : Isolated [] s { s with accounts := s.accounts.erase (key account) } :=
        .of_eq rfl rfl rfl rfl
      exact erased.trans (Isolated.purgeAccountRefs account)
  | accountRegistered a =>
      change Isolated [] s (if (s.accounts[key a.name]?).any (ownsOver · a) then s
        else { s with accounts := s.accounts.insert (key a.name) a })
      by_cases held : (s.accounts[key a.name]?).any (ownsOver · a) = true
      · rw [if_pos held]
        exact .refl s
      · rw [if_neg held]
        exact .of_eq rfl rfl rfl rfl
  | accountProfileSet account field value =>
      rw [apply]
      cases ProfileField.parse field with
      | none => exact .refl s
      | some f => exact .adjustAccount account _
  | _ =>
      -- The Local arms are ruled out by the scope; what is left folds into the
      -- accounts, the aliases and the lists of network policy.
      first
      | contradiction
      | exact .of_eq rfl rfl rfl rfl

namespace Db

/-- The accounts that a sequence of received entries drops. -/
def droppedBy (received : List LogEntry) : List String :=
  received.flatMap fun entry => entry.event.dropped

/-- One received entry, whatever the checks and the file make of it. -/
theorem ingest_isolated (env : Env) (entry : LogEntry) (db : Db) :
    ∃ gone, gone ⊆ entry.event.dropped ∧
      Isolated gone db.toStore (db.step (.ingest env entry)).toStore := by
  have kept : ∃ gone, gone ⊆ entry.event.dropped ∧ Isolated gone db.toStore db.toStore :=
    ⟨[], List.nil_subset _, .refl _⟩
  rw [step_ingest, EventLog.ingest_eq]
  cases accepted : db.log.acceptable entry with
  | false => exact kept
  | true =>
      cases db.log.faults.headD false with
      | true => exact kept
      | false =>
          have global : entry.event.scope = .global := by
            unfold EventLog.acceptable at accepted
            rw [Bool.and_eq_true, Bool.and_eq_true] at accepted
            exact Event.isGlobal_iff.mp accepted.1.1
          exact ⟨_, List.Subset.refl _, apply_isolated global db.toStore⟩

/-- However many entries other nodes send, a node's own channels, bots, vhost
configuration, jupes, news, reports, help requests and statistics stay as they
are, but for channel references to accounts that the entries drop. -/
theorem ingests_isolated (db : Db) (received : List (Env × LogEntry)) :
    ∃ gone, gone ⊆ droppedBy (received.map Prod.snd) ∧
      Isolated gone db.toStore
        (after Db.step db (received.map fun r => .ingest r.1 r.2)).toStore := by
  induction received generalizing db with
  | nil => exact ⟨[], List.nil_subset _, .refl _⟩
  | cons first rest ih =>
      obtain ⟨now, fromFirst, here⟩ := ingest_isolated first.1 first.2 db
      obtain ⟨later, fromRest, there⟩ := ih (db.step (.ingest first.1 first.2))
      refine ⟨now ++ later, ?_, here.trans there⟩
      intro name named
      unfold droppedBy
      rw [List.map_cons, List.flatMap_cons, List.mem_append]
      rcases List.mem_append.mp named with inFirst | inRest
      · exact .inl (fromFirst inFirst)
      · exact .inr (fromRest inRest)

end Db

end Echo
