import Echo.Db.Wf
import Echo.Login.Doors
import Echo.Migrate.Anope

/-!
The phases of an import. The log is written one kind of record after the other, and the
events of a kind reach into one part of the store: the accounts, the aliases, the
channels or the bots. So a part of the replayed store is decided by its own phases.
-/

namespace Echo

open Std (ExtTreeMap)
open Echo.Lib

/-! ### Tables and folds -/

/-- What every event of a list leaves alone, their fold leaves alone. -/
theorem fold_keeps {α : Type} (view : Store → α) {es : List Event}
    (keeps : ∀ e ∈ es, ∀ s, view (apply s e) = view s) (s : Store) :
    view (fold s es) = view s := by
  induction es generalizing s with
  | nil => rfl
  | cons e es ih =>
      have rest := ih fun e' mem => keeps e' (List.mem_cons_of_mem e mem)
      rw [fold_cons, rest, keeps e List.mem_cons_self s]

theorem fold_holds {P : Store → Prop} {es : List Event}
    (step : ∀ e ∈ es, ∀ s, P s → P (apply s e)) {s : Store} (start : P s) : P (fold s es) := by
  induction es generalizing s with
  | nil => exact start
  | cons e es ih =>
      rw [fold_cons]
      exact ih (fun e' mem => step e' (List.mem_cons_of_mem e mem)) (step e List.mem_cons_self s start)

theorem getElem?_adjustAccount (s : Store) (account k : String) (f : Account → Account) :
    (s.adjustAccount account f).accounts[k]? =
      if key account = k then s.accounts[k]?.map f else s.accounts[k]? := by
  unfold Store.adjustAccount
  rw [ExtTreeMap.getElem?_modify]
  by_cases same : key account = k
  · subst same
    simp
  · simp [same]

theorem getElem?_adjustChannel (s : Store) (channel k : String) (f : ChannelInfo → ChannelInfo) :
    (s.adjustChannel channel f).channels[k]? =
      if key channel = k then s.channels[k]?.map f else s.channels[k]? := by
  unfold Store.adjustChannel
  rw [ExtTreeMap.getElem?_modify]
  by_cases same : key channel = k
  · subst same
    simp
  · simp [same]

/-- An edit of an account shows in nothing that it keeps. -/
theorem map_adjustAccount {α : Type} {g : Account → α} {f : Account → Account}
    (keeps : ∀ a, g (f a) = g a) (s : Store) (account k : String) :
    (s.adjustAccount account f).accounts[k]?.map g = s.accounts[k]?.map g := by
  rw [getElem?_adjustAccount]
  split
  · rw [Option.map_map]
    exact Option.map_congr fun a _ => keeps a
  · rfl

theorem map_adjustChannel {α : Type} {g : ChannelInfo → α} {f : ChannelInfo → ChannelInfo}
    (keeps : ∀ c, g (f c) = g c) (s : Store) (channel k : String) :
    (s.adjustChannel channel f).channels[k]?.map g = s.channels[k]?.map g := by
  rw [getElem?_adjustChannel]
  split
  · rw [Option.map_map]
    exact Option.map_congr fun c _ => keeps c
  · rfl

namespace Migrate

/-! ### The parts of the store -/

/-- What an event of an import does, by the part of the store it reaches into. -/
inductive Part where
  | register | alias | cert | channel | bot | memo
  deriving DecidableEq

def partOf : Event → Option Part
  | .accountRegistered _ => some .register
  | .nickGrouped .. => some .alias
  | .certAdded .. => some .cert
  | .channelRegistered .. | .channelDescSet .. | .channelTopicSet .. | .channelBotAssigned ..
  | .channelSettingsSet .. | .channelNoExpire .. | .channelAccessAdd .. | .channelMlock .. =>
      some .channel
  | .botAdded _ => some .bot
  | .memoSent .. | .memoRead .. => some .memo
  | _ => none

/-- What of an account only its registration decides. -/
def labelOf (a : Account) : String × Option Nat := (a.name, a.memoLimit)

/-- What an event leaves alone. -/
structure Leaves (p : Part) (s s' : Store) : Prop where
  grouped : p ≠ .alias → s'.grouped = s.grouped
  channels : p ≠ .channel → s'.channels = s.channels
  accounts : p ≠ .register → ∀ k : String,
    s'.accounts[k]?.map labelOf = s.accounts[k]?.map labelOf
  memos : p ≠ .register → p ≠ .memo → ∀ k : String,
    s'.accounts[k]?.map (·.memos) = s.accounts[k]?.map (·.memos)

theorem Leaves.refl (p : Part) (s : Store) : Leaves p s s :=
  ⟨fun _ => rfl, fun _ => rfl, fun _ _ => rfl, fun _ _ _ => rfl⟩

/-- An edit of an account's memos or certificates. -/
theorem leaves_adjustAccount {p : Part} {s : Store} {account : String} {f : Account → Account}
    (named : ∀ a, labelOf (f a) = labelOf a)
    (memos : p ≠ .memo → ∀ a, (f a).memos = a.memos) : Leaves p s (s.adjustAccount account f) where
  grouped _ := rfl
  channels _ := rfl
  accounts _ := map_adjustAccount named s account
  memos _ other := map_adjustAccount (memos other) s account

theorem apply_leaves {e : Event} {p : Part} (reaches : partOf e = some p) (s : Store) :
    Leaves p s (apply s e) := by
  unfold partOf at reaches
  split at reaches
  case h_1 a =>
      cases reaches
      simp only [apply]
      split
      · exact .refl _ s
      · exact ⟨fun _ => rfl, fun _ => rfl, fun other => absurd rfl other,
          fun other => absurd rfl other⟩
  case h_3 account fp =>
      cases reaches
      refine leaves_adjustAccount ?_ ?_
      · intro a
        split <;> rfl
      · intro _ a
        split <;> rfl
  case h_13 account sender text ts receipt =>
      cases reaches
      refine leaves_adjustAccount (fun a => ?_) fun other => absurd rfl other
      split <;> rfl
  case h_14 account index =>
      cases reaches
      exact leaves_adjustAccount (fun _ => rfl) fun other => absurd rfl other
  all_goals cases reaches
  all_goals exact ⟨fun _ => by first | rfl | contradiction, fun _ => by first | rfl | contradiction,
    fun _ _ => rfl, fun _ _ _ => rfl⟩

/-- The events of a list do nothing of these kinds. -/
def Avoids (kinds : List Part) (es : List Event) : Prop :=
  ∀ e ∈ es, ∃ p, partOf e = some p ∧ p ∉ kinds

theorem Avoids.append {kinds : List Part} {es es' : List Event} (h : Avoids kinds es)
    (h' : Avoids kinds es') : Avoids kinds (es ++ es') := by
  intro e mem
  rcases List.mem_append.mp mem with mem | mem
  · exact h e mem
  · exact h' e mem

section Avoiding

variable {es : List Event} (s : Store)

theorem fold_grouped (avoids : Avoids [.alias] es) : (fold s es).grouped = s.grouped := by
  refine fold_keeps (·.grouped) (fun e mem s => ?_) s
  obtain ⟨p, reaches, other⟩ := avoids e mem
  exact (apply_leaves reaches s).grouped (by simpa using other)

theorem fold_channels (avoids : Avoids [.channel] es) : (fold s es).channels = s.channels := by
  refine fold_keeps (·.channels) (fun e mem s => ?_) s
  obtain ⟨p, reaches, other⟩ := avoids e mem
  exact (apply_leaves reaches s).channels (by simpa using other)

theorem fold_accounts (avoids : Avoids [.register] es) (k : String) :
    (fold s es).accounts[k]?.map labelOf = s.accounts[k]?.map labelOf := by
  refine fold_keeps (fun s => s.accounts[k]?.map labelOf) (fun e mem s => ?_) s
  obtain ⟨p, reaches, other⟩ := avoids e mem
  exact (apply_leaves reaches s).accounts (by simpa using other) k

theorem fold_memos (avoids : Avoids [.register, .memo] es) (k : String) :
    (fold s es).accounts[k]?.map (·.memos) = s.accounts[k]?.map (·.memos) := by
  refine fold_keeps (fun s => s.accounts[k]?.map (·.memos)) (fun e mem s => ?_) s
  obtain ⟨p, reaches, other⟩ := avoids e mem
  simp only [List.mem_cons, List.not_mem_nil, or_false, not_or] at other
  exact (apply_leaves reaches s).memos other.1 other.2 k

end Avoiding

section Phases

variable (data : Value) (node : String)

theorem core_part : ∀ e ∈ (data.records "NickCore").filterMap (coreEvent data node),
    partOf e = some .register := by
  intro e mem
  obtain ⟨nc, -, logged⟩ := List.mem_filterMap.mp mem
  obtain ⟨name, -, rfl⟩ := Option.map_eq_some_iff.mp logged
  rfl

theorem alias_part : ∀ e ∈ (data.records "NickAlias").filterMap (aliasEvent data),
    partOf e = some .alias := by
  intro e mem
  obtain ⟨na, -, logged⟩ := List.mem_filterMap.mp mem
  unfold aliasEvent at logged
  split at logged
  · split at logged
    · contradiction
    · cases logged
      rfl
  · contradiction

theorem cert_part : ∀ e ∈ (data.records "NSCert").filterMap (certEvent data),
    partOf e = some .cert := by
  intro e mem
  obtain ⟨cert, -, logged⟩ := List.mem_filterMap.mp mem
  unfold certEvent at logged
  split at logged
  · cases logged
    rfl
  · contradiction

theorem detail_part (name : String) (ci : Value) : ∀ e ∈ detailEvents name ci,
    partOf e = some .channel := by
  intro e mem
  simp only [detailEvents, List.mem_append, Option.mem_toList,
    Option.map_eq_some_iff] at mem
  rcases mem with (((⟨_, -, rfl⟩ | ⟨_, -, rfl⟩) | ⟨_, -, rfl⟩) | mem) | mem
  · rfl
  · rfl
  · rfl
  · split at mem
    · cases List.mem_singleton.mp mem
      rfl
    · contradiction
  · split at mem
    · cases List.mem_singleton.mp mem
      rfl
    · contradiction

theorem channel_part : ∀ e ∈ (data.records "ChannelInfo").flatMap (channelEvents data),
    partOf e = some .channel := by
  intro e mem
  obtain ⟨ci, -, logged⟩ := List.mem_flatMap.mp mem
  unfold channelEvents at logged
  split at logged
  · rcases List.mem_cons.mp logged with rfl | detail
    · rfl
    · exact detail_part _ _ e detail
  · contradiction

theorem access_part : ∀ e ∈ (data.records "ChanAccess").filterMap (accessEvent data),
    partOf e = some .channel := by
  intro e mem
  obtain ⟨ca, -, logged⟩ := List.mem_filterMap.mp mem
  obtain ⟨_, -, rfl⟩ := Option.map_eq_some_iff.mp logged
  rfl

theorem lock_part (locks : List (String × Mlock)) : ∀ e ∈ locks.map lockEvent,
    partOf e = some .channel := by
  intro e mem
  obtain ⟨lock, -, rfl⟩ := List.mem_map.mp mem
  rfl

theorem bot_part : ∀ e ∈ (data.records "BotInfo").filterMap botEvent,
    partOf e = some .bot := by
  intro e mem
  obtain ⟨bi, -, logged⟩ := List.mem_filterMap.mp mem
  obtain ⟨nick, -, rfl⟩ := Option.map_eq_some_iff.mp logged
  rfl

theorem memo_part (memos : List Value) : ∀ (memoIndex : Table Nat),
    ∀ e ∈ memoEvents memoIndex memos, partOf e = some .memo := by
  induction memos with
  | nil =>
      intro memoIndex e mem
      simp [memoEvents] at mem
  | cons m rest ih =>
      intro memoIndex e mem
      unfold memoEvents at mem
      split at mem
      · rcases List.mem_cons.mp mem with rfl | mem
        · rfl
        · rcases List.mem_append.mp mem with read | later
          · split at read
            · cases List.mem_singleton.mp read
              rfl
            · contradiction
          · exact ih _ e later
      · exact ih _ e mem

end Phases

end Migrate

end Echo
