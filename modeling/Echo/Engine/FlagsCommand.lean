import Echo.Db.FlagLetters
import Echo.Engine.Owners

/-!
FLAGS, the granular access model of ChanServ. Who may manage the access list of a channel
and is not its founder can neither give anybody the flag of a founder nor touch the
founder's own standing; taking that flag off somebody else is not refused.
-/

namespace Echo

open Std (ExtTreeMap)
open Echo.Lib

/-- A FLAGS command as it is typed, by whom, and what a notification of it needs: who is
online, and what the memo to one who is not reads. -/
structure FlagsCommand where
  env : Env
  account : Option String
  nick : String
  args : List String
  online : String → Bool := fun _ => true
  memo : (target sender chan letters : String) → String := fun _ _ _ letters => letters

namespace Engine

/-- Tell someone what became of their access: by memo where they are not online. -/
def notifyOrMemo (e : Engine) (cmd : FlagsCommand) (sender target chan letters : String) : Engine :=
  if target.toList.head? = some '!' || eqIgnoreAsciiCase sender target then e
  else if cmd.online target then e
  else (e.withDb (Db.memoSend cmd.env target sender (cmd.memo target sender chan letters) false)).1

def flagsList (info : ChannelInfo) (chan : String) : List String :=
  let count := info.access.length + 1
  ["Access flags for " ++ bold chan ++ ":", "  " ++ bold info.founder ++ " (founder): " ++ bold "f"]
    ++ info.access.map (fun a =>
      "  " ++ bold a.account ++ ": " ++ bold (Flags.fromLevel a.level).toLetters)
    ++ [if count = 1 then "End of flags (" ++ toString count ++ " entry)."
      else "End of flags (" ++ toString count ++ " entries)."]

/-- Write the flags of an account. -/
def flagsWrite (e : Engine) (cmd : FlagsCommand) (chan target : String) (updated : Flags) :
    Engine × Except String (List String) :=
  if updated.isEmpty then
    match e.withDb (Db.accessDel chan target) with
    | (e, .ok true) => (e, .ok ["Cleared " ++ bold target ++ "'s access to " ++ bold chan ++ "."])
    | (e, _) => (e, .error (bold target ++ " had no access to " ++ bold chan ++ "."))
  else
    let letters := updated.toLetters
    match e.withDb (Db.accessAdd chan target letters) with
    | (e, .ok ()) =>
        (e.notifyOrMemo cmd (cmd.account.getD cmd.nick) target chan letters,
          .ok [bold target ++ " on " ++ bold chan ++ " now holds " ++ bold letters ++ "."])
    | (e, .error _) => (e, .error tryAgain)

/-- `FLAGS <#channel> [account [flags]]`, the flags under + and -. -/
def chanservFlags (e : Engine) (cmd : FlagsCommand) : Engine × Except String (List String) :=
  match cmd.args[1]? with
  | none => (e, .error ("Syntax: FLAGS <#channel> [account [+/" ++ "-flags]]"))
  | some chan =>
      match e.db.channel chan with
      | none => (e, .error (bold chan ++ " isn't registered."))
      | some info =>
          let isFounder := cmd.account == some info.founder
          let caps := info.view.capsOf cmd.account
          match cmd.args[2]? with
          | none =>
              if !isFounder && !caps.op then
                (e, .error ("You need access to " ++ bold chan ++ " to view its flags."))
              else (e, .ok (flagsList info chan))
          | some target =>
              let entry := (info.ownEntry target).map (·.level)
              match cmd.args[3]? with
              | none =>
                  match (entry.map fun l => (Flags.fromLevel l).toLetters).filter (· ≠ "") with
                  | some f => (e, .ok [bold target ++ " on " ++ bold chan ++ ": " ++ bold f])
                  | none => (e, .ok [bold target ++ " has no access to " ++ bold chan ++ "."])
              | some delta =>
                  if !isFounder && !caps.access then
                    (e, .error ("You need the founder or the " ++ bold "a" ++
                      " flag to change access on " ++ bold chan ++ "."))
                  else if e.isChannelSuspended cmd.env chan then
                    (e, .error (bold chan ++
                      " is suspended by network staff and can't be managed right now."))
                  else if eqIgnoreAsciiCase info.founder target then
                    (e, .error ("The founder's access is set with " ++ bold "SET FOUNDER" ++
                      ", not flags."))
                  else
                    match (Flags.fromLevel (entry.getD "")).applyDelta true delta.toList with
                    | .error bad =>
                        (e, .error (bold (toString bad) ++ " isn't a valid flag. Valid flags: " ++
                          bold "foOhvtiasgd" ++ "."))
                    | .ok updated =>
                        if !isFounder && updated.has .founder then
                          (e, .error ("Only the founder can grant the " ++ bold "f" ++ " flag on " ++
                            bold chan ++ "."))
                        else e.flagsWrite cmd chan target updated

end Engine

/-! ### What a command writes -/

/-- The entry of an account written anew, or taken away. -/
def ChannelInfo.withFlags (target : String) (updated : Flags) (c : ChannelInfo) : ChannelInfo :=
  { c with access :=
      c.access.filter (fun a => !eqIgnoreAsciiCase a.account target)
        ++ if updated.isEmpty then [] else [⟨target, updated.toLetters⟩] }

namespace Db

variable {db : Db} {chan target : String} {updated : Flags}

/-- The channels are as they were, or one was written so. -/
def Wrote (chan : String) (write : ChannelInfo → ChannelInfo) (db db' : Db) : Prop :=
  db'.channels = db.channels ∨ db'.channels = db.channels.modify (key chan) write

theorem wrote_logged {ε : Type} (event : Event) (onError : IoError → ε)
    (write : ChannelInfo → ChannelInfo) :
    Keeps (Wrote chan write) (logged event onError (·.adjustChannel chan write)).run db := by
  unfold Keeps
  rw [run_logged]
  rcases db.log.append event with ⟨log, err | ⟨⟩⟩
  · exact .inl rfl
  · exact .inr rfl

theorem wrote_accessAdd (some : updated.isEmpty = false) :
    Keeps (Wrote chan (ChannelInfo.withFlags target updated))
      (accessAdd chan target updated.toLetters).run db := by
  have same : (fun c : ChannelInfo => { c with
      access := c.access.filter (fun a => !eqIgnoreAsciiCase a.account target)
        ++ [⟨target, updated.toLetters⟩] }) = ChannelInfo.withFlags target updated := by
    funext c
    simp [ChannelInfo.withFlags, some]
  unfold accessAdd
  rw [same]
  refine keeps_get_bindE ?_
  split
  · exact .inl rfl
  · split
    · exact .inl rfl
    · exact wrote_logged _ _ _

theorem wrote_accessDel (none : updated.isEmpty = true) :
    Keeps (Wrote chan (ChannelInfo.withFlags target updated)) (accessDel chan target).run db := by
  have same : (fun c : ChannelInfo => { c with
      access := c.access.filter fun a => !eqIgnoreAsciiCase a.account target }) =
        ChannelInfo.withFlags target updated := by
    funext c
    simp [ChannelInfo.withFlags, none]
  unfold accessDel
  rw [same]
  refine keeps_get_bindE ?_
  split
  · exact .inl rfl
  · split
    · unfold Keeps
      rw [run_bindE, run_logged]
      rcases db.log.append (.channelAccessDel chan target) with ⟨log, err | ⟨⟩⟩
      · exact .inl rfl
      · exact .inr rfl
    · exact .inl rfl

theorem channels_memoSend (env : Env) (account sender text : String) (receipt : Bool) :
    ((memoSend env account sender text receipt).run.run db).2.channels = db.channels := by
  have kept : Keeps (fun db db' : Db => db'.channels = db.channels)
      (memoSend env account sender text receipt).run db := by
    refine keeps_get_bindE ?_
    split
    · unfold Keeps
      rw [run_logged]
      rcases db.log.append _ with ⟨log, err | ⟨⟩⟩
      · rfl
      · rfl
    · rfl
  exact kept

end Db

namespace Engine

variable {e : Engine} {cmd : FlagsCommand}

theorem channels_notifyOrMemo (sender target chan letters : String) :
    (e.notifyOrMemo cmd sender target chan letters).db.channels = e.db.channels := by
  unfold notifyOrMemo
  split_ifs
  · rfl
  · rfl
  · exact Db.channels_memoSend _ _ _ _ _

theorem wrote_flagsWrite (chan target : String) (updated : Flags) :
    Db.Wrote chan (ChannelInfo.withFlags target updated) e.db (e.flagsWrite cmd chan target updated).1.db := by
  unfold flagsWrite withDb
  by_cases none : updated.isEmpty = true
  · have wrote : Db.Wrote chan _ e.db ((Db.accessDel chan target).run.run e.db).2 :=
      Db.wrote_accessDel none
    rw [if_pos none]
    generalize (Db.accessDel chan target).run.run e.db = out at wrote ⊢
    obtain ⟨err | found, db⟩ := out
    · exact wrote
    · cases found <;> exact wrote
  · have wrote : Db.Wrote chan _ e.db ((Db.accessAdd chan target updated.toLetters).run.run e.db).2 :=
      Db.wrote_accessAdd (by simpa using none)
    rw [if_neg none]
    dsimp only
    generalize (Db.accessAdd chan target updated.toLetters).run.run e.db = out at wrote ⊢
    obtain ⟨err | ⟨⟩, db⟩ := out
    · exact wrote
    · unfold Db.Wrote at *
      rw [channels_notifyOrMemo]
      exact wrote

/-- What FLAGS may write: the flags of one account, other than the founder's, which only
the founder leaves with the flag of a founder. -/
structure Rewrites (e : Engine) (cmd : FlagsCommand) (chan target : String) (info : ChannelInfo)
    (updated : Flags) : Prop where
  named : cmd.args[1]? = some chan
  aimed : cmd.args[2]? = some target
  delta : ∃ delta, cmd.args[3]? = some delta ∧
    (Flags.fromLevel (((info.ownEntry target).map (·.level)).getD "")).applyDelta true delta.toList =
      .ok updated
  held : e.db.channel chan = some info
  entitled : cmd.account = some info.founder ∨ (info.view.capsOf cmd.account).access = true
  spared : eqIgnoreAsciiCase info.founder target = false
  guarded : cmd.account = some info.founder ∨ updated.has .founder = false

theorem chanservFlags_wrote :
    (e.chanservFlags cmd).1.db.channels = e.db.channels ∨
      ∃ chan target info updated, e.Rewrites cmd chan target info updated ∧
        (e.chanservFlags cmd).1.db.channels =
          e.db.channels.modify (key chan) (ChannelInfo.withFlags target updated) := by
  unfold chanservFlags
  cases named : cmd.args[1]? with
  | none => exact .inl rfl
  | some chan =>
      dsimp only
      cases held : e.db.channel chan with
      | none => exact .inl rfl
      | some info =>
          dsimp only
          cases aimed : cmd.args[2]? with
          | none =>
              dsimp only
              split_ifs
              · exact .inl rfl
              · exact .inl rfl
          | some target =>
              dsimp only
              cases changes : cmd.args[3]? with
              | none =>
                  dsimp only
                  split
                  · exact .inl rfl
                  · exact .inl rfl
              | some delta =>
                  dsimp only
                  split_ifs with entitled suspended spared
                  · exact .inl rfl
                  · exact .inl rfl
                  · exact .inl rfl
                  · cases applied : (Flags.fromLevel (((info.ownEntry target).map (·.level)).getD "")).applyDelta
                        true delta.toList with
                    | error bad => exact .inl rfl
                    | ok updated =>
                        dsimp only
                        split_ifs with guarded
                        · exact .inl rfl
                        · refine (wrote_flagsWrite chan target updated).imp id fun wrote => ?_
                          refine ⟨chan, target, info, updated, ⟨named, aimed, ⟨delta, changes, applied⟩, held, ?_,
                            by simpa using spared, ?_⟩, wrote⟩
                          · by_cases founder : cmd.account = some info.founder
                            · exact .inl founder
                            · exact .inr (by simpa [founder] using entitled)
                          · by_cases founder : cmd.account = some info.founder
                            · exact .inl founder
                            · exact .inr (by simpa [founder] using guarded)

end Engine

/-! ### Who holds the flag of a founder -/

namespace ChannelInfo

variable {c : ChannelInfo} {target a : String} {updated : Flags}

/-- Whether the own entry of an account carries the flag of a founder. -/
def holdsFounder (c : ChannelInfo) (a : String) : Bool :=
  (c.ownEntry a).any fun entry => (Flags.fromLevel entry.level).has .founder

theorem ownEntry_withFlags_other (other : eqIgnoreAsciiCase target a = false) :
    (c.withFlags target updated).ownEntry a = c.ownEntry a := by
  have apart : ∀ b, eqIgnoreAsciiCase b a = true → eqIgnoreAsciiCase b target = false := by
    intro b same
    rw [← Bool.not_eq_true, eqIgnoreAsciiCase_iff] at other ⊢
    intro same'
    exact other (same'.symm.trans (eqIgnoreAsciiCase_iff.mp same))
  have kept : (c.access.filter fun x => !eqIgnoreAsciiCase x.account target).find?
      (fun x => eqIgnoreAsciiCase x.account a) = c.ownEntry a := by
    rw [List.find?_filter]
    unfold ownEntry
    congr 1
    funext x
    cases same : eqIgnoreAsciiCase x.account a with
    | false => simp
    | true => simp [apart x.account same]
  have new : (if updated.isEmpty then [] else [(⟨target, updated.toLetters⟩ : ChanAccess)]).find?
      (fun x => eqIgnoreAsciiCase x.account a) = none := by
    split_ifs
    · rfl
    · simp [other]
  unfold withFlags
  rw [ownEntry, List.find?_append, kept, new, Option.or_none]

theorem ownEntry_withFlags_same (same : eqIgnoreAsciiCase target a = true) :
    (c.withFlags target updated).ownEntry a =
      if updated.isEmpty then none else some ⟨target, updated.toLetters⟩ := by
  have gone : (c.access.filter fun x => !eqIgnoreAsciiCase x.account target).find?
      (fun x => eqIgnoreAsciiCase x.account a) = none := by
    refine List.find?_eq_none.mpr fun x mem here => ?_
    have other := (List.mem_filter.mp mem).2
    rw [eqIgnoreAsciiCase_iff] at same here
    have match' : eqIgnoreAsciiCase x.account target = true :=
      eqIgnoreAsciiCase_iff.mpr (here.trans same.symm)
    rw [match'] at other
    cases other
  unfold withFlags
  rw [ownEntry, List.find?_append, gone, Option.none_or]
  split_ifs
  · rfl
  · simp [same]

/-- What is written of an account it holds when it is read. -/
theorem holdsFounder_withFlags (same : eqIgnoreAsciiCase target a = true) :
    (c.withFlags target updated).holdsFounder a = updated.has .founder := by
  unfold holdsFounder
  rw [ownEntry_withFlags_same same]
  split_ifs with none
  · exact (Flags.not_has_of_isEmpty none).symm
  · exact Flags.has_fromLevel_toLetters

end ChannelInfo

/-- A command takes the flag of a founder off an account: it names the account and the
channel, its delta leaves the account without the flag, and its sender may manage the
access list. -/
structure FlagsCommand.Strips (cmd : FlagsCommand) (chan : String) (c : ChannelInfo) (a : String) : Prop where
  named : ∃ chan', cmd.args[1]? = some chan' ∧ key chan' = key chan
  aimed : ∃ target, cmd.args[2]? = some target ∧ eqIgnoreAsciiCase target a = true
  delta : ∃ entry delta updated, c.ownEntry a = some entry ∧ cmd.args[3]? = some delta ∧
    (Flags.fromLevel entry.level).applyDelta true delta.toList = .ok updated ∧
    updated.has .founder = false
  entitled : (c.view.capsOf cmd.account).access = true

/-- What a command of someone who is not the founder does to a channel: the founder stands
as before, nobody gains the flag, and who loses it was named. -/
structure FlagsCommand.Delegated (cmd : FlagsCommand) (chan : String) (c c' : ChannelInfo) : Prop where
  founder : c'.founder = c.founder
  own : ∀ a, eqIgnoreAsciiCase c.founder a = true → c'.ownEntry a = c.ownEntry a
  gained : ∀ a, c'.holdsFounder a = true → c.holdsFounder a = true
  lost : ∀ a, c.holdsFounder a = true → c'.holdsFounder a = false → cmd.Strips chan c a

namespace Engine

variable {e : Engine} {cmd : FlagsCommand} {chan : String} {c : ChannelInfo}

theorem ownEntry_congr {a b : String} (same : eqIgnoreAsciiCase a b = true) :
    c.ownEntry a = c.ownEntry b := by
  unfold ChannelInfo.ownEntry
  congr 1
  funext x
  rw [Bool.eq_iff_iff, eqIgnoreAsciiCase_iff, eqIgnoreAsciiCase_iff, eqIgnoreAsciiCase_iff.mp same]

/-- The write of a command, at the channel that is looked at. -/
theorem Rewrites.delegated {chan' target : String} {updated : Flags}
    (rewrites : e.Rewrites cmd chan' target c updated) (same : key chan' = key chan)
    (delegate : cmd.account ≠ some c.founder) :
    cmd.Delegated chan c (c.withFlags target updated) := by
  have unfounded : updated.has .founder = false := rewrites.guarded.resolve_left delegate
  constructor
  · rfl
  · intro a founder
    apply ChannelInfo.ownEntry_withFlags_other
    rw [← Bool.not_eq_true, eqIgnoreAsciiCase_iff]
    intro named
    have spared := rewrites.spared
    rw [← Bool.not_eq_true, eqIgnoreAsciiCase_iff] at spared
    exact spared ((eqIgnoreAsciiCase_iff.mp founder).trans named.symm)
  · intro a held
    by_cases named : eqIgnoreAsciiCase target a = true
    · rw [ChannelInfo.holdsFounder_withFlags named, unfounded] at held
      cases held
    · unfold ChannelInfo.holdsFounder at *
      rwa [ChannelInfo.ownEntry_withFlags_other (by simpa using named)] at held
  · intro a had lost
    by_cases named : eqIgnoreAsciiCase target a = true
    · obtain ⟨delta, changes, applied⟩ := rewrites.delta
      rw [ownEntry_congr named] at applied
      cases own : c.ownEntry a with
      | none =>
          unfold ChannelInfo.holdsFounder at had
          rw [own] at had
          cases had
      | some entry =>
          rw [own] at applied
          exact ⟨⟨chan', rewrites.named, same⟩, ⟨target, rewrites.aimed, named⟩,
            ⟨entry, delta, updated, own, changes, applied, unfounded⟩,
            rewrites.entitled.resolve_left delegate⟩
    · unfold ChannelInfo.holdsFounder at *
      rw [ChannelInfo.ownEntry_withFlags_other (by simpa using named), had] at lost
      cases lost

theorem FlagsCommand.Delegated.refl : cmd.Delegated chan c c where
  founder := rfl
  own _ _ := rfl
  gained _ held := held
  lost a had lost := absurd had (by simp [lost])

/-- The command that FLAGS runs with. -/
def flags (e : Engine) (cmd : FlagsCommand) : Engine := (e.chanservFlags cmd).1

/-- One command of someone who is not the founder of the channel it names. -/
theorem delegated_flags (held : e.db.channel chan = some c)
    (delegate : ∀ chan', cmd.args[1]? = some chan' → key chan' = key chan →
      cmd.account ≠ some c.founder) :
    ∃ c', (e.flags cmd).db.channel chan = some c' ∧ cmd.Delegated chan c c' := by
  rcases @chanservFlags_wrote e cmd with still | ⟨chan', target, info, updated, rewrites, wrote⟩
  · refine ⟨c, ?_, FlagsCommand.Delegated.refl⟩
    unfold Db.channel flags at *
    rw [still]
    exact held
  · by_cases same : key chan' = key chan
    · have here : info = c := by
        have found := rewrites.held
        unfold Db.channel at found held
        rw [same, held] at found
        exact (Option.some.inj found).symm
      subst here
      refine ⟨info.withFlags target updated, ?_, rewrites.delegated same (delegate chan' rewrites.named same)⟩
      unfold Db.channel flags at *
      rw [wrote, same, ExtTreeMap.getElem?_modify_self, held]
      rfl
    · refine ⟨c, ?_, FlagsCommand.Delegated.refl⟩
      unfold Db.channel flags at *
      rw [wrote, ExtTreeMap.getElem?_modify, if_neg (by simpa using same)]
      exact held

/-- Along any run of FLAGS commands by others than its founder, the founder of a channel
stands as before and nobody gains the flag of a founder; an account that loses it lost it
to a command that took it off. -/
theorem flags_delegated (e : Engine) (cmds : List FlagsCommand) (chan : String) (c : ChannelInfo)
    (held : e.db.channel chan = some c)
    (delegates : ∀ cmd ∈ cmds, ∀ chan', cmd.args[1]? = some chan' → key chan' = key chan →
      cmd.account ≠ some c.founder) :
    ∃ c', (after flags e cmds).db.channel chan = some c' ∧ c'.founder = c.founder ∧
      (∀ a, eqIgnoreAsciiCase c.founder a = true → c'.ownEntry a = c.ownEntry a) ∧
      (∀ a, c'.holdsFounder a = true → c.holdsFounder a = true) ∧
      ∀ a, c.holdsFounder a = true → c'.holdsFounder a = false →
        ∃ before cmd later d, cmds = before ++ cmd :: later ∧
          (after flags e before).db.channel chan = some d ∧ cmd.Strips chan d a := by
  induction cmds generalizing e c with
  | nil =>
      refine ⟨c, held, rfl, fun _ _ => rfl, fun _ had => had, fun a had lost => ?_⟩
      rw [had] at lost
      cases lost
  | cons cmd cmds ih =>
      obtain ⟨c₁, held₁, step⟩ := delegated_flags held (delegates cmd List.mem_cons_self)
      have others : ∀ x ∈ cmds, ∀ chan', x.args[1]? = some chan' → key chan' = key chan →
          x.account ≠ some c₁.founder := by
        intro x mem
        rw [step.founder]
        exact delegates x (List.mem_cons_of_mem cmd mem)
      obtain ⟨c', held', founder, own, gained, lost⟩ := ih (e.flags cmd) c₁ held₁ others
      refine ⟨c', held', founder.trans step.founder, ?_, ?_, ?_⟩
      · intro a isFounder
        exact (own a (step.founder ▸ isFounder)).trans (step.own a isFounder)
      · intro a had
        exact step.gained a (gained a had)
      · intro a had gone
        by_cases still : c₁.holdsFounder a = true
        · obtain ⟨before, x, later, d, rfl, reached, strips⟩ := lost a still gone
          exact ⟨cmd :: before, x, later, d, rfl, reached, strips⟩
        · exact ⟨[], cmd, cmds, c, rfl, held, step.lost a had (by simpa using still)⟩

/-- Carol manages the access list of alice's channel, on which bob holds `f`. -/
def delegated : Engine where
  toSession :=
    { db := after Db.step (Db.fresh "a")
        [.call .still (.registerChannel "#chan" "alice"),
          .call .still (.accessAdd "#chan" "carol" "oa"),
          .call .still (.accessAdd "#chan" "bob" "fo")] }

/-- Her channel. -/
def delegatedChannel : ChannelInfo :=
  { newChannel "#chan" "alice" 0 with access := [⟨"carol", "oa"⟩, ⟨"bob", "fo"⟩] }

/-- Carol tries her own flags, and bob those of dave. -/
def escalating : List FlagsCommand :=
  [{ env := .still, account := some "carol", nick := "carol", args := ["FLAGS", "#chan", "CAROL", "+f"] },
    { env := .still, account := some "bob", nick := "bob", args := ["FLAGS", "#CHAN", "dave", "+f-o"] }]

theorem escalating_delegated :
    delegated.db.channel "#chan" = some delegatedChannel ∧
    (∀ cmd ∈ escalating, ∀ chan', cmd.args[1]? = some chan' → key chan' = key "#chan" →
      cmd.account ≠ some delegatedChannel.founder) ∧
    ∃ c', (after flags delegated escalating).db.channel "#chan" = some c' ∧
      c'.founder = delegatedChannel.founder ∧
      (∀ a, eqIgnoreAsciiCase delegatedChannel.founder a = true →
        c'.ownEntry a = delegatedChannel.ownEntry a) ∧
      (∀ a, c'.holdsFounder a = true → delegatedChannel.holdsFounder a = true) ∧
      ∀ a, delegatedChannel.holdsFounder a = true → c'.holdsFounder a = false →
        ∃ before cmd later d, escalating = before ++ cmd :: later ∧
          (after flags delegated before).db.channel "#chan" = some d ∧ cmd.Strips "#chan" d a := by
  have held : delegated.db.channel "#chan" = some delegatedChannel := by decide +kernel
  have delegates : ∀ cmd ∈ escalating, ∀ chan', cmd.args[1]? = some chan' → key chan' = key "#chan" →
      cmd.account ≠ some delegatedChannel.founder := by
    intro cmd mem chan' _ _
    have senders : cmd.account ∈ [some "carol", some "bob"] := by
      have listed := List.mem_map_of_mem (f := FlagsCommand.account) mem
      exact listed
    intro founder
    rw [founder] at senders
    exact absurd senders (by decide)
  exact ⟨held, delegates, flags_delegated delegated escalating "#chan" delegatedChannel held delegates⟩

/-- Carol takes `f` off bob. -/
def stripping : FlagsCommand :=
  { env := .still, account := some "carol", nick := "carol", args := ["FLAGS", "#chan", "Bob", "-f"] }

theorem stripped :
    delegated.db.channel "#chan" = some delegatedChannel ∧
      stripping.account ≠ some delegatedChannel.founder ∧
      delegatedChannel.holdsFounder "bob" = true ∧
      ((after flags delegated [stripping]).db.channel "#chan").map (·.holdsFounder "bob") = some false := by
  decide +kernel

end Engine

end Echo
