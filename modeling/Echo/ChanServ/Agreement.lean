import Echo.ChanServ.Dispatch

/-!
The commands that stand elsewhere on their own, by what they do to the store or to those
present: run as commands of ChanServ they do the same.
-/

namespace Echo.ChanServ

open Echo.Lib

variable {c : Call} {args : List String} {x : Ctx} {chan : String}

@[simp]
theorem engine_notice (text : String) : ((notice c text).run x).2.engine = x.engine := rfl

@[simp]
theorem engine_alert (category text : String) :
    ((alert category text >>= fun _ => notice c text).run x).2.engine = x.engine := rfl

theorem engine_notices (texts : List String) : ((notices c texts).run x).2.engine = x.engine := by
  unfold notices
  induction texts generalizing x with
  | nil => rfl
  | cons text texts ih =>
      rw [List.forM_eq_forM, List.forM_cons]
      exact ih (x := ((notice c text).run x).2)

/-! ### REGISTER -/

theorem engine_assignDefaultBot :
    ((assignDefaultBot c chan).run x).2.engine =
      match x.engine.defaultBot with
      | none => x.engine
      | some bot => (x.engine.withDb (Db.assignBot chan bot)).1 := by
  rw [assignDefaultBot, run_engine]
  cases x.engine.defaultBot with
  | none => rfl
  | some bot =>
      dsimp only
      rw [run_store]
      cases (x.engine.withDb (Db.assignBot chan bot)).2 with
      | ok _ => rfl
      | error err => rfl

theorem engine_register :
    ((handleRegister c args).run x).2.engine =
      (x.engine.chanservRegister c.unicode c.env c.from.account
        (args[1]?.any (c.net.isOp · c.from.uid)) args).1 := by
  unfold handleRegister Engine.chanservRegister
  cases args[1]? with
  | none => rfl
  | some chan =>
      change ((if chan.toList.head? ≠ some '#' then _ else _ : Cmd Unit).run x).2.engine = _
      dsimp only [Option.any]
      by_cases hash : chan.toList.head? ≠ some '#'
      · rw [if_pos hash, if_pos hash]
        rfl
      rw [if_neg hash, if_neg hash]
      by_cases frozen : x.engine.channelRegsFrozen = true
      · rw [if_pos frozen, if_pos frozen]
        rfl
      rw [if_neg frozen, if_neg frozen]
      cases c.from.account with
      | none => rfl
      | some account =>
          dsimp only
          by_cases op : c.net.isOp chan c.from.uid = true
          · rw [if_neg (by simp [op]), if_neg (by simp [op])]
            cases x.engine.policy.isForbidden c.unicode .chan chan with
            | some reason => rfl
            | none =>
                dsimp only
                cases x.engine.policy.lookalike c.unicode chan with
                | some reason => rfl
                | none =>
                    dsimp only
                    rw [run_store]
                    generalize x.engine.withDb (Db.registerChannel c.env chan account) = result
                    obtain ⟨e, err | ⟨⟩⟩ := result
                    · cases err <;> rfl
                    · refine engine_assignDefaultBot.trans ?_
                      dsimp only
                      cases e.defaultBot with
                      | none => rfl
                      | some bot => rfl
          · rw [if_pos (by simp [op]), if_pos (by simp [op])]
            rfl

/-! ### FLAGS -/

/-- What FLAGS is told elsewhere of a command. -/
def flagsCommand (c : Call) (args : List String) : FlagsCommand where
  env := c.env
  account := c.from.account
  nick := c.from.nick
  args
  online target := !(c.net.uidsLoggedInto target).isEmpty
  memo _ sender chan letters := Engine.bold sender ++ " set your access on " ++ Engine.bold chan ++ " to " ++
    Engine.bold letters ++ "."

theorem engine_forM_pushTagged {uids : List String} {inner : String → Dispatcher.NetAction}
    {tags : List (String × String)} :
    ((uids.forM fun uid => pushTagged c (inner uid) uid tags).run x).2.engine = x.engine := by
  induction uids generalizing x with
  | nil => rfl
  | cons uid uids ih =>
      rw [List.forM_eq_forM, List.forM_cons]
      exact ih (x := ((pushTagged c (inner uid) uid tags).run x).2)

theorem engine_notifyOrMemo (target letters : String) :
    ((notifyOrMemo c target chan (Engine.bold c.by ++ " set your access on " ++ Engine.bold chan ++
        " to " ++ Engine.bold letters ++ ".")).run x).2.engine =
      x.engine.notifyOrMemo (flagsCommand c args) c.by target chan letters := by
  unfold notifyOrMemo Engine.notifyOrMemo
  change ((if target.toList.head? = some '!' ∨ eqIgnoreAsciiCase c.by target = true then pure ()
    else _ : Cmd Unit).run x).2.engine = _
  by_cases self : target.toList.head? = some '!' ∨ eqIgnoreAsciiCase c.by target = true
  · rw [if_pos self, if_pos (by simpa using self)]
    rfl
  · rw [if_neg self, if_neg (by simpa using self)]
    unfold flagsCommand
    dsimp only
    split
    · rename_i online
      rw [if_neg (by simpa using online)]
      rfl
    · rename_i online
      rw [if_pos (by simpa using online)]
      exact engine_forM_pushTagged

theorem engine_answer {α : Type} {call : DbM ChanError α} {done : α → Cmd Unit} :
    ((answer c call done).run x).2.engine =
      match x.engine.withDb call with
      | (e, .ok a) => ((done a).run { x with engine := e }).2.engine
      | (e, .error _) => e := by
  rw [answer, run_store]
  obtain ⟨e, err | a⟩ := x.engine.withDb call
  · rfl
  · rfl

theorem engine_flagsWrite (target : String) (updated : Flags) :
    ((flagsWrite c chan target updated).run x).2.engine =
      (x.engine.flagsWrite (flagsCommand c args) chan target updated).1 := by
  unfold flagsWrite Engine.flagsWrite
  by_cases none : updated.isEmpty = true
  · rw [if_pos none, if_pos none]
    rw [run_store]
    obtain ⟨e, err | removed⟩ := x.engine.withDb (Db.accessDel chan target)
    · rfl
    · cases removed <;> rfl
  · rw [if_neg none, if_neg none]
    refine engine_answer.trans ?_
    dsimp only
    obtain ⟨e, err | ⟨⟩⟩ := x.engine.withDb (Db.accessAdd chan target updated.toLetters)
    · rfl
    · exact engine_notifyOrMemo target updated.toLetters

/-- What is behind the guard is run where the channel is not suspended. -/
theorem engine_unsuspended (body : Cmd Unit) :
    ((do if ← suspendedBlock c chan then pure () else body : Cmd Unit).run x).2.engine =
      if x.engine.isChannelSuspended c.env chan = true then x.engine else (body.run x).2.engine := by
  change (((if x.engine.isChannelSuspended c.env chan = true then _ else _ : Cmd Bool) >>= fun blocked =>
    if blocked = true then pure () else body).run x).2.engine = _
  by_cases suspended : x.engine.isChannelSuspended c.env chan = true
  · rw [if_pos suspended, if_pos suspended]
    rfl
  · rw [if_neg suspended, if_neg suspended]
    rfl

/-- FLAGS does to the store what it does there. -/
theorem engine_flags :
    ((handleFlags c args).run x).2.engine = (x.engine.chanservFlags (flagsCommand c args)).1 := by
  have own : (flagsCommand c args).args = args := rfl
  unfold handleFlags Engine.chanservFlags
  rw [own]
  cases args[1]? with
  | none => rfl
  | some chan =>
      dsimp only
      cases held : x.engine.db.channel chan with
      | none =>
          rw [run_withChannel_none held]
          rfl
      | some info =>
          rw [run_withChannel held]
          dsimp only
          cases args[2]? with
          | none =>
              dsimp only
              by_cases denied : c.from.account ≠ some info.founder ∧
                  (!(info.view.capsOf c.from.account).op) = true
              · rw [if_pos denied, if_pos]
                · rfl
                · simpa [flagsCommand] using denied
              · rw [if_neg denied, if_neg]
                · exact engine_notices _
                · simpa [flagsCommand] using denied
          | some target =>
              dsimp only
              cases args[3]? with
              | none =>
                  dsimp only
                  split
                  · split
                    · rfl
                    · rfl
                  · split
                    · rfl
                    · rfl
              | some delta =>
                  have account : (flagsCommand c args).account = c.from.account := rfl
                  have env : (flagsCommand c args).env = c.env := rfl
                  unfold flagsChange
                  simp only [account, env]
                  by_cases refused : (!(c.from.account == some info.founder) &&
                      !(info.view.capsOf c.from.account).access) = true
                  · rw [if_pos refused, if_pos refused]
                    rfl
                  rw [if_neg refused, if_neg refused]
                  refine (engine_unsuspended _).trans ?_
                  by_cases suspended : x.engine.isChannelSuspended c.env chan = true
                  · rw [if_pos suspended, if_pos suspended]
                  rw [if_neg suspended, if_neg suspended]
                  by_cases founder : eqIgnoreAsciiCase info.founder target = true
                  · rw [if_pos founder, if_pos founder]
                    rfl
                  rw [if_neg founder, if_neg founder]
                  cases (Flags.fromLevel (((info.ownEntry target).map (·.level)).getD "")).applyDelta
                      true delta.toList with
                  | error bad => rfl
                  | ok updated =>
                      dsimp only
                      by_cases grants :
                          (!(c.from.account == some info.founder) && updated.has .founder) = true
                      · rw [if_pos grants, if_pos grants]
                        rfl
                      · rw [if_neg grants, if_neg grants]
                        exact engine_flagsWrite target updated

/-! ### SET FOUNDER and SET SUCCESSOR -/

theorem engine_foundersOnly (body : ChannelInfo → Cmd Unit) :
    ((foundersOnly c chan "change its settings" body).run x).2.engine =
      match x.engine.chanservSettable c.env c.from.account chan with
      | .error _ => x.engine
      | .ok info => ((body info).run x).2.engine := by
  unfold Engine.chanservSettable
  rw [foundersOnly]
  have stored : x.engine.db.channels[key chan]? = x.engine.db.channel chan := rfl
  rw [stored]
  cases held : x.engine.db.channel chan with
  | none =>
      rw [run_withChannel_none held]
      rfl
  | some info =>
      rw [run_withChannel held]
      dsimp only
      by_cases other : c.from.account ≠ some info.founder
      · rw [if_pos other, if_pos other]
        rfl
      rw [if_neg other, if_neg other]
      refine (engine_unsuspended _).trans ?_
      by_cases suspended : x.engine.isChannelSuspended c.env chan = true
      · rw [if_pos suspended, if_pos suspended]
      · rw [if_neg suspended, if_neg suspended]

/-- Whoever is told of it, no channel is written for that. -/
theorem channels_notifyOrMemo (target text : String) :
    ((notifyOrMemo c target chan text).run x).2.engine.db.channels = x.engine.db.channels := by
  unfold notifyOrMemo
  change ((if target.toList.head? = some '!' ∨ eqIgnoreAsciiCase c.by target = true then pure ()
    else _ : Cmd Unit).run x).2.engine.db.channels = _
  split
  · rfl
  · split
    · exact Db.channels_memoSend _ _ _ _ _
    · rw [engine_forM_pushTagged]

/-- The founder that SET FOUNDER writes is the one it writes there. -/
theorem channels_setFounder (verb : args[2]?.map toAsciiUppercase = some "FOUNDER") :
    ((handleSet c args).run x).2.engine.db.channels =
      (x.engine.chanservSetFounder c.env c.from.account args).1.db.channels := by
  unfold handleSet Engine.chanservSetFounder
  cases args[1]? with
  | none => rfl
  | some chan =>
      dsimp only
      rw [engine_foundersOnly]
      cases x.engine.chanservSettable c.env c.from.account chan with
      | error reason => rfl
      | ok info =>
          rw [verb]
          change ((setFounder c chan args[3]?).run x).2.engine.db.channels = _
          unfold setFounder
          cases args[3]? with
          | none => rfl
          | some heir =>
              change ((if (!x.engine.db.exists heir) = true then _ else _ : Cmd Unit).run
                x).2.engine.db.channels = _
              dsimp only
              by_cases unknown : (!x.engine.db.exists heir) = true
              · rw [if_pos unknown, if_pos unknown]
                rfl
              rw [if_neg unknown, if_neg unknown, engine_answer]
              obtain ⟨e, err | ⟨⟩⟩ := x.engine.withDb (Db.setFounder chan heir)
              · rfl
              · exact channels_notifyOrMemo _ _

theorem channels_setSuccessor (verb : args[2]?.map toAsciiUppercase = some "SUCCESSOR") :
    ((handleSet c args).run x).2.engine.db.channels =
      (x.engine.chanservSetSuccessor c.env c.from.account args).1.db.channels := by
  unfold handleSet Engine.chanservSetSuccessor
  cases args[1]? with
  | none => rfl
  | some chan =>
      dsimp only
      rw [engine_foundersOnly]
      cases x.engine.chanservSettable c.env c.from.account chan with
      | error reason => rfl
      | ok info =>
          rw [verb]
          change ((setSuccessor c info chan args[3]?).run x).2.engine.db.channels = _
          unfold setSuccessor
          dsimp only
          cases args[3]?.filter (!eqIgnoreAsciiCase · "OFF") with
          | none =>
              refine (congrArg (·.db.channels) engine_answer).trans ?_
              dsimp only
              obtain ⟨e, err | ⟨⟩⟩ := x.engine.withDb (Db.setSuccessor chan none)
              · rfl
              · rfl
          | some heir =>
              change ((if (!x.engine.db.exists heir) = true then _ else _ : Cmd Unit).run
                x).2.engine.db.channels = _
              dsimp only
              by_cases unknown : (!x.engine.db.exists heir) = true
              · rw [if_pos unknown, if_pos unknown]
                rfl
              rw [if_neg unknown, if_neg unknown]
              by_cases founder : eqIgnoreAsciiCase heir info.founder = true
              · rw [if_pos founder, if_pos founder]
                rfl
              rw [if_neg founder, if_neg founder, engine_answer]
              obtain ⟨e, err | ⟨⟩⟩ := x.engine.withDb (Db.setSuccessor chan (some heir))
              · rfl
              · exact channels_notifyOrMemo _ _

/-! ### UP -/

/-- The marks of a text in bold may be counted to what stands around it. -/
theorem append_bold (front text back : String) :
    front ++ Engine.bold text ++ back = (front ++ "\x02") ++ text ++ ("\x02" ++ back) := by
  unfold Engine.bold
  simp only [String.append_assoc]

theorem bold_append (text back : String) :
    Engine.bold text ++ back = "\x02" ++ text ++ ("\x02" ++ back) := by
  unfold Engine.bold
  simp only [String.append_assoc]

/-- UP asks of the network what it asks of it in a scene. -/
theorem actions_up (unthreaded : c.replyTo = none)
    (account : c.net.accountOf c.from.uid = c.from.account) (named : args[1]? = some chan) :
    ((handleUpdown c true args).run x).2.actions =
      x.actions ++ ((scene c x.engine).up c.me c.from.uid chan).map .net := by
  have told (text : String) (x : Ctx) : ((notice c text).run x).2.actions =
      x.actions ++ [.net (.notice c.me c.from.uid text)] := by
    unfold notice pushTagged
    rw [unthreaded, if_pos rfl]
    rfl
  have asked : (scene c x.engine).net.accountOf c.from.uid = c.from.account := account
  unfold handleUpdown Scene.up
  rw [named, asked]
  cases c.from.account with
  | none => exact told _ _
  | some account =>
      have stored : (scene c x.engine).db.channel chan = x.engine.db.channel chan := rfl
      dsimp only
      rw [stored]
      cases held : x.engine.db.channel chan with
      | none =>
          rw [run_withChannel_none held]
          refine (told _ _).trans ?_
          unfold notRegistered
          rw [bold_append]
          rfl
      | some info =>
          rw [run_withChannel held]
          dsimp only
          change _ = x.actions ++ List.map .net (if (!(c.net.channelMembers chan).contains c.from.uid) = true
            then _ else _)
          by_cases absent : (!(c.net.channelMembers chan).contains c.from.uid) = true
          · rw [if_pos absent, if_pos absent, told, append_bold]
            rfl
          rw [if_neg absent, if_neg absent]
          rw [run_modeSource, if_pos rfl]
          cases info.view.joinMode account with
          | none =>
              refine (told _ _).trans ?_
              rw [append_bold]
              rfl
          | some mode =>
              refine (told _ _).trans ?_
              rw [append_bold]
              exact List.append_assoc x.actions [_] [_]

end Echo.ChanServ
