import Echo.ChanServ.Frozen

/-!
What a user who is no operator does with any command but UP, DOWN and CLONE leaves a
suspended channel untouched: each handler asks before it writes or acts.
-/

namespace Echo.ChanServ

open Std (ExtTreeMap)
open Echo.Lib

open Dispatcher (NetAction)

variable {c : Call} {k chan : String} {info : ChannelInfo} {args : List String}

/-! ### Readers -/

theorem spares_info : Spares k info (handleInfo c args) := by
  unfold handleInfo
  cases args[1]? with
  | none => exact spares_notice _
  | some chan => exact spares_withChannel fun _ => spares_notices _

theorem spares_list : Spares k info (handleList c args) := by
  refine spares_engine fun e _ => ?_
  exact upholds_ite (fun _ => spares_notice _) fun _ => spares_notices _

theorem spares_status : Spares k info (handleStatus c args) := by
  unfold handleStatus
  cases args[1]? with
  | none => exact spares_notice _
  | some chan => exact spares_withChannel fun _ => spares_notice _

theorem spares_seen : Spares k info (handleSeen c args) := by
  unfold handleSeen
  cases args[1]? with
  | none => exact spares_notice _
  | some first =>
      refine upholds_ite (fun _ => ?_) fun _ => spares_notice _
      cases args[2]? with
      | none => exact spares_notice _
      | some nick => exact spares_notice _

theorem spares_help (topic : Option String) : Spares k info (handleHelp c topic) := by
  unfold handleHelp
  cases topic with
  | none => exact spares_notices _
  | some t =>
      dsimp only
      cases c.topics.find? fun e => e.words.any (eqIgnoreAsciiCase · t) with
      | none => exact spares_notice _
      | some e => exact spares_notices _

theorem spares_withTarget {nick : Option String} {body : String → Cmd Unit}
    (then' : ∀ uid, Spares k info (body uid)) : Spares k info (withTarget c nick body) := by
  unfold withTarget
  cases nick with
  | none => exact then' _
  | some nick =>
      dsimp only
      cases c.net.uidByNick nick with
      | none => exact spares_notice _
      | some uid => exact then' uid

section Suspended

variable (suspended : c.suspends info = true)
include suspended

theorem spares_getkey : Spares k info (handleGetkey c args) := by
  unfold handleGetkey
  cases args[1]? with
  | none => exact spares_notice _
  | some chan =>
      refine spares_forOps suspended fun _ => ?_
      cases c.net.channelKey chan with
      | none => exact spares_notice _
      | some key => exact spares_notice _

/-! ### Those in a channel -/

theorem spares_op (mode : String) : Spares k info (handleOp c mode args) := by
  unfold handleOp
  cases args[1]? with
  | none => exact spares_notice _
  | some chan =>
      have passes : Upholds (Untouched k info)
          (if mode.toList.contains 'q' then requireFounder c chan else requireOp c chan)
          fun ok => ok = true → key chan ≠ k :=
        upholds_ite (fun _ => upholds_requireFounder suspended) fun _ => upholds_requireOp suspended
      refine spares_guarded passes fun apart => spares_withTarget fun target => ?_
      have peace : Upholds (Untouched k info)
          (if mode.toList.head? = some '-' then peaceBlocks c chan target else pure false)
          fun _ => True :=
        upholds_ite (fun _ => upholds_peaceBlocks target) fun _ => upholds_pure trivial
      refine spares_bind peace fun blocked _ => upholds_ite (fun _ => spares_pure) fun _ => ?_
      exact upholds_modeSource fun src => spares_channelMode apart src _

theorem spares_kickCommand : Spares k info (handleKick c args) := by
  unfold handleKick
  cases args[1]? with
  | none => exact spares_notice _
  | some chan =>
      cases args[2]? with
      | none => exact spares_notice _
      | some nick =>
          refine spares_forOps suspended fun apart => ?_
          cases c.net.uidByNick nick with
          | none => exact spares_notice _
          | some target =>
              refine spares_bind (upholds_peaceBlocks target) fun blocked _ => ?_
              refine upholds_ite (fun _ => spares_pure) fun _ => ?_
              exact spares_engine fun e _ => spares_kick apart _ _ _

theorem spares_ban : Spares k info (handleBan c args) := by
  unfold handleBan
  cases args[1]? with
  | none => exact spares_notice _
  | some chan =>
      cases args[2]? with
      | none => exact spares_notice _
      | some nick =>
          refine spares_forOps suspended fun apart => ?_
          cases c.net.uidByNick nick with
          | none => exact spares_notice _
          | some target =>
              refine spares_bind (upholds_peaceBlocks target) fun blocked _ => ?_
              refine upholds_ite (fun _ => spares_pure) fun _ => upholds_modeSource fun src => ?_
              exact spares_bind (spares_channelMode apart src _) fun _ _ => spares_kick apart src _ _

theorem spares_unban : Spares k info (handleUnban c args) := by
  unfold handleUnban
  cases args[1]? with
  | none => exact spares_notice _
  | some chan =>
      refine spares_forOps suspended fun apart => upholds_modeSource fun src => ?_
      exact spares_bind (spares_channelMode apart src _) fun _ _ => spares_notice _

theorem spares_invite : Spares k info (handleInvite c args) := by
  unfold handleInvite
  cases args[1]? with
  | none => exact spares_notice _
  | some chan =>
      refine spares_forOps suspended fun apart => spares_withTarget fun target => ?_
      exact spares_bind (spares_push (beq_eq_false_iff_ne.mpr apart)) fun _ _ => spares_notice _

theorem spares_topic : Spares k info (handleTopic c args) := by
  unfold handleTopic
  cases args[1]? with
  | none => exact spares_notice _
  | some chan =>
      refine spares_forOps suspended fun apart => ?_
      refine spares_bind (spares_push (beq_eq_false_iff_ne.mpr apart)) fun _ _ => ?_
      refine spares_bind (spares_ignore fun _ => Db.leaves_writeChannel apart _ _) fun _ _ => ?_
      exact spares_notice _

theorem quiet_enforce {e : Engine} (held : e.db.channels[k]? = some info) :
    ∀ a ∈ (scene c e).enforce c.me c.from.uid c.from.account chan, a.touches k = false := by
  by_cases same : key chan = k
  · have frozen : (scene c e).suspended chan = true := by
      unfold Scene.suspended Db.channel scene
      rw [same, held]
      exact suspended
    unfold Scene.enforce Scene.requireOp
    rw [if_pos frozen]
    intro a mem
    cases List.mem_singleton.mp mem
    rfl
  · have apart : (key chan == k) = false := beq_eq_false_iff_ne.mpr same
    intro a mem
    unfold Scene.enforce at mem
    split at mem
    · cases List.mem_singleton.mp mem
      rfl
    · cases mem
    · simp only [List.mem_append, List.mem_cons, List.mem_map, List.mem_flatMap,
        List.not_mem_nil, or_false] at mem
      obtain ((rfl | ⟨entry, _, rfl⟩) | ⟨uid, _, acted⟩) | rfl := mem
      · exact apart
      · exact apart
      · unfold Scene.enforceMember at acted
        dsimp only at acted
        split at acted
        · cases List.mem_singleton.mp acted
          exact apart
        · split at acted
          · cases acted
          · simp only [List.mem_cons, List.not_mem_nil, or_false] at acted
            obtain rfl | rfl := acted
            · exact apart
            · exact apart
      · rfl

theorem spares_enforce : Spares k info (handleEnforce c args) := by
  unfold handleEnforce
  cases args[1]? with
  | none => exact spares_notice _
  | some chan =>
      refine spares_engine fun e held => upholds_forM fun a mem => ?_
      exact spares_send (quiet_enforce suspended held a mem)

theorem quiet_mode {e : Engine} (held : e.db.channels[k]? = some info) {action : NetAction}
    {text : String}
    (passed : e.chanservMode c.env c.policy c.me c.from.account args = .ok (action, text)) :
    action.touches k = false := by
  unfold Engine.chanservMode at passed
  split at passed
  · cases passed
  · rename_i chan _
    split at passed
    · cases passed
    · split at passed
      · cases passed
      · split at passed
        · cases passed
        · split at passed
          · cases passed
          · rename_i running
            split at passed
            · cases passed
            · cases passed
              refine beq_eq_false_iff_ne.mpr fun same => running ?_
              unfold Engine.isChannelSuspended
              rw [same, held]
              exact suspended

theorem spares_mode : Spares k info (handleMode c args) := by
  refine spares_engine fun e held => ?_
  cases passed : e.chanservMode c.env c.policy c.me c.from.account args with
  | error text => exact spares_notice _
  | ok out =>
      obtain ⟨action, text⟩ := out
      exact spares_bind (spares_push (quiet_mode suspended held passed)) fun _ _ => spares_notice _

/-! ### Registrations -/

omit suspended in
theorem spares_assignDefaultBot (apart : key chan ≠ k) : Spares k info (assignDefaultBot c chan) := by
  refine spares_engine fun e _ => ?_
  cases e.defaultBot with
  | none => exact spares_pure
  | some bot =>
      refine spares_bind (upholds_stored fun _ => Db.leaves_writeChannel apart _ _) fun out _ => ?_
      cases out with
      | error err => exact spares_pure
      | ok _ => exact spares_notice _

omit suspended in
/-- A registered channel is not registered anew, suspended or not. -/
theorem spares_register : Spares k info (handleRegister c args) := by
  unfold handleRegister
  cases args[1]? with
  | none => exact spares_notice _
  | some chan =>
      refine spares_engine fun e _ => upholds_ite (fun _ => spares_notice _) fun _ => ?_
      refine upholds_ite (fun _ => spares_notice _) fun _ => ?_
      cases c.from.account with
      | none => exact spares_notice _
      | some account =>
          refine upholds_ite (fun _ => spares_notice _) fun _ => ?_
          cases e.policy.isForbidden c.unicode .chan chan with
          | some reason => exact spares_notice _
          | none =>
              dsimp only
              cases e.policy.lookalike c.unicode chan with
              | some reason => exact spares_bind (spares_alert _ _) fun _ _ => spares_notice _
              | none =>
                  have registers : Upholds (Untouched k info)
                      (store (Db.registerChannel c.env chan account))
                      fun out => out = .ok () → key chan ≠ k :=
                    upholds_store (fun _ taken => Db.leaves_registerChannel taken _ _ _)
                      fun _ taken => Db.registerChannel_ok taken
                  refine spares_bind registers fun out apart => ?_
                  cases out with
                  | error err => cases err <;> exact spares_notice _
                  | ok _ =>
                      refine spares_bind (spares_channelMode (apart rfl) _ _) fun _ _ => ?_
                      refine spares_bind (spares_count _) fun _ _ => ?_
                      refine spares_bind (spares_notice _) fun _ _ => ?_
                      exact spares_assignDefaultBot (apart rfl)

theorem spares_drop : Spares k info (handleDrop c args) := by
  unfold handleDrop
  cases args[1]? with
  | none => exact spares_notice _
  | some chan =>
      refine spares_foundersOnly suspended fun apart _ => ?_
      refine spares_answer (fun _ => Db.leaves_dropChannel apart) fun _ => ?_
      refine spares_bind (spares_channelMode apart _ _) fun _ _ => ?_
      exact spares_bind (spares_count _) fun _ _ => spares_notice _

omit suspended in
theorem spares_renameTo {old new : String} (apart : key old ≠ k) :
    Spares k info (renameTo c old new) := by
  refine spares_engine fun e _ => upholds_ite (fun _ => spares_notice _) fun _ => ?_
  refine upholds_ite (fun _ => spares_notice _) fun _ => ?_
  cases e.policy.isForbidden c.unicode .chan new with
  | some reason => exact spares_notice _
  | none =>
      dsimp only
      cases e.policy.lookalike c.unicode new with
      | some reason => exact spares_bind (spares_alert _ _) fun _ _ => spares_notice _
      | none =>
          have renames : Upholds (Untouched k info) (store (Db.renameChannel old new))
              fun out => out = .ok () → key new ≠ k :=
            upholds_store (fun _ taken => Db.leaves_renameChannel apart taken)
              fun _ taken => Db.renameChannel_ok apart taken
          refine spares_bind renames fun out free => ?_
          cases out with
          | error err => cases err <;> exact spares_notice _
          | ok _ =>
              refine spares_bind (spares_push ?_) fun _ _ => ?_
              · exact Bool.or_eq_false_iff.mpr
                  ⟨beq_eq_false_iff_ne.mpr apart, beq_eq_false_iff_ne.mpr (free rfl)⟩
              · exact spares_bind (spares_count _) fun _ _ => spares_notice _

theorem spares_rename : Spares k info (handleRename c args) := by
  unfold handleRename
  cases args[1]? with
  | none => exact spares_notice _
  | some old =>
      cases args[2]? with
      | none => exact spares_notice _
      | some new =>
          refine upholds_ite (fun _ => spares_notice _) fun _ => ?_
          exact spares_forFounder suspended fun apart => spares_renameTo apart

/-! ### The lock, the entry message and the lists -/

omit suspended in
theorem spares_applyLock (apart : key chan ≠ k) : Spares k info (applyLock c chan) := by
  refine spares_engine fun e _ => ?_
  cases e.db.channel chan with
  | none => exact spares_pure
  | some other => exact spares_channelMode apart _ _

omit suspended in
theorem spares_standingBan (apart : key chan ≠ k) (sign mask : String) :
    Spares k info (standingBan c chan sign mask) :=
  upholds_ite (fun _ => spares_channelMode apart _ _) fun _ => spares_pure

theorem spares_mlock : Spares k info (handleMlock c args) := by
  unfold handleMlock
  cases args[1]? with
  | none => exact spares_notice _
  | some chan =>
      refine upholds_ite (fun _ => ?_) fun _ => ?_
      · refine spares_withChannel fun other => ?_
        exact upholds_ite (fun _ => spares_notice _) fun _ => spares_notice _
      · refine spares_foundersOnly suspended fun apart _ => ?_
        refine spares_answer (fun _ => Db.leaves_writeChannel apart _ _) fun _ => ?_
        exact spares_bind (spares_applyLock apart) fun _ _ => spares_notice _

theorem spares_entrymsg : Spares k info (handleEntrymsg c args) := by
  unfold handleEntrymsg
  cases args[1]? with
  | none => exact spares_notice _
  | some chan =>
      cases args[2]? with
      | none =>
          refine spares_withChannel fun other => ?_
          exact upholds_ite (fun _ => spares_notice _) fun _ => spares_notice _
      | some kw =>
          refine spares_forOps suspended fun apart => ?_
          exact spares_answer (fun _ => Db.leaves_writeChannel apart _ _) fun _ => spares_notice _

omit suspended in
theorem spares_accessInsert (apart : key chan ≠ k) (account level done told : String) :
    Spares k info (accessInsert c chan account level done told) := by
  refine spares_answer (fun _ => Db.leaves_cappedAdd apart _ _ _ _) fun _ => ?_
  exact spares_bind (spares_notice _) fun _ _ => spares_notifyOrMemo _ _

omit suspended in
theorem spares_accessRemove (apart : key chan ≠ k) (account done told : String) :
    Spares k info (accessRemove c chan account done told) := by
  refine spares_answer (fun _ => Db.leaves_changeChannel apart _ _ _) fun removed => ?_
  refine upholds_ite (fun _ => ?_) fun _ => spares_notice _
  exact spares_bind (spares_notice _) fun _ _ => spares_notifyOrMemo _ _

theorem spares_access : Spares k info (handleAccess c args) := by
  unfold handleAccess
  cases args[1]? with
  | none => exact spares_notice _
  | some chan =>
      dsimp only
      split
      · exact spares_withChannel fun _ => spares_notices _
      · exact spares_withChannel fun _ => spares_notices _
      · cases args[3]? with
        | none => exact spares_notice _
        | some account =>
            cases args[4]?.map toAsciiLowercase with
            | none => exact spares_notice _
            | some level =>
                refine upholds_ite (fun _ => spares_notice _) fun _ => ?_
                exact spares_foundersOnly suspended fun apart _ => spares_accessInsert apart _ _ _ _
      · cases args[3]? with
        | none => exact spares_notice _
        | some account =>
            exact spares_foundersOnly suspended fun apart _ => spares_accessRemove apart _ _ _
      · exact spares_notice _

theorem spares_xop (word level : String) : Spares k info (handleXop c word level args) := by
  unfold handleXop
  cases args[1]? with
  | none => exact spares_notice _
  | some chan =>
      dsimp only
      split
      · exact spares_withChannel fun _ => spares_notices _
      · exact spares_withChannel fun _ => spares_notices _
      · cases args[3]? with
        | none => exact spares_notice _
        | some account =>
            exact spares_forFounder suspended fun apart => spares_accessInsert apart _ _ _ _
      · cases args[3]? with
        | none => exact spares_notice _
        | some account =>
            exact spares_forFounder suspended fun apart => spares_accessRemove apart _ _ _
      · exact spares_notice _

omit suspended in
theorem spares_flagsWrite (apart : key chan ≠ k) (target : String) (updated : Flags) :
    Spares k info (flagsWrite c chan target updated) := by
  refine upholds_ite (fun _ => ?_) fun _ => spares_accessInsert apart _ _ _ _
  refine spares_bind (upholds_stored fun _ => Db.leaves_changeChannel apart _ _ _) fun out _ => ?_
  split
  · exact spares_notice _
  · exact spares_notice _

theorem spares_flagsChange (other : ChannelInfo) (target delta : String) :
    Spares k info (flagsChange c other chan target delta) := by
  refine upholds_ite (fun _ => spares_notice _) fun _ => ?_
  refine spares_bind (upholds_suspendedBlock suspended) fun blocked apart => ?_
  refine upholds_ite (fun _ => spares_pure) fun free => upholds_ite (fun _ => spares_notice _) fun _ => ?_
  dsimp only
  split
  · exact spares_notice _
  · refine upholds_ite (fun _ => spares_notice _) fun _ => ?_
    exact spares_flagsWrite (apart (by simpa using free)) _ _

theorem spares_flags : Spares k info (handleFlags c args) := by
  unfold handleFlags
  cases args[1]? with
  | none => exact spares_notice _
  | some chan =>
      refine spares_withChannel fun other => ?_
      cases args[2]? with
      | none => exact upholds_ite (fun _ => spares_notice _) fun _ => spares_notices _
      | some target =>
          cases args[3]? with
          | some delta => exact spares_flagsChange suspended other target delta
          | none =>
              dsimp only
              split
              · exact spares_notice _
              · exact spares_notice _

theorem spares_akick : Spares k info (handleAkick c args) := by
  unfold handleAkick
  cases args[1]? with
  | none => exact spares_notice _
  | some chan =>
      dsimp only
      split
      · refine spares_withChannel fun other => ?_
        exact upholds_ite (fun _ => spares_notice _) fun _ => spares_notices _
      · refine spares_withChannel fun other => ?_
        exact upholds_ite (fun _ => spares_notice _) fun _ => spares_notices _
      · cases args[3]? with
        | none => exact spares_notice _
        | some mask =>
            dsimp only
            unfold akickAdd
            cases c.policy.akickPolicy mask with
            | error reason => exact spares_notice _
            | ok _ =>
                refine spares_forOps suspended fun apart => ?_
                refine spares_answer (fun _ => Db.leaves_cappedAdd apart _ _ _ _) fun _ => ?_
                exact spares_bind (spares_standingBan apart _ _) fun _ _ => spares_notice _
      · cases args[3]? with
        | none => exact spares_notice _
        | some mask =>
            refine spares_forOps suspended fun apart => ?_
            refine spares_answer (fun _ => Db.leaves_changeChannel apart _ _ _) fun removed => ?_
            refine upholds_ite (fun _ => ?_) fun _ => spares_notice _
            exact spares_bind (spares_standingBan apart _ _) fun _ _ => spares_notice _
      · refine spares_forOps suspended fun apart => spares_engine fun e _ => ?_
        refine spares_bind (upholds_forM fun mask _ => ?_) fun _ _ => spares_notice _
        refine spares_bind (spares_ignore fun _ => Db.leaves_changeChannel apart _ _ _) fun _ _ => ?_
        exact spares_standingBan apart _ _
      · exact spares_notice _

theorem spares_levelsSet (rest : List String) : Spares k info (levelsSet c chan rest) := by
  refine spares_forFounder suspended fun apart => ?_
  split
  · split
    · exact spares_notice _
    · split
      · exact spares_notice _
      · exact spares_notice _
      · exact spares_answer (fun _ => Db.leaves_writeChannel apart _ _) fun _ => spares_notice _
  · exact spares_notice _

theorem spares_levelsReset (capWord : Option String) :
    Spares k info (levelsReset c chan capWord) := by
  refine spares_forFounder suspended fun apart => ?_
  split
  · exact spares_notice _
  · split
    · exact spares_notice _
    · exact spares_answer (fun _ => Db.leaves_changeChannel apart _ _ _) fun _ => spares_notice _

theorem spares_levels : Spares k info (handleLevels c args) := by
  have listed (chan : String) : Spares k info (levelsList c chan) :=
    spares_withChannel fun _ => spares_notices _
  unfold handleLevels
  cases args[1]? with
  | none => exact spares_notice _
  | some chan =>
      dsimp only
      split
      · exact listed chan
      · exact listed chan
      · exact listed chan
      · exact spares_levelsSet suspended _
      · exact spares_levelsReset suspended _
      · exact spares_levelsReset suspended _
      · exact spares_notice _

/-! ### SET -/

omit suspended in
theorem spares_setFounder (apart : key chan ≠ k) (heir : Option String) :
    Spares k info (setFounder c chan heir) := by
  unfold setFounder
  cases heir with
  | none => exact spares_notice _
  | some account =>
      refine spares_engine fun e _ => upholds_ite (fun _ => spares_notice _) fun _ => ?_
      refine spares_answer (fun _ => Db.leaves_writeChannel apart _ _) fun _ => ?_
      exact spares_bind (spares_notice _) fun _ _ => spares_notifyOrMemo _ _

omit suspended in
theorem spares_setSuccessor (apart : key chan ≠ k) (other : ChannelInfo) (heir : Option String) :
    Spares k info (setSuccessor c other chan heir) := by
  unfold setSuccessor
  cases heir.filter (!eqIgnoreAsciiCase · "OFF") with
  | none => exact spares_answer (fun _ => Db.leaves_writeChannel apart _ _) fun _ => spares_notice _
  | some account =>
      refine spares_engine fun e _ => upholds_ite (fun _ => spares_notice _) fun _ => ?_
      refine upholds_ite (fun _ => spares_notice _) fun _ => ?_
      refine spares_answer (fun _ => Db.leaves_writeChannel apart _ _) fun _ => ?_
      exact spares_bind (spares_notice _) fun _ _ => spares_notifyOrMemo _ _

omit suspended in
theorem spares_signkickSet (apart : key chan ≠ k) (arg : Option String) :
    Spares k info (signkickSet c chan arg) := by
  have settles (on level : Bool) (state : String) : Spares k info (do
      ignore (Db.setChannelSetting chan .signKick on)
      answer c (Db.setChannelSetting chan .signKickLevel level) fun _ =>
        notice c (Engine.bold "SIGNKICK" ++ " for " ++ Engine.bold chan ++ " is now " ++
          Engine.bold state ++ ".")) := by
    refine spares_bind (spares_ignore fun _ => Db.leaves_setChannelSetting apart _ _) fun _ _ => ?_
    exact spares_answer (fun _ => Db.leaves_setChannelSetting apart _ _) fun _ => spares_notice _
  unfold signkickSet
  dsimp only
  split
  · exact settles true false "on"
  · exact settles true true "level"
  · exact settles false false "off"
  · exact spares_notice _

omit suspended in
theorem spares_toggle (apart : key chan ≠ k) (setting : ChanSetting) (arg : Option String) :
    Spares k info (toggle c chan setting arg) := by
  unfold toggle
  dsimp only
  split
  · exact spares_answer (fun _ => Db.leaves_setChannelSetting apart _ _) fun _ => spares_notice _
  · exact spares_answer (fun _ => Db.leaves_setChannelSetting apart _ _) fun _ => spares_notice _
  · exact spares_notice _

omit suspended in
theorem spares_setWord (apart : key chan ≠ k) (other : ChannelInfo) (word : String) :
    Spares k info (setWord c other args chan word) := by
  unfold setWord
  dsimp only
  split
  · exact spares_setFounder apart _
  · exact spares_setSuccessor apart other _
  · exact spares_answer (fun _ => Db.leaves_writeChannel apart _ _) fun _ => spares_notice _
  · exact spares_answer (fun _ => Db.leaves_writeChannel apart _ _) fun _ => spares_notice _
  · exact spares_answer (fun _ => Db.leaves_writeChannel apart _ _) fun _ => spares_notice _
  · exact spares_signkickSet apart _
  · split
    · exact spares_toggle apart _ _
    · exact spares_notice _

theorem spares_set : Spares k info (handleSet c args) := by
  unfold handleSet
  cases args[1]? with
  | none => exact spares_notice _
  | some chan =>
      refine spares_foundersOnly suspended fun apart other => ?_
      split
      · exact spares_setWord apart other _
      · exact spares_notice _

end Suspended

/-! ### Operators -/

theorem spares_suspend (plain : c.from.Plain) (suspending : Bool) :
    Spares k info (handleSuspend c suspending args) := by
  unfold handleSuspend
  rw [plain.has, Bool.not_false, if_pos rfl]
  exact spares_notice _

theorem spares_noexpire (plain : c.from.Plain) : Spares k info (handleNoexpire c args) := by
  unfold handleNoexpire
  rw [plain.has, Bool.not_false, if_pos rfl]
  exact spares_notice _

end Echo.ChanServ
