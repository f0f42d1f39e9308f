import Echo.Db.CallLockstep

/-!
What holds of a call whatever writes are refused: it leaves a well-formed store,
and it reaches the log by appends alone.
-/

namespace Echo

open Std (ExtTreeMap)
open Echo.Lib
open EventLog (Appends)

/-- A well-formed store stays so, and the log moves by appends. -/
def Sound (db db' : Db) : Prop := (db.Wf → db'.Wf) ∧ ∃ events, Appends db.log events db'.log

instance : IsPreorder Db Sound where
  refl db := ⟨id, [], .refl db.log⟩
  trans := by
    rintro a b c ⟨wf, events, logs⟩ ⟨wf', events', logs'⟩
    exact ⟨wf' ∘ wf, events ++ events', logs.trans logs'⟩

theorem Lockstep.sound {db db' : Db} (h : Lockstep db db') : Sound db db' := by
  obtain ⟨events, logs, stores⟩ := id h
  exact ⟨h.wf, events, logs⟩

/-- Session data is nobody's record. -/
theorem Sound.of_same {db db' : Db} (stores : db'.toStore = db.toStore)
    (logs : db'.log = db.log) : Sound db db' := (Lockstep.of_same stores logs).sound

namespace Db

variable {db : Db}

theorem sound_edit {write : Store → Store} (keeps : db.Wf → (write db.toStore).Wf) :
    Keeps Sound (edit write) db := ⟨keeps, [], .refl db.log⟩

/-- An attempt to write is an append, whatever its answer. -/
theorem appends_append (log : EventLog) (event : Event) :
    ∃ events, Appends log events (log.append event).1 := by
  rcases outcome : log.append event with ⟨log', e | ⟨⟩⟩
  · exact ⟨[], (Appends.refl log).failed outcome⟩
  · exact ⟨[event], (Appends.refl log).ok outcome⟩

theorem sound_quietly {event : Event} {write : Store → Store}
    (keeps : db.Wf → (write db.toStore).Wf) : Keeps Sound (quietly event write) db := by
  unfold Keeps
  rw [run_quietly]
  exact ⟨keeps, appends_append db.log event⟩

theorem sound_append {ε : Type} {event : Event} {onError : IoError → ε} :
    Keeps Sound (append event onError).run db := by
  have appends := appends_append db.log event
  unfold Keeps
  rw [run_append]
  rcases outcome : db.log.append event with ⟨log, e | ⟨⟩⟩
  · rw [outcome] at appends
    exact ⟨id, appends⟩
  · rw [outcome] at appends
    exact ⟨id, appends⟩

theorem sound_logged {ε : Type} {event : Event} {onError : IoError → ε} {write : Store → Store}
    (keeps : db.Wf → (write db.toStore).Wf) :
    Keeps Sound (logged event onError write).run db := by
  refine keeps_bindE sound_append fun _ db' outcome => ?_
  refine keeps_liftE (sound_edit ?_)
  have stores : db'.toStore = db.toStore := by
    rw [run_append] at outcome
    rcases answer : db.log.append event with ⟨log, e | ⟨⟩⟩
    · rw [answer] at outcome
      exact absurd (congrArg Prod.fst outcome) (by simp)
    · rw [answer] at outcome
      exact (congrArg (fun r => r.2.toStore) outcome).symm
  rw [stores]
  exact keeps

theorem sound_appendEach {ε α : Type} {eventOf : α → Event} {onError : IoError → ε}
    {l : List α} : Keeps Sound (appendEach eventOf onError l).run db :=
  keeps_forME fun _ _ _ _ => sound_append

theorem sound_memoSend (env : Env) (account sender text : String) (receipt : Bool) :
    Keeps Sound (memoSend env account sender text receipt).run db := by
  refine keeps_get_bindE ?_
  split
  · exact sound_logged fun wf => wf.adjustAccount fun _ => rfl
  · exact keeps_throw

theorem sound_botDel (nick : String) : Keeps Sound (botDel nick).run db := by
  refine keeps_get_bindE ?_
  split
  · refine keeps_bindE (sound_logged fun wf => ?_) fun _ _ _ => keeps_ok
    exact { wf with bots := wf.bots.erase }
  · exact keeps_ok

theorem sound_botDelAll (env : Env) : Keeps Sound (botDelAll env).run db := by
  refine keeps_get_bindE (keeps_bindE sound_appendEach fun _ _ _ => ?_)
  refine keeps_bindE (keeps_liftE (sound_edit fun wf => ?_)) fun _ _ _ => keeps_ok
  exact { wf with bots := .empty }

theorem sound_botChange (env : Env) (old newNick user host gecos : String) :
    Keeps Sound (botChange env old newNick user host gecos).run db := by
  have put (bot : Bot) (d : Db) : Keeps Sound (putBot bot).run d :=
    (lockstep_putBot (P := fun _ _ => True) trivial).mono fun _ step => step.lockstep.sound
  refine keeps_get_bindE ?_
  split
  · exact keeps_throw
  dsimp only
  split
  · exact put _ db
  split
  · exact keeps_throw
  have removed : Keeps Sound (logged (.botRemoved old) (fun _ => ChanError.internal) fun s =>
      { s with bots := s.bots.erase (key old) }).run db :=
    sound_logged fun wf => { wf with bots := wf.bots.erase }
  refine keeps_bindE removed fun _ _ _ => keeps_bindE (put _ _) fun _ _ _ => ?_
  exact keeps_forME fun _ _ _ _ =>
    (lockstep_logged (P := fun _ _ => True) rfl trivial).mono fun _ step => step.lockstep.sound

theorem sound_notifyClear : Keeps Sound notifyClear.run db := by
  refine keeps_get_bindE (keeps_bindE sound_appendEach fun _ _ _ => ?_)
  refine keeps_bindE (keeps_liftE (sound_edit fun wf => ?_)) fun _ _ _ => keeps_ok
  exact wf.adjustNet fun n => { n with notifies := distinctBy_nil }

/-- Dropping one entry of a queue keeps its ids distinct and below the counter. -/
theorem Ids.prune {α : Type} {idOf : α → Nat} {next : Nat} {q : List α} (h : Ids idOf next q)
    (isOpen : α → Bool) : Ids idOf next (pruneQueue isOpen q) := by
  unfold pruneQueue
  split
  · exact h
  · exact h.sublist (List.eraseIdx_sublist q _)

/-- Filing under the counter and moving it on. -/
theorem Ids.push {α : Type} {idOf : α → Nat} {next : Nat} {l : List α} (h : Ids idOf next l)
    {x : α} (id : idOf x = next) : Ids idOf (next + 1) (l ++ [x]) := by
  have filed := h.file (x := x)
  rw [id, h.fresh, if_neg (by simp), Nat.max_eq_right (Nat.le_succ next)] at filed
  exact filed

theorem sound_fileReport (env : Env) (reporter target reason : String) :
    Keeps Sound (fileReport env reporter target reason) db := by
  refine keeps_bind (sound_edit fun wf => ?_) (keeps_get_bind (keeps_bind ?_ keeps_pure))
  · exact wf.adjustNet fun n => { n with reports := Ids.prune n.reports _ }
  · exact sound_quietly fun wf =>
      wf.adjustNet fun n => { n with reports := Ids.push n.reports rfl }

theorem sound_fileHelp (env : Env) (requester message : String) :
    Keeps Sound (fileHelp env requester message) db := by
  refine keeps_bind (sound_edit fun wf => ?_) (keeps_get_bind (keeps_bind ?_ keeps_pure))
  · exact wf.adjustNet fun n => { n with help := Ids.prune n.help _ }
  · exact sound_quietly fun wf =>
      wf.adjustNet fun n => { n with help := Ids.push n.help rfl }

end Db

/-- Every call leaves a well-formed store and has only appended to the log,
whatever is refused. -/
theorem Call.sound {env : Env} {c : Call} {db : Db} (wf : db.Wf) : Keeps Sound (c.run env) db := by
  cases h : c.deviates with
  | false =>
      refine keeps wf (fun _ _ step => step.lockstep.sound) h fun event _ => ?_
      exact Db.sound_quietly fun wf => apply_wf wf event
  | true =>
      have session (times : Table Nat) : Sound db { db with reportTimes := times } :=
        .of_same rfl rfl
      cases c with
      | memoSend account sender text receipt => exact Db.sound_memoSend env account sender text receipt
      | botDel nick => exact Db.sound_botDel nick
      | botDelAll => exact Db.sound_botDelAll env
      | botChange old newNick user host gecos =>
          exact Db.sound_botChange env old newNick user host gecos
      | notifyClear => exact Db.sound_notifyClear
      | reportFile reporter cooldownKey target reason =>
          exact keeps_bind (Db.keeps_unlessThrottled session fun _ _ =>
            Db.sound_fileReport env reporter target reason) keeps_pure
      | helpRequest requester cooldownKey message =>
          exact keeps_bind (Db.keeps_unlessThrottled session fun _ _ =>
            Db.sound_fileHelp env requester message) keeps_pure
      | _ => contradiction

theorem Call.wf {env : Env} {c : Call} {db : Db} (wf : db.Wf) : ((c.run env).run db).2.Wf :=
  (sound wf).1 wf

end Echo
