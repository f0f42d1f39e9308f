import Echo.Db.Run

/-!
The records that a call leaves: those its event makes of them where the file takes the
event, and else those there were.
-/

namespace Echo.Db

open Echo.Lib

variable {ε : Type} {db : Db} {event : Event}

theorem toStore_logged {onError : IoError → ε} {write : Store → Store} :
    ((logged event onError write).run.run db).2.toStore =
      if db.log.writable then write db.toStore else db.toStore := by
  rw [run_logged, EventLog.append_eq]
  by_cases written : db.log.writable = true
  · rw [if_pos written, if_pos written]
  · rw [if_neg written, if_neg written]
    cases db.log.readonly <;> rfl

theorem toStore_writeAccount {account : String} {write : Account → Account} :
    ((writeAccount account event write).run.run db).2.toStore =
      if (db.accounts.contains (key account) && db.log.writable) = true then
        db.toStore.adjustAccount account write
      else db.toStore := by
  change ((ExceptT.run (if db.accounts.contains (key account) then _ else _ : DbM RegError Unit)).run
    db).2.toStore = _
  cases db.accounts.contains (key account) with
  | false => rfl
  | true => exact toStore_logged

theorem toStore_writeChannel {channel : String} {write : ChannelInfo → ChannelInfo} :
    ((writeChannel channel event write).run.run db).2.toStore =
      if (db.channels.contains (key channel) && db.log.writable) = true then
        db.toStore.adjustChannel channel write
      else db.toStore := by
  change ((ExceptT.run (if db.channels.contains (key channel) then _ else _ : DbM ChanError Unit)).run
    db).2.toStore = _
  cases db.channels.contains (key channel) with
  | false => rfl
  | true => exact toStore_logged

theorem toStore_lineAdd {live : NetData → Bool} {write : NetData → NetData} :
    ((lineAdd live event write).run.run db).2.toStore =
      if db.log.writable then db.toStore.adjustNet write else db.toStore := by
  have logs : ((logged event (fun _ => RegError.internal) (·.adjustNet write)).run.run db).2.toStore = _ :=
    toStore_logged
  rw [← logs]
  unfold lineAdd
  rw [ExceptT.run_bind, StateT.run_bind]
  change ((ExceptT.run (_ >>= _ : DbM RegError Bool)).run db).2.toStore = _
  rw [run_bindE]
  rcases (logged event (fun _ => RegError.internal) (·.adjustNet write)).run.run db with ⟨_ | _, t⟩ <;>
    rfl

end Echo.Db
