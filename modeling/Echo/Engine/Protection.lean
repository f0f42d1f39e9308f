import Echo.Engine.GuestNicks
import Echo.Lib.Since

/-!
Nick protection (`enforce_registered_nick`, `enforce_sweep`, and what disarms it): someone who takes a
registered nick is told to identify, and renamed if nothing has come of it when the time is up.
-/

namespace Echo.GuestNicks

open Echo.Lib Echo.Net

def enforceGrace : Nat := 60

/-- The engine, once the uplink has finished its burst or before. -/
structure Protector extends World where
  synced : Bool := false

/-- What has a part in nick protection. A login is the ircd's word or one of services' own. -/
inductive ProtectAction where
  /-- Someone connects; a lockdown or the session limit may have them killed at once. -/
  | connect (uid nick host ip : String) (refused : Bool)
  | nickChange (uid nick : String)
  | account (uid account : String)
  | quit (uid : String)
  | link
  | endBurst
  | sweep
  /-- Whatever else happens to the store, the clock and the bots. -/
  | other (bots : Table String) (logins : Logins)

namespace Protector

variable (nickService : Option String) (w : Protector)

/-- The account whose nick someone has taken without being logged in to it, if it is protected. -/
def intruded (uid nick : String) : Option String :=
  (w.logins.db.resolveAccount nick).filter fun account =>
    w.net.accounts.lookup uid ≠ some account && w.accountWantsProtect account

def settle (uid : String) : Protector :=
  { w with pendingEnforce := w.pendingEnforce.filter (·.uid ≠ uid) }

/-- Someone is on a nick: with the account whose owner they are warned of, if any. -/
def enforceRegisteredNick (uid nick : String) : Protector × Option String :=
  if !w.synced then (w, none)
  else
    match w.intruded uid nick with
    | none => (w, none)
    | some account =>
      if nickService.isNone then (w, none)
      else
        let pending : PendingEnforce := ⟨uid, nick, w.logins.now + enforceGrace⟩
        let w := w.settle uid
        ({ w with pendingEnforce := w.pendingEnforce ++ [pending] }, some account)

def act : ProtectAction → Protector × List Rename
  | .connect uid nick host ip refused =>
    let w := { w with net := w.net.userConnect uid nick host ip }
    (if refused then w else (w.enforceRegisteredNick nickService uid nick).1, [])
  | .nickChange uid nick =>
    let w := { w with net := w.net.userNickChange uid nick w.logins.now }
    (((w.settle uid).enforceRegisteredNick nickService uid nick).1, [])
  | .account uid account =>
    if account = "" then ({ w with net := w.net.clearAccount uid }, [])
    else ({ w with net := w.net.setAccount uid account }.settle uid, [])
  | .quit uid => ({ w with net := w.net.userQuit uid w.logins.now }.settle uid, [])
  | .link => ({ w with pendingEnforce := [] }, [])
  | .endBurst => ({ w with synced := true }, [])
  | .sweep =>
    let (world, renames) := w.toWorld.enforceSweep
    ({ w with toWorld := world }, renames)
  | .other bots logins => ({ w with bots, logins }, [])

def step (w : Protector) (a : ProtectAction) : Protector := (w.act nickService a).1

/-! ### What arms and disarms -/

variable {nickService w} {p : PendingEnforce} {uid nick : String}

/-- Nobody is to identify twice. -/
def Once (w : Protector) : Prop := (w.pendingEnforce.map (·.uid)).Nodup

theorem Once.less (once : w.Once) {w' : Protector} (less : w'.pendingEnforce.Sublist w.pendingEnforce) :
    w'.Once := once.sublist (less.map _)

theorem Once.enforceRegisteredNick (once : w.Once) :
    (w.enforceRegisteredNick nickService uid nick).1.Once := by
  unfold Protector.enforceRegisteredNick
  split
  · exact once
  · split
    · exact once
    · split
      · exact once
      · have others : (w.settle uid).Once := once.less List.filter_sublist
        have absent : uid ∉ (w.settle uid).pendingEnforce.map (·.uid) := by simp [settle]
        simpa [Once] using others.concat absent

end Protector

end Echo.GuestNicks
