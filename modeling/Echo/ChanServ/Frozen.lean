import Echo.ChanServ.Dispatch
import Echo.Db.Frames

/-!
A suspended channel under ChanServ. Every command asks for itself whether the channel is
suspended before it writes or acts, but for UP, DOWN and CLONE.
-/

namespace Echo

open Std (ExtTreeMap)
open Echo.Lib

open Dispatcher (NetAction)

/-- Whether an action is a mode change or a kick on the channel of this key. -/
def Dispatcher.NetAction.touches (k : String) : NetAction → Bool
  | .channelMode _ channel _ => key channel == k
  | .kick _ channel _ _ => key channel == k
  | .tagged _ inner => inner.touches k
  | _ => false

namespace ChanServ

/-- Whether an action is a mode change, kick, topic, invite or rename on the channel of this
key. -/
def Action.touches (k : String) : Action → Bool
  | .net action => action.touches k
  | .topic _ channel _ _ => key channel == k
  | .invite _ _ channel => key channel == k
  | .renameChannel _ old new _ => key old == k || key new == k
  | .tagged _ inner => inner.touches k
  | .privmsg .. | .dictLookup .. => false

/-- The channel's record is as it was, and nothing was asked of the network on it. -/
structure Untouched (k : String) (info : ChannelInfo) (x : Ctx) : Prop where
  held : x.engine.db.channels[k]? = some info
  quiet : ∀ a ∈ x.actions, a.touches k = false

/-- A program that leaves the channel untouched. -/
def Spares (k : String) (info : ChannelInfo) (m : Cmd Unit) : Prop :=
  Upholds (Untouched k info) m fun _ => True

variable {c : Call} {k chan : String} {info : ChannelInfo}

theorem Untouched.taken {x : Ctx} (untouched : Untouched k info x) :
    x.engine.db.channels.contains k = true := by
  rw [ExtTreeMap.contains_eq_isSome_getElem?, untouched.held]
  rfl

/-! ### What a command does -/

theorem spares_pure : Spares k info (pure ()) := upholds_pure trivial

theorem spares_push {a : Action} (quiet : a.touches k = false) : Spares k info (push a) := by
  refine upholds_modify fun x untouched => ⟨untouched.held, ?_⟩
  intro b mem
  rcases List.mem_append.mp mem with before | new
  · exact untouched.quiet b before
  · cases List.mem_singleton.mp new
    exact quiet

theorem spares_count (counter : String) : Spares k info (count counter) :=
  upholds_modify fun _ untouched => ⟨untouched.held, untouched.quiet⟩

theorem spares_alert (category text : String) : Spares k info (alert category text) :=
  upholds_modify fun _ untouched => ⟨untouched.held, untouched.quiet⟩

theorem spares_pushTagged {inner : NetAction} (quiet : inner.touches k = false) (target : String)
    (tags : List (String × String)) : Spares k info (pushTagged c inner target tags) := by
  have either (tags : List (String × String)) :
      (if tags.isEmpty then Action.net inner else .tagged tags (.net inner)).touches k = false := by
    split
    · exact quiet
    · exact quiet
  exact spares_push (either _)

theorem spares_notice (text : String) : Spares k info (notice c text) := spares_pushTagged rfl _ _

theorem spares_notices (texts : List String) : Spares k info (notices c texts) :=
  upholds_forM fun text _ => spares_notice text

theorem spares_channelMode (apart : key chan ≠ k) («from» modes : String) :
    Spares k info (channelMode «from» chan modes) :=
  spares_push (beq_eq_false_iff_ne.mpr apart)

theorem spares_kick (apart : key chan ≠ k) («from» uid reason : String) :
    Spares k info (kick «from» chan uid reason) :=
  spares_push (beq_eq_false_iff_ne.mpr apart)

theorem spares_send {action : NetAction} (quiet : action.touches k = false) :
    Spares k info (send c action) := by
  cases action with
  | notice «from» target text => exact spares_pushTagged rfl _ _
  | _ => exact spares_push quiet

/-- One step and then the rest. -/
theorem spares_bind {α : Type} {m : Cmd α} {A : α → Prop} {rest : α → Cmd Unit}
    (first : Upholds (Untouched k info) m A) (then' : ∀ a, A a → Spares k info (rest a)) :
    Spares k info (m >>= rest) :=
  upholds_bind first then'

theorem spares_engine {rest : Engine → Cmd Unit}
    (then' : ∀ e : Engine, e.db.channels[k]? = some info → Spares k info (rest e)) :
    Spares k info (engine >>= rest) :=
  upholds_read fun x untouched => then' x.engine untouched.held

/-! ### Calls of the store -/

theorem upholds_store {ε α : Type} {call : DbM ε α} {A : Except ε α → Prop}
    (leaves : ∀ db : Db, db.channels.contains k = true → Keeps (Db.LeavesChannel k) call.run db)
    (answers : ∀ db : Db, db.channels.contains k = true → A (call.run.run db).1) :
    Upholds (Untouched k info) (store call) A := by
  intro x untouched
  have kept : _ = _ := leaves x.engine.db untouched.taken
  exact ⟨⟨kept.trans untouched.held, untouched.quiet⟩, answers x.engine.db untouched.taken⟩

theorem upholds_stored {ε α : Type} {call : DbM ε α}
    (leaves : ∀ db : Db, Keeps (Db.LeavesChannel k) call.run db) :
    Upholds (Untouched k info) (store call) fun _ => True :=
  upholds_store (fun db _ => leaves db) fun _ _ => trivial

theorem spares_answer {α : Type} {call : DbM ChanError α} {done : α → Cmd Unit}
    (leaves : ∀ db : Db, Keeps (Db.LeavesChannel k) call.run db)
    (told : ∀ a, Spares k info (done a)) : Spares k info (answer c call done) := by
  refine spares_bind (upholds_stored leaves) fun out _ => ?_
  cases out with
  | error err => exact spares_notice _
  | ok a => exact told a

theorem spares_ignore {α : Type} {call : DbM ChanError α}
    (leaves : ∀ db : Db, Keeps (Db.LeavesChannel k) call.run db) : Spares k info (ignore call) :=
  spares_bind (upholds_stored leaves) fun _ _ => spares_pure

theorem spares_notifyOrMemo (target text : String) :
    Spares k info (notifyOrMemo c target chan text) := by
  unfold notifyOrMemo
  refine upholds_ite (fun _ => spares_pure) fun _ => ?_
  cases c.net.uidsLoggedInto target with
  | nil =>
      exact spares_bind (upholds_stored fun _ => Db.leaves_memoSend _ _ _ _ _) fun _ _ => spares_pure
  | cons uid online => exact upholds_forM fun uid _ => spares_pushTagged rfl _ _

/-! ### Guards -/

/-- Whether a suspension of the channel is running. -/
def Call.suspends (c : Call) (info : ChannelInfo) : Bool :=
  info.suspension.any fun s => s.expires.all (· > c.env.now)

theorem spares_withChannel {body : ChannelInfo → Cmd Unit}
    (then' : ∀ other, Spares k info (body other)) : Spares k info (withChannel c chan body) := by
  refine spares_engine fun e _ => ?_
  cases e.db.channel chan with
  | none => exact spares_notice _
  | some other => exact then' other

theorem spares_guarded {guard : Cmd Bool} {body : Cmd Unit}
    (passes : Upholds (Untouched k info) guard fun ok => ok = true → key chan ≠ k)
    (then' : key chan ≠ k → Spares k info body) : Spares k info (guarded guard body) := by
  refine spares_bind passes fun ok apart => ?_
  exact upholds_ite (fun passed => then' (apart passed)) fun _ => spares_pure

theorem upholds_modeSource {rest : String → Cmd Unit} (then' : ∀ src, Spares k info (rest src)) :
    Spares k info (modeSource c chan >>= rest) :=
  upholds_read fun _ _ => then' _

theorem upholds_peaceBlocks (target : String) :
    Upholds (Untouched k info) (peaceBlocks c chan target) fun _ => True := by
  refine upholds_read fun x _ => ?_
  dsimp only
  cases x.engine.db.channel chan with
  | none => exact upholds_pure trivial
  | some other =>
      refine upholds_ite (fun _ => upholds_pure trivial) fun _ => ?_
      refine upholds_ite (fun _ => upholds_pure trivial) fun _ => ?_
      refine upholds_ite (fun _ => ?_) fun _ => upholds_pure trivial
      exact upholds_bind (spares_notice _) fun _ _ => upholds_pure trivial

section Suspended

variable (suspended : c.suspends info = true)
include suspended

/-- The guard lets nothing through to the suspended channel. -/
theorem upholds_suspendedBlock :
    Upholds (Untouched k info) (suspendedBlock c chan) fun blocked =>
      blocked = false → key chan ≠ k := by
  refine upholds_read fun x untouched => upholds_ite (fun _ => ?_) fun running => ?_
  · exact upholds_bind (spares_notice _) fun _ _ => upholds_pure nofun
  · refine upholds_pure fun _ same => running ?_
    unfold Engine.isChannelSuspended
    rw [same, untouched.held]
    exact suspended

/-- A guard on those that ask, whatever it asks of them. -/
theorem upholds_require (passes : ChannelInfo → Prop) [DecidablePred passes] (refusal : String) :
    Upholds (Untouched k info)
      (do
        if ← suspendedBlock c chan then return false
        else
          match (← engine).db.channel chan with
          | none => do
              notice c (notRegistered chan)
              return false
          | some info =>
              if passes info then return true
              else do
                notice c refusal
                return false)
      fun ok => ok = true → key chan ≠ k := by
  refine upholds_bind (upholds_suspendedBlock suspended) fun blocked apart => ?_
  refine upholds_ite (fun _ => upholds_pure nofun) fun free => ?_
  refine upholds_read fun x _ => ?_
  cases x.engine.db.channel chan with
  | none => exact upholds_bind (spares_notice _) fun _ _ => upholds_pure nofun
  | some other =>
      refine upholds_ite (fun _ => upholds_pure fun _ => apart (by simpa using free)) fun _ => ?_
      exact upholds_bind (spares_notice _) fun _ _ => upholds_pure nofun

theorem upholds_requireFounder :
    Upholds (Untouched k info) (requireFounder c chan) fun ok => ok = true → key chan ≠ k :=
  upholds_require suspended (c.from.account = some ·.founder) _

theorem upholds_requireOp :
    Upholds (Untouched k info) (requireOp c chan) fun ok => ok = true → key chan ≠ k :=
  upholds_require suspended (fun info => c.from.account.any fun a => (info.view.capsOf (some a)).op) _

theorem spares_forOps {body : Cmd Unit} (then' : key chan ≠ k → Spares k info body) :
    Spares k info (guarded (requireOp c chan) body) :=
  spares_guarded (upholds_requireOp suspended) then'

theorem spares_forFounder {body : Cmd Unit} (then' : key chan ≠ k → Spares k info body) :
    Spares k info (guarded (requireFounder c chan) body) :=
  spares_guarded (upholds_requireFounder suspended) then'

theorem spares_foundersOnly {what : String} {body : ChannelInfo → Cmd Unit}
    (then' : key chan ≠ k → ∀ other, Spares k info (body other)) :
    Spares k info (foundersOnly c chan what body) := by
  refine spares_withChannel fun other => upholds_ite (fun _ => spares_notice _) fun _ => ?_
  refine spares_bind (upholds_suspendedBlock suspended) fun blocked apart => ?_
  exact upholds_ite (fun _ => spares_pure) fun free => then' (apart (by simpa using free)) other

end Suspended

end ChanServ

end Echo
