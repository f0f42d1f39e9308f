import Echo.Db.Release
import Echo.Engine.Names

/-!
Who owns a channel. ChanServ writes the founder of a channel from what its user
typed, and compares it as written; when an account goes away, the channels it
founded go to the successors somebody typed. So the channels stay owned exactly
while what was typed was an account, written the way the account is, and the
writes of each release get through.
-/

namespace Echo

open Std (ExtTreeMap)
open Echo.Lib

namespace Engine

variable (u : Unicode)

/-! ### ChanServ -/

/-- Whether new channel registrations are frozen. -/
def channelRegsFrozen (e : Engine) : Bool := decide (e.defcon ≤ 4)

def isChannelSuspended (e : Engine) (env : Env) (chan : String) : Bool :=
  ((e.db.channels[key chan]?).bind (·.suspension)).any fun s => s.expires.all (· > env.now)

/-- The bot that new channels are given, if one is set and still there. -/
def defaultBot (e : Engine) : Option String :=
  (e.db.net.defaultBot).bind fun k => (e.db.bots[k]?).map (·.nick)

def tryAgain : String := "Sorry, that didn't work. Please try again in a moment."

/-- `REGISTER <#channel>`, from a session logged in to `account`. `isOp` is whether
its user is an operator of the channel. -/
def chanservRegister (e : Engine) (env : Env) (account : Option String) (isOp : Bool)
    (args : List String) : Engine × Except String String :=
  match args[1]? with
  | none => (e, .error "Syntax: REGISTER <#channel>")
  | some chan =>
      if chan.toList.head? ≠ some '#' then
        (e, .error ("Channel names start with " ++ bold "#" ++ "."))
      else if e.channelRegsFrozen then
        (e, .error ("Channel registrations are temporarily frozen by network staff. " ++
          "Please try again later."))
      else
        match account with
        | none =>
            (e, .error ("You need to be logged in to register a channel. " ++
              "Identify to NickServ first."))
        | some account =>
            if !isOp then
              (e, .error ("You must be a channel operator (" ++ bold "@" ++ ") in " ++ bold chan ++
                " to register it."))
            else
              match e.policy.isForbidden u .chan chan with
              | some reason => (e, .error (bold chan ++ " can't be registered: " ++ reason))
              | none =>
                  match e.policy.lookalike u chan with
                  | some reason => (e, .error reason)
                  | none =>
                      match e.withDb (Db.registerChannel env chan account) with
                      | (e, .ok ()) =>
                          let registered :=
                            bold chan ++ " is now registered and you are its founder. Enjoy!"
                          match e.defaultBot with
                          | none => (e, .ok registered)
                          | some bot => ((e.withDb (Db.assignBot chan bot)).1, .ok registered)
                      | (e, .error .exists) =>
                          (e, .error (bold chan ++ " is already registered. Try " ++
                            bold ("INFO " ++ chan) ++ " to see who owns it."))
                      | (e, .error _) => (e, .error tryAgain)

/-- What SET asks before it changes anything: the channel, its founder's session and
no suspension. -/
def chanservSettable (e : Engine) (env : Env) (account : Option String) (chan : String) :
    Except String ChannelInfo :=
  match e.db.channels[key chan]? with
  | none => .error (bold chan ++ " isn't registered.")
  | some info =>
      if account ≠ some info.founder then
        .error ("Only " ++ bold chan ++ "'s founder can change its settings.")
      else if e.isChannelSuspended env chan then
        .error (bold chan ++ " is suspended by network staff and can't be managed right now.")
      else .ok info

def setSyntax : String := "Syntax: SET <#channel> FOUNDER <account> | DESC <text>"

/-- `SET <#channel> FOUNDER <account>`. -/
def chanservSetFounder (e : Engine) (env : Env) (account : Option String) (args : List String) :
    Engine × Except String String :=
  match args[1]? with
  | none => (e, .error setSyntax)
  | some chan =>
      match e.chanservSettable env account chan with
      | .error reason => (e, .error reason)
      | .ok _ =>
          match args[3]? with
          | none => (e, .error "Syntax: SET <#channel> FOUNDER <account>")
          | some heir =>
              if !e.db.exists heir then (e, .error (bold heir ++ " isn't a registered account."))
              else
                match e.withDb (Db.setFounder chan heir) with
                | (e, .ok ()) =>
                    (e, .ok ("Founder of " ++ bold chan ++ " transferred to " ++ bold heir ++ "."))
                | (e, .error _) => (e, .error tryAgain)

/-- `SET <#channel> SUCCESSOR <account>|OFF`. -/
def chanservSetSuccessor (e : Engine) (env : Env) (account : Option String) (args : List String) :
    Engine × Except String String :=
  match args[1]? with
  | none => (e, .error setSyntax)
  | some chan =>
      match e.chanservSettable env account chan with
      | .error reason => (e, .error reason)
      | .ok info =>
          match args[3]?.filter (!eqIgnoreAsciiCase · "OFF") with
          | some heir =>
              if !e.db.exists heir then (e, .error (bold heir ++ " isn't a registered account."))
              else if eqIgnoreAsciiCase heir info.founder then
                (e, .error "The successor must be someone other than the founder.")
              else
                match e.withDb (Db.setSuccessor chan (some heir)) with
                | (e, .ok ()) =>
                    (e, .ok ("Successor of " ++ bold chan ++ " set to " ++ bold heir ++
                      ". They inherit it if your account is dropped or expires."))
                | (e, .error _) => (e, .error tryAgain)
          | none =>
              match e.withDb (Db.setSuccessor chan none) with
              | (e, .ok ()) => (e, .ok ("Successor of " ++ bold chan ++ " cleared."))
              | (e, .error _) => (e, .error tryAgain)

/-! ### An account going away -/

def releaseFoundedChannels (e : Engine) (env : Env) (account : String) : Engine :=
  { e with db := ((Db.releaseFoundedChannels env account).run e.db).2 }

/-- `DROP <password>`, from a session logged in to `account`: its channels are
released, then it is dropped. -/
def nickservDrop (e : Engine) (env : Env) (account : Option String) (args : List String)
    (lockout : Option Nat) (verifies : String → String → Bool) : Engine × Except String String :=
  if e.externalAccounts then (e, .error managedElsewhere)
  else
    match account with
    | none => (e, .error "You need to be logged in. Identify to NickServ first.")
    | some account =>
        match args[1]? with
        | none => (e, .error "Syntax: DROP <password>")
        | some password =>
            match lockout with
            | some secs =>
                (e, .error ("Too many failed attempts. Please wait " ++ toString secs ++
                  "s and try again."))
            | none =>
                match e.authenticate (verifies password) account with
                | none => (e, .error "Invalid password.")
                | some _ =>
                    (((e.releaseFoundedChannels env account).withDb (Db.dropAccount account)).1,
                      .ok ("Your account " ++ bold account ++ " has been dropped."))

/-- What follows when an account is gone or has moved: its channels are released if
it is gone. -/
def handleAccountGone (e : Engine) (env : Env) (account : String) (releaseChannels : Bool) :
    Engine :=
  if releaseChannels then e.releaseFoundedChannels env account else e

def authorityDrop (e : Engine) (env : Env) (account : String) : Engine × AuthorityStatus :=
  match e.withDb (Db.dropAccount account) with
  | (e, .ok true) => (e.handleAccountGone env account true, .ok)
  | (e, .ok false) => (e, .notFound)
  | (e, .error _) => (e, .internal)

/-- One account of the expiry sweep. Operators and accounts in use are exempt. -/
def expireAccount (e : Engine) (env : Env) (account : String) (exempt : Bool) : Engine :=
  if exempt then e
  else
    match e.withDb (Db.dropAccount account) with
    | (e, .ok true) => e.handleAccountGone env account true
    | (e, _) => e

/-- Take in a peer's entry, and clean up after an account it took away. -/
def gossipIngest (e : Engine) (env : Env) (entry : LogEntry) : Engine :=
  match e.withDb (Db.ingest env entry) with
  | (e, .ok (some (.takenOver account))) => e.handleAccountGone env account false
  | (e, .ok (some (.dropped account))) => e.handleAccountGone env account true
  | (e, _) => e

end Engine

namespace Db

theorem owned_registering {db : Db} (sound : db.Sound) (h : db.toStore.Owned)
    {actions : List Action} (registering : ∀ a ∈ actions, a.registering = true) :
    (after Db.step db actions).toStore.Owned := by
  induction actions generalizing db with
  | nil => exact h
  | cons a actions ih =>
      have outside : a.owning = false := by
        have calls := registering a List.mem_cons_self
        cases a with
        | call env c => cases c <;> first | rfl | contradiction
        | _ => contradiction
      refine ih (sound.step a) (Db.owned_step outside sound.wf sound.tracked h) ?_
      exact fun b mem => registering b (List.mem_cons_of_mem a mem)

end Db

/-! ### Steps -/

/-- Whether a step of the store is a write of an owner, or an entry, that only the
engine's own commands make. -/
def EngineStep.owning : EngineStep → Bool
  | .session (.store a) _ => a.owning
  | _ => false

/-- One thing that happens to the channels and the accounts that own them. -/
inductive OwnerStep where
  | engine (step : EngineStep) (outside : step.owning = false)
  | chanservRegister (env : Env) (account : Option String) (isOp : Bool) (args : List String)
  | chanservSetFounder (env : Env) (account : Option String) (args : List String)
  | chanservSetSuccessor (env : Env) (account : Option String) (args : List String)
  | nickservDrop (env : Env) (account : Option String) (args : List String) (lockout : Option Nat)
      (verifies : String → String → Bool)
  | authorityDrop (env : Env) (account : String)
  | expireAccount (env : Env) (account : String) (exempt : Bool)
  | gossipIngest (env : Env) (entry : LogEntry)

namespace Engine

variable (u : Unicode)

def ownerStep (e : Engine) : OwnerStep → Engine
  | .engine step _ => e.step u step
  | .chanservRegister env account isOp args => (e.chanservRegister u env account isOp args).1
  | .chanservSetFounder env account args => (e.chanservSetFounder env account args).1
  | .chanservSetSuccessor env account args => (e.chanservSetSuccessor env account args).1
  | .nickservDrop env account args lockout verifies =>
      (e.nickservDrop env account args lockout verifies).1
  | .authorityDrop env account => (e.authorityDrop env account).1
  | .expireAccount env account exempt => e.expireAccount env account exempt
  | .gossipIngest env entry => e.gossipIngest env entry

/-! ### What keeps the channels owned -/

/-- Whether REGISTER gets to register a channel. -/
def registers (e : Engine) (isOp : Bool) (chan : String) : Bool :=
  chan.toList.head? == some '#' && !e.channelRegsFrozen && isOp &&
    (e.policy.isForbidden u .chan chan).isNone && (e.policy.lookalike u chan).isNone &&
    !e.db.channels.contains (key chan)

/-- Whether a step leaves the channels owned: the founder it gets to write is an
account, written as the account is; every channel of an account it drops goes to an
heir that is, or to nobody; and an account that a peer's takes the place of is
written alike. -/
def KeepsOwned (e : Engine) : OwnerStep → Prop
  | .engine .. | .chanservSetSuccessor .. => True
  | .chanservRegister _ account isOp args =>
      ∀ chan ∈ args[1]?, ∀ founder ∈ account, e.registers u isOp chan = true →
        e.db.log.writable = true → e.db.toStore.Canonical founder
  | .chanservSetFounder env account args =>
      ∀ chan ∈ args[1]?, ∀ founder ∈ args[3]?,
        (e.chanservSettable env account chan).isOk = true → e.db.exists founder = true →
          e.db.log.writable = true → e.db.toStore.Canonical founder
  | .nickservDrop env account args lockout verifies =>
      ∀ name ∈ account, ∀ password ∈ args[1]?, e.externalAccounts = false → lockout = none →
        (e.authenticate (verifies password) name).isSome = true → e.db.ReleasesFirst env name
  | .authorityDrop env account =>
      e.db.accounts.contains (key account) = true → e.db.log.writable = true →
        e.db.ReleasesGone env account
  | .expireAccount env account exempt =>
      exempt = false → e.db.accounts.contains (key account) = true → e.db.log.writable = true →
        e.db.ReleasesGone env account
  | .gossipIngest env entry =>
      e.db.adopts entry = true →
        match entry.event with
        | .accountDropped account =>
            e.db.accounts.contains (key account) = true → e.db.ReleasesGone env account
        | event => e.db.toStore.KeepsOwned event

variable {u} {e : Engine}

/-- The bot a new channel is given changes nothing of who owns it. -/
theorem owned_registered (env : Env) (chan account : String) :
    (match e.withDb (Db.registerChannel env chan account) with
      | (e, .ok ()) =>
          match e.defaultBot with
          | none => (e, Except.ok (bold chan ++ " is now registered and you are its founder. Enjoy!"))
          | some bot => ((e.withDb (Db.assignBot chan bot)).1,
              .ok (bold chan ++ " is now registered and you are its founder. Enjoy!"))
      | (e, .error .exists) =>
          (e, .error (bold chan ++ " is already registered. Try " ++
            bold ("INFO " ++ chan) ++ " to see who owns it."))
      | (e, .error _) => (e, .error tryAgain)).1.db.toStore.Owned ↔
      ((Db.registerChannel env chan account).run.run e.db).2.toStore.Owned := by
  unfold withDb
  rcases (Db.registerChannel env chan account).run.run e.db with ⟨err | ⟨⟩, db⟩
  · cases err <;> exact Iff.rfl
  · dsimp only
    split
    · exact Iff.rfl
    · exact Db.owned_writeChannel _ _ fun _ => rfl

theorem owned_chanservRegister (h : e.db.toStore.Owned) (env : Env) (account : Option String)
    (isOp : Bool) (args : List String) :
    (e.chanservRegister u env account isOp args).1.db.toStore.Owned ↔
      e.KeepsOwned u (.chanservRegister env account isOp args) := by
  unfold chanservRegister
  simp only [KeepsOwned]
  cases args[1]? with
  | none => exact iff_of_true h (by simp)
  | some chan =>
      have refused (no : e.registers u isOp chan = false) :
          ∀ chan' ∈ some chan, ∀ founder ∈ account, e.registers u isOp chan' = true →
            e.db.log.writable = true → e.db.toStore.Canonical founder := by
        intro chan' named founder _ yes
        cases named
        rw [no] at yes
        contradiction
      dsimp only
      by_cases hash : chan.toList.head? = some '#'
      · rw [if_neg (not_not.mpr hash)]
        cases frozen : e.channelRegsFrozen with
        | true => exact iff_of_true h (refused (by simp [registers, frozen]))
        | false =>
            rw [if_neg Bool.false_ne_true]
            cases account with
            | none => exact iff_of_true h (by simp)
            | some account =>
                dsimp only
                cases isOp with
                | false => exact iff_of_true h (refused (by simp [registers]))
                | true =>
                    rw [if_neg (by simp)]
                    cases forbidden : e.policy.isForbidden u .chan chan with
                    | some reason => exact iff_of_true h (refused (by simp [registers, forbidden]))
                    | none =>
                        cases lookalike : e.policy.lookalike u chan with
                        | some reason =>
                            exact iff_of_true h (refused (by simp [registers, lookalike]))
                        | none =>
                            have passes : e.registers u true chan =
                                !e.db.channels.contains (key chan) := by
                              simp [registers, hash, frozen, forbidden, lookalike]
                            refine (owned_registered env chan account).trans ?_
                            rw [Db.owned_registerChannel env chan account h]
                            simp [passes]
      · rw [if_pos hash]
        exact iff_of_true h (refused (by simp [registers, hash]))

theorem chanservSettable_ok {env : Env} {account : Option String} {chan : String} {info : ChannelInfo}
    (passed : e.chanservSettable env account chan = .ok info) :
    e.db.channels[key chan]? = some info := by
  unfold chanservSettable at passed
  split at passed
  · contradiction
  · rename_i held
    split at passed
    · contradiction
    split at passed
    · contradiction
    · cases passed
      exact held

theorem owned_chanservSetFounder (h : e.db.toStore.Owned) (env : Env) (account : Option String)
    (args : List String) :
    (e.chanservSetFounder env account args).1.db.toStore.Owned ↔
      e.KeepsOwned u (.chanservSetFounder env account args) := by
  unfold chanservSetFounder
  simp only [KeepsOwned]
  cases args[1]? with
  | none => exact iff_of_true h (by simp)
  | some chan =>
      dsimp only
      cases settable : e.chanservSettable env account chan with
      | error reason =>
          refine iff_of_true h ?_
          intro chan' named founder _ passes
          cases named
          rw [settable] at passes
          contradiction
      | ok info =>
          dsimp only
          cases args[3]? with
          | none => exact iff_of_true h (by simp)
          | some heir =>
              dsimp only
              by_cases resolves : e.db.exists heir = true
              · rw [if_neg (by simp [resolves])]
                have written := Db.owned_setFounder (chanservSettable_ok settable) heir h
                unfold withDb
                generalize (Db.setFounder chan heir).run.run e.db = result at written ⊢
                rcases result with ⟨err | ⟨⟩, db⟩ <;>
                  simpa [settable, resolves, Except.isOk, Except.toBool] using written
              · rw [if_pos (by simpa using resolves)]
                refine iff_of_true h ?_
                intro chan' _ founder named _ passes
                cases named
                exact absurd passes resolves

theorem owned_chanservSetSuccessor (h : e.db.toStore.Owned) (env : Env) (account : Option String)
    (args : List String) : (e.chanservSetSuccessor env account args).1.db.toStore.Owned := by
  have cleared (chan : String) (successor : Option String) :
      ((Db.setSuccessor chan successor).run.run e.db).2.toStore.Owned :=
    (Db.owned_writeChannel (.channelSuccessorSet chan successor) ({ · with successor })
      fun _ => rfl).mpr h
  unfold chanservSetSuccessor
  split
  · exact h
  rename_i chan _
  split
  · exact h
  split
  · rename_i heir _
    split
    · exact h
    split
    · exact h
    · have kept := cleared chan (some heir)
      unfold withDb
      generalize (Db.setSuccessor chan (some heir)).run.run e.db = result at kept ⊢
      rcases result with ⟨err | ⟨⟩, db⟩ <;> exact kept
  · have kept := cleared chan none
    unfold withDb
    generalize (Db.setSuccessor chan none).run.run e.db = result at kept ⊢
    rcases result with ⟨err | ⟨⟩, db⟩ <;> exact kept

theorem owned_nickservDrop (wf : e.db.Wf) (h : e.db.toStore.Owned) (env : Env)
    (account : Option String) (args : List String) (lockout : Option Nat)
    (verifies : String → String → Bool) :
    (e.nickservDrop env account args lockout verifies).1.db.toStore.Owned ↔
      e.KeepsOwned u (.nickservDrop env account args lockout verifies) := by
  unfold nickservDrop
  simp only [KeepsOwned]
  cases external : e.externalAccounts with
  | true => exact iff_of_true h (by simp)
  | false =>
      rw [if_neg Bool.false_ne_true]
      cases account with
      | none => exact iff_of_true h (by simp)
      | some account =>
          cases args[1]? with
          | none => exact iff_of_true h (by simp)
          | some password =>
              cases lockout with
              | some secs => exact iff_of_true h (by simp)
              | none =>
                  dsimp only
                  cases authentic : e.authenticate (verifies password) account with
                  | none => exact iff_of_true h (by simp [authentic])
                  | some canonical =>
                      refine (Db.owned_release_drop env account wf h).trans ?_
                      simp [authentic]

/-- What the drop of an account and the release after it leave. -/
theorem owned_drop_release (wf : e.db.Wf) (h : e.db.toStore.Owned) (env : Env) (account : String) :
    (match e.withDb (Db.dropAccount account) with
      | (e, .ok true) => e.handleAccountGone env account true
      | (e, _) => e).db.toStore.Owned ↔
      (e.db.accounts.contains (key account) = true → e.db.log.writable = true →
        e.db.ReleasesGone env account) := by
  obtain ⟨answer, db', ran, outcome⟩ := Db.run_dropAccount account e.db
  unfold withDb
  rw [ran]
  rw [EventLog.takes_zero] at outcome
  split at outcome
  · rename_i dropped
    rw [Bool.and_eq_true] at dropped
    obtain ⟨rfl, store, takes⟩ := outcome
    refine (Db.owned_release_gone env wf h store takes).trans ?_
    simp [dropped.1, dropped.2]
  · rename_i kept
    have same : (match ({ e with db := db' }, answer) with
        | (e, .ok true) => e.handleAccountGone env account true
        | (e, _) => e).db.toStore = e.db.toStore := by
      rcases answer with err | _ | _
      · exact outcome.2
      · exact outcome.2
      · exact absurd rfl outcome.1
    rw [same]
    refine iff_of_true h fun there writable => ?_
    rw [there, writable] at kept
    exact absurd rfl kept

theorem authorityDrop_eq (env : Env) (account : String) :
    (e.authorityDrop env account).1 =
      match e.withDb (Db.dropAccount account) with
      | (e, .ok true) => e.handleAccountGone env account true
      | (e, _) => e := by
  unfold authorityDrop
  rcases e.withDb (Db.dropAccount account) with ⟨e', err | _ | _⟩ <;> rfl

theorem owned_authorityDrop (wf : e.db.Wf) (h : e.db.toStore.Owned) (env : Env) (account : String) :
    (e.authorityDrop env account).1.db.toStore.Owned ↔
      e.KeepsOwned u (.authorityDrop env account) := by
  rw [authorityDrop_eq]
  exact owned_drop_release wf h env account

theorem owned_expireAccount (wf : e.db.Wf) (h : e.db.toStore.Owned) (env : Env) (account : String)
    (exempt : Bool) :
    (e.expireAccount env account exempt).db.toStore.Owned ↔
      e.KeepsOwned u (.expireAccount env account exempt) := by
  unfold expireAccount
  cases exempt with
  | true => exact iff_of_true h (fun inUse => by contradiction)
  | false =>
      rw [if_neg Bool.false_ne_true]
      refine (owned_drop_release wf h env account).trans ?_
      exact ⟨fun ok _ => ok, fun ok => ok rfl⟩

/-- An entry that is taken in uses up one write. -/
theorem takes_adopted {env : Env} {entry : LogEntry} {db : Db} (adopted : db.adopts entry = true)
    (i : Nat) : (db.step (.ingest env entry)).log.takes i = db.log.takes (i + 1) := by
  unfold Db.adopts at adopted
  rw [Bool.and_eq_true, Bool.not_eq_true'] at adopted
  have came := EventLog.ingest_eq db.log entry
  rw [adopted.1, adopted.2, if_pos rfl, if_neg Bool.false_ne_true] at came
  rw [Db.step_ingest, came]
  change (!db.log.readonly && !db.log.faults.tail.getD i false) = _
  unfold EventLog.takes
  cases db.log.faults <;> simp

/-- Where no account goes, the entry decides as it is folded. -/
theorem owned_ingested (h : e.db.toStore.Owned) (env : Env) (entry : LogEntry)
    (stays : ∀ account, ¬ (e.db.adopts entry = true ∧ entry.event = .accountDropped account ∧
      e.db.accounts.contains (key account) = true)) :
    (e.db.step (.ingest env entry)).toStore.Owned ↔ e.KeepsOwned u (.gossipIngest env entry) := by
  rw [Db.step_ingest_adopts]
  simp only [KeepsOwned]
  cases adopted : e.db.adopts entry with
  | false => exact iff_of_true h (fun taken => by contradiction)
  | true =>
      rw [if_pos rfl, h.apply_iff]
      refine Iff.trans ?_ (forall_prop_of_true rfl).symm
      cases event : entry.event with
      | accountDropped account =>
          have gone : e.db.accounts.contains (key account) = false := by
            by_contra there
            exact stays account ⟨adopted, event, Bool.not_eq_false _ ▸ there⟩
          refine iff_of_true ?_ (fun there => ?_)
          · intro k c held same
            have there := h.founded held
            rw [same, gone] at there
            contradiction
          · rw [gone] at there
            contradiction
      | _ => exact Iff.rfl

theorem owned_gossipIngest (wf : e.db.Wf) (h : e.db.toStore.Owned) (env : Env) (entry : LogEntry) :
    (e.gossipIngest env entry).db.toStore.Owned ↔ e.KeepsOwned u (.gossipIngest env entry) := by
  obtain ⟨answer, ran, told⟩ := Db.run_ingest env entry e.db
  by_cases drops : ∃ account, e.db.adopts entry = true ∧ entry.event = .accountDropped account ∧
      e.db.accounts.contains (key account) = true
  · obtain ⟨account, adopted, event, there⟩ := drops
    have answered := (told account).mpr ⟨adopted, event, there⟩
    have released : (e.gossipIngest env entry).db =
        ((Db.releaseFoundedChannels env account).run (e.db.step (.ingest env entry))).2 := by
      unfold gossipIngest withDb
      rw [ran, answered]
      rfl
    have store : (e.db.step (.ingest env entry)).toStore =
        apply e.db.toStore (.accountDropped account) := by
      rw [Db.step_ingest_adopts, if_pos adopted, event]
    rw [released]
    refine (Db.owned_release_gone env wf h store (takes_adopted adopted)).trans ?_
    simp only [KeepsOwned, event]
    simp [adopted, there]
  · have stays : (e.gossipIngest env entry).db = e.db.step (.ingest env entry) := by
      unfold gossipIngest withDb
      rw [ran]
      rcases answer with err | _ | effect
      · rfl
      · rfl
      · cases effect with
        | dropped account => exact absurd ⟨account, (told account).mp rfl⟩ drops
        | _ => rfl
    rw [stays]
    exact owned_ingested h env entry (not_exists.mp drops)

/-! ### One step -/

theorem sound_chanservRegister (sound : e.db.Sound) (env : Env) (account : Option String)
    (isOp : Bool) (args : List String) :
    (e.chanservRegister u env account isOp args).1.db.Sound := by
  unfold chanservRegister
  split
  · exact sound
  rename_i chan _
  split
  · exact sound
  split
  · exact sound
  split
  · exact sound
  rename_i account
  split
  · exact sound
  split
  · exact sound
  split
  · exact sound
  have registered : ((Db.registerChannel env chan account).run.run e.db).2.Sound :=
    sound.step (.call env (.registerChannel chan account))
  unfold withDb
  generalize (Db.registerChannel env chan account).run.run e.db = result at registered ⊢
  rcases result with ⟨err | ⟨⟩, db⟩
  · cases err <;> exact registered
  · dsimp only
    split
    · exact registered
    · rename_i bot _
      exact Db.Sound.step registered (.call env (.assignBot chan bot))

theorem sound_chanservSetFounder (sound : e.db.Sound) (env : Env) (account : Option String)
    (args : List String) : (e.chanservSetFounder env account args).1.db.Sound := by
  unfold chanservSetFounder
  split
  · exact sound
  rename_i chan _
  split
  · exact sound
  split
  · exact sound
  rename_i heir _
  split
  · exact sound
  have written : ((Db.setFounder chan heir).run.run e.db).2.Sound :=
    sound.step (.call env (.setFounder chan heir))
  unfold withDb
  generalize (Db.setFounder chan heir).run.run e.db = result at written ⊢
  rcases result with ⟨err | ⟨⟩, db⟩ <;> exact written

theorem sound_chanservSetSuccessor (sound : e.db.Sound) (env : Env) (account : Option String)
    (args : List String) : (e.chanservSetSuccessor env account args).1.db.Sound := by
  have written (chan : String) (successor : Option String) :
      ((Db.setSuccessor chan successor).run.run e.db).2.Sound :=
    sound.step (.call env (.setSuccessor chan successor))
  unfold chanservSetSuccessor
  split
  · exact sound
  rename_i chan _
  split
  · exact sound
  split
  · rename_i heir _
    split
    · exact sound
    split
    · exact sound
    · have kept := written chan (some heir)
      unfold withDb
      generalize (Db.setSuccessor chan (some heir)).run.run e.db = result at kept ⊢
      rcases result with ⟨err | ⟨⟩, db⟩ <;> exact kept
  · have kept := written chan none
    unfold withDb
    generalize (Db.setSuccessor chan none).run.run e.db = result at kept ⊢
    rcases result with ⟨err | ⟨⟩, db⟩ <;> exact kept

theorem sound_handleAccountGone (sound : e.db.Sound) (env : Env) (account : String)
    (releaseChannels : Bool) : (e.handleAccountGone env account releaseChannels).db.Sound := by
  unfold handleAccountGone
  split
  · exact sound.step (.call env (.releaseFoundedChannels account))
  · exact sound

theorem sound_drop_release (sound : e.db.Sound) (env : Env) (account : String) :
    (match e.withDb (Db.dropAccount account) with
      | (e, .ok true) => e.handleAccountGone env account true
      | (e, _) => e).db.Sound := by
  have dropped : (e.withDb (Db.dropAccount account)).1.db.Sound :=
    sound.step (.call env (.dropAccount account))
  split
  · rename_i ran
    rw [ran] at dropped
    exact sound_handleAccountGone dropped env account true
  · rename_i ran
    rw [ran] at dropped
    exact dropped

theorem sound_gossipIngest (sound : e.db.Sound) (env : Env) (entry : LogEntry) :
    (e.gossipIngest env entry).db.Sound := by
  have ingested : (e.withDb (Db.ingest env entry)).1.db.Sound := sound.step (.ingest env entry)
  unfold gossipIngest
  split <;> rename_i ran <;> rw [ran] at ingested
  · exact sound_handleAccountGone ingested env _ false
  · exact sound_handleAccountGone ingested env _ true
  · exact ingested

theorem sound_ownerStep (sound : e.db.Sound) (step : OwnerStep) : (e.ownerStep u step).db.Sound := by
  cases step with
  | engine step outside => exact sound_step sound step
  | chanservRegister env account isOp args =>
      exact sound_chanservRegister sound env account isOp args
  | chanservSetFounder env account args => exact sound_chanservSetFounder sound env account args
  | chanservSetSuccessor env account args =>
      exact sound_chanservSetSuccessor sound env account args
  | nickservDrop env account args lockout verifies =>
      simp only [ownerStep]
      unfold nickservDrop
      split
      · exact sound
      split
      · exact sound
      rename_i account
      split
      · exact sound
      split
      · exact sound
      split
      · exact sound
      have released : (e.releaseFoundedChannels env account).db.Sound :=
        sound.step (.call env (.releaseFoundedChannels account))
      exact released.step (.call env (.dropAccount account))
  | authorityDrop env account =>
      simp only [ownerStep]
      rw [authorityDrop_eq]
      exact sound_drop_release sound env account
  | expireAccount env account exempt =>
      simp only [ownerStep]
      unfold expireAccount
      split
      · exact sound
      · exact sound_drop_release sound env account
  | gossipIngest env entry => exact sound_gossipIngest sound env entry

theorem owned_engineStep (sound : e.db.Sound) (h : e.db.toStore.Owned) {step : EngineStep}
    (outside : step.owning = false) : (e.step u step).db.toStore.Owned := by
  cases step_store (u := u) (e := e) step with
  | own a commanded same ran diverts =>
      subst same
      rw [ran]
      exact Db.owned_step outside sound.wf sound.tracked h
  | group nick account ran diverts =>
      rw [ran]
      exact Db.owned_step rfl sound.wf sound.tracked h
  | register calls quiet =>
      obtain ⟨actions, registering, ran⟩ := calls
      rw [ran]
      exact Db.owned_registering sound h registering

/-- A step leaves the channels owned exactly when it keeps them so. -/
theorem owned_ownerStep (sound : e.db.Sound) (h : e.db.toStore.Owned) (step : OwnerStep) :
    (e.ownerStep u step).db.toStore.Owned ↔ e.KeepsOwned u step := by
  cases step with
  | engine step outside => exact iff_of_true (owned_engineStep sound h outside) trivial
  | chanservRegister env account isOp args => exact owned_chanservRegister h env account isOp args
  | chanservSetFounder env account args => exact owned_chanservSetFounder h env account args
  | chanservSetSuccessor env account args =>
      exact iff_of_true (owned_chanservSetSuccessor h env account args) trivial
  | nickservDrop env account args lockout verifies =>
      exact owned_nickservDrop sound.wf h env account args lockout verifies
  | authorityDrop env account => exact owned_authorityDrop sound.wf h env account
  | expireAccount env account exempt => exact owned_expireAccount sound.wf h env account exempt
  | gossipIngest env entry => exact owned_gossipIngest sound.wf h env entry

/-! ### Runs -/

/-- In every state of a run from a fresh start the founder of each channel is an
account, written as the account is, exactly when every step of the run keeps it so. -/
theorem channels_owned_iff (u : Unicode) (origin : String) (steps : List OwnerStep) :
    Along (Engine.ownerStep u) (fun e step => e.KeepsOwned u step) (fresh origin) steps ↔
      ∀ before, before <+: steps →
        (after (Engine.ownerStep u) (fresh origin) before).db.toStore.Owned := by
  refine along_iff_throughout (I := fun e : Engine => e.db.toStore.Owned)
    (J := fun e : Engine => e.db.Sound) (fun _ step sound => sound_ownerStep sound step) ?_ ?_ ?_
  · intro e step sound owned
    exact owned_ownerStep sound owned step
  · exact ⟨Db.wf_open origin [], Db.tracked_open origin []⟩
  · intro k c held
    change (({} : Table ChannelInfo)[k]?) = some c at held
    simp at held

/-- Alice registers a channel and hands it to bob, whose name she types in capitals. -/
def handedToBob : List OwnerStep :=
  [.engine (.authorityProvision .still (fun _ => true) "alice" "a" "" none) rfl,
    .engine (.authorityProvision .still (fun _ => true) "bob" "b" "" none) rfl,
    .chanservRegister .still (some "alice") true ["REGISTER", "#chan"],
    .chanservSetFounder .still (some "alice") ["SET", "#chan", "FOUNDER", "BOB"]]

theorem not_owned_of_respelled {s : Store} {k founder other : String}
    (founded : (s.channels[k]?).map (·.founder) = some founder)
    (spelled : s.spelling founder = some other) (differs : other ≠ founder) : ¬ s.Owned := by
  intro owned
  obtain ⟨c, held, named⟩ := Option.map_eq_some_iff.mp founded
  have canonical : s.spelling c.founder = some c.founder := owned k c held
  rw [named, spelled] at canonical
  exact differs (Option.some_inj.mp canonical)

/-- The channel is not bob's to manage. -/
theorem channel_unowned :
    let e := after (Engine.ownerStep ascii) (fresh "a") handedToBob
    (e.db.channels["#chan"]?).map (·.founder) = some "BOB" ∧
      e.db.accounts.contains "bob" = true ∧
      (e.chanservSettable .still (some "bob") "#chan").isOk = false ∧
      ¬ e.db.toStore.Owned := by
  dsimp only
  have founded : ((after (Engine.ownerStep ascii) (fresh "a") handedToBob).db.channels["#chan"]?).map
      (·.founder) = some "BOB" := by
    decide +kernel
  refine ⟨founded, by decide +kernel, by decide +kernel, ?_⟩
  exact not_owned_of_respelled founded
    (by decide +kernel : _ = some "bob") (by decide)

end Engine

end Echo
