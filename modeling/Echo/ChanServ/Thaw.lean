import Echo.ChanServ.Spared

/-!
Which commands get through to a suspended channel: of those of a user who is no operator,
UP, DOWN and CLONE alone, and each of them whenever it would be acted on for any other
channel.
-/

namespace Echo.ChanServ

open Std (ExtTreeMap)
open Echo.Lib

open Dispatcher (NetAction)

/-- A command that gets through to the channel of this key: UP or DOWN by a member who is
logged in, if UP has a mode to give, or CLONE into it from a channel of the same founder. -/
inductive Thaws (c : Call) (e : Engine) (k : String) (info : ChannelInfo) (args : List String) : Prop
  | status (up : Bool) (chan account : String)
      (verb : args[0]?.map toAsciiUppercase = some (if up then "UP" else "DOWN"))
      (named : args[1]? = some chan) (same : key chan = k) (loggedIn : c.from.account = some account)
      (present : (c.net.channelMembers chan).contains c.from.uid = true)
      (entitled : up = true → (info.view.joinMode account).isSome = true)
  | clone (src dest : String) (sinfo : ChannelInfo)
      (verb : args[0]?.map toAsciiUppercase = some "CLONE")
      (source : args[1]? = some src) (target : args[2]? = some dest) (same : key dest = k)
      (held : e.db.channel src = some sinfo) (founder : c.from.account = some sinfo.founder)
      (owner : c.from.account = some info.founder)

variable {c : Call} {k chan : String} {info : ChannelInfo} {args : List String} {x : Ctx}

/-! ### What does not get through -/

theorem Untouched.channel (untouched : Untouched k info x) (same : key chan = k) :
    x.engine.db.channel chan = some info := by
  unfold Db.channel
  rw [same]
  exact untouched.held

theorem spares_updown_apart (apart : ∀ chan ∈ args[1]?, key chan ≠ k) (up : Bool) :
    Spares k info (handleUpdown c up args) := by
  unfold handleUpdown
  cases named : args[1]? with
  | none => exact spares_notice _
  | some chan =>
      have other := apart chan named
      cases c.from.account with
      | none => exact spares_notice _
      | some account =>
          refine spares_withChannel fun info' => upholds_ite (fun _ => spares_notice _) fun _ => ?_
          refine upholds_modeSource fun src => upholds_ite (fun _ => ?_) fun _ => ?_
          · cases info'.view.joinMode account with
            | none => exact spares_notice _
            | some mode =>
                exact spares_bind (spares_channelMode other src _) fun _ _ => spares_notice _
          · exact spares_bind (spares_channelMode other src _) fun _ _ => spares_notice _

/-- What UP and DOWN come down to for a member who is logged in. -/
theorem run_updown {up : Bool} {account : String} (named : args[1]? = some chan)
    (loggedIn : c.from.account = some account) (held : x.engine.db.channel chan = some info)
    (present : (c.net.channelMembers chan).contains c.from.uid = true) :
    (handleUpdown c up args).run x =
      (let src := (scene c x.engine).modeSource c.me chan
        if up then
          match info.view.joinMode account with
          | some mode => do
              channelMode src chan (statusMode mode c.from.uid)
              notice c ("Your status in " ++ Engine.bold chan ++ " has been applied.")
          | none => notice c ("You have no status access in " ++ Engine.bold chan ++ ".")
        else do
          channelMode src chan (statusMode "-qaohv" c.from.uid)
          notice c ("Your status in " ++ Engine.bold chan ++ " has been removed.")).run x := by
  unfold handleUpdown
  rw [named, loggedIn]
  dsimp only
  rw [run_withChannel held, if_neg (by simpa using present)]
  rfl

theorem untouched_updown (untouched : Untouched k info x) {up : Bool}
    (verb : args[0]?.map toAsciiUppercase = some (if up then "UP" else "DOWN"))
    (no : ¬ Thaws c x.engine k info args) : Untouched k info ((handleUpdown c up args).run x).2 := by
  by_cases aimed : ∃ chan, args[1]? = some chan ∧ key chan = k
  · obtain ⟨chan, named, same⟩ := aimed
    have held := untouched.channel same
    cases loggedIn : c.from.account with
    | none =>
        unfold handleUpdown
        rw [named, loggedIn]
        exact (spares_notice _ x untouched).1
    | some account =>
        by_cases present : (c.net.channelMembers chan).contains c.from.uid = true
        · have unentitled : up = true ∧ info.view.joinMode account = none := by
            by_contra entitled
            refine no (.status up chan account verb named same loggedIn present fun isUp => ?_)
            rw [Option.isSome_iff_ne_none]
            exact fun none => entitled ⟨isUp, none⟩
          obtain ⟨rfl, none⟩ := unentitled
          rw [run_updown named loggedIn held present, none]
          exact (spares_notice _ x untouched).1
        · unfold handleUpdown
          rw [named, loggedIn]
          dsimp only
          rw [run_withChannel held, if_pos (by simpa using present)]
          exact (spares_notice _ x untouched).1
  · exact (spares_updown_apart (fun chan named same => aimed ⟨chan, named, same⟩) up x untouched).1

theorem spares_copySettings {dest : String} (apart : key dest ≠ k) (sinfo : ChannelInfo) :
    Spares k info (copySettings c sinfo dest) := by
  refine spares_bind (spares_ignore fun _ => Db.leaves_writeChannel apart _ _) fun _ _ => ?_
  refine spares_bind (upholds_forM fun a _ => ?_) fun _ _ => ?_
  · exact spares_ignore fun _ => Db.leaves_cappedAdd apart _ _ _ _
  refine spares_bind (upholds_forM fun entry _ => ?_) fun _ _ => ?_
  · refine spares_bind (spares_ignore fun _ => Db.leaves_cappedAdd apart _ _ _ _) fun _ _ => ?_
    exact spares_standingBan apart _ _
  refine spares_bind (spares_ignore fun _ => Db.leaves_writeChannel apart _ _) fun _ _ => ?_
  exact spares_ignore fun _ => Db.leaves_writeChannel apart _ _

theorem untouched_clone (untouched : Untouched k info x)
    (verb : args[0]?.map toAsciiUppercase = some "CLONE") (no : ¬ Thaws c x.engine k info args) :
    Untouched k info ((handleClone c args).run x).2 := by
  unfold handleClone
  cases source : args[1]? with
  | none => exact (spares_notice _ x untouched).1
  | some src =>
      cases target : args[2]? with
      | none => exact (spares_notice _ x untouched).1
      | some dest =>
          dsimp only
          rw [run_engine]
          cases held : x.engine.db.channel src with
          | none => exact (spares_notice _ x untouched).1
          | some sinfo =>
              cases there : x.engine.db.channel dest with
              | none => exact (spares_notice _ x untouched).1
              | some dinfo =>
                  have spares : Spares k info (if c.from.account ≠ some sinfo.founder ∨
                      c.from.account ≠ some dinfo.founder then
                        notice c "You must be the founder of both channels."
                      else do
                        copySettings c sinfo dest
                        applyLock c dest
                        notice c ("Copied " ++ Engine.bold src ++ "'s settings to " ++
                          Engine.bold dest ++ ".")) := by
                    refine upholds_ite (fun _ => spares_notice _) fun both => ?_
                    rw [not_or, not_not, not_not] at both
                    have apart : key dest ≠ k := by
                      intro same
                      have found := untouched.channel same
                      rw [there] at found
                      cases found
                      exact no (.clone src dest sinfo verb source target same held both.1 both.2)
                    refine spares_bind (spares_copySettings apart sinfo) fun _ _ => ?_
                    exact spares_bind (spares_applyLock apart) fun _ _ => spares_notice _
                  exact (spares x untouched).1

/-- A command of a user who is no operator leaves a suspended channel untouched, unless it
is one that gets through. -/
theorem untouched_onCommand (plain : c.from.Plain) (suspended : c.suspends info = true)
    (untouched : Untouched k info x) (no : ¬ Thaws c x.engine k info args) :
    Untouched k info ((onCommand c args).run x).2 := by
  have kept {m : Cmd Unit} (spares : Spares k info m) : Untouched k info (m.run x).2 :=
    (spares x untouched).1
  unfold onCommand
  split
  · exact kept spares_register
  · exact kept spares_info
  · exact kept (spares_drop suspended)
  · exact kept (spares_mlock suspended)
  · exact kept (spares_mode suspended)
  · exact kept (spares_access suspended)
  · exact kept (spares_flags suspended)
  · exact kept (spares_op suspended _)
  · exact kept (spares_op suspended _)
  · exact kept (spares_op suspended _)
  · exact kept (spares_op suspended _)
  · rename_i verb
    exact untouched_updown untouched verb no
  · rename_i verb
    exact untouched_updown untouched verb no
  iterate 8 exact kept (spares_op suspended _)
  · exact kept (spares_kickCommand suspended)
  · exact kept (spares_ban suspended)
  · exact kept (spares_unban suspended)
  · exact kept (spares_topic suspended)
  · exact kept (spares_invite suspended)
  · exact kept (spares_akick suspended)
  · exact kept (spares_levels suspended)
  · exact kept spares_status
  · exact kept (spares_suspend plain true)
  · exact kept (spares_suspend plain false)
  · exact kept (spares_noexpire plain)
  · exact kept spares_list
  · exact kept (spares_set suspended)
  · exact kept (spares_entrymsg suspended)
  · exact kept (spares_getkey suspended)
  · exact kept spares_seen
  · exact kept (spares_enforce suspended)
  · exact kept (spares_enforce suspended)
  · rename_i verb
    exact untouched_clone untouched verb no
  · exact kept (spares_rename suspended)
  iterate 4 exact kept (spares_xop suspended _ _)
  · exact kept (spares_help _)
  · exact kept (spares_notice _)
  · exact kept spares_pure

/-! ### What gets through -/

/-- Something was asked of the network on the channel of this key. -/
def Touched (k : String) (x : Ctx) : Prop := ∃ a ∈ x.actions, a.touches k = true

theorem Touched.not_untouched (touched : Touched k x) : ¬ Untouched k info x := by
  rintro ⟨_, quiet⟩
  obtain ⟨a, mem, touches⟩ := touched
  rw [quiet a mem] at touches
  cases touches

theorem ensures_push {P : Ctx → Prop} {a : Action} (touches : a.touches k = true) :
    Ensures P (push a) fun _ => Touched k :=
  fun _ _ => ⟨a, List.mem_append_right _ (List.mem_singleton_self a), touches⟩

/-- What was asked is not taken back. -/
theorem ensures_notice (text : String) :
    Ensures (Touched k) (notice c text) fun _ => Touched k := by
  rintro x ⟨a, mem, touches⟩
  exact ⟨a, List.mem_append_left _ mem, touches⟩

/-- A mode change on the channel, then what is told of it. -/
theorem touched_channelMode (same : key chan = k) («from» modes text : String) (x : Ctx) :
    Touched k ((channelMode «from» chan modes >>= fun _ => notice c text).run x).2 := by
  have touches : Ensures (fun _ => True) (channelMode «from» chan modes) fun _ => Touched k :=
    ensures_push (beq_iff_eq.mpr same)
  have told := touches.bind fun _ => ensures_notice (c := c) text
  exact told x trivial

theorem touched_updown {up : Bool} {account : String} (named : args[1]? = some chan)
    (same : key chan = k) (loggedIn : c.from.account = some account)
    (held : x.engine.db.channel chan = some info)
    (present : (c.net.channelMembers chan).contains c.from.uid = true)
    (entitled : up = true → (info.view.joinMode account).isSome = true) :
    Touched k ((handleUpdown c up args).run x).2 := by
  rw [run_updown named loggedIn held present]
  cases up with
  | false => exact touched_channelMode same _ _ _ x
  | true =>
      obtain ⟨mode, gives⟩ := Option.isSome_iff_exists.mp (entitled rfl)
      rw [gives]
      exact touched_channelMode same _ _ _ x

/-- The channel of this key is registered. -/
def Registered (k : String) (x : Ctx) : Prop := x.engine.db.channels.contains k = true

theorem upholds_ignore {α : Type} {call : DbM ChanError α}
    (stays : ∀ db : Db, Keeps (Db.StaysRegistered k) call.run db) :
    Upholds (Registered k) (ignore call) fun _ => True :=
  fun x registered => ⟨stays x.engine.db registered, trivial⟩

theorem registered_copySettings (sinfo : ChannelInfo) (dest : String) :
    Upholds (Registered k) (copySettings c sinfo dest) fun _ => True := by
  refine upholds_bind (upholds_ignore fun _ => Db.stays_writeChannel _ _) fun _ _ => ?_
  refine upholds_bind (upholds_forM fun a _ => ?_) fun _ _ => ?_
  · exact upholds_ignore fun _ => Db.stays_cappedAdd _ _ _ _
  refine upholds_bind (upholds_forM fun entry _ => ?_) fun _ _ => ?_
  · refine upholds_bind (upholds_ignore fun _ => Db.stays_cappedAdd _ _ _ _) fun _ _ => ?_
    refine upholds_ite (fun _ => ?_) fun _ => upholds_pure trivial
    exact upholds_modify fun _ registered => registered
  refine upholds_bind (upholds_ignore fun _ => Db.stays_writeChannel _ _) fun _ _ => ?_
  exact upholds_ignore fun _ => Db.stays_writeChannel _ _

/-- The lock of a registered channel takes effect. -/
theorem ensures_applyLock (same : key chan = k) :
    Ensures (Registered k) (applyLock c chan) fun _ => Touched k := by
  refine ensures_read fun x registered => ?_
  unfold Registered at registered
  rw [ExtTreeMap.contains_eq_isSome_getElem?] at registered
  obtain ⟨other, held⟩ := Option.isSome_iff_exists.mp registered
  have found : x.engine.db.channel chan = some other := by
    unfold Db.channel
    rw [same, held]
  rw [found]
  exact ensures_push (beq_iff_eq.mpr same)

theorem touched_clone {src dest : String} {sinfo : ChannelInfo} (source : args[1]? = some src)
    (target : args[2]? = some dest) (same : key dest = k)
    (held : x.engine.db.channel src = some sinfo) (there : x.engine.db.channel dest = some info)
    (founder : c.from.account = some sinfo.founder) (owner : c.from.account = some info.founder) :
    Touched k ((handleClone c args).run x).2 := by
  have cloned : (handleClone c args).run x =
      (do
        copySettings c sinfo dest
        applyLock c dest
        notice c ("Copied " ++ Engine.bold src ++ "'s settings to " ++ Engine.bold dest ++ ".") :
        Cmd Unit).run x := by
    unfold handleClone
    rw [source, target]
    dsimp only
    rw [run_engine, held, there]
    dsimp only
    rw [if_neg (by rw [not_or, not_not, not_not]; exact ⟨founder, owner⟩)]
  have registered : Registered k x := by
    unfold Registered
    rw [← same, ExtTreeMap.contains_eq_isSome_getElem?]
    unfold Db.channel at there
    rw [there]
    rfl
  rw [cloned]
  generalize "Copied " ++ Engine.bold src ++ "'s settings to " ++ Engine.bold dest ++ "." = told
  have locks (text : String) : Ensures (Registered k)
      (applyLock c dest >>= fun _ => notice c text) fun _ => Touched k :=
    (ensures_applyLock same).bind fun _ => ensures_notice text
  have copies := ensures_bind (registered_copySettings (c := c) sinfo dest) fun _ _ => locks told
  exact copies x registered

/-- A command that gets through is acted on. -/
theorem touched_onCommand (held : x.engine.db.channels[k]? = some info)
    (thaws : Thaws c x.engine k info args) : Touched k ((onCommand c args).run x).2 := by
  unfold onCommand
  cases thaws with
  | status up chan account verb named same loggedIn present entitled =>
      have found : x.engine.db.channel chan = some info := by
        unfold Db.channel
        rw [same, held]
      rw [verb]
      cases up with
      | true => exact touched_updown named same loggedIn found present entitled
      | false => exact touched_updown named same loggedIn found present entitled
  | clone src dest sinfo verb source target same there founder owner =>
      have found : x.engine.db.channel dest = some info := by
        unfold Db.channel
        rw [same, held]
      rw [verb]
      exact touched_clone source target same there found founder owner

/-! ### Direct and fantasy commands -/

@[simp]
theorem touches_spoken (bot room : String) (a : Action) : (a.spoken bot room).touches k = a.touches k := by
  induction a with
  | net action => cases action <;> rfl
  | tagged tags inner ih => exact ih
  | _ => rfl

@[simp]
theorem touches_resourced (old new : String) (a : Action) :
    (a.resourced old new).touches k = a.touches k := by
  induction a with
  | net action => cases action <;> rfl
  | tagged tags inner ih => exact ih
  | _ => rfl

/-- Saying and doing things through the bot is still doing them. -/
theorem untouched_map {f : Action → Action} (same : ∀ a, (f a).touches k = a.touches k) :
    Untouched k info { x with actions := x.actions.map f } ↔ Untouched k info x := by
  constructor
  · rintro ⟨held, quiet⟩
    refine ⟨held, fun a mem => ?_⟩
    rw [← same]
    exact quiet _ (List.mem_map_of_mem mem)
  · rintro ⟨held, quiet⟩
    refine ⟨held, fun b mem => ?_⟩
    obtain ⟨a, before, rfl⟩ := List.mem_map.mp mem
    rw [same]
    exact quiet a before

theorem untouched_onCommand_iff (plain : c.from.Plain) (suspended : c.suspends info = true)
    (untouched : Untouched k info x) :
    Untouched k info ((onCommand c args).run x).2 ↔ ¬ Thaws c x.engine k info args := by
  constructor
  · intro spared thaws
    exact (touched_onCommand untouched.held thaws).not_untouched spared
  · exact untouched_onCommand plain suspended untouched

theorem thaws_me {me : String} {e : Engine} :
    Thaws { c with me } e k info args ↔ Thaws c e k info args := by
  constructor
  · rintro (⟨up, chan, account, verb, named, same, loggedIn, present, entitled⟩ |
      ⟨src, dest, sinfo, verb, source, target, same, held, founder, owner⟩)
    · exact .status up chan account verb named same loggedIn present entitled
    · exact .clone src dest sinfo verb source target same held founder owner
  · rintro (⟨up, chan, account, verb, named, same, loggedIn, present, entitled⟩ |
      ⟨src, dest, sinfo, verb, source, target, same, held, founder, owner⟩)
    · exact .status up chan account verb named same loggedIn present entitled
    · exact .clone src dest sinfo verb source target same held founder owner

/-- What a line of a user who is no operator does to a suspended channel: nothing, unless
what ChanServ gets to see of it is a command that gets through. -/
theorem suspended_untouched_iff (c : Call) (r : Router) (plain : c.from.Plain) (e : Engine)
    (chan : String) (info : ChannelInfo) (held : e.db.channel chan = some info)
    (suspended : e.isChannelSuspended c.env chan = true) (said : Said) :
    Untouched (key chan) info ((run c r said).run { engine := e }).2 ↔
      ∀ args, line c r e said = some args → ¬ Thaws c e (key chan) info args := by
  have start : Untouched (key chan) info { engine := e } := ⟨held, nofun⟩
  have runs : c.suspends info = true := by
    unfold Engine.isChannelSuspended at suspended
    unfold Db.channel at held
    rw [held] at suspended
    exact suspended
  cases said with
  | direct args =>
      refine (untouched_onCommand_iff plain runs start).trans ⟨?_, fun no => no args rfl⟩
      rintro no _ ⟨⟩
      exact no
  | fantasy room text =>
      unfold run line
      dsimp only
      rw [run_engine]
      cases readFantasy c r e room text with
      | none => exact iff_of_true start nofun
      | some f =>
          cases f with
          | dice botUid diceUid args =>
              refine iff_of_true ?_ nofun
              have told : Spares (key chan) info ((r.dice args).forM fun text =>
                  pushTagged c (.notice diceUid c.from.uid text) c.from.uid []) :=
                upholds_forM fun text _ => spares_pushTagged rfl _ _
              exact (untouched_map fun a => touches_spoken botUid room a).mpr (told _ start).1
          | dict botUid l query => exact iff_of_true (spares_push rfl _ start).1 nofun
          | command botUid me args =>
              have bot (a : Action) : ((a.spoken botUid room).resourced me botUid).touches (key chan) =
                  a.touches (key chan) := by simp
              refine (untouched_map bot).trans
                ((untouched_onCommand_iff (c := { c with me }) plain runs start).trans ?_)
              rw [thaws_me]
              refine ⟨?_, fun no => no args rfl⟩
              rintro no _ ⟨⟩
              exact no

/-- Alice founded both channels; the second, which has a bot, is suspended. -/
def frozen : Engine where
  toSession :=
    { db := after Db.step (Db.fresh "a")
        [.call .still (.registerChannel "#a" "alice"), .call .still (.setDesc "#a" "hello"),
          .call .still (.registerChannel "#c" "alice"), .call .still (.assignBot "#c" "Bot"),
          .call .still (.suspendChannel "#c" "root" "spam" none)] }

def frozenChannel : ChannelInfo :=
  { newChannel "#c" "alice" 0 with
    assignedBot := some "Bot", suspension := some ⟨"root", "spam", 0, none⟩ }

/-- Alice is in the suspended channel. -/
def alice : Call where
  env := .still
  unicode := ⟨Char.isAlpha, fun c => [c.toLower]⟩
  me := "42SAAAAAC"
  «from» := { uid := "001AAAAAA", nick := "alice", account := some "alice" }
  net :=
    { accountOf := fun uid => if uid = "001AAAAAA" then some "alice" else none
      banTarget := fun _ => none
      channelsOf := fun uid => if uid = "001AAAAAA" then ["#c"] else []
      channelMembers := fun channel => if channel = "#c" then ["001AAAAAA", "42SAAAAAB"] else []
      uidByNick := fun nick => if nick = "Bot" then some "42SAAAAAB" else none
      isOp := fun _ _ => false
      hostOf := fun _ => none
      uidsLoggedInto := fun account => if account = "alice" then ["001AAAAAA"] else []
      channelKey := fun _ => none
      lastSeen := fun _ => none
      channelSeen := fun _ _ => none }
  policy := {}
  operPrivs := fun _ => false
  blurb := ""
  topics := []

def loaded : Router where
  serviceUid nick := if nick = "ChanServ" then some "42SAAAAAC" else none
  lang := "en"
  dice _ := []

theorem suspended_untouched_op :
    alice.from.Plain ∧ frozen.db.channel "#c" = some frozenChannel ∧
      frozen.isChannelSuspended alice.env "#c" = true ∧
      (Untouched (key "#c") frozenChannel
          ((run alice loaded (.fantasy "#c" "!op")).run { engine := frozen }).2 ↔
        ∀ args, line alice loaded frozen (.fantasy "#c" "!op") = some args →
          ¬ Thaws alice frozen (key "#c") frozenChannel args) := by
  have held : frozen.db.channel "#c" = some frozenChannel := by decide +kernel
  have suspended : frozen.isChannelSuspended alice.env "#c" = true := by decide +kernel
  exact ⟨rfl, held, suspended,
    suspended_untouched_iff alice loaded rfl frozen "#c" frozenChannel held suspended _⟩

/-- `CLONE #a #c` rewrites the record of the suspended channel and sets its modes, and so
does `!down` in the channel take its founder's status away. -/
theorem suspended_thawed :
    alice.from.Plain ∧ frozen.db.channel "#c" = some frozenChannel ∧
      frozen.isChannelSuspended alice.env "#c" = true ∧
      ((((run alice loaded (.direct ["CLONE", "#a", "#c"])).run { engine := frozen }).2.engine.db.channel
        "#c").map (·.desc) = some "hello" ∧ frozenChannel.desc = "") ∧
      (¬ Untouched (key "#c") frozenChannel
        ((run alice loaded (.direct ["CLONE", "#a", "#c"])).run { engine := frozen }).2) ∧
      ¬ Untouched (key "#c") frozenChannel
        ((run alice loaded (.fantasy "#c" "!down")).run { engine := frozen }).2 := by
  have touches (said : Said)
      (acted : (((run alice loaded said).run { engine := frozen }).2.actions.any
        (·.touches (key "#c"))) = true) :
      ¬ Untouched (key "#c") frozenChannel ((run alice loaded said).run { engine := frozen }).2 :=
    Touched.not_untouched (List.any_eq_true.mp acted)
  refine ⟨rfl, by decide +kernel, by decide +kernel, by decide +kernel, touches _ ?_, touches _ ?_⟩
  · decide +kernel
  · decide +kernel

end Echo.ChanServ
