import Echo.Engine.Joins
import Echo.Engine.FlagsCommand
import Echo.Link.Fmode

/-!
The ban masks of ChanServ's MODE. What the command adds to a ban, exception or invite list
is meant to pass the policy that AKICK ADD has for a mask. MODE asks it only of the
extbans in services' own table: an extban that the ircd alone knows goes through, and so
does a mask that services pair with another letter than the ircd.
-/

namespace Echo

open Echo.Lib

open Dispatcher (NetAction)
open Engine (bold)

/-- An extban as the ircd advertises it. -/
structure ExtbanCap where
  name : String
  letter : Option Char
  /-- An acting extban rather than one that matches users. -/
  acting : Bool
  deriving DecidableEq, Repr

structure ChanModeCap where
  letter : Char
  kind : ChanModeKind
  deriving DecidableEq, Repr

/-- What is known of the ircd and allowed by the configuration; nothing of the ircd before
its burst, and no list where the configuration names no extbans. -/
structure ModePolicy where
  liveExtbans : Option (List ExtbanCap) := none
  liveChanmodes : Option (List ChanModeCap) := none
  /-- In lower case. -/
  extbanEnabled : Option (List String) := none

namespace ModePolicy

variable (s : ModePolicy)

def extbanAllowed (name : String) : Bool := s.extbanEnabled.all (·.contains (toAsciiLowercase name))

def extbanOffered (name : String) : Bool :=
  s.liveExtbans.all fun set => set.any fun e => eqIgnoreAsciiCase e.name name

/-- An extban of the ircd's by its letter or by its name in any case. -/
def extbanLookup (token : String) : Option ExtbanCap :=
  s.liveExtbans.bind fun live =>
    match token.toList with
    | [c] => live.find? (·.letter == some c)
    | _ => live.find? fun e => eqIgnoreAsciiCase e.name token

def chanmodeTakesParam (m : Char) (adding : Bool) : Bool :=
  match s.liveChanmodes.bind fun v => v.find? (·.letter == m) with
  | some cap => cap.kind.takesParam adding
  | none => Echo.chanmodeTakesParam m adding

/-- What a known extban is refused for. -/
def refuseExt (ban : ExtBan) : Except String Unit :=
  if !s.extbanOffered ban.name then
    .error ("This network's ircd doesn't offer the " ++ bold ban.name ++ " extban.")
  else if !s.extbanAllowed ban.name then
    .error ("The " ++ bold ban.name ++ " extban isn't enabled on this network.")
  else .ok ()

/-- What AKICK ADD asks of a mask. -/
def akickPolicy (mask : String) : Except String Unit :=
  match AkickMask.parse mask with
  | .host _ => .ok ()
  | .ext ban _ => s.refuseExt ban
  | .unknown token =>
      match s.extbanLookup token with
      | none => .error (bold token ++ " isn't a host mask or an extban this network offers.")
      | some cap =>
          if cap.acting then
            .error (bold cap.name ++
              " is an acting extban; auto-kick needs a matching extban or a host mask.")
          else if !s.extbanAllowed cap.name then
            .error ("The " ++ bold cap.name ++ " extban isn't enabled on this network.")
          else .ok ()

end ModePolicy

/-- The lists of masks: bans, exceptions and invites. -/
def isListMode (m : Char) : Bool := m == 'b' || m == 'e' || m == 'I'

/-- The scan for the masks of a change. -/
structure MaskScan where
  params : List String
  adding : Bool := true
  out : List String := []

def MaskScan.step (takesParam : Char → Bool → Bool) (scan : MaskScan) (m : Char) : MaskScan :=
  if m = '+' then { scan with adding := true }
  else if m = '-' then { scan with adding := false }
  else if takesParam m scan.adding then
    match scan.params with
    | p :: params => { scan with params, out := if isListMode m then scan.out ++ [p] else scan.out }
    | [] => scan
  else scan

/-- The parameters of `b`, `e` and `I`, set or unset. -/
def banMasks (tokens : List String) (takesParam : Char → Bool → Bool) : List String :=
  ((tokens.headD "").toList.foldl (MaskScan.step takesParam) { params := tokens.tail }).out

/-- A mask without the sign of an inverted extban. -/
def uninverted (mask : String) : String :=
  match mask.toList with
  | '!' :: rest => String.ofList rest
  | _ => mask

/-- What MODE asks of the masks of a change, one after the other. -/
def checkMasks (s : ModePolicy) : List String → Except String Unit
  | [] => .ok ()
  | mask :: masks =>
      match AkickMask.parse (uninverted mask) with
      | .ext ban _ =>
          match s.refuseExt ban with
          | .error reason => .error reason
          | .ok () => checkMasks s masks
      | _ => checkMasks s masks

def modeSyntax : String := "Syntax: MODE <#channel> <modes>, e.g. MODE #chan +nt"

namespace Engine

/-- `MODE <#channel> <modes>`: the change that is relayed, and the reply. -/
def chanservMode (e : Engine) (env : Env) (s : ModePolicy) (me : String) (account : Option String)
    (args : List String) : Except String (NetAction × String) :=
  match args[1]? with
  | none => .error modeSyntax
  | some chan =>
      if args.length ≤ 2 then .error modeSyntax
      else
        match e.db.channel chan with
        | none => .error (bold chan ++ " isn't registered.")
        | some info =>
            if account ≠ some info.founder then
              .error ("Only " ++ bold chan ++ "'s founder can change its modes.")
            else if e.isChannelSuspended env chan then
              .error (bold chan ++ " is suspended by network staff and can't be managed right now.")
            else
              match checkMasks s (banMasks (args.drop 2) s.chanmodeTakesParam) with
              | .error reason => .error reason
              | .ok () =>
                  let modes := " ".intercalate (args.drop 2)
                  .ok (.channelMode me chan modes, "Set " ++ bold modes ++ " on " ++ bold chan ++ ".")

end Engine

/-! ### What the ircd adds -/

/-- The masks that an ircd of these arities adds to its lists. -/
def addedMasks (advertised : Char → Bool → Bool) (tokens : List String) : List String :=
  (walk advertised (tokens.headD "") tokens.tail).filterMap fun ask =>
    if isListMode ask.1.1 && ask.1.2 then ask.2 else none

section Masks

variable {takesParam advertised : Char → Bool → Bool} {tokens : List String}

theorem foldl_maskScan (letters : List Char) (scan : MaskScan) :
    (letters.foldl (MaskScan.step takesParam) scan).out =
      scan.out ++ (pairUp takesParam (signed scan.adding letters) scan.params).filterMap fun ask =>
        if isListMode ask.1.1 then ask.2 else none := by
  induction letters generalizing scan with
  | nil => exact (List.append_nil _).symm
  | cons m letters ih =>
      rw [List.foldl_cons, ih]
      by_cases plus : m = '+'
      · subst plus
        rfl
      · by_cases minus : m = '-'
        · subst minus
          rfl
        · rw [signed_cons plus minus, MaskScan.step, if_neg plus, if_neg minus, pairUp]
          by_cases takes : takesParam m scan.adding = true
          · rw [if_pos takes, if_pos takes]
            cases params : scan.params with
            | nil => by_cases list : isListMode m = true <;> simp [list, params]
            | cons p params => by_cases list : isListMode m = true <;> simp [list]
          · rw [if_neg takes, if_neg takes]
            by_cases list : isListMode m = true <;> simp [list]

/-- The scan finds the masks of one walk over the letters. -/
theorem banMasks_eq :
    banMasks tokens takesParam =
      (walk takesParam (tokens.headD "") tokens.tail).filterMap fun ask =>
        if isListMode ask.1.1 then ask.2 else none := by
  unfold banMasks
  rw [foldl_maskScan]
  rfl

/-- Where the ircd pairs letters and parameters as services do, they see every mask that
it adds. -/
theorem addedMasks_subset
    (agree : ∀ ask ∈ signed true (tokens.headD "").toList, advertised ask.1 ask.2 = takesParam ask.1 ask.2)
    {mask : String} (added : mask ∈ addedMasks advertised tokens) : mask ∈ banMasks tokens takesParam := by
  rw [banMasks_eq]
  unfold addedMasks at added
  rw [walk_congr _ agree] at added
  obtain ⟨ask, mem, named⟩ := List.mem_filterMap.mp added
  refine List.mem_filterMap.mpr ⟨ask, mem, ?_⟩
  by_cases list : isListMode ask.1.1 = true
  · by_cases adding : ask.1.2 = true
    · simpa [list, adding] using named
    · simp [adding] at named
  · simp [list] at named

end Masks

/-! ### What goes through -/

/-- An extban of services' own table that the policy refuses. -/
def RefusedKnown (s : ModePolicy) (mask : String) : Prop :=
  ∃ ban value reason, AkickMask.parse mask = .ext ban value ∧ s.refuseExt ban = .error reason

/-- A mask of the shape of an extban that services do not know, whose name the ircd does not
offer, or offers as an acting extban, or the configuration does not enable. -/
def RefusedUnknown (s : ModePolicy) (mask : String) : Prop :=
  ∃ token, AkickMask.parse mask = .unknown token ∧
    ∀ cap, s.extbanLookup token = some cap → cap.acting = true ∨ s.extbanAllowed cap.name = false

section Policy

variable {s : ModePolicy} {mask : String}

/-- AKICK ADD refuses these and no other masks. -/
theorem akickPolicy_isOk_iff :
    (s.akickPolicy mask).isOk = true ↔ ¬ RefusedKnown s mask ∧ ¬ RefusedUnknown s mask := by
  unfold ModePolicy.akickPolicy RefusedKnown RefusedUnknown
  cases parsed : AkickMask.parse mask with
  | host glob => simp [Except.isOk, Except.toBool]
  | ext ban value =>
      cases refused : s.refuseExt ban with
      | ok => simp [Except.isOk, Except.toBool, refused]
      | error reason => simp [Except.isOk, Except.toBool, refused]
  | unknown token =>
      cases found : s.extbanLookup token with
      | none => simp [Except.isOk, Except.toBool, found]
      | some cap =>
          by_cases acting : cap.acting = true
          · simp [Except.isOk, Except.toBool, found, acting]
          · by_cases allowed : s.extbanAllowed cap.name = true
            · simp [Except.isOk, Except.toBool, found, acting, allowed]
            · simp [Except.isOk, Except.toBool, found, acting, allowed]

theorem checkMasks_ok_iff {masks : List String} :
    checkMasks s masks = .ok () ↔ ∀ mask ∈ masks, ¬ RefusedKnown s (uninverted mask) := by
  induction masks with
  | nil => simp [checkMasks]
  | cons mask masks ih =>
      rw [checkMasks, List.forall_mem_cons, ← ih]
      unfold RefusedKnown
      cases parsed : AkickMask.parse (uninverted mask) with
      | host glob => simp
      | unknown token => simp
      | ext ban value =>
          cases refused : s.refuseExt ban with
          | ok => simp [refused]
          | error reason => simp [refused]

/-- A mask that begins with `!` is a host mask to AKICK ADD. -/
theorem refusedKnown_uninverted (refused : RefusedKnown s mask) : RefusedKnown s (uninverted mask) := by
  obtain ⟨ban, value, reason, parsed, why⟩ := refused
  have plain : uninverted mask = mask := by
    unfold uninverted
    split
    · rename_i rest bang
      exfalso
      unfold AkickMask.parse at parsed
      rw [bang] at parsed
      have named : ∀ named : Option (List Char × List Char), named = (splitOnce [':'] ('!' :: rest)).filter
          (fun parts => !parts.1.isEmpty && !parts.1.contains '!' && !parts.1.contains '@') → named = none := by
        rintro named rfl
        refine Option.filter_eq_none_iff.mpr fun parts split => ?_
        obtain ⟨front, back⟩ := parts
        have whole := splitOnce_eq split
        cases front with
        | nil => simp
        | cons c front =>
            obtain ⟨rfl, _⟩ := List.cons.inj whole
            simp
      rw [named _ rfl] at parsed
      cases parsed
    · rfl
  exact ⟨ban, value, reason, plain.symm ▸ parsed, why⟩

end Policy

namespace Engine

variable {e : Engine} {env : Env} {s : ModePolicy} {me : String} {account : Option String}
  {args : List String}

/-- The sender may set modes on the channel: its founder, while it is not suspended. -/
def MayMode (e : Engine) (env : Env) (account : Option String) (args : List String) : Prop :=
  2 < args.length ∧ ∃ chan info, args[1]? = some chan ∧ e.db.channel chan = some info ∧
    account = some info.founder ∧ e.isChannelSuspended env chan = false

/-- MODE relays a change exactly where none of the masks services see in it is a known
extban that the policy refuses. -/
theorem chanservMode_ok_iff :
    (∃ out, e.chanservMode env s me account args = .ok out) ↔
      e.MayMode env account args ∧
        ∀ mask ∈ banMasks (args.drop 2) s.chanmodeTakesParam, ¬ RefusedKnown s (uninverted mask) := by
  unfold chanservMode MayMode
  rw [← checkMasks_ok_iff]
  cases named : args[1]? with
  | none => simp
  | some chan =>
      dsimp only
      by_cases short : args.length ≤ 2
      · simp [short, Nat.not_lt.mpr short]
      · rw [if_neg short]
        cases held : e.db.channel chan with
        | none => simp [held]
        | some info =>
            by_cases founder : account = some info.founder
            · cases suspended : e.isChannelSuspended env chan with
              | true => simp [founder, suspended]
              | false =>
                  cases checked : checkMasks s (banMasks (args.drop 2) s.chanmodeTakesParam) with
                  | error reason => simp [founder, suspended]
                  | ok => simp [founder, suspended, held, Nat.lt_of_not_le short]
            · simp [founder, held]

/-- Where MODE relays a change, AKICK ADD accepts every mask that the ircd adds, as
`reading` takes it. -/
def MasksAccepted (e : Engine) (env : Env) (s : ModePolicy) (me : String) (account : Option String)
    (args : List String) (advertised : Char → Bool → Bool) (reading : String → String) : Prop :=
  (∃ out, e.chanservMode env s me account args = .ok out) →
    ∀ mask ∈ addedMasks advertised (args.drop 2), (s.akickPolicy (reading mask)).isOk = true

/-- None of the masks the ircd adds is an extban that services do not know and the policy
refuses, nor one that they know and it refuses but they pair otherwise; the change being
one that services relay. -/
def MasksSeen (e : Engine) (env : Env) (s : ModePolicy) (account : Option String)
    (args : List String) (advertised : Char → Bool → Bool) (reading : String → String) : Prop :=
  e.MayMode env account args →
    (∀ mask ∈ banMasks (args.drop 2) s.chanmodeTakesParam, ¬ RefusedKnown s (uninverted mask)) →
      ∀ mask ∈ addedMasks advertised (args.drop 2), ¬ RefusedUnknown s (reading mask) ∧
        (mask ∉ banMasks (args.drop 2) s.chanmodeTakesParam → ¬ RefusedKnown s (reading mask))

theorem masksAccepted_iff {advertised : Char → Bool → Bool} {reading : String → String}
    (faithful : ∀ mask, RefusedKnown s (reading mask) → RefusedKnown s (uninverted mask)) :
    e.MasksAccepted env s me account args advertised reading ↔
      e.MasksSeen env s account args advertised reading := by
  unfold MasksAccepted MasksSeen
  rw [chanservMode_ok_iff]
  constructor
  · intro accepted may checked mask added
    obtain ⟨known, unknown⟩ := akickPolicy_isOk_iff.mp (accepted ⟨may, checked⟩ mask added)
    exact ⟨unknown, fun _ => known⟩
  · rintro seen ⟨may, checked⟩ mask added
    obtain ⟨unknown, known⟩ := seen may checked mask added
    refine akickPolicy_isOk_iff.mpr ⟨?_, unknown⟩
    by_cases listed : mask ∈ banMasks (args.drop 2) s.chanmodeTakesParam
    · intro refused
      exact checked mask listed (faithful mask refused)
    · exact known listed

/-- What MODE lets through, whatever arities the ircd pairs by, and whether it takes a `!`
at the front of a mask for part of it or for the sign of an inverted extban. -/
theorem mode_masks_accepted_iff (e : Engine) (env : Env) (s : ModePolicy) (me : String)
    (account : Option String) (args : List String) (advertised : Char → Bool → Bool) :
    (e.MasksAccepted env s me account args advertised id ↔
      e.MasksSeen env s account args advertised id) ∧
    (e.MasksAccepted env s me account args advertised uninverted ↔
      e.MasksSeen env s account args advertised uninverted) :=
  ⟨masksAccepted_iff fun _ refused => refusedKnown_uninverted refused,
    masksAccepted_iff fun _ refused => refused⟩

/-- An ircd with an acting extban, `mute`. -/
def muting : ModePolicy where
  liveExtbans := some [⟨"account", some 'R', false⟩, ⟨"mute", some 'm', true⟩]
  liveChanmodes := some [⟨'b', .list⟩]
  extbanEnabled := some ["account"]

/-- `MODE #chan +b mute:*!*@*` is relayed, and AKICK ADD refuses the mask. -/
theorem mute_relayed :
    (delegated.chanservMode .still muting "42SAAAAAA" (some "alice") ["MODE", "#chan", "+b", "mute:*!*@*"]).isOk =
        true ∧
      addedMasks muting.chanmodeTakesParam ["+b", "mute:*!*@*"] = ["mute:*!*@*"] ∧
      (muting.akickPolicy "mute:*!*@*").isOk = false ∧
      ¬ delegated.MasksAccepted .still muting "42SAAAAAA" (some "alice")
        ["MODE", "#chan", "+b", "mute:*!*@*"] muting.chanmodeTakesParam id := by
  have relayed : (delegated.chanservMode .still muting "42SAAAAAA" (some "alice")
      ["MODE", "#chan", "+b", "mute:*!*@*"]).isOk = true := by decide +kernel
  have added : addedMasks muting.chanmodeTakesParam ["+b", "mute:*!*@*"] = ["mute:*!*@*"] := by
    decide +kernel
  have refused : (muting.akickPolicy "mute:*!*@*").isOk = false := by decide +kernel
  refine ⟨relayed, added, refused, fun accepted => ?_⟩
  obtain ⟨out, ran⟩ : ∃ out, delegated.chanservMode .still muting "42SAAAAAA" (some "alice")
      ["MODE", "#chan", "+b", "mute:*!*@*"] = .ok out := by
    cases outcome : delegated.chanservMode .still muting "42SAAAAAA" (some "alice")
        ["MODE", "#chan", "+b", "mute:*!*@*"] with
    | ok out => exact ⟨out, rfl⟩
    | error reason =>
        rw [outcome] at relayed
        cases relayed
  have listed : "mute:*!*@*" ∈ addedMasks muting.chanmodeTakesParam
      (["MODE", "#chan", "+b", "mute:*!*@*"].drop 2) := by
    rw [show ["MODE", "#chan", "+b", "mute:*!*@*"].drop 2 = ["+b", "mute:*!*@*"] from rfl, added]
    exact List.mem_singleton.mpr rfl
  have accepted' := accepted ⟨out, ran⟩ "mute:*!*@*" listed
  rw [id, refused] at accepted'
  cases accepted'

end Engine

end Echo
