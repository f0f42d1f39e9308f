import Echo.Api.Actions
import Echo.Db.File
import Echo.Engine.Budgets
import Echo.Engine.Globs
import Echo.Lib.Offsets
import Echo.Lib.Splitting

/-!
A line to a service (`dispatch` in `engine/dispatch.rs`, away from channels): who is heard, and what the
service's replies become. Which commands of a host reach a service is said exactly, over
any run: those of operators; those of identified users who are not ignored; and of the others those that
flood control has room for.

What a service does with a command, and what the engine reports of it, are parameters.
-/

namespace Echo.Commands

open Echo.Lib
open Api (NetAction)
open CmdLimiter (served commandsOf verdicts checkAt cmdRate inSeconds)

/-- A services ignore, of this node alone. -/
structure Ignore where
  mask : String
  reason : String
  expires : Option Nat

/-- Whether someone is ignored; the ignores that have run out go. -/
def isIgnored (u : Unicode) (now : Nat) (ignores : List Ignore) (nick host : String) : List Ignore × Bool :=
  let live := ignores.filter fun i => i.expires.all (· > now)
  let full := toAsciiLowercase nick ++ "!*@" ++ toAsciiLowercase host
  (live, live.any fun i =>
    let m := toAsciiLowercase i.mask
    if m.toList.contains '@' then globMatch u m full else globMatch u m (toAsciiLowercase nick))

/-- A service's client on the network. -/
structure Pseudo where
  uid : String
  nick : String
  deriving DecidableEq

structure Sender where
  uid : String
  nick : String
  account : Option String
  privileged : Bool

/-- A private message. Intervals go by `now`, in nanoseconds, and dates by `clock`, in seconds. -/
structure Line where
  «from» : String
  «to» : String
  text : String
  msgid : Option String
  now : Nat
  clock : Nat

/-- What dispatching asks of the rest of the engine. -/
structure Hub (σ : Type) where
  unicode : Unicode
  services : List Pseudo
  sid : String
  version : String
  humanTime : (clock : Nat) → String
  nickOf : σ → (uid : String) → Option String
  accountOf : σ → (uid : String) → Option String
  hostOf : σ → (uid : String) → Option String
  /-- Whether an account holds any privilege. -/
  operPrivs : σ → (account : String) → (clock : Nat) → Bool
  accountWantsSnotice : σ → (account : String) → Bool
  onCommand : Pseudo → Sender → (args : List String) → (msgid : Option String) → σ → List Ignore →
    σ × List Ignore × List NetAction
  /-- Counters, watches, bots, the audit feed, alerts and the limit on lookups. -/
  concluded : Option Pseudo → Line → σ → List NetAction → σ × List NetAction

/-- The part of the engine that hears private messages. -/
structure Front (σ : Type) where
  rest : σ
  ignores : List Ignore := []
  limiter : CmdLimiter := {}

namespace Front

variable {σ : Type} (h : Hub σ) (f : Front σ) (line : Line)

/-- The service that a line is for. -/
def target («to» : String) : Option Pseudo :=
  h.services.find? fun s => eqIgnoreAsciiCase «to» s.uid || eqIgnoreAsciiCase «to» s.nick

/-- Cut to 200 bytes, and then to a whole number of characters. -/
def pingToken (arg : List Char) : List Char :=
  let n := backUp arg (min (byteLen arg) 200)
  ((splitAtByte arg n).getD ([], [])).1

/-- The answer to a CTCP query, if it has one. -/
def ctcpReply (svcUid «to» text : String) (clock : Nat) : Option NetAction :=
  let delimiter := Char.ofNat 1
  let body := ((text.toList.dropWhile (· = delimiter)).reverse.dropWhile (· = delimiter)).reverse
  let (cmd, arg) := (splitOnce [' '] body).getD (body, [])
  let response := match toAsciiUppercase (String.ofList cmd) with
    | "VERSION" => some ("VERSION " ++ h.version)
    | "PING" => some ("PING " ++ String.ofList (pingToken arg))
    | "TIME" => some ("TIME " ++ h.humanTime clock)
    | "CLIENTINFO" => some "CLIENTINFO ACTION CLIENTINFO PING TIME VERSION"
    | _ => none
  response.map fun r => .notice svcUid «to» ("\x01" ++ r ++ "\x01")

/-- A reply of a service, to someone who asked for server notices: the service, to whom, and the text. -/
def snotice (a : NetAction) : Option (Pseudo × String × String) :=
  match a.inner with
  | .notice «from» «to» text =>
    if (h.accountOf f.rest «to»).any (h.accountWantsSnotice f.rest) then
      (h.services.find? (·.uid = «from»)).map fun svc => (svc, «to», text)
    else none
  | _ => none

/-- An action that says something else in its place. -/
def saidInstead (a said : NetAction) : NetAction :=
  match a with
  | .tagged tags _ => .tagged tags said
  | _ => said

/-- One reply, and the services that have been named, and to whom. -/
def restyle (named : List (String × String)) (a : NetAction) : List (String × String) × NetAction :=
  match f.snotice h a with
  | none => (named, a)
  | some (svc, «to», text) =>
    if named.contains (svc.uid, «to») then (named, saidInstead a (.notice h.sid «to» ("*** " ++ text)))
    else ((svc.uid, «to») :: named, saidInstead a (.notice h.sid «to» ("*** " ++ svc.nick ++ ": " ++ text)))

def applyMsgStyle (named : List (String × String)) : List NetAction → List NetAction
  | [] => []
  | a :: out =>
    let (named, a) := f.restyle h named a
    a :: applyMsgStyle named out

def sender : Sender :=
  let account := h.accountOf f.rest line.from
  { uid := line.from
    nick := (h.nickOf f.rest line.from).getD line.from
    account
    privileged := account.any (h.operPrivs f.rest · line.clock) }

def host : String := (h.hostOf f.rest line.from).getD ""

def tooFast : String := "You're sending commands too fast. Slow down and try again in a moment."

/-- Whether a line is heard; if it is not, what is said instead. -/
def hear : Front σ × Option (List NetAction) :=
  let sender := f.sender h line
  if sender.privileged then (f, none)
  else
    let (ignores, ignored) := isIgnored h.unicode line.clock f.ignores sender.nick (f.host h line)
    let f := { f with ignores }
    if ignored then (f, some [])
    else if sender.account.isSome then (f, none)
    else
      match target h line.to with
      | none => (f, none)
      | some svc =>
        let (limiter, verdict) := f.limiter.checkAt (f.host h line) line.now
        let f := { f with limiter }
        match verdict with
        | .allow => (f, none)
        | .warn => (f, some (f.applyMsgStyle h [] [.notice svc.uid line.from tooFast]))
        | .drop => (f, some [])

/-- What comes of a line; `ran` is the service that was given it as a command. -/
structure Dispatched (σ : Type) where
  front : Front σ
  out : List NetAction
  ran : Option Pseudo

def isCtcp (text : String) : Bool := text.toList.head? == some (Char.ofNat 1)

def dispatch : Dispatched σ :=
  let sender := f.sender h line
  match f.hear h line with
  | (f, some out) => ⟨f, out, none⟩
  | (f, none) =>
    if isCtcp line.text then
      ⟨f, ((target h line.to).bind fun svc => ctcpReply h svc.uid line.from line.text line.clock).toList, none⟩
    else
      let ran := target h line.to
      let args := (words isWhitespace line.text.toList).map String.ofList
      let (rest, ignores, actions) := match ran with
        | some svc => h.onCommand svc sender args line.msgid f.rest f.ignores
        | none => (f.rest, f.ignores, [])
      let (rest, out) := h.concluded ran line rest actions
      let f := { f with rest, ignores }
      ⟨f, f.applyMsgStyle h [] out, ran⟩

/-! ### Runs -/

/-- What happens: a line, or anything else, but for flood control. -/
inductive FrontAction (σ : Type) where
  | line (line : Line)
  | other (rest : σ) (ignores : List Ignore)

def step : FrontAction σ → Front σ
  | .line line => (f.dispatch h line).front
  | .other rest ignores => { f with rest, ignores }

def lines (actions : List (FrontAction σ)) : List Line :=
  actions.filterMap fun
    | .line line => some line
    | .other .. => none

/-- A line that flood control is asked about, and for which host. -/
def charged : Option CmdLimiter.Command :=
  let sender := f.sender h line
  if sender.privileged || (isIgnored h.unicode line.clock f.ignores sender.nick (f.host h line)).2 ||
      sender.account.isSome || (target h line.to).isNone then none
  else some ⟨f.host h line, line.now⟩

/-- What flood control is asked about, in a run. -/
def charges : Front σ → List (FrontAction σ) → List CmdLimiter.Command
  | _, [] => []
  | f, a :: actions =>
    let first := match a with
      | .line line => (f.charged h line).toList
      | .other .. => []
    first ++ charges (f.step h a) actions

variable {h f line}

/-! ### Replies -/

/-- From which service a reply is, and to whom, if it is restyled. -/
def styledPair (h : Hub σ) (f : Front σ) (a : NetAction) : Option (String × String) :=
  (f.snotice h a).map fun reply => (reply.1.uid, reply.2.1)

theorem mem_restyle (named : List (String × String)) (a : NetAction) (pair : String × String) :
    pair ∈ (f.restyle h named a).1 ↔ pair ∈ named ∨ f.styledPair h a = some pair := by
  unfold restyle styledPair
  cases f.snotice h a with
  | none => simp
  | some reply =>
    by_cases said : (reply.1.uid, reply.2.1) ∈ named
    · simp only [List.contains_iff_mem, said, if_true, Option.map_some, Option.some.injEq]
      constructor
      · exact Or.inl
      · rintro (mem | rfl)
        · exact mem
        · exact said
    · simp only [List.contains_iff_mem, said, if_false, Option.map_some, Option.some.injEq, List.mem_cons]
      rw [or_comm, eq_comm]

/-- The services named by the replies before one. -/
theorem mem_named (out : List NetAction) (named : List (String × String)) (pair : String × String) :
    pair ∈ after (fun named a => (f.restyle h named a).1) named out ↔
      pair ∈ named ∨ ∃ a ∈ out, f.styledPair h a = some pair := by
  induction out generalizing named with
  | nil => simp
  | cons a out ih => rw [after_cons, ih, mem_restyle, or_assoc, List.exists_mem_cons_iff]

theorem getElem?_applyMsgStyle (out : List NetAction) (named : List (String × String)) (i : Nat) :
    (f.applyMsgStyle h named out)[i]? =
      out[i]?.map fun a => (f.restyle h (after (fun named a => (f.restyle h named a).1) named (out.take i)) a).2 := by
  induction out generalizing named i with
  | nil => rfl
  | cons a out ih =>
    cases i with
    | zero => rfl
    | succ i =>
      rw [applyMsgStyle, List.getElem?_cons_succ, List.getElem?_cons_succ, ih, List.take_succ_cons, after_cons]

/-- Of a service's replies to someone who asked for server notices, the first names it, and the others are plain
lines of the server; all else is sent as it was. -/
theorem restyled (h : Hub σ) (f : Front σ) (out : List NetAction) (i : Nat) :
    (f.applyMsgStyle h [] out)[i]? =
      out[i]?.map fun a =>
        match f.snotice h a with
        | none => a
        | some (svc, «to», text) =>
          saidInstead a (.notice h.sid «to»
            (if ∀ b ∈ out.take i, f.styledPair h b ≠ some (svc.uid, «to») then "*** " ++ svc.nick ++ ": " ++ text
              else "*** " ++ text)) := by
  rw [getElem?_applyMsgStyle]
  congr 1
  funext a
  have known := mem_named (h := h) (f := f) (out.take i) []
  generalize after (fun named a => (f.restyle h named a).1) [] (out.take i) = named at known ⊢
  rw [restyle]
  cases f.snotice h a with
  | none => rfl
  | some reply =>
    obtain ⟨svc, «to», text⟩ := reply
    by_cases said : (svc.uid, «to») ∈ named
    · have notFirst : ¬ ∀ b ∈ out.take i, f.styledPair h b ≠ some (svc.uid, «to») := by
        intro none
        obtain nothing | ⟨b, mem, own⟩ := (known _).mp said
        · exact List.not_mem_nil nothing
        · exact none b mem own
      simp only [List.contains_iff_mem, said, if_true, if_neg notFirst]
    · have first : ∀ b ∈ out.take i, f.styledPair h b ≠ some (svc.uid, «to») := by
        intro b mem own
        exact said ((known _).mpr (.inr ⟨b, mem, own⟩))
      simp only [List.contains_iff_mem, said, if_false, if_pos first]

/-! ### Who is heard -/

theorem limiter_hear : (f.hear h line).1.limiter = served f.limiter (f.charged h line).toList := by
  unfold hear charged
  dsimp only
  cases (f.sender h line).privileged with
  | true => rfl
  | false =>
    cases (isIgnored h.unicode line.clock f.ignores (f.sender h line).nick (f.host h line)).2 with
    | true => rfl
    | false =>
      cases (f.sender h line).account.isSome with
      | true => rfl
      | false =>
        cases target h line.to with
        | none => rfl
        | some svc =>
          simp only [Bool.false_eq_true, if_false]
          split <;> rfl

/-- A line is heard if flood control, where it is asked, allows it. -/
theorem heard_iff :
    (f.hear h line).2 = none ↔
      (f.sender h line).privileged = true ∨
        (isIgnored h.unicode line.clock f.ignores (f.sender h line).nick (f.host h line)).2 = false ∧
          ((f.sender h line).account.isSome = true ∨ target h line.to = none ∨
            (f.limiter.checkAt (f.host h line) line.now).2 = .allow) := by
  unfold hear
  dsimp only
  cases (f.sender h line).privileged with
  | true => simp
  | false =>
    cases (isIgnored h.unicode line.clock f.ignores (f.sender h line).nick (f.host h line)).2 with
    | true => simp
    | false =>
      cases (f.sender h line).account.isSome with
      | true => simp
      | false =>
        cases target h line.to with
        | none => simp
        | some svc =>
          have same (ignores : List Ignore) : host h { f with ignores } line = f.host h line := rfl
          simp only [Bool.false_eq_true, if_false, same]
          split <;> simp_all

/-- Flood control is only asked by its own answer. -/
theorem limiter_dispatch :
    (f.dispatch h line).front.limiter = served f.limiter (f.charged h line).toList := by
  rw [← limiter_hear]
  unfold dispatch
  dsimp only
  split
  · rename_i eq
    rw [eq]
  · rename_i eq
    rw [eq]
    split
    · rfl
    · rfl

/-- The service that a line is given to, once heard. -/
theorem ran_dispatch (svc : Pseudo) :
    (f.dispatch h line).ran = some svc ↔
      target h line.to = some svc ∧ isCtcp line.text = false ∧ (f.hear h line).2 = none := by
  unfold dispatch
  dsimp only
  split
  · rename_i eq
    simp [eq]
  · rename_i eq
    rw [eq]
    split
    · simp_all
    · simp_all

theorem limiter_after (actions : List (FrontAction σ)) :
    (after (step h) f actions).limiter = served f.limiter (f.charges h actions) := by
  induction actions generalizing f with
  | nil => rfl
  | cons a actions ih =>
    rw [after_cons, ih]
    cases a with
    | line line =>
      simp only [charges, step, limiter_dispatch, served]
      exact (after_append ..).symm
    | other rest ignores => rfl

theorem charges_sublist (actions : List (FrontAction σ)) :
    ((f.charges h actions).map (·.now)).Sublist ((lines actions).map (·.now)) := by
  induction actions generalizing f with
  | nil => exact .slnil
  | cons a actions ih =>
    cases a with
    | other rest ignores => exact ih
    | line line =>
      have own : ((f.charged h line).toList.map (·.now)).Sublist [line.now] := by
        unfold charged
        dsimp only
        split
        · exact List.nil_sublist _
        · exact .refl _
      simp only [charges, List.map_append]
      exact own.append ih

/-- Over any run, a service is given a line exactly if the line is for it and no CTCP query, and its sender is an
operator, or is not ignored and either identified or within what flood control allows the host. -/
theorem ran_iff (h : Hub σ) (rest : σ) (ignores : List Ignore) (actions : List (FrontAction σ)) (line : Line)
    (ordered : (lines actions ++ [line]).Pairwise (·.now ≤ ·.now)) (svc : Pseudo) :
    let f := after (step h) { rest, ignores } actions
    let sender := f.sender h line
    (f.dispatch h line).ran = some svc ↔
      target h line.to = some svc ∧ isCtcp line.text = false ∧
        (sender.privileged = true ∨
          (isIgnored h.unicode line.clock f.ignores sender.nick (f.host h line)).2 = false ∧
            (sender.account.isSome = true ∨
              Within cmdRate
                (commandsOf (f.host h line)
                  (verdicts checkAt {} (charges h { rest, ignores } actions)))
                (inSeconds line.now) 1)) := by
  intro f sender
  have limiter : f.limiter = served {} (charges h { rest, ignores } actions) := limiter_after actions
  let asked : CmdLimiter.Command := ⟨f.host h line, line.now⟩
  have sub : ((charges h { rest, ignores } actions ++ [asked]).map (·.now)).Sublist
      ((lines actions ++ [line]).map (·.now)) := by
    rw [List.map_append, List.map_append]
    exact (charges_sublist actions).append (.refl _)
  have times := (List.pairwise_map.mpr ordered).sublist sub
  obtain ⟨before, -, last⟩ := List.pairwise_append.mp (List.pairwise_map.mp times)
  have allows := CmdLimiter.tokens_iff before (fun c mem => last c mem asked (by simp)) asked.host 1
  rw [← limiter, ← CmdLimiter.allow_iff] at allows
  rw [ran_dispatch, heard_iff, allows]
  refine and_congr_right fun found => and_congr_right fun _ => ?_
  simp only [found, reduceCtorEq, false_or]
  rfl

/-- A service that answers nothing, to one guest. -/
def quietHub : Hub Unit :=
  { unicode := ⟨Char.isAlpha, fun c => [c.toLower]⟩
    services := [⟨"42SAAAAAA", "NickServ"⟩]
    sid := "42S"
    version := "echo"
    humanTime := fun _ => ""
    nickOf := fun _ _ => some "bob"
    accountOf := fun _ _ => none
    hostOf := fun _ _ => some "192.0.2.1"
    operPrivs := fun _ _ _ => false
    accountWantsSnotice := fun _ _ => false
    onCommand := fun _ _ _ _ rest ignores => (rest, ignores, [])
    concluded := fun _ _ rest actions => (rest, actions) }

def helpLine (now : Nat) : Line := ⟨"1AAAAAAAA", "nickserv", "HELP", none, now, 0⟩

theorem ran_iff_guest :
    let f := after (step quietHub) ⟨(), [], {}⟩ [.line (helpLine 0)]
    let sender := f.sender quietHub (helpLine 1)
    (f.dispatch quietHub (helpLine 1)).ran = some ⟨"42SAAAAAA", "NickServ"⟩ ↔
      target quietHub "nickserv" = some ⟨"42SAAAAAA", "NickServ"⟩ ∧ isCtcp "HELP" = false ∧
        (sender.privileged = true ∨
          (isIgnored quietHub.unicode 0 f.ignores sender.nick (f.host quietHub (helpLine 1))).2 = false ∧
            (sender.account.isSome = true ∨
              Within cmdRate
                (commandsOf (f.host quietHub (helpLine 1))
                  (verdicts checkAt {} (charges quietHub ⟨(), [], {}⟩ [.line (helpLine 0)])))
                (inSeconds 1) 1)) :=
  ran_iff quietHub () [] [.line (helpLine 0)] (helpLine 1) (by simp [lines, helpLine]) ⟨"42SAAAAAA", "NickServ"⟩

end Front

end Echo.Commands
