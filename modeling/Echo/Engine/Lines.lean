import Mathlib.Algebra.Order.Monoid.Unbundled.WithTop
import Mathlib.Data.List.DropRight
import Mathlib.Order.WithBot
import Echo.Db.File
import Echo.Db.Run
import Echo.Lib.Splitting
import Echo.Lib.Leases

/-!
The ban lines of the ircd: OperServ's AKILL, SQLINE, SNLINE, SHUN and CBAN
(`xline.rs`) and FORBID (`forbid.rs`), the bans other nodes gossip, and the lines
asserted over a fresh link.

A command is read, which needs the store only to count its entries, and then run:
the store is asked first, and a line goes to the ircd if it agrees. Notices are
left out, and so is what does not end in a request to the store.
-/

namespace Echo

open Echo.Lib

/-- Who sends a command, with the two privileges that are asked for. -/
structure Sender where
  nick : String
  account : Option String
  oper : Bool
  admin : Bool

/-- What is sent to the ircd about its ban lines. A duration of zero is for good. -/
inductive LineAction where
  | addLine (kind mask setter : String) (duration : Nat) (reason : String)
  | delLine (kind mask : String)
  deriving DecidableEq, Repr

/-- Parse a stored kind; `none` for one that is not modelled. -/
def XlineKind.fromWire (s : String) : Option XlineKind :=
  if s = "G" then some .gline
  else if s = "Q" then some .qline
  else if s = "R" then some .rline
  else if s = "SHUN" then some .shun
  else if s = "CBAN" then some .cban
  else none

/-- Parse a FORBID kind, in any case and with its aliases. -/
def ForbidKind.fromName (s : String) : Option ForbidKind :=
  let s := toAsciiUppercase s
  if s = "NICK" ∨ s = "NICKNAME" ∨ s = "ACCOUNT" then some .nick
  else if s = "CHAN" ∨ s = "CHANNEL" then some .chan
  else if s = "EMAIL" ∨ s = "MAIL" then some .email
  else none

/-! ### Reading words -/

/-- `str::parse` of a 64-bit unsigned number. -/
def parseUnsigned (s : List Char) : Option Nat :=
  let digits := if s.head? = some '+' then s.tail else s
  if digits ≠ [] ∧ digits.all Char.isDigit then
    let n := digits.foldl (fun n c => n * 10 + (c.toNat - '0'.toNat)) 0
    if n < 2 ^ 64 then some n else none
  else none

/-- A duration: a number and a unit, seconds if there is none. -/
def parseDuration (s : String) : Option Nat := do
  let last ← s.toList.getLast?
  let (num, mult) ←
    if last = 'd' ∨ last = 'D' then some (s.toList.dropLast, 86400)
    else if last = 'h' ∨ last = 'H' then some (s.toList.dropLast, 3600)
    else if last = 'm' ∨ last = 'M' then some (s.toList.dropLast, 60)
    else if last = 's' ∨ last = 'S' then some (s.toList.dropLast, 1)
    else if last.isDigit then some (s.toList, 1)
    else none
  let n ← parseUnsigned num
  if n * mult < 2 ^ 64 then some (n * mult) else none

/-- A `user@host` mask without the nick in front of it. -/
def normUserhost (input : String) : Option String :=
  match splitOnce ['@'] (input.toList.rtakeWhile (· ≠ '!')) with
  | none => none
  | some (user, host) =>
      if user = [] ∨ host = [] ∨ host.contains '@' then none
      else some (toAsciiLowercase (String.ofList (user ++ '@' :: host)))

def normNick (input : String) : Option String :=
  if input.toList = [] ∨ input.toList.contains '@' ∨ input.toList.contains '!' then none
  else some (toAsciiLowercase input)

/-- A regex the ircd evaluates, kept as it is. -/
def normRealname (input : String) : Option String :=
  if input.toList = [] then none else some input

def normChannel (input : String) : Option String :=
  if (input.toList.head? ≠ some '#' ∧ input.toList.head? ≠ some '&') ∨ input.utf8ByteSize < 2 ∨
      input.toList.any fun c => isWhitespace c || c == ',' then none
  else some (toAsciiLowercase input)

/-- Whether a mask would match nearly everyone. -/
def tooWide (mask : String) (isRegex : Bool) : Bool :=
  let body := match mask.toList with
    | '#' :: body => body
    | '&' :: body => body
    | body => body
  body.isEmpty ||
    body.all fun c => c == '*' || c == '?' || c == '.' || c == '@' || (isRegex && c == '+')

/-! ### The commands -/

/-- A family of network bans: the line it sets and the masks it takes. -/
structure Xline where
  kind : XlineKind
  name : String
  normalize : String → Option String

def akillXline : Xline := ⟨.gline, "AKILL", normUserhost⟩
def sqlineXline : Xline := ⟨.qline, "SQLINE", normNick⟩
def snlineXline : Xline := ⟨.rline, "SNLINE", normRealname⟩
def shunXline : Xline := ⟨.shun, "SHUN", normUserhost⟩
def cbanXline : Xline := ⟨.cban, "CBAN", normChannel⟩

/-- The live network bans of a kind that is modelled, oldest first. -/
def Db.akills (now : Nat) (db : Db) : List (XlineKind × Akill) :=
  (db.net.akills.filter fun a => live now a.expires).filterMap fun a =>
    (XlineKind.fromWire a.kind).map fun kind => (kind, a)

/-- The registration bans of a kind that parses, oldest first. -/
def Db.forbids (db : Db) : List (ForbidKind × Forbid) :=
  db.net.forbids.filterMap fun f => (ForbidKind.fromName f.kind).map fun kind => (kind, f)

/-- What a command asks of the store. -/
inductive BanRequest where
  | ban (kind : XlineKind) (mask : String) (duration : Option Nat) (reason : String)
  | lift (kind : XlineKind) (mask : String)
  | forbid (kind : ForbidKind) (mask reason : String)
  | permit (kind : ForbidKind) (mask : String)
  deriving DecidableEq, Repr

/-- Words joined by single spaces. -/
def joinWords (words : List String) : String := " ".intercalate words

/-- `add`: a duration if there is one, the mask, and the reason. -/
def Xline.readAdd (x : Xline) (rest : List String) : Option BanRequest :=
  let duration := rest.head?.bind fun t =>
    if t.toList.head? = some '+' then parseDuration (String.ofList t.toList.tail) else none
  match if duration.isSome then rest.tail else rest with
  | [] => none
  | raw :: reasonWords =>
      match x.normalize raw with
      | none => none
      | some mask =>
          if reasonWords = [] then none
          else if tooWide mask (x.kind = .rline) then none
          else some (.ban x.kind mask duration (joinWords reasonWords))

/-- The live masks of this kind, in the order they are listed. -/
def Xline.mine (x : Xline) (now : Nat) (db : Db) : List String :=
  ((db.akills now).filter fun a => a.1 = x.kind).map fun a => a.2.mask

/-- `del`: a number of the list, or else a mask. -/
def Xline.readDel (x : Xline) (now : Nat) (db : Db) (arg : Option String) : Option BanRequest :=
  arg.bind fun arg =>
    let asMask := some (.lift x.kind ((x.normalize arg).getD arg))
    match parseUnsigned arg.toList with
    | some n => if 1 ≤ n then ((x.mine now db)[n - 1]?).map (.lift x.kind) else asMask
    | none => asMask

/-- `Xline::handle`, up to what it asks of the store. -/
def Xline.read (x : Xline) (now : Nat) (db : Db) (sender : Sender) (args : List String) :
    Option BanRequest :=
  if sender.oper then
    match args[1]?.map toAsciiUppercase with
    | some sub =>
        if sub = "ADD" then x.readAdd (args.drop 2)
        else if sub = "DEL" ∨ sub = "REMOVE" then x.readDel now db args[2]?
        else none
    | none => none
  else none

/-- `forbid::handle`, up to what it asks of the store. -/
def readForbid (sender : Sender) (args : List String) : Option BanRequest :=
  if sender.admin then
    match args[1]?.map toAsciiUppercase, args[2]?.bind ForbidKind.fromName, args[3]? with
    | some sub, some kind, some mask =>
        if sub = "ADD" then
          if args.length < 5 then none else some (.forbid kind mask (joinWords (args.drop 4)))
        else if sub = "DEL" ∨ sub = "REMOVE" then some (.permit kind mask)
        else none
    | _, _, _ => none
  else none

/-- The OperServ commands about ban lines. -/
def readOperServ (now : Nat) (db : Db) (sender : Sender) (args : List String) :
    Option BanRequest :=
  let named (name : String) : Bool := args.head?.any (eqIgnoreAsciiCase · name)
  if named "AKILL" then akillXline.read now db sender args
  else if named "SQLINE" then sqlineXline.read now db sender args
  else if named "SNLINE" then snlineXline.read now db sender args
  else if named "SHUN" then shunXline.read now db sender args
  else if named "CBAN" then cbanXline.read now db sender args
  else if named "FORBID" then readForbid sender args
  else none

/-- Ask the store, and send the line if it agrees. -/
def BanRequest.run (env : Env) (sender : Sender) : BanRequest → StateM Db (List LineAction)
  | .ban kind mask duration reason => do
      let setter := sender.account.getD sender.nick
      match ← (Db.akillAdd env kind mask setter reason (duration.map (expiryAfter env.now))).run with
      | .ok _ => return [.addLine kind.wire mask sender.nick (duration.getD 0) reason]
      | .error _ => return []
  | .lift kind mask => do
      match ← (Db.akillDel env kind mask).run with
      | .ok true => return [.delLine kind.wire mask]
      | .ok false | .error _ => return []
  | .forbid kind mask reason => do
      let setter := sender.account.getD sender.nick
      match ← (Db.forbidAdd env kind mask setter reason).run with
      | .ok _ =>
          -- A forbidden nick cannot be used either, not only not registered.
          return if kind = .nick then [.addLine XlineKind.qline.wire mask setter 0 reason] else []
      | .error _ => return []
  | .permit kind mask => do
      match ← (Db.forbidDel kind mask).run with
      | .ok true => return if kind = .nick then [.delLine XlineKind.qline.wire mask] else []
      | .ok false | .error _ => return []

/-- The lines the ircd is sent for an entry of another node (`gossip_ingest`). -/
def gossipLines : Except IoError (Option Db.IngestEffect) → List LineAction
  | .ok (some (.banAdded kind mask setter duration reason)) =>
      [.addLine kind mask setter duration reason]
  | .ok (some (.banLifted kind mask)) => [.delLine kind mask]
  | _ => []

/-- The lines asserted over a fresh link. -/
def startupLines (now : Nat) (db : Db) : List LineAction :=
  (db.akills now).map (fun (kind, a) =>
    .addLine kind.wire a.mask a.setter ((a.expires.map (· - now)).getD 0) a.reason) ++
  (db.forbids.filter (·.1 = .nick)).map fun (_, f) =>
    .addLine XlineKind.qline.wire f.mask f.setter 0 f.reason

/-! ### The ircd -/

/-- What the ircd knows a line by. -/
abbrev LineKey := String × String

/-- The ircd's lines, each with the moment it runs out. -/
abbrev Ircd := LineKey → Option (WithTop Nat)

/-- When a line set now for this long runs out. -/
def lineEnd (now duration : Nat) : WithTop Nat :=
  if duration = 0 then ⊤ else ((now + duration : Nat) : WithTop Nat)

variable (fold : String → String)

/-- What the ircd does. `fold` is how it compares masks. -/
def Ircd.take (now : Nat) (ircd : Ircd) : LineAction → Ircd
  | .addLine kind mask _ duration _ =>
      Function.update ircd (kind, fold mask) (some (lineEnd now duration))
  | .delLine kind mask => Function.update ircd (kind, fold mask) none

/-- The services and the ircd they are linked to. -/
structure Linked where
  db : Db
  now : Nat
  ircd : Ircd

/-- The surroundings of a call: of these, the mutators here read the clock. -/
def Linked.env (s : Linked) : Env := { Env.still with now := s.now }

/-- After the startup lines over a fresh link. -/
def Linked.burst (db : Db) (now : Nat) : Linked where
  db := db
  now := now
  ircd := (startupLines now db).foldl (Ircd.take fold now) fun _ => none

inductive LinkedStep where
  | wait (seconds : Nat)
  /-- What the file will answer to the next writes. -/
  | disk (outcomes : List Bool)
  | command (sender : Sender) (args : List String)
  /-- An entry of another node arrives. -/
  | peer (entry : LogEntry)

/-- The lines sent reach the ircd in their order. -/
def Linked.send (s : Linked) (db : Db) (actions : List LineAction) : Linked :=
  { s with db, ircd := actions.foldl (Ircd.take fold s.now) s.ircd }

def Linked.step (s : Linked) : LinkedStep → Linked
  | .wait seconds => { s with now := s.now + seconds }
  | .disk outcomes => { s with db := s.db.step (.faults outcomes) }
  | .command sender args =>
      match readOperServ s.now s.db sender args with
      | none => s
      | some request =>
          let (actions, db) := (request.run s.env sender).run s.db
          s.send fold db actions
  | .peer entry =>
      let (outcome, db) := (Db.ingest s.env entry).run.run s.db
      s.send fold db (gossipLines outcome)

/-! ### What the lines are to mirror -/

/-- The ircd enforces a line. -/
def Linked.Enforced (s : Linked) (line : LineKey) : Prop :=
  ∃ ends, s.ircd line = some ends ∧ (s.now : WithTop Nat) < ends

/-- The store wants a line: for a live network ban, or for a forbidden nick. -/
def Linked.Wanted (s : Linked) (line : LineKey) : Prop :=
  (∃ a ∈ s.db.net.akills, live s.now a.expires = true ∧ line = (a.kind, fold a.mask)) ∨
    ∃ f ∈ s.db.net.forbids,
      ForbidKind.fromName f.kind = some .nick ∧ line = (XlineKind.qline.wire, fold f.mask)

/-- The ircd enforces the lines the store wants, and no others. -/
def Linked.Mirrors (s : Linked) : Prop := ∀ line, s.Enforced line ↔ s.Wanted fold line

end Echo
