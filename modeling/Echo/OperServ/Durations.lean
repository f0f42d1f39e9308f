import Echo.Db.Written
import Echo.HostServ.Vhosts
import Echo.ChanServ.Agreement
import Echo.Login.Doors

/-!
Commands with an optional duration: OperServ's OPER, SPAMFILTER and network bans, SUSPEND of
NickServ and ChanServ, and HostServ's SET.

A duration that is none is not refused. It is passed over where it stands last, and where it
stands first it is taken for the argument behind it; either way what is stored is for good.
One that is too long comes round to a moment in the past.
-/

namespace Echo

open Echo.Lib

/-! ### Durations -/

/-- The number that decimal digits stand for. -/
def decimal (digits : List Char) : Nat :=
  digits.foldl (fun n c => n * 10 + (c.toNat - '0'.toNat)) 0

/-- The units of a duration, in seconds. -/
def durationUnits : List (List Char × Nat) :=
  [([], 1), (['s'], 1), (['S'], 1), (['m'], 60), (['M'], 60), (['h'], 3600), (['H'], 3600),
    (['d'], 86400), (['D'], 86400)]

/-- A number as it is written, with or without a sign. -/
def IsNumber (text : List Char) (n : Nat) : Prop :=
  ∃ sign digits, text = sign ++ digits ∧ (sign = [] ∨ sign = ['+']) ∧ digits ≠ [] ∧
    digits.all Char.isDigit = true ∧ n = decimal digits

/-- A text denotes so many seconds: it is a number and a unit. -/
def Denotes (text : List Char) (seconds : Nat) : Prop :=
  ∃ number unit n k, text = number ++ unit ∧ IsNumber number n ∧ (unit, k) ∈ durationUnits ∧
    seconds = n * k

theorem parseUnsigned_eq_some {text : List Char} {n : Nat} :
    parseUnsigned text = some n ↔ IsNumber text n ∧ n < 2 ^ 64 := by
  unfold parseUnsigned
  constructor
  · intro parsed
    dsimp only at parsed
    generalize unsigned : (if text.head? = some '+' then text.tail else text) = rest at parsed
    split at parsed
    · rename_i digits
      split at parsed
      · rename_i small
        cases parsed
        refine ⟨?_, small⟩
        by_cases signed : text.head? = some '+'
        · rw [if_pos signed] at unsigned
          obtain ⟨tail, rfl⟩ := List.head?_eq_some_iff.mp signed
          exact ⟨['+'], rest, congrArg _ unsigned, .inr rfl, digits.1, digits.2, rfl⟩
        · rw [if_neg signed] at unsigned
          exact ⟨[], rest, unsigned, .inl rfl, digits.1, digits.2, rfl⟩
      · cases parsed
    · cases parsed
  · rintro ⟨⟨sign, digits, rfl, signs, some_digit, all, rfl⟩, small⟩
    have rest : (if (sign ++ digits).head? = some '+' then (sign ++ digits).tail else sign ++ digits) =
        digits := by
      rcases signs with rfl | rfl
      · rw [List.nil_append, if_neg]
        intro signed
        obtain ⟨rest, rfl⟩ := List.head?_eq_some_iff.mp signed
        exact absurd (List.all_eq_true.mp all '+' List.mem_cons_self) (by decide)
      · rfl
    dsimp only
    rw [rest, if_pos ⟨some_digit, all⟩]
    exact if_pos small

/-- The number and the unit of a text, by its last character. -/
def durationParts (text : List Char) (last : Char) : Option (List Char × Nat) :=
  if last = 'd' ∨ last = 'D' then some (text.dropLast, 86400)
  else if last = 'h' ∨ last = 'H' then some (text.dropLast, 3600)
  else if last = 'm' ∨ last = 'M' then some (text.dropLast, 60)
  else if last = 's' ∨ last = 'S' then some (text.dropLast, 1)
  else if last.isDigit then some (text, 1)
  else none

theorem parseDuration_eq (s : String) : parseDuration s =
    s.toList.getLast?.bind fun last => (durationParts s.toList last).bind fun (num, k) =>
      (parseUnsigned num).bind fun n => if n * k < 2 ^ 64 then some (n * k) else none := by
  unfold parseDuration durationParts
  cases s.toList.getLast? with
  | none => rfl
  | some last =>
      rw [Option.bind_some]
      change (if last = 'd' ∨ last = 'D' then _ else _ : Option Nat) = _
      by_cases day : last = 'd' ∨ last = 'D'
      · rw [if_pos day, if_pos day]
        rfl
      rw [if_neg day, if_neg day]
      by_cases hour : last = 'h' ∨ last = 'H'
      · rw [if_pos hour, if_pos hour]
        rfl
      rw [if_neg hour, if_neg hour]
      by_cases minute : last = 'm' ∨ last = 'M'
      · rw [if_pos minute, if_pos minute]
        rfl
      rw [if_neg minute, if_neg minute]
      by_cases second : last = 's' ∨ last = 'S'
      · rw [if_pos second, if_pos second]
        rfl
      rw [if_neg second, if_neg second]
      by_cases digit : last.isDigit = true
      · rw [if_pos digit, if_pos digit]
        rfl
      · rw [if_neg digit, if_neg digit]
        rfl

theorem durationParts_digit {text : List Char} {last : Char} (digit : last.isDigit = true) :
    durationParts text last = some (text, 1) := by
  unfold durationParts
  rw [if_neg, if_neg, if_neg, if_neg, if_pos digit]
  all_goals rintro (rfl | rfl) <;> cases digit

theorem durationParts_eq_some {front number : List Char} {last : Char} {k : Nat}
    (parts : durationParts (front ++ [last]) last = some (number, k)) :
    ∃ unit, front ++ [last] = number ++ unit ∧ (unit, k) ∈ durationUnits := by
  unfold durationParts at parts
  rw [List.dropLast_concat] at parts
  split at parts
  · rename_i letter
    cases parts
    rcases letter with rfl | rfl <;> exact ⟨_, rfl, by decide⟩
  · split at parts
    · rename_i letter
      cases parts
      rcases letter with rfl | rfl <;> exact ⟨_, rfl, by decide⟩
    · split at parts
      · rename_i letter
        cases parts
        rcases letter with rfl | rfl <;> exact ⟨_, rfl, by decide⟩
      · split at parts
        · rename_i letter
          cases parts
          rcases letter with rfl | rfl <;> exact ⟨_, rfl, by decide⟩
        · split at parts
          · cases parts
            exact ⟨[], (List.append_nil _).symm, by decide⟩
          · cases parts

theorem durationParts_unit (number : List Char) {unit : List Char} {k : Nat} (listed : (unit, k) ∈ durationUnits)
    (some_unit : unit ≠ []) : ∃ last, (number ++ unit).getLast? = some last ∧
      durationParts (number ++ unit) last = some (number, k) := by
  obtain ⟨last, rfl⟩ : ∃ last, unit = [last] := by
    unfold durationUnits at listed
    simp only [List.mem_cons, Prod.mk.injEq, List.not_mem_nil, or_false] at listed
    rcases listed with ⟨rfl, _⟩ | ⟨rfl, _⟩ | ⟨rfl, _⟩ | ⟨rfl, _⟩ | ⟨rfl, _⟩ | ⟨rfl, _⟩ | ⟨rfl, _⟩ |
      ⟨rfl, _⟩ | ⟨rfl, _⟩
    · exact absurd rfl some_unit
    all_goals exact ⟨_, rfl⟩
  refine ⟨last, List.getLast?_concat, ?_⟩
  unfold durationParts
  rw [List.dropLast_concat]
  unfold durationUnits at listed
  simp only [List.mem_cons, Prod.mk.injEq, List.cons.injEq, and_true, List.not_mem_nil, or_false,
    reduceCtorEq, false_and, false_or] at listed
  rcases listed with ⟨rfl, rfl⟩ | ⟨rfl, rfl⟩ | ⟨rfl, rfl⟩ | ⟨rfl, rfl⟩ | ⟨rfl, rfl⟩ | ⟨rfl, rfl⟩ |
    ⟨rfl, rfl⟩ | ⟨rfl, rfl⟩ <;> rfl

/-- What is parsed is what a text denotes, if it fits a 64-bit number. -/
theorem parseDuration_eq_some {s : String} {n : Nat} :
    parseDuration s = some n ↔ Denotes s.toList n ∧ n < 2 ^ 64 := by
  rw [parseDuration_eq]
  constructor
  · intro parsed
    obtain ⟨last, ends, rest⟩ := Option.bind_eq_some_iff.mp parsed
    obtain ⟨⟨number, k⟩, parts, rest⟩ := Option.bind_eq_some_iff.mp rest
    obtain ⟨m, read, rest⟩ := Option.bind_eq_some_iff.mp rest
    split at rest
    · rename_i small
      cases rest
      obtain ⟨front, same⟩ := List.getLast?_eq_some_iff.mp ends
      rw [same] at parts ⊢
      obtain ⟨unit, whole, listed⟩ := durationParts_eq_some parts
      exact ⟨⟨number, unit, m, k, whole, (parseUnsigned_eq_some.mp read).1, listed, rfl⟩, small⟩
    · cases rest
  · rintro ⟨⟨number, unit, m, k, whole, written, listed, rfl⟩, small⟩
    have positive : 0 < k := by
      revert k
      unfold durationUnits
      intro k listed _
      simp only [List.mem_cons, Prod.mk.injEq, List.not_mem_nil, or_false] at listed
      omega
    have read : parseUnsigned number = some m :=
      parseUnsigned_eq_some.mpr ⟨written, lt_of_le_of_lt (Nat.le_mul_of_pos_right m positive) small⟩
    by_cases bare : unit = []
    · subst bare
      have one : k = 1 := by
        unfold durationUnits at listed
        simpa using listed
      subst one
      rw [List.append_nil] at whole
      obtain ⟨sign, digits, same, -, some_digit, all, -⟩ := written
      obtain ⟨front, last, eq⟩ := (List.eq_nil_or_concat digits).resolve_left some_digit
      have digit : last.isDigit = true := List.all_eq_true.mp all last (by rw [eq]; simp)
      have ends : s.toList.getLast? = some last := by
        rw [whole, same, eq, List.concat_eq_append, ← List.append_assoc, List.getLast?_concat]
      rw [ends, Option.bind_some, durationParts_digit digit, Option.bind_some, whole]
      dsimp only
      rw [read, Option.bind_some]
      exact if_pos small
    · obtain ⟨last, ends, parts⟩ := durationParts_unit number listed bare
      rw [whole, ends, Option.bind_some, parts, Option.bind_some]
      dsimp only
      rw [read, Option.bind_some]
      exact if_pos small

/-! ### The commands -/

namespace ChanServ.Priv

def name : Priv → String
  | .auspex => "auspex"
  | .oper => "oper"
  | .suspend => "suspend"
  | .admin => "admin"
  | .root => "root"

/-- Parse a privilege's name, or its tier's. -/
def fromName (s : String) : Option Priv :=
  let s := toAsciiLowercase s
  if s = "auspex" then some .auspex
  else if s = "oper" ∨ s = "operator" then some .oper
  else if s = "suspend" then some .suspend
  else if s = "admin" ∨ s = "administrator" then some .admin
  else if s = "root" then some .root
  else none

end ChanServ.Priv

/-- A duration behind a plus sign. -/
def plusDuration (t : String) : Option Nat :=
  if t.toList.head? = some '+' then parseDuration (String.ofList t.toList.tail) else none

/-- The mask and the reason behind the duration of a network ban. -/
def Xline.readMask (x : Xline) : List String → Option (String × String)
  | [] => none
  | raw :: reasonWords =>
      match x.normalize raw with
      | none => none
      | some mask =>
          if reasonWords = [] then none
          else if tooWide mask (x.kind = .rline) then none
          else some (mask, joinWords reasonWords)

section Commands

variable (env : Env) («from» : ChanServ.Sender) (args rest : List String) (db : Db)

namespace OperServ

/-- The names of privileges, all of them known and at least one. -/
def readPrivs (privs : String) : Option (List String) :=
  let names := ((privs.toList.splitOn ',').map (trim ∘ String.ofList)).filter (· ≠ "")
  let known := names.mapM fun p => (ChanServ.Priv.fromName p).map ChanServ.Priv.name
  known.filter (· ≠ [])

/-- `OPER ADD <account> <priv[,priv]> [+duration]`, but for the duration. -/
def readOper : Option (String × List String) :=
  if !«from».privs.has .root then none
  else
    match args[2]?, args[3]? with
    | some account, some privs =>
        (db.resolveAccount account).bind fun account => (readPrivs privs).map fun names => (account, names)
    | _, _ => none

def oper : Db :=
  match readOper «from» args db with
  | none => db
  | some (account, names) =>
      let expires := (args[4]?.bind plusDuration).map (expiryAfter env.now)
      ((Db.operGrant account names expires).run db).2

/-- What the ircd may do to a message that a filter matches. -/
def FILTER_ACTIONS : List String :=
  ["gline", "zline", "block", "silent", "kill", "shun", "warn", "none"]

def DEFAULT_FLAGS : String := "*"

/-- The pattern and the reason behind the duration of `SPAMFILTER ADD`. -/
def readFilter (rest : List String) : Option (String × String) :=
  match rest with
  | [] => none
  | pattern :: reasonWords =>
      if reasonWords = [] then none
      else if pattern.toList.all fun c => ".*+?".toList.contains c then none
      else some (pattern, joinWords reasonWords)

/-- `SPAMFILTER ADD <action> [+expiry] <regex> <reason>` -/
def spamfilter : Db :=
  if !«from».privs.has .oper then db
  else
    match args.drop 2 with
    | [] => db
    | action :: rest =>
        if !FILTER_ACTIONS.any (eqIgnoreAsciiCase · action) then db
        else
          let duration := rest.head?.bind plusDuration
          match readFilter (if duration.isSome then rest.tail else rest) with
          | none => db
          | some (pattern, reason) =>
              ((Db.filterAdd env pattern action DEFAULT_FLAGS («from».account.getD «from».nick) reason
                (duration.map (expiryAfter env.now))).run.run db).2

/-- `ADD [+expiry] <mask> <reason>` of a network ban. -/
def xline (x : Xline) : Db :=
  if !«from».privs.has .oper then db
  else
    match x.readAdd (args.drop 2) with
    | none => db
    | some request =>
        ((request.run env ⟨«from».nick, «from».account, true, «from».privs.has .admin⟩).run db).2

end OperServ

namespace NickServ

/-- `SUSPEND <account> [+expiry] [reason]` -/
def suspend : Db :=
  if !«from».privs.has .suspend then db
  else
    match args[1]?.bind db.resolveAccount with
    | none => db
    | some account =>
        let rest := args.drop 2
        let expires := (rest.head?.bind plusDuration).map (expiryAfter env.now)
        let words := if expires.isSome then rest.tail else rest
        let reason := if words.isEmpty then "No reason given." else joinWords words
        ((Db.suspendAccount env account («from».account.getD «from».nick) reason expires).run.run db).2

end NickServ

end Commands

/-! ### What a duration comes to -/

/-- The expiry that an event stores, where it has one. -/
def Event.expiry : Event → Option (Option Nat)
  | .operGranted _ _ expires | .vhostSet _ _ _ _ expires | .akillAdded _ _ _ _ _ expires
  | .filterAdded _ _ _ _ _ _ expires | .channelSuspended _ _ _ _ expires
  | .accountSuspended _ _ _ _ expires => some expires
  | _ => none

/-- A command with an optional duration, taken apart. -/
structure Timed where
  /-- What stands where the duration may. -/
  token : Option String
  /-- A duration is written behind a plus sign. -/
  plus : Bool
  /-- The other arguments where the token is a duration, and where it is none. -/
  taken : List String
  left : List String
  /-- What the other arguments come to: an event, which waits for its expiry. -/
  checks : List String → Option (Option Nat → Event)
  /-- Whether a write that the file refuses ends the command. -/
  strict : Bool

namespace Timed

variable (t : Timed) (now : Nat) (writable : Bool)

/-- The duration as the command reads it. -/
def seconds : Option Nat := t.token.bind fun token =>
  if t.plus then plusDuration token else parseDuration token

/-- What is behind the duration, or takes its place. -/
def accepted : Option (Option Nat → Event) :=
  (t.checks (if t.seconds.isSome then t.taken else t.left)).filter fun _ => !t.strict || writable

/-- The event that the command stores. -/
def stored : Option Event :=
  (t.accepted writable).map fun event => event (t.seconds.map (expiryAfter now))

/-- How many seconds a token denotes. -/
def TokenDenotes (token : String) (n : Nat) : Prop :=
  if t.plus then ∃ text, token.toList = '+' :: text ∧ Denotes text n else Denotes token.toList n

/-- With a token in the duration's place, a command stores nothing, or what runs out the
seconds from now that the token denotes. -/
def Temporary : Prop :=
  ∀ token, t.token = some token → t.stored now writable = none ∨
    ∃ event n, t.stored now writable = some event ∧ t.TokenDenotes token n ∧
      event.expiry = some (some (now + n))

/-- The other arguments are refused, or the token is a duration and its end fits the clock. -/
def Lasts : Prop :=
  ∀ token, t.token = some token → t.accepted writable = none ∨
    ∃ n, t.TokenDenotes token n ∧ now + n < 2 ^ 64

/-- The checks come to events with the expiry they wait for. -/
def Waits : Prop := ∀ words event, t.checks words = some event → ∀ d, (event d).expiry = some d

variable {t now writable}

theorem seconds_eq_some {token : String} (here : t.token = some token) {n : Nat} :
    t.seconds = some n ↔ t.TokenDenotes token n ∧ n < 2 ^ 64 := by
  unfold seconds TokenDenotes
  rw [here, Option.bind_some]
  by_cases plus : t.plus = true
  · rw [if_pos plus, if_pos plus]
    unfold plusDuration
    constructor
    · intro parsed
      split at parsed
      · rename_i signed
        obtain ⟨text, same⟩ := List.head?_eq_some_iff.mp signed
        rw [same, List.tail_cons] at parsed
        obtain ⟨denotes, small⟩ := parseDuration_eq_some.mp parsed
        rw [String.toList_ofList] at denotes
        exact ⟨⟨text, same, denotes⟩, small⟩
      · cases parsed
    · rintro ⟨⟨text, same, denotes⟩, small⟩
      rw [same]
      refine (if_pos rfl).trans (parseDuration_eq_some.mpr ⟨?_, small⟩)
      rw [List.tail_cons, String.toList_ofList]
      exact denotes
  · rw [if_neg plus, if_neg plus]
    exact parseDuration_eq_some

/-- A command is temporary exactly where its duration lasts. -/
theorem temporary_iff (waits : t.Waits) : t.Temporary now writable ↔ t.Lasts now writable := by
  refine forall_congr' fun token => forall_congr' fun here => ?_
  unfold stored
  cases comes : t.accepted writable with
  | none => exact ⟨fun _ => .inl rfl, fun _ => .inl rfl⟩
  | some event =>
      have expires : ∀ d, (event d).expiry = some d :=
        waits _ event (Option.filter_eq_some_iff.mp comes).1
      constructor
      · rintro (refused | ⟨stored, n, same, denotes, expiry⟩)
        · cases refused
        · cases same
          rw [expires, Option.some.injEq] at expiry
          obtain ⟨m, read, sum⟩ := Option.map_eq_some_iff.mp expiry
          unfold expiryAfter at sum
          have small : now + n < 2 ^ 64 := sum ▸ Nat.mod_lt _ (by decide)
          exact .inr ⟨n, denotes, small⟩
      · rintro (refused | ⟨n, denotes, small⟩)
        · cases refused
        · have read : t.seconds = some n := (seconds_eq_some here).mpr ⟨denotes, by omega⟩
          refine .inr ⟨_, n, rfl, denotes, ?_⟩
          rw [expires, read, Option.map_some, expiryAfter, Nat.mod_eq_of_lt small]

end Timed

/-- A command that may be given a duration. -/
inductive TimedCommand where
  /-- OPER ADD -/
  | operAdd («from» : ChanServ.Sender) (args : List String)
  /-- HostServ's SET -/
  | vhostSet («from» : ChanServ.Sender) (args : List String)
  /-- ADD of AKILL, SQLINE, SNLINE, SHUN or CBAN -/
  | lineAdd (x : Xline) («from» : ChanServ.Sender) (args : List String)
  /-- SPAMFILTER ADD -/
  | filterAdd («from» : ChanServ.Sender) (args : List String)
  /-- NickServ's SUSPEND -/
  | suspendAccount («from» : ChanServ.Sender) (args : List String)
  /-- ChanServ's SUSPEND, with the engine around the store -/
  | suspendChannel (c : ChanServ.Call) (e : Engine) (args : List String)

namespace TimedCommand

/-- What a command leaves of the store. -/
def run (env : Env) (db : Db) : TimedCommand → Db
  | operAdd «from» args => OperServ.oper env «from» args db
  | vhostSet «from» args => HostServ.perform env db ((HostServ.set env «from» args db).map HostServ.Grant.call)
  | lineAdd x «from» args => OperServ.xline env «from» args db x
  | filterAdd «from» args => OperServ.spamfilter env «from» args db
  | suspendAccount «from» args => NickServ.suspend env «from» args db
  | suspendChannel c e args =>
      ((ChanServ.handleSuspend { c with env } true args).run { engine := { e with db } }).2.engine.db

/-- A token that is a duration only behind a plus sign stands first of the rest. -/
def leading (rest : List String) (checks : List String → Option (Option Nat → Event)) : Timed where
  token := rest.head?.filter fun t => t.toList.head? = some '+'
  plus := true
  taken := rest.tail
  left := rest
  checks := checks
  strict := true

def parts (env : Env) (db : Db) : TimedCommand → Timed
  | operAdd «from» args =>
      { token := args[4]?, plus := true, taken := args, left := args, strict := false
        checks := fun args => (OperServ.readOper «from» args db).map fun (account, names) expires =>
          .operGranted account names expires }
  | vhostSet «from» args =>
      { token := args[3]?, plus := false, taken := args, left := args, strict := true
        checks := fun args => (HostServ.readSet env «from» args db).map fun (account, host) expires =>
          .vhostSet account host «from».nick env.now expires }
  | lineAdd x «from» args =>
      leading (args.drop 2) fun rest =>
        if !«from».privs.has .oper then none
        else (x.readMask rest).map fun (mask, reason) expires =>
          .akillAdded x.kind.wire mask («from».account.getD «from».nick) reason env.now expires
  | filterAdd «from» args =>
      leading (args.drop 3) fun rest =>
        if !«from».privs.has .oper then none
        else (args[2]?.filter fun action => OperServ.FILTER_ACTIONS.any (eqIgnoreAsciiCase · action)).bind
          fun action => (OperServ.readFilter rest).map fun (pattern, reason) expires =>
            .filterAdded pattern action OperServ.DEFAULT_FLAGS reason
              («from».account.getD «from».nick) env.now expires
  | suspendAccount «from» args =>
      leading (args.drop 2) fun rest =>
        if !«from».privs.has .suspend then none
        else ((args[1]?.bind db.resolveAccount).filter fun account => db.accounts.contains (key account)).map
          fun account expires => .accountSuspended account («from».account.getD «from».nick)
            (if rest.isEmpty then "No reason given." else joinWords rest) env.now expires
  | suspendChannel c _ args =>
      leading (args.drop 2) fun rest =>
        if !c.from.privs.has .suspend then none
        else (args[1]?.filter fun chan => (db.channel chan).isSome).map fun chan expires =>
          .channelSuspended chan (c.from.account.getD c.from.nick)
            (if rest.isEmpty then "This channel has been suspended." else joinWords rest) env.now expires

variable {env : Env} {db : Db} {«from» : ChanServ.Sender} {args : List String}

theorem plusDuration_head (rest : List String) :
    ((rest.head?.filter fun t => t.toList.head? = some '+').bind plusDuration) =
      rest.head?.bind plusDuration := by
  cases rest.head? with
  | none => rfl
  | some t =>
      rw [Option.filter_some]
      by_cases signed : t.toList.head? = some '+'
      · rw [if_pos (by simpa using signed)]
      · rw [if_neg (by simpa using signed)]
        exact (if_neg signed).symm

theorem waits_parts (cmd : TimedCommand) : (cmd.parts env db).Waits := by
  intro words event comes d
  cases cmd with
  | operAdd «from» args =>
      obtain ⟨_, -, rfl⟩ := Option.map_eq_some_iff.mp comes
      rfl
  | vhostSet «from» args =>
      obtain ⟨_, -, rfl⟩ := Option.map_eq_some_iff.mp comes
      rfl
  | lineAdd x «from» args =>
      change (if !«from».privs.has .oper then none else _) = some event at comes
      split at comes
      · cases comes
      · obtain ⟨_, -, rfl⟩ := Option.map_eq_some_iff.mp comes
        rfl
  | filterAdd «from» args =>
      change (if !«from».privs.has .oper then none else _) = some event at comes
      split at comes
      · cases comes
      · obtain ⟨_, -, rest⟩ := Option.bind_eq_some_iff.mp comes
        obtain ⟨_, -, rfl⟩ := Option.map_eq_some_iff.mp rest
        rfl
  | suspendAccount «from» args =>
      change (if !«from».privs.has .suspend then none else _) = some event at comes
      split at comes
      · cases comes
      · obtain ⟨_, -, rfl⟩ := Option.map_eq_some_iff.mp comes
        rfl
  | suspendChannel c e args =>
      change (if !c.from.privs.has .suspend then none else _) = some event at comes
      split at comes
      · cases comes
      · obtain ⟨_, -, rfl⟩ := Option.map_eq_some_iff.mp comes
        rfl

/-- What the records are after a command, by the event that it stores. -/
def Stores (env : Env) (db : Db) (cmd : TimedCommand) : Prop :=
  (cmd.run env db).toStore =
    ((cmd.parts env db).stored env.now db.log.writable).elim db.toStore (apply db.toStore)

theorem stores_operAdd : (operAdd «from» args).Stores env db := by
  unfold Stores run OperServ.oper parts Timed.stored Timed.accepted Timed.seconds
  dsimp only
  rw [ite_self]
  cases OperServ.readOper «from» args db with
  | none => rfl
  | some both =>
      change ((Db.operGrant both.1 both.2 _).run db).2.toStore = _
      unfold Db.operGrant
      rw [Db.run_quietly]
      rfl

theorem stored_leading {rest : List String} {checks : List String → Option (Option Nat → Event)}
    {now : Nat} {writable : Bool} :
    (leading rest checks).stored now writable =
      ((checks (if (rest.head?.bind plusDuration).isSome then rest.tail else rest)).filter
        fun _ => writable).map fun event => event ((rest.head?.bind plusDuration).map (expiryAfter now)) := by
  unfold Timed.stored Timed.accepted Timed.seconds leading
  dsimp only
  simp only [if_true, Bool.not_true, Bool.false_or]
  rw [plusDuration_head]

theorem contains_of_readSet {both : String × String} (reads : HostServ.readSet env «from» args db = some both) :
    db.accounts.contains (key both.1) = true := by
  unfold HostServ.readSet at reads
  split at reads
  · cases reads
  · split at reads
    · split at reads
      · cases reads
      · rename_i known
        obtain ⟨host, -, rfl⟩ := Option.map_eq_some_iff.mp reads
        rw [Std.ExtTreeMap.contains_eq_isSome_getElem?]
        exact Option.isSome_iff_ne_none.mpr fun absent => known (Option.isNone_iff_eq_none.mpr absent)
    · cases reads

theorem stores_vhostSet : (vhostSet «from» args).Stores env db := by
  unfold Stores run HostServ.set parts Timed.stored Timed.accepted Timed.seconds
  dsimp only
  rw [ite_self]
  cases reads : HostServ.readSet env «from» args db with
  | none => rfl
  | some both =>
      have known : db.accounts.contains (key both.1) = true := contains_of_readSet reads
      change ((Db.setVhost env both.1 both.2 «from».nick _).run.run db).2.toStore = _
      unfold Db.setVhost
      rw [Db.toStore_writeAccount, known]
      cases db.log.writable <;> rfl

theorem readAdd_eq {x : Xline} {rest : List String} :
    x.readAdd rest =
      (x.readMask (if (rest.head?.bind plusDuration).isSome then rest.tail else rest)).map
        fun (mask, reason) => .ban x.kind mask (rest.head?.bind plusDuration) reason := by
  unfold Xline.readAdd
  change (match if (rest.head?.bind plusDuration).isSome then rest.tail else rest with
    | [] => none
    | raw :: reasonWords => _ : Option BanRequest) = _
  generalize (if (rest.head?.bind plusDuration).isSome then rest.tail else rest) = words
  cases words with
  | nil => rfl
  | cons raw reasonWords =>
      unfold Xline.readMask
      dsimp only
      cases x.normalize raw with
      | none => rfl
      | some mask =>
          dsimp only
          split
          · rfl
          · split <;> rfl

theorem run_ban {sender : Sender} {kind : XlineKind} {mask reason : String} {duration : Option Nat} :
    (((BanRequest.ban kind mask duration reason).run env sender).run db).2 =
      ((Db.akillAdd env kind mask (sender.account.getD sender.nick) reason
        (duration.map (expiryAfter env.now))).run.run db).2 := by
  unfold BanRequest.run
  dsimp only
  rw [StateT.run_bind]
  rcases (Db.akillAdd env kind mask (sender.account.getD sender.nick) reason
    (duration.map (expiryAfter env.now))).run.run db with ⟨_ | _, t⟩ <;> rfl

theorem stores_lineAdd {x : Xline} : (lineAdd x «from» args).Stores env db := by
  unfold Stores run OperServ.xline parts
  dsimp only
  rw [stored_leading]
  by_cases privileged : «from».privs.has .oper = true
  · rw [privileged, Bool.not_true, if_neg Bool.false_ne_true, if_neg Bool.false_ne_true, readAdd_eq]
    generalize (args.drop 2).head?.bind plusDuration = seconds
    cases x.readMask (if seconds.isSome then (args.drop 2).tail else args.drop 2) with
    | none => rfl
    | some both =>
        dsimp only [Option.map_some]
        rw [run_ban]
        unfold Db.akillAdd
        rw [Db.toStore_lineAdd]
        cases db.log.writable <;> rfl
  · rw [Bool.not_eq_true] at privileged
    rw [privileged]
    rfl

theorem stores_filterAdd : (filterAdd «from» args).Stores env db := by
  unfold Stores run OperServ.spamfilter parts
  dsimp only
  have third : args[2]? = (args.drop 2).head? := List.head?_drop.symm
  have behind : args.drop 3 = (args.drop 2).tail := List.tail_drop.symm
  rw [stored_leading, third, behind]
  by_cases privileged : «from».privs.has .oper = true
  · rw [privileged, Bool.not_true, if_neg Bool.false_ne_true, if_neg Bool.false_ne_true]
    cases args.drop 2 with
    | nil => rfl
    | cons action rest =>
        dsimp only
        rw [List.head?_cons, Option.filter_some, List.tail_cons]
        cases OperServ.FILTER_ACTIONS.any (eqIgnoreAsciiCase · action) with
        | false => rfl
        | true =>
            rw [Bool.not_true, if_neg Bool.false_ne_true, if_pos rfl, Option.bind_some]
            generalize rest.head?.bind plusDuration = seconds
            cases OperServ.readFilter (if seconds.isSome then rest.tail else rest) with
            | none => rfl
            | some both =>
                dsimp only [Option.map_some]
                unfold Db.filterAdd
                rw [Db.toStore_lineAdd]
                cases db.log.writable <;> rfl
  · rw [Bool.not_eq_true] at privileged
    rw [privileged]
    rfl

theorem stores_suspendAccount : (suspendAccount «from» args).Stores env db := by
  unfold Stores run NickServ.suspend parts
  dsimp only
  rw [stored_leading]
  by_cases privileged : «from».privs.has .suspend = true
  · rw [privileged, Bool.not_true, if_neg Bool.false_ne_true, if_neg Bool.false_ne_true]
    cases args[1]?.bind db.resolveAccount with
    | none => rfl
    | some account =>
        dsimp only
        rw [Option.isSome_map]
        unfold Db.suspendAccount
        rw [Db.toStore_writeAccount, Option.filter_some]
        cases db.accounts.contains (key account) with
        | false => rfl
        | true => cases db.log.writable <;> rfl
  · rw [Bool.not_eq_true] at privileged
    rw [privileged]
    rfl

theorem engine_forM_kick {c : ChanServ.Call} {chan reason : String} {uids : List String} {x : ChanServ.Ctx} :
    ((uids.forM fun uid => ChanServ.kick c.me chan uid reason).run x).2.engine = x.engine := by
  induction uids generalizing x with
  | nil => rfl
  | cons uid uids ih =>
      rw [List.forM_eq_forM, List.forM_cons]
      exact ih (x := ((ChanServ.kick c.me chan uid reason).run x).2)

/-- A call whose answer is only told of leaves what it leaves itself. -/
theorem engine_answer_of {c : ChanServ.Call} {α : Type} {call : DbM ChanError α} {done : α → ChanServ.Cmd Unit}
    {x : ChanServ.Ctx} (told : ∀ a t, ((done a).run t).2.engine = t.engine) :
    ((ChanServ.answer c call done).run x).2.engine = (x.engine.withDb call).1 := by
  rw [ChanServ.engine_answer]
  rcases x.engine.withDb call with ⟨e, _ | a⟩
  · rfl
  · exact told a _

theorem stores_suspendChannel {c : ChanServ.Call} {e : Engine} :
    (suspendChannel c e args).Stores env db := by
  unfold Stores run ChanServ.handleSuspend parts
  dsimp only
  rw [stored_leading]
  by_cases privileged : c.from.privs.has .suspend = true
  · rw [privileged, Bool.not_true, if_neg Bool.false_ne_true, if_neg Bool.false_ne_true]
    cases args[1]? with
    | none => rfl
    | some chan =>
        rw [Option.filter_some]
        cases known : db.channel chan with
        | none =>
            dsimp only
            rw [ChanServ.run_withChannel_none known]
            rfl
        | some info =>
            rw [ChanServ.run_withChannel known]
            have held : db.channels.contains (key chan) = true := by
              rw [Std.ExtTreeMap.contains_eq_isSome_getElem?]
              exact Option.isSome_of_eq_some known
            rw [if_pos rfl]
            refine (congrArg (·.db.toStore) (engine_answer_of fun _ t => ?_)).trans ?_
            · exact engine_forM_kick (x := t)
            change ((Db.suspendChannel _ _ _ _ _).run.run db).2.toStore = _
            unfold Db.suspendChannel
            rw [Db.toStore_writeChannel, held, Option.isSome_map]
            cases db.log.writable <;> rfl
  · rw [Bool.not_eq_true] at privileged
    rw [privileged]
    rfl

theorem stores (cmd : TimedCommand) : cmd.Stores env db := by
  cases cmd with
  | operAdd => exact stores_operAdd
  | vhostSet => exact stores_vhostSet
  | lineAdd => exact stores_lineAdd
  | filterAdd => exact stores_filterAdd
  | suspendAccount => exact stores_suspendAccount
  | suspendChannel => exact stores_suspendChannel

/-- Temporary is temporary exactly where the other arguments are refused, or the token denotes
a duration that ends within the clock's 64 bits. -/
theorem temporary_iff_lasts (env : Env) (db : Db) (cmd : TimedCommand) :
    cmd.Stores env db ∧
      ((cmd.parts env db).Temporary env.now db.log.writable ↔
        (cmd.parts env db).Lasts env.now db.log.writable) :=
  ⟨cmd.stores, Timed.temporary_iff cmd.waits_parts⟩

/-- Alice has registered. -/
def registered : Db :=
  after Db.step (Db.fresh "a") [.call .still (.registerPrepared "alice" ⟨"v", "v", @rfl Bool false⟩ none)]

def root : ChanServ.Sender := ⟨"1", "root", none, ⟨[.root]⟩⟩

/-- A plus sign short: alice is an administrator for good. -/
theorem temporary_for_good :
    ¬ ∀ (env : Env) (db : Db) (cmd : TimedCommand),
      (cmd.parts env db).Temporary env.now db.log.writable := by
  intro temporary
  have grants :
      (((operAdd root ["OPER", "ADD", "alice", "admin", "30d"]).parts .still registered).stored
        Env.still.now registered.log.writable).map Event.expiry = some (some none) := by decide +kernel
  rcases temporary .still registered (.operAdd root ["OPER", "ADD", "alice", "admin", "30d"]) "30d" rfl with
    refused | ⟨event, n, stored, -, expiry⟩
  · rw [refused] at grants
    cases grants
  · rw [stored, Option.map_some, expiry] at grants
    cases grants

end TimedCommand

end Echo
