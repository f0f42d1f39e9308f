import Echo.Db.File
import Echo.Lib.Splitting

/-!
Lines of the uplink that carry a credential, as `InspIrcd::parse` takes them
apart: messages to a service, and the SASL exchange and the account registrations
that the ircd relays. A line is the list of its characters.
-/

namespace Echo

open Echo.Lib

def lowercase (text : List Char) : List Char := text.map Char.toLower

def uppercase (text : List Char) : String := String.ofList (text.map Char.toUpper)

/-! ### Events -/

/-- What a line is parsed into. -/
inductive NetEvent where
  | privmsg (sender target text : List Char) (msgid : Option (List Char))
  | sasl (client agent mode : List Char) (data : List (List Char))
  | accountRequest (reqid origin kind account p2 p3 : List Char)
  | unknown (line : List Char)
  /-- Any event of a verb that carries no credential. -/
  | other
  deriving DecidableEq, Repr

/-- The last parameter: all that follows the first ` :`, or else the last word. -/
def trailing (rest : List Char) : List Char :=
  match splitOnce " :".toList rest with
  | some (_, text) => text
  | none => (rest.splitOn ' ').getLastD []

/-- Split at the first space, where all comes before it if there is none. -/
def firstToken (line : List Char) : List Char × List Char :=
  (splitOnce " ".toList line).getD (line, [])

/-- The event of a line by its verb, past its tags and its source. -/
def parseVerb (line : List Char) (source : Option (List Char)) (rest : List Char)
    (msgid : Option (List Char)) : List NetEvent :=
  match rest.splitOn ' ' with
  | [] => []
  | cmd :: tokens =>
      match uppercase cmd with
      | "PRIVMSG" | "SQUERY" =>
          [.privmsg (source.getD []) (tokens.headD []) (trailing rest) msgid]
      | "ENCAP" =>
          match tokens.tail.head?.map uppercase with
          | some "SWACCTREG" =>
              match (tokens.drop 2).take 5 with
              | [reqid, origin, kind, account, p2] =>
                  [.accountRequest reqid origin kind account p2 (trailing rest)]
              | _ => []
          | some "SASL" =>
              match tokens.drop 2 with
              | client :: agent :: mode :: data => [.sasl client agent mode data]
              | _ => []
          | _ => [.unknown line]
      | _ => [.other]

def parse (line : List Char) : List NetEvent :=
  -- The message tags, `@k=v;…`.
  let (tagPrefix, line) :=
    match line with
    | '@' :: rest => firstToken rest
    | _ => ([], line)
  let msgid := (tagPrefix.splitOn ';').findSome? ("msgid=".toList.isPrefixOf? ·)
  match line with
  | ':' :: s =>
      let (source, rest) := firstToken s
      parseVerb line (some source) rest msgid
  | _ => parseVerb line none line msgid

/-! ### Credentials -/

/-- Which word of a command NickServ takes for a password, be it the sender's or
the one to set. -/
def passwordAt (args : List (List Char)) : Option Nat :=
  let sub (i : Nat) : String := uppercase (args.getD i [])
  match uppercase (args.headD []) with
  | "REGISTER" | "DROP" => some 1
  | "IDENTIFY" | "ID" => if args.length ≤ 2 then some 1 else some 2
  | "LOGIN" | "GROUP" | "GHOST" | "RECOVER" | "SAREGISTER" => some 2
  | "CERT" => if ["ADD", "DEL", "REMOVE", "LIST"].contains (sub 1) then some 2 else none
  | "SET" => if ["PASSWORD", "PASS"].contains (sub 1) then some 2 else none
  | "SASET" => if ["PASSWORD", "PASS"].contains (sub 2) then some 3 else none
  | "RESETPASS" => some 3
  | _ => none

/-- Whether a message is for the service with that uid and nick. -/
def addressed (uid nick target : List Char) : Bool :=
  target.head? != some '#' && target.head? != some '&' &&
    (lowercase target == lowercase uid || lowercase target == lowercase nick)

/-- The credential of an event: the password of a NickServ command, the answer of a
SASL client unless it is empty, or the password of a relayed registration. -/
def credential (uid : List Char) : NetEvent → Option (List Char)
  | .privmsg _ target text _ =>
      if addressed uid "NickServ".toList target then
        (passwordAt (words isWhitespace text)).bind ((words isWhitespace text)[·]?)
      else none
  | .sasl _ _ mode data =>
      if mode = "C".toList then data.head?.filter fun chunk => chunk != [] && chunk != "+".toList
      else none
  | .accountRequest _ _ kind _ _ p3 => if uppercase kind = "REGISTER" then some p3 else none
  | _ => none

example : (parse ":u PRIVMSG NickServ :DROP hunter2".toList).head?.bind (credential []) =
    some "hunter2".toList := by
  decide +kernel

end Echo
