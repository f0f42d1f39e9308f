import Echo.Link.Parse

/-!
What the link layer scrubs from a line before it logs it. `redact` tries its rules
in turn; the first that applies cuts the line where it found its place. Which
lines keep their credential out of the log follows from that alone: those that one
and the same rule cuts before the credential, whatever the credential is.
-/

namespace Echo

open Echo.Lib

/-! ### The rules -/

/-- NickServ commands whose arguments are a password and must never be logged. -/
def SECRET_CMDS : List String :=
  ["identify", "id", "login", "auth", "register", "regain", "ghost", "release", "recover",
    "setpass", "spassword", "resetpass", "confirm", "sidentify"]

/-- Whether a command carries a credential, by its name and the words after it. -/
def secretCommand (cmd : List Char) (ws : List (List Char)) : Bool :=
  let isSetPassword :=
    cmd == "set".toList && ws.head?.any fun w => lowercase w == "password".toList
  SECRET_CMDS.any (·.toList == cmd) || isSetPassword

/-- Whether the words of a message are a command that carries a credential, which
may stand behind `NS` or `NICKSERV`. -/
def secretWords (ws : List (List Char)) : Bool :=
  let cmd := lowercase (ws.headD [])
  if cmd == "ns".toList || cmd == "nickserv".toList then
    secretCommand (lowercase (ws.tail.headD [])) ws.tail.tail
  else secretCommand cmd ws.tail

/-- The text up to the next space. -/
def token (text : List Char) : List Char := text.takeWhile (· != ' ')

/-- A rule of `redact`: for the trailer of a message sent with a verb, for a line of
the SASL exchange, or for one of a relayed exchange in a mode. -/
inductive Rule where
  | trailer (kw : String)
  | authenticate
  | sasl (mode : String)
  deriving DecidableEq, Repr

namespace Rule

/-- Where a rule would cut the line: what it would keep, and the rest. -/
def split : Rule → List Char → Option (List Char × List Char)
  | .trailer kw, line => do
      let (front, after) ← splitOnce kw.toList line
      let (params, text) ← splitOnce " :".toList after
      some (front ++ (kw.toList ++ (params ++ " :".toList)), text)
  | .authenticate, line => do
      let (front, data) ← splitOnce "AUTHENTICATE ".toList line
      some (front ++ "AUTHENTICATE ".toList, data)
  | .sasl mode, line => do
      let (front, after) ← splitOnce " SASL ".toList line
      -- The search for the mode starts with the space before SASL.
      let (params, data) ← splitOnce mode.toList (" SASL ".toList ++ after)
      some (front ++ (params ++ mode.toList), data)

/-- Whether what a rule would cut off is a secret. -/
def secret : Rule → List Char → Bool
  | .trailer _, text => secretWords (words isWhitespace text)
  | .authenticate, data =>
      let tok := token data
      !([['+'], ['*'], []].contains tok) &&
        !(["PLAIN", "EXTERNAL", "SCRAM"].any (·.toList.isPrefixOf tok))
  | .sasl _, data => token data != [] && token data != ['+']

def marker : List Char := "[REDACTED]".toList

/-- What is logged in place of a line that the rule cuts. -/
def scrub : Rule → List Char → List Char
  | .trailer _, kept => trimEnd " :".toList kept ++ (" :".toList ++ marker)
  | _, kept => kept ++ marker

def applies (rule : Rule) (line : List Char) : Bool :=
  (rule.split line).any fun (_, rest) => rule.secret rest

end Rule

/-- The rules in the order they are tried. -/
def rules : List Rule :=
  [.trailer " PRIVMSG ", .trailer " NOTICE ", .trailer " SQUERY ", .authenticate, .sasl " C ",
    .sasl " S "]

/-- The line as it is logged. -/
def redact (line : List Char) : List Char :=
  match rules.find? (·.applies line) with
  | some rule => ((rule.split line).map fun (kept, _) => rule.scrub kept).getD line
  | none => line

example : redact ":u PRIVMSG X :NS identify topsecret".toList =
    ":u PRIVMSG X :[REDACTED]".toList := by
  decide +kernel

example : redact ":91Z ENCAP 00D SASL 91ZAAAAFQ 00DAAAAAA C cGFzc3dvcmQ=".toList =
    ":91Z ENCAP 00D SASL 91ZAAAAFQ 00DAAAAAA C [REDACTED]".toList := by
  decide +kernel

example : redact "AUTHENTICATE PLAIN".toList = "AUTHENTICATE PLAIN".toList := by
  decide +kernel

end Echo
