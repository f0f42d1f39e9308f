import Echo.Api.Actions
import Echo.Lib.IrcLines
import Echo.Link.Bodies

/-!
Lines for the uplink (`InspIrcd::serialize`). An action is written as lines with a format of its
own, and control characters are stripped from all of them. `intended` has what each line is to
say, as a source, a command and parameters, and the lines are read as that.
-/

namespace Echo.Link

open Echo.Api Echo.Lib Echo.Lib.Irc

/-- What the lines depend on. -/
structure InspIrcd where
  sid : String
  ts : Nat
  serviceModes : String
  membid : UInt64 := 0
  supportsCtctags : Bool := false
  /-- The configuration is refused with another one. -/
  sidOk : sid.utf8ByteSize = 3 ∧ sid.toList.all Char.isAlphanum = true

/-! ### The lines -/

def escapeTagValue (v : String) : String :=
  String.ofList (v.toList.flatMap fun c =>
    if c = ';' then ['\\', ':']
    else if c = ' ' then ['\\', 's']
    else if c = '\\' then ['\\', '\\']
    else if c = '\r' then ['\\', 'r']
    else if c = '\n' then ['\\', 'n']
    else [c])

/-- The tags before a line. -/
def tagList (tags : List (String × String)) : String :=
  ";".intercalate (tags.map fun t => s!"{t.1}={escapeTagValue t.2}")

/-- The chunks of a body. -/
def bodies (text : String) : List String :=
  ((splitBody (text.toList.length + 1) text.toList).getD [text.toList]).map String.ofList

def nul : Char := Char.ofNat 0

def kept (c : Char) : Bool := c ≠ '\r' && c ≠ '\n' && c ≠ nul

def strip (line : String) : String := String.ofList (line.toList.filter kept)

/-- `uid.get(..3)`, or the whole. -/
def serverOf (uid : String) : String :=
  match splitAtByte uid.toList 3 with
  | some (head, _) => String.ofList head
  | none => uid

namespace InspIrcd

variable (proto : InspIrcd) (now : Nat)

def sourced (cmd : String) : String := s!":{proto.sid} {cmd}"

/-- The lines of the actions that are written by themselves. -/
def lines : NetAction → List String
  | .burst => [proto.sourced s!"BURST {proto.ts}"]
  | .endBurst => [proto.sourced "ENDBURST"]
  | .pong token src => [proto.sourced s!"PONG {src.getD proto.sid} {token}"]
  | .idleReply target requester signon idle => [s!":{target} IDLE {requester} {signon} {idle}"]
  | .operType uid operType => [s!":{uid} OPERTYPE :{operType}"]
  | .introduceUser uid nick ident host gecos =>
    let ts := proto.ts
    let modes := proto.serviceModes
    [proto.sourced s!"UID {uid} {ts} {nick} {host} {host} {ident} {ident} 0.0.0.0 {ts} +{modes} :{gecos}"]
  | .privmsg src dst text => (bodies text).map fun chunk => s!":{src} PRIVMSG {dst} :{chunk}"
  | .notice src dst text => (bodies text).map fun chunk => s!":{src} NOTICE {dst} :{chunk}"
  | .standardReply kind src dst command code text =>
    let src := if src.isEmpty then "*" else src
    let cmd := if command.isEmpty then "*" else command
    [proto.sourced s!"ENCAP * SWSTDRPL {dst} {src} {kind.verb} {cmd} {code} :{text}"]
  | .accountResponse reqid origin kind account status code message =>
    [proto.sourced s!"ENCAP {origin} SWACCTRES {reqid} {kind} {account} {status} {code} :{message}"]
  | .sasl agent client mode data =>
    [proto.sourced (data.foldl (fun line d => s!"{line} {d}") s!"ENCAP * SASL {agent} {client} {mode}")]
  | .metadata target key value => [proto.sourced s!"METADATA {target} {key} :{value}"]
  | .quitUser uid reason => [s!":{uid} QUIT :{reason}"]
  | .servicePart uid channel => [s!":{uid} PART {channel}"]
  | .setHost uid host => [proto.sourced s!"ENCAP {serverOf uid} CHGHOST {uid} {host}"]
  | .setIdent uid ident => [proto.sourced s!"ENCAP {serverOf uid} CHGIDENT {uid} {ident}"]
  | .forceNick uid nick => [proto.sourced s!"SVSNICK {uid} {nick} {now}"]
  | .forcePart uid channel reason =>
    if reason.isEmpty then [proto.sourced s!"SVSPART {uid} {channel}"]
    else [proto.sourced s!"SVSPART {uid} {channel} :{reason}"]
  | .forceJoin uid channel key =>
    if key.isEmpty then [proto.sourced s!"SVSJOIN {uid} {channel}"]
    else [proto.sourced s!"SVSJOIN {uid} {channel} {key}"]
  | .channelMode src channel modes =>
    let cmd := s!"FMODE {channel} 1 {modes}"
    if src.isEmpty then [proto.sourced cmd] else [s!":{src} {cmd}"]
  | .userMode uid modes => [proto.sourced s!"MODE {uid} {modes}"]
  | .kick src channel uid reason => [s!":{src} KICK {channel} {uid} :{reason}"]
  | .topic src channel topic setter =>
    -- The setter is a nick, and never begins with a digit as a uid does.
    if setter.isEmpty || (setter.toList.head?.any Char.isDigit) then [s!":{src} FTOPIC {channel} 1 {now} :{topic}"]
    else [s!":{src} FTOPIC {channel} 1 {now} {setter} :{topic}"]
  | .invite src uid channel => [s!":{src} INVITE {uid} {channel} 1 0"]
  | .renameChannel src old new reason => [s!":{src} RENAME {old} {new} :{reason}"]
  | .addLine kind mask setter duration reason =>
    [proto.sourced s!"ADDLINE {kind} {mask} {setter} {now} {duration} :{reason}"]
  | .delLine kind mask => [proto.sourced s!"DELLINE {kind} {mask}"]
  | .killUser src uid reason => [s!":{src} KILL {uid} :{reason}"]
  | .redact src target msgid reason =>
    if reason.isEmpty then [s!":{src} REDACT {target} {msgid}"] else [s!":{src} REDACT {target} {msgid} :{reason}"]
  | .jupeServer name sid reason => [proto.sourced s!"SERVER {name} {sid} :JUPED: {reason}"]
  | .squit target reason => [proto.sourced s!"SQUIT {target} :{reason}"]
  | .raw line => [line]
  -- The link layer handles the rest before, and `serialize` the two that are left.
  | .internal | .tagged _ _ | .serviceJoin _ _ _ => []

def serialize : NetAction → List String × InspIrcd
  | .tagged tags inner =>
    let (lines, proto') := serialize inner
    let lines :=
      if !proto.supportsCtctags || tags.isEmpty then lines
      else
        let written := tagList tags
        lines.map fun l => s!"@{written} {l}"
    (lines.map strip, proto')
  | .serviceJoin uid channel modes =>
    let membid := proto.membid + 1
    ([s!":{uid} IJOIN {channel} {membid} 1 {modes}"].map strip, { proto with membid })
  | action => ((proto.lines now action).map strip, proto)

end InspIrcd

/-! ### What they are to say -/

/-- A line with its parameters. -/
def lineOf (source command : String) (middles : List String) (trailing : Option String) : Line where
  source := some source.toList
  command := command.toList
  middles := middles.map String.toList
  trailing := trailing.map String.toList

section Intended

variable (proto : InspIrcd) (now : Nat)

/-- A text, where there is one. -/
def given (text : String) : Option String := if text.isEmpty then none else some text

def InspIrcd.intended : NetAction → List Line
  | .burst => [lineOf proto.sid "BURST" [toString proto.ts] none]
  | .endBurst => [lineOf proto.sid "ENDBURST" [] none]
  | .pong token src => [lineOf proto.sid "PONG" [src.getD proto.sid, token] none]
  | .idleReply target requester signon idle =>
    [lineOf target "IDLE" [requester, toString signon, toString idle] none]
  | .operType uid operType => [lineOf uid "OPERTYPE" [] (some operType)]
  | .introduceUser uid nick ident host gecos =>
    [lineOf proto.sid "UID" [uid, toString proto.ts, nick, host, host, ident, ident, "0.0.0.0", toString proto.ts,
      "+" ++ proto.serviceModes] (some gecos)]
  | .privmsg src dst text => (bodies text).map fun chunk => lineOf src "PRIVMSG" [dst] (some chunk)
  | .notice src dst text => (bodies text).map fun chunk => lineOf src "NOTICE" [dst] (some chunk)
  | .tagged tags inner =>
    if proto.supportsCtctags then
      (intended inner).map fun line => { line with tags := tags.map fun t => (t.1.toList, t.2.toList) }
    else intended inner
  | .standardReply kind src dst command code text =>
    [lineOf proto.sid "ENCAP" ["*", "SWSTDRPL", dst, (given src).getD "*", kind.verb, (given command).getD "*", code]
      (some text)]
  | .accountResponse reqid origin kind account status code message =>
    [lineOf proto.sid "ENCAP" [origin, "SWACCTRES", reqid, kind, account, status, code] (some message)]
  | .sasl agent client mode data => [lineOf proto.sid "ENCAP" ("*" :: "SASL" :: agent :: client :: mode :: data) none]
  | .metadata target key value => [lineOf proto.sid "METADATA" [target, key] (some value)]
  | .forceNick uid nick => [lineOf proto.sid "SVSNICK" [uid, nick, toString now] none]
  | .setHost uid host => [lineOf proto.sid "ENCAP" [serverOf uid, "CHGHOST", uid, host] none]
  | .setIdent uid ident => [lineOf proto.sid "ENCAP" [serverOf uid, "CHGIDENT", uid, ident] none]
  | .forceJoin uid channel key => [lineOf proto.sid "SVSJOIN" (uid :: channel :: (given key).toList) none]
  | .forcePart uid channel reason => [lineOf proto.sid "SVSPART" [uid, channel] (given reason)]
  | .quitUser uid reason => [lineOf uid "QUIT" [] (some reason)]
  | .serviceJoin uid channel modes =>
    [lineOf uid "IJOIN" [channel, toString (proto.membid + 1), "1", modes] none]
  | .servicePart uid channel => [lineOf uid "PART" [channel] none]
  | .channelMode src channel modes => [lineOf ((given src).getD proto.sid) "FMODE" [channel, "1", modes] none]
  | .userMode uid modes => [lineOf proto.sid "MODE" [uid, modes] none]
  | .kick src channel uid reason => [lineOf src "KICK" [channel, uid] (some reason)]
  | .topic src channel topic setter =>
    let setter := (given setter).filter fun setter => !setter.toList.head?.any Char.isDigit
    [lineOf src "FTOPIC" (channel :: "1" :: toString now :: setter.toList) (some topic)]
  | .invite src uid channel => [lineOf src "INVITE" [uid, channel, "1", "0"] none]
  | .renameChannel src old new reason => [lineOf src "RENAME" [old, new] (some reason)]
  | .addLine kind mask setter duration reason =>
    [lineOf proto.sid "ADDLINE" [kind, mask, setter, toString now, toString duration] (some reason)]
  | .delLine kind mask => [lineOf proto.sid "DELLINE" [kind, mask] none]
  | .killUser src uid reason => [lineOf src "KILL" [uid] (some reason)]
  | .redact src target msgid reason => [lineOf src "REDACT" [target, msgid] (given reason)]
  | .jupeServer name sid reason => [lineOf proto.sid "SERVER" [name, sid] (some ("JUPED: " ++ reason))]
  | .squit target reason => [lineOf proto.sid "SQUIT" [target] (some reason)]
  | .raw _ | .internal => []

end Intended

/-- A line without what `strip` takes from it: in tag values the line breaks are escaped. -/
def clean (line : Line) : Line :=
  { line with
    tags := line.tags.map fun tag => (tag.1, tag.2.filter (· ≠ nul))
    trailing := line.trailing.map (·.filter kept) }

/-! ### The fields -/

/-- A word for the uplink: not empty, no space or control character that is stripped, and no colon
before it. -/
def Plain (word : List Char) : Prop := Word word ∧ ∀ c ∈ word, kept c = true

/-- The fields of an action that are no free text. -/
def plainFields : NetAction → List String
  | .burst | .endBurst | .raw _ | .internal => []
  | .pong token src => token :: src.toList
  | .idleReply target requester _ _ => [target, requester]
  | .operType uid _ => [uid]
  | .introduceUser uid nick ident host _ => [uid, nick, ident, host]
  | .privmsg src dst _ | .notice src dst _ => [src, dst]
  | .tagged _ inner => plainFields inner
  | .standardReply _ _ dst _ code _ => [dst, code]
  | .accountResponse reqid origin kind account status code _ => [reqid, origin, kind, account, status, code]
  | .sasl agent client mode data => agent :: client :: mode :: data
  | .metadata target key _ => [target, key]
  | .forceNick uid nick => [uid, nick]
  | .setHost uid host => [uid, host]
  | .setIdent uid ident => [uid, ident]
  | .forceJoin uid channel _ | .forcePart uid channel _ => [uid, channel]
  | .quitUser uid _ => [uid]
  | .serviceJoin uid channel modes => [uid, channel, modes]
  | .servicePart uid channel => [uid, channel]
  | .channelMode _ channel modes => [channel, modes]
  | .userMode uid modes => [uid, modes]
  | .kick src channel uid _ => [src, channel, uid]
  | .topic src channel _ _ => [src, channel]
  | .invite src uid channel => [src, uid, channel]
  | .renameChannel src old new _ => [src, old, new]
  | .addLine kind mask setter _ _ => [kind, mask, setter]
  | .delLine kind mask => [kind, mask]
  | .killUser src uid _ => [src, uid]
  | .redact src target msgid _ => [src, target, msgid]
  | .jupeServer name sid _ => [name, sid]
  | .squit target _ => [target]

/-- Those among them that may be missing. -/
def optionalFields : NetAction → List String
  | .tagged _ inner => optionalFields inner
  | .standardReply _ src _ command _ _ => [src, command]
  | .forceJoin _ _ key => [key]
  | .channelMode src _ _ => [src]
  | .topic _ _ _ setter => [setter]
  | _ => []

end Echo.Link
