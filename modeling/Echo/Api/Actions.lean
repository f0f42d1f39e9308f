import Mathlib.Data.Nat.Notation

/-!
What the engine wants done on the network (`NetAction` in `api/src/lib.rs`). The actions that
the link layer handles by itself, and which never become lines, are one here.
-/

namespace Echo.Api

/-- The verbs of the standard replies. -/
inductive ReplyKind where
  | fail
  | warn
  | note
  deriving DecidableEq, Repr

def ReplyKind.verb : ReplyKind → String
  | .fail => "FAIL"
  | .warn => "WARN"
  | .note => "NOTE"

inductive NetAction where
  | burst
  | endBurst
  | pong (token : String) («from» : Option String)
  | idleReply (target requester : String) (signon idle : Nat)
  | operType (uid operType : String)
  | introduceUser (uid nick ident host gecos : String)
  | privmsg («from» «to» text : String)
  | notice («from» «to» text : String)
  /-- Another action with client-only message tags. -/
  | tagged (tags : List (String × String)) (inner : NetAction)
  | standardReply (kind : ReplyKind) («from» «to» command code text : String)
  | accountResponse (reqid origin kind account status code message : String)
  | sasl (agent client mode : String) (data : List String)
  | metadata (target key value : String)
  | forceNick (uid nick : String)
  | setHost (uid host : String)
  | setIdent (uid ident : String)
  | forceJoin (uid channel key : String)
  | forcePart (uid channel reason : String)
  | quitUser (uid reason : String)
  | serviceJoin (uid channel modes : String)
  | servicePart (uid channel : String)
  | channelMode («from» channel modes : String)
  | userMode (uid modes : String)
  | kick («from» channel uid reason : String)
  | topic («from» channel topic setter : String)
  | invite («from» uid channel : String)
  | renameChannel («from» old new reason : String)
  | addLine (kind mask setter : String) (duration : Nat) (reason : String)
  | delLine (kind mask : String)
  | killUser («from» uid reason : String)
  | redact («from» target msgid reason : String)
  | jupeServer (name sid reason : String)
  | squit (target reason : String)
  | raw (line : String)
  | internal

/-- The action inside a wrapper of tags (`inner_mut`). -/
def NetAction.inner : NetAction → NetAction
  | .tagged _ inner => inner
  | other => other

end Echo.Api
