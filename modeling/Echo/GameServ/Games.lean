import Echo.Api.Replies
import Echo.Chess.Wire
import Echo.Db.Base
import Echo.GameServ.Board

/-!
The games service (`modules/gameserv/src/lib.rs`): challenges, the games in progress, and
the results it counts. A game is dropped when it ends, and what is left of a ranked one is a
count for each of its players.

HELP is left out. A game's id and the counts of a player stay within their types.
-/

namespace Echo.GameServ

open Echo.Lib
open Api (Catalog NetAction Reply ServiceCtx)
open Chess (char)

inductive Status where
  | pending
  | active
  | «over»
  deriving DecidableEq, Repr

def Status.wire : Status → String
  | pending => "pending"
  | active => "active"
  | «over» => "over"

namespace GameType

def fromArg (s : String) : Option GameType :=
  match toAsciiLowercase s with
  | "ttt" => some .ttt
  | "c4" => some .c4
  | "chess" => some .chess
  | _ => none

def wire : GameType → String
  | ttt => "ttt"
  | c4 => "c4"
  | chess => "chess"

def label : GameType → String
  | ttt => "Morpion"
  | c4 => "Puissance 4"
  | chess => "Échecs"

/-- `TYPES` -/
def all : List GameType := [.chess, .c4, .ttt]

end GameType

/-- Without spaces: an empty cell of a grid is a dot. -/
def Board.encode : Board → String
  | .ttt cells => String.ofList ((List.ofFn cells).map fun p => if p = EMPTY then '.' else char p)
  | .c4 cells => String.ofList ((List.ofFn cells).map fun p => if p = EMPTY then '.' else char p)
  | .chess st => String.ofList (Chess.encode st)

/-- A game with its players: whom it knows them by, what they are called, and whether they are
registered. -/
structure LiveGame extends Game where
  id : Nat
  accA : String
  accB : String
  nickA : String
  nickB : String
  aReg : Bool
  bReg : Bool
  status : Status := .pending
  result : Option Outcome := none

namespace LiveGame

def new (id : Nat) (gt : GameType) (accA : String) (aReg : Bool) (accB : String) (bReg : Bool)
    (nickA nickB : String) : LiveGame :=
  { Game.new gt with id, accA, accB, nickA, nickB, aReg, bReg }

def glyph (g : LiveGame) (side : Side) : String := (char (g.gtype.glyph side)).toString

end LiveGame

def escapeTag (v : String) : String :=
  String.ofList (v.toList.flatMap fun c =>
    if c = ';' then ['\\', ':']
    else if c = ' ' then ['\\', 's']
    else if c = '\\' then ['\\', '\\']
    else if c = '\r' then ['\\', 'r']
    else if c = '\n' then ['\\', 'n']
    else [c])

/-! ### The ladder -/

/-- What an account has won, lost and drawn at one game. -/
structure Stats where
  wins : Nat := 0
  losses : Nat := 0
  draws : Nat := 0
  deriving DecidableEq, Repr

namespace Stats

variable (s : Stats)

def points : Nat := 10 * s.wins - 8 * s.losses

def rank : String :=
  if 800 ≤ s.points then "Master"
  else if 400 ≤ s.points then "Gold"
  else if 150 ≤ s.points then "Silver"
  else "Bronze"

def any : Bool := 0 < s.wins || 0 < s.losses || 0 < s.draws

end Stats

def counterKey (gt : GameType) (kind : Char) (account : String) : String :=
  "game." ++ gt.wire ++ "." ++ kind.toString ++ "." ++ account

def readStats (counters : List (String × Nat)) (gt : GameType) (account : String) : Stats :=
  let get kind := (counters.lookup (counterKey gt kind account)).getD 0
  { wins := get 'w', losses := get 'l', draws := get 'd' }

/-- The record after a game whose counts are yet to land. -/
def readStatsWithDelta (counters : List (String × Nat)) (gt : GameType) (account : String)
    (side : Side) (outcome : Option Outcome) : Stats :=
  let s := readStats counters gt account
  match outcome with
  | some .draw => { s with draws := s.draws + 1 }
  | some (.win w) =>
      if w = side then { s with wins := s.wins + 1 } else { s with losses := s.losses + 1 }
  | none => s

/-- The kind and the account that a counter of one game's ladder is for. -/
def parseKey (gt : GameType) (key : String) : Option (List Char × List Char) :=
  (("game." ++ gt.wire ++ ".").toList.isPrefixOf? key.toList).bind (splitOnce ['.'])

def Stats.set (s : Stats) (kind : List Char) (v : Nat) : Stats :=
  match kind with
  | ['w'] => { s with wins := v }
  | ['l'] => { s with losses := v }
  | ['d'] => { s with draws := v }
  | _ => s

/-- Change the row of an account, from an empty one if there is none. -/
def enter (rows : List (String × Stats)) (account : String) (f : Stats → Stats) :
    List (String × Stats) :=
  if rows.any (·.1 == account) then rows.map fun e => if e.1 == account then (e.1, f e.2) else e
  else rows ++ [(account, f {})]

/-- The rows of one game's ladder, put together from all the counters. -/
def tally (gt : GameType) (counters : List (String × Nat)) : List (String × Stats) :=
  counters.foldl (fun rows e =>
    match parseKey gt e.1 with
    | some (kind, account) => enter rows (String.ofList account) (·.set kind e.2)
    | none => rows) []

/-! ### What a command is given -/

structure Sender where
  uid : String
  nick : String
  account : Option String

/-- Whom it knows a player by: the account, or the connection of a guest. -/
def Sender.ident (s : Sender) : String := s.account.getD s.uid

structure NetView where
  uidByNick : String → Option String
  accountOf : String → Option String
  statCounters : List (String × Nat)

/-- The replies, and the counters to bump. -/
structure Ctx extends ServiceCtx where
  stats : List String := []

namespace Ctx

variable (catalog : Catalog) (ctx : Ctx)

def notice («from» «to» text : String) : Ctx :=
  { ctx with toServiceCtx := ctx.toServiceCtx.notice catalog «from» «to» text }

def say («from» «to» : String) (reply : Reply) : Ctx :=
  ctx.notice catalog «from» «to» (reply.text catalog ctx.language)

def count (key : String) : Ctx := { ctx with stats := ctx.stats ++ [key] }

def push (action : NetAction) : Ctx := { ctx with actions := ctx.actions ++ [action] }

@[simp] theorem stats_notice («from» «to» text : String) :
    (ctx.notice catalog «from» «to» text).stats = ctx.stats := rfl

@[simp] theorem stats_say («from» «to» : String) (reply : Reply) :
    (ctx.say catalog «from» «to» reply).stats = ctx.stats := rfl

@[simp] theorem stats_count (key : String) : (ctx.count key).stats = ctx.stats ++ [key] := rfl

theorem stats_foldl {α : Type} {f : Ctx → α → Ctx} (keeps : ∀ ctx a, (f ctx a).stats = ctx.stats)
    (l : List α) (ctx : Ctx) : (l.foldl f ctx).stats = ctx.stats := by
  induction l generalizing ctx with
  | nil => rfl
  | cons a l ih => rw [List.foldl_cons, ih, keeps]

@[simp] theorem stats_push (action : NetAction) : (ctx.push action).stats = ctx.stats := rfl

end Ctx

structure Games where
  uid : String
  games : List LiveGame := []
  nextid : Nat := 1

def maxGamesPerUser : Nat := 5

def maxGamesTotal : Nat := 500

/-! ### Pushes to the web client -/

section

variable (net : NetView) (me : String)

/-- A line for a player. That of a registered one only goes to a session of its account. -/
def pushTag (nick account : String) (registered : Bool) (payload : String) (ctx : Ctx) : Ctx :=
  match net.uidByNick nick with
  | none => ctx
  | some uid =>
      if registered && net.accountOf uid ≠ some account then ctx
      else ctx.push (.raw ("@+tchatou.fr/gs=" ++ escapeTag payload ++ " :" ++ me ++ " TAGMSG " ++ uid))

/-- How a game looks to one side, under another status if one is given. -/
def statePayload (g : LiveGame) (viewer : Side) (status : String) : String :=
  let opp := match viewer with | .a => g.nickB | .b => g.nickA
  let status := if status.isEmpty then g.status.wire else status
  let res := match g.status, g.result with
    | .«over», some .draw => "draw"
    | .«over», some (.win w) => if w = viewer then "win" else "loss"
    | _, _ => "none"
  "GS# " ++ toString g.id ++ " g=" ++ g.gtype.wire ++ " s=" ++ g.board.encode ++ " t=" ++ g.glyph g.turn ++
    " me=" ++ g.glyph viewer ++ " opp=" ++ opp ++ " st=" ++ status ++ " r=" ++ res

def pushOne (g : LiveGame) (viewer : Side) (status : String) (ctx : Ctx) : Ctx :=
  match viewer with
  | .a => pushTag net me g.nickA g.accA g.aReg (statePayload g viewer status) ctx
  | .b => pushTag net me g.nickB g.accB g.bReg (statePayload g viewer status) ctx

def pushState (g : LiveGame) (ctx : Ctx) : Ctx := pushOne net me g .b "" (pushOne net me g .a "" ctx)

def statsPayload (account : String) (gt : GameType) (s : Stats) : String :=
  "GS$ " ++ account ++ " " ++ gt.wire ++ " r=" ++ s.rank ++ " p=" ++ toString s.points ++ " w=" ++
    toString s.wins ++ " l=" ++ toString s.losses ++ " d=" ++ toString s.draws

/-- An account's record at each game, one of them given. -/
def pushStats (counters : List (String × Nat)) (account toNick : String)
    (given : Option (GameType × Stats)) (ctx : Ctx) : Ctx :=
  GameType.all.foldl (fun ctx gt =>
    let s := match given with
      | some (ty, s) => if ty = gt then s else readStats counters gt account
      | none => readStats counters gt account
    pushTag net me toNick account false (statsPayload account gt s) ctx) ctx

variable {net : NetView} {me : String}

@[simp] theorem stats_pushTag (nick account : String) (registered : Bool) (payload : String) (ctx : Ctx) :
    (pushTag net me nick account registered payload ctx).stats = ctx.stats := by
  unfold pushTag
  split
  · rfl
  · split <;> rfl

@[simp] theorem stats_pushOne (g : LiveGame) (viewer : Side) (status : String) (ctx : Ctx) :
    (pushOne net me g viewer status ctx).stats = ctx.stats := by
  cases viewer <;> exact stats_pushTag ..

@[simp] theorem stats_pushState (g : LiveGame) (ctx : Ctx) :
    (pushState net me g ctx).stats = ctx.stats := by
  simp [pushState]

@[simp] theorem stats_pushStats (counters : List (String × Nat)) (account toNick : String)
    (given : Option (GameType × Stats)) (ctx : Ctx) :
    (pushStats net me counters account toNick given ctx).stats = ctx.stats := by
  simp [pushStats, GameType.all]

end

/-! ### Commands -/

namespace Games

variable (catalog : Catalog) (env : Env) (net : NetView) (gs : Games) («from» : Sender)
  (args : List String) (ctx : Ctx)

def get (id : Nat) : Option LiveGame := gs.games.find? fun g => g.id == id

def insert (g : LiveGame) : Games :=
  { gs with games := gs.games.filter (fun h => h.id != g.id) ++ [g] }

def modify (id : Nat) (f : LiveGame → LiveGame) : Games :=
  { gs with games := gs.games.map fun g => if g.id == id then f g else g }

def remove (id : Nat) : Games := { gs with games := gs.games.filter fun g => g.id != id }

/-- The side that someone plays. -/
def sideOf (g : LiveGame) (account : String) : Option Side :=
  if g.accA = account then some .a
  else if g.accB = account then some .b
  else none

def dropGuestGames (uid : String) : Games :=
  { gs with games := gs.games.filter fun g => g.accA != uid && g.accB != uid }

/-- A challenge is reclaimed when neither of its players is there any more. -/
def reclaim : Games :=
  { gs with
    games := gs.games.filter fun g =>
      g.status ≠ .pending || (net.uidByNick g.nickA).isSome || (net.uidByNick g.nickB).isSome }

/-- The games that count against someone: those started, and those accepted. -/
def mine (meid : String) : Nat :=
  (gs.games.filter fun g => g.accA == meid || (g.accB == meid && g.status == .active)).length

def doChallenge : Games × Ctx :=
  let me := gs.uid
  match args[1]?, args[2]? with
  | some target, some game =>
      match GameType.fromArg game with
      | none =>
          (gs, ctx.notice catalog me from.uid
            "Unknown game. Available: \x02ttt\x02 (tic-tac-toe), \x02c4\x02 (Connect Four), \x02chess\x02.")
      | some gt =>
          match net.uidByNick target with
          | none =>
              (gs, ctx.say catalog me from.uid (.t "\x02{target}\x02 is not online." [("target", target)]))
          | some tuid =>
              let meid := from.ident
              let targetAcc := net.accountOf tuid
              let targetId := targetAcc.getD tuid
              if targetId = meid then
                (gs, ctx.notice catalog me from.uid "You cannot challenge yourself.")
              else
                let gs := gs.reclaim net
                if maxGamesTotal ≤ gs.games.length then
                  (gs, ctx.notice catalog me from.uid
                    "The game server is at capacity right now. Please try again shortly.")
                else if maxGamesPerUser ≤ gs.mine meid then
                  (gs, ctx.say catalog me from.uid
                    (.t "You have too many games in progress (max {max}). Finish or resign one first."
                      [("max", toString maxGamesPerUser)]))
                else
                  let id := gs.nextid
                  let g := LiveGame.new id gt meid from.account.isSome targetId targetAcc.isSome from.nick target
                  let gs := { gs with nextid := gs.nextid + 1 }.insert g
                  let ctx := ctx.say catalog me from.uid
                    (.t "Challenge \x02#{id}\x02 ({game}) sent to \x02{target}\x02."
                      [("id", toString id), ("game", gt.wire), ("target", target)])
                  let ctx := ctx.say catalog me tuid
                    (.t "{challenger} challenges you to {game} (game #{id}). \x02/msg GamesServ ACCEPT {id}\x02"
                      [("challenger", from.nick), ("game", gt.wire), ("id", toString id)])
                  (gs, pushOne net me g .b "offer" (pushOne net me g .a "pending" ctx))
  | _, _ => (gs, ctx.notice catalog me from.uid "Syntax: CHALLENGE <nick> <ttt|c4|chess>")

/-- A challenge that awaits an answer of someone's. -/
def awaits (meid : String) (g : LiveGame) : Bool := g.status == .pending && g.accB == meid

def doAccept : Games × Ctx :=
  let me := gs.uid
  let meid := from.ident
  let id := match args[1]? with
    | some s => (number s).filter fun id => (gs.get id).any (awaits meid)
    -- Of several challenges, whichever the map comes to first.
    | none => ((env.iter gs.games).find? (awaits meid)).map (·.id)
  match id with
  | none => (gs, ctx.notice catalog me from.uid "No pending challenge to accept.")
  | some id =>
      let gs := gs.modify id fun g => { g with status := .active, nickB := from.nick }
      match gs.get id with
      | none => (gs, ctx)
      | some g =>
          let ctx := ctx.say catalog me from.uid
            (.t "Game \x02#{id}\x02 started. You are \x02{glyph}\x02."
              [("id", toString id), ("glyph", g.glyph .b)])
          (gs, pushState net me g ctx)

def doDecline : Games × Ctx :=
  let me := gs.uid
  let meid := from.ident
  let want := args[1]?.bind number
  match (env.iter gs.games).find? fun g => awaits meid g && want.all (· == g.id) with
  | none => (gs, ctx.notice catalog me from.uid "No pending challenge to decline.")
  | some g =>
      let gs := gs.remove g.id
      let ctx := match net.uidByNick g.nickA with
        | some auid => ctx.say catalog me auid (.t "{nick} declined your challenge #{id}."
            [("nick", from.nick), ("id", toString g.id)])
        | none => ctx
      (gs, ctx.notice catalog me from.uid "Declined.")

/-- Count a result, of a game between registered players. -/
def countResult (g : LiveGame) (outcome : Outcome) (ctx : Ctx) : Ctx :=
  if g.aReg && g.bReg then
    match outcome with
    | .draw => (ctx.count (counterKey g.gtype 'd' g.accA)).count (counterKey g.gtype 'd' g.accB)
    | .win .a => (ctx.count (counterKey g.gtype 'w' g.accA)).count (counterKey g.gtype 'l' g.accB)
    | .win .b => (ctx.count (counterKey g.gtype 'w' g.accB)).count (counterKey g.gtype 'l' g.accA)
  else ctx

def finish (id : Nat) (outcome : Outcome) (ctx : Ctx) : Games × Ctx :=
  let me := gs.uid
  match gs.get id with
  | none => (gs, ctx)
  | some g =>
      let gs := gs.remove id
      let g := { g with status := .«over», result := some outcome }
      let gt := g.gtype
      let ctx := countResult g outcome ctx
      let counters := net.statCounters
      let delta := if g.aReg && g.bReg then some outcome else none
      let ctx := pushState net me g ctx
      let ctx := if g.aReg then
          pushStats net me counters g.accA g.nickA
            (some (gt, readStatsWithDelta counters gt g.accA .a delta)) ctx
        else ctx
      let ctx := if g.bReg then
          pushStats net me counters g.accB g.nickB
            (some (gt, readStatsWithDelta counters gt g.accB .b delta)) ctx
        else ctx
      (gs, ctx)

def named (g : LiveGame) (side : Side) (nick : String) : LiveGame :=
  match side with
  | .a => { g with nickA := nick }
  | .b => { g with nickB := nick }

def doMove : Games × Ctx :=
  let me := gs.uid
  match args[1]?, args[2]? with
  | some ids, some mv =>
      let id := (number ids).getD 0
      let meid := from.ident
      match gs.get id with
      | none => (gs, ctx.notice catalog me from.uid "No active game with that id.")
      | some g =>
          match sideOf g meid, g.status with
          | some side, .active =>
              let gs := gs.modify id fun g => named g side from.nick
              let (game, legal) := applyMove g.toGame side mv
              if !legal then (gs, ctx.notice catalog me from.uid "Illegal move (or not your turn).")
              else
                let gs := gs.modify id fun g => { g with toGame := game }
                match terminal game with
                | some outcome => gs.finish net id outcome ctx
                | none => (gs, (gs.get id).elim ctx fun g => pushState net me g ctx)
          | _, _ => (gs, ctx.notice catalog me from.uid "No active game with that id.")
  | _, _ => (gs, ctx.notice catalog me from.uid "Syntax: MOVE <id> <move>")

def doResign : Games × Ctx :=
  let me := gs.uid
  match args[1]? with
  | none => (gs, ctx.notice catalog me from.uid "Syntax: RESIGN <id>")
  | some ids =>
      let id := (number ids).getD 0
      let meid := from.ident
      match (gs.get id).bind fun g => if g.status = .active then sideOf g meid else none with
      | none => (gs, ctx.notice catalog me from.uid "No active game with that id.")
      | some side =>
          let ctx := ctx.say catalog me from.uid (.t "You resigned game #{id}." [("id", toString id)])
          gs.finish net id (.win side.other) ctx

def doGames : Ctx :=
  let me := gs.uid
  let meid := from.ident
  let mine := (env.iter gs.games).filter fun g => g.accA == meid || g.accB == meid
  let ids := (mine.map (·.id)).mergeSort
  if ids.isEmpty then
    ctx.notice catalog me from.uid "You have no games. Use \x02CHALLENGE <nick> <game>\x02."
  else
    ids.foldl (fun ctx id =>
      (gs.get id).elim ctx fun g =>
        let opp := if g.accA = meid then g.nickB else g.nickA
        ctx.say catalog me from.uid (.t "#{id}  {game}  vs {opp}  [{status}]"
          [("id", toString g.id), ("game", g.gtype.wire), ("opp", opp), ("status", g.status.wire)])) ctx

/-- Whose record STATS shows. -/
def whose : Option String :=
  match args[1]? with
  | some t => some (((net.uidByNick t).bind net.accountOf).getD t)
  | none => from.account

def doStats : Ctx :=
  let me := gs.uid
  match whose net «from» args with
  | none => ctx.notice catalog me from.uid "Log in or specify a nick."
  | some who =>
      let counters := net.statCounters
      let ctx := pushStats net me counters who from.nick none ctx
      let ctx := ctx.say catalog me from.uid (.t "\x02{who}\x02 — classement Jeux" [("who", who)])
      let played := GameType.all.filter fun gt => (readStats counters gt who).any
      let ctx := played.foldl (fun ctx gt =>
        let s := readStats counters gt who
        ctx.say catalog me from.uid
          (.t "  \x02{game}\x02  \x02{rank}\x02 — {pts} pts ({wins}V {losses}D {draws}N)"
            [("game", gt.label), ("rank", s.rank), ("pts", toString s.points), ("wins", toString s.wins),
              ("losses", toString s.losses), ("draws", toString s.draws)])) ctx
      if played.isEmpty then
        ctx.notice catalog me from.uid "  (aucune partie classée pour l'instant)"
      else ctx

/-- Padded to a width, to the left or to the right. -/
def padLeft (width : Nat) (s : String) : String :=
  String.ofList (List.replicate (width - s.length) ' ' ++ s.toList)

def padRight (width : Nat) (s : String) : String :=
  String.ofList (s.toList ++ List.replicate (width - s.length) ' ')

def doTop : Ctx :=
  let me := gs.uid
  let asked := match args[1]? with
    | some t => GameType.fromArg t
    | none => some .chess
  match asked with
  | none => ctx.notice catalog me from.uid "Unknown game. Use \x02TOP ttt|c4|chess\x02."
  | some gt =>
      let row payload ctx :=
        pushTag net me from.nick (from.account.getD "") from.account.isSome payload ctx
      let ranked := (env.iter (tally gt net.statCounters)).filter fun e => 0 < e.2.points
      let all := ranked.mergeSort fun a b => b.2.points ≤ a.2.points
      let ctx := row ("GS$TOPSTART " ++ gt.wire) ctx
      if all.isEmpty then
        ctx.say catalog me from.uid
          (.t "Classement \x02{game}\x02 vide. Sois le premier à gagner !" [("game", gt.label)])
      else
        let ctx := ctx.say catalog me from.uid (.t "\x02Classement {game} :\x02" [("game", gt.label)])
        (all.take 10).zipIdx.foldl (fun ctx e =>
          let rank := e.2 + 1
          let acc := e.1.1
          let s := e.1.2
          let ctx := ctx.say catalog me from.uid (.t "{pos}. {name} {tier}  {pts} pts"
            [("pos", padLeft 2 (toString rank)), ("name", padRight 16 acc), ("tier", s.rank),
              ("pts", toString s.points)])
          row ("GS$TOPROW " ++ gt.wire ++ " " ++ toString rank ++ " " ++ acc ++ " " ++ s.rank ++ " " ++
            toString s.points) ctx) ctx

/-- A user is gone: those they played against are told, in their language, and a guest's games
go. -/
def onUserQuit (language : String → String) (uid : String) : Games × List NetAction :=
  let told := (env.iter gs.games).filterMap fun g =>
    if g.status ≠ .active then none
    else
      let opp :=
        if g.accA = uid then some g.nickB
        else if g.accB = uid then some g.nickA
        else none
      (opp.bind net.uidByNick).map fun ouid =>
        .notice gs.uid ouid (Api.render catalog (language ouid)
          "Your opponent left. Game \x02#{id}\x02 is over." [("id", toString g.id)])
  (gs.dropGuestGames uid, told)

def onCommand : Games × Ctx :=
  match args.head?.map toAsciiUppercase with
  | some "CHALLENGE" => gs.doChallenge catalog net «from» args ctx
  | some "ACCEPT" => gs.doAccept catalog env net «from» args ctx
  | some "DECLINE" => gs.doDecline catalog env net «from» args ctx
  | some "MOVE" => gs.doMove catalog net «from» args ctx
  | some "RESIGN" => gs.doResign catalog net «from» args ctx
  | some "GAMES" => (gs, gs.doGames catalog env «from» ctx)
  | some "STATS" => (gs, gs.doStats catalog net «from» args ctx)
  | some "TOP" => (gs, gs.doTop catalog env net «from» args ctx)
  | some "HELP" | none => (gs, ctx)
  | some other =>
      (gs, ctx.say catalog gs.uid from.uid
        (.t "I don't know \x02{other}\x02. Try \x02HELP\x02." [("other", other)]))

end Games

end Echo.GameServ
