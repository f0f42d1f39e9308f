import Echo.GameServ.Records

/-!
The games service in a network that users join and leave. A guest's games go with the
connection. What STATS and TOP show of an account is what it has come to in games between two
accounts, one of which challenged and the other of which accepted.
-/

namespace Echo.GameServ

open Echo.Lib
open Api (Catalog ServiceCtx)

/-- The service, the network's counters, and who is on the network. -/
structure Hall where
  games : Games
  stats : Assoc String Nat := ∅
  online : List String := []

inductive HallAction where
  | connect (uid : String)
  | command (env : Env) (net : NetView) («from» : Sender) (args : List String) (ctx : ServiceCtx)
  | quit (env : Env) (net : NetView) (language : String → String) (uid : String)

namespace Hall

variable (catalog : Catalog)

def start (uid : String) : Hall := { games := { uid } }

/-- The counters that a command has recorded are bumped when it is done. -/
def step (h : Hall) : HallAction → Hall
  | .connect uid => { h with online := uid :: h.online }
  | .command env net «from» args ctx =>
      let net := { net with statCounters := statCounters h.stats }
      let (games, ctx) := h.games.onCommand catalog env net «from» args { toServiceCtx := ctx }
      { h with games, stats := ctx.stats.foldl bump h.stats }
  | .quit env net language uid =>
      { h with
        games := (h.games.onUserQuit catalog env net language uid).1
        online := h.online.filter (· != uid) }

variable {catalog} {h : Hall}

/-- A command from someone with some identity. -/
def By (verb who : String) : HallAction → Prop
  | .command _ _ «from» args _ => from.ident = who ∧ args.head?.map toAsciiUppercase = some verb
  | .connect _ | .quit .. => False

theorem command_does (catalog : Catalog) (h : Hall) (env : Env) (net : NetView) («from» : Sender)
    (args : List String) (ctx : ServiceCtx) :
    ∃ keys, (h.step catalog (.command env net «from» args ctx)).stats = keys.foldl bump h.stats ∧
      Does { net with statCounters := statCounters h.stats } «from» (args.head?.map toAsciiUppercase)
        h.games (h.step catalog (.command env net «from» args ctx)).games keys := by
  obtain ⟨keys, stats, does⟩ :
      Games.Result { net with statCounters := statCounters h.stats } «from» _ h.games
        { toServiceCtx := ctx }
        (h.games.onCommand catalog env { net with statCounters := statCounters h.stats } «from» args
          { toServiceCtx := ctx }) := Games.result_onCommand
  refine ⟨keys, ?_, does⟩
  simp only [step]
  rw [stats]
  rfl

/-! ### The games in progress -/

theorem sane_step (sane : h.games.Sane) (a : HallAction) : (h.step catalog a).games.Sane := by
  cases a with
  | connect uid => exact sane
  | command env net «from» args ctx =>
      obtain ⟨keys, -, does⟩ := command_does catalog h env net «from» args ctx
      exact sane.does does
  | quit env net language uid => exact sane.less List.filter_sublist (Nat.le_refl _) rfl

/-- Over any run, the games in progress are within their limits, between two players each, and
none has ended. -/
theorem always_sane (catalog : Catalog) (uid : String) (actions : List HallAction) :
    (after (step catalog) (start uid) actions).games.Sane :=
  invariant (I := fun h : Hall => h.games.Sane) (fun _ a sane => sane_step sane a)
    (Games.sane_new uid) actions

/-! ### Guests -/

/-- Two guests come, and one challenges the other. -/
def guests : List HallAction :=
  [.connect "0AAAAAAAA", .connect "0AAAAAAAB",
    .command .still
      { uidByNick := fun nick => if nick = "bob" then some "0AAAAAAAB" else none
        accountOf := fun _ => none, statCounters := [] }
      ⟨"0AAAAAAAA", "alice", none⟩ ["CHALLENGE", "bob", "ttt"] {}]

/-- A result to which both players have come: the one challenged, the other accepted. -/
structure Played (actions : List HallAction) (r : Result) : Prop where
  apart : r.accA ≠ r.accB
  challenged : ∃ a ∈ actions, By "CHALLENGE" r.accA a
  accepted : ∃ a ∈ actions, By "ACCEPT" r.accB a

/-- How a game came to be where it is. -/
def Agreed (actions : List HallAction) (g : LiveGame) : Prop :=
  (∃ a ∈ actions, By "CHALLENGE" g.accA a) ∧
    (g.status = .active → ∃ a ∈ actions, By "ACCEPT" g.accB a)

theorem By.later {verb who : String} {actions : List HallAction} (a : HallAction)
    (earlier : ∃ b ∈ actions, By verb who b) : ∃ b ∈ actions ++ [a], By verb who b := by
  obtain ⟨b, mem, «by»⟩ := earlier
  exact ⟨b, List.mem_append_left [a] mem, «by»⟩

theorem Agreed.later {actions : List HallAction} {g : LiveGame} (h : Agreed actions g) (a : HallAction) :
    Agreed (actions ++ [a]) g := ⟨By.later a h.1, fun active => By.later a (h.2 active)⟩

theorem Played.later {actions : List HallAction} {r : Result} (h : Played actions r) (a : HallAction) :
    Played (actions ++ [a]) r := ⟨h.apart, By.later a h.challenged, By.later a h.accepted⟩

end Hall

end Echo.GameServ
