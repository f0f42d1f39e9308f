import Echo.GameServ.Games
import Echo.Lib.Runs

/-!
What commands do to the games in progress, and what holds of them over any run: nobody plays
themselves, a game that has ended is gone, no id comes back, and there are so many games at
most, of each who challenges and of all.
-/

namespace Echo.GameServ

open Echo.Lib
open Api (Catalog NetAction)

/-! ### What a command does -/

/-- The counters that a result bumps. -/
def resultKeys (g : LiveGame) : Outcome → List String
  | .draw => [counterKey g.gtype 'd' g.accA, counterKey g.gtype 'd' g.accB]
  | .win .a => [counterKey g.gtype 'w' g.accA, counterKey g.gtype 'l' g.accB]
  | .win .b => [counterKey g.gtype 'w' g.accB, counterKey g.gtype 'l' g.accA]

def bumps (g : LiveGame) (outcome : Outcome) : List String :=
  if g.aReg && g.bReg then resultKeys g outcome else []

theorem stats_countResult (g : LiveGame) (outcome : Outcome) (ctx : Ctx) :
    (Games.countResult g outcome ctx).stats = ctx.stats ++ bumps g outcome := by
  unfold Games.countResult bumps
  split
  · rcases outcome with _ | (_ | _) <;> simp [resultKeys]
  · simp

/-- A game after a move of a side. -/
def LiveGame.moved (g : LiveGame) (side : Side) (nick : String) (game : Game) : LiveGame :=
  { Games.named g side nick with toGame := game }

/-- What a command of someone's does: to the games, and to the counters. -/
inductive Does (net : NetView) («from» : Sender) (verb : Option String) (gs : Games) :
    Games → List String → Prop where
  | nothing : Does net «from» verb gs gs []
  | reclaims : Does net «from» verb gs (gs.reclaim net) []
  | challenges (gt : GameType) (target tuid : String) :
      verb = some "CHALLENGE" → net.uidByNick target = some tuid →
      (net.accountOf tuid).getD tuid ≠ from.ident →
      (gs.reclaim net).games.length < maxGamesTotal →
      (gs.reclaim net).mine from.ident < maxGamesPerUser →
      Does net «from» verb gs
        (({ gs.reclaim net with nextid := gs.nextid + 1 } : Games).insert
          (LiveGame.new gs.nextid gt from.ident from.account.isSome ((net.accountOf tuid).getD tuid)
            (net.accountOf tuid).isSome from.nick target)) []
  | accepts (g : LiveGame) :
      verb = some "ACCEPT" → g ∈ gs.games → Games.awaits from.ident g = true →
      Does net «from» verb gs
        (gs.modify g.id fun g => { g with status := .active, nickB := from.nick }) []
  | declines (g : LiveGame) :
      g ∈ gs.games → Games.awaits from.ident g = true → Does net «from» verb gs (gs.remove g.id) []
  | renames (g : LiveGame) (side : Side) :
      g ∈ gs.games → Does net «from» verb gs (gs.modify g.id (Games.named · side from.nick)) []
  | moves (g : LiveGame) (side : Side) (game : Game) :
      g ∈ gs.games → g.status = .active → terminal game = none →
      Does net «from» verb gs
        (gs.modify g.id (·.moved side from.nick game)) []
  | finishes (g : LiveGame) (outcome : Outcome) :
      g ∈ gs.games → g.status = .active → (Games.sideOf g from.ident).isSome = true →
      Does net «from» verb gs (gs.remove g.id) (bumps g outcome)

namespace Games

variable {catalog : Catalog} {env : Env} {net : NetView} {gs : Games} {«from» : Sender}
  {args : List String} {ctx : Ctx} {g : LiveGame} {id : Nat}

theorem get_some (held : gs.get id = some g) : g ∈ gs.games ∧ g.id = id := by
  unfold get at held
  exact ⟨List.mem_of_find?_eq_some held, by simpa using List.find?_some held⟩

/-- The games after a command, and the counters it bumps. -/
def Result (net : NetView) («from» : Sender) (verb : Option String) (gs : Games) (ctx : Ctx)
    (after : Games × Ctx) : Prop :=
  ∃ bumps, after.2.stats = ctx.stats ++ bumps ∧ Does net «from» verb gs after.1 bumps

variable {verb : Option String}

theorem result_of_same {ctx' : Ctx} {gs' : Games} (stats : ctx'.stats = ctx.stats)
    (does : Does net «from» verb gs gs' []) : Result net «from» verb gs ctx (gs', ctx') :=
  ⟨[], by rw [stats, List.append_nil], does⟩

theorem result_doChallenge :
    Result net «from» (some "CHALLENGE") gs ctx (gs.doChallenge catalog net «from» args ctx) := by
  unfold doChallenge
  split
  · split
    · exact result_of_same rfl .nothing
    · split
      · exact result_of_same rfl .nothing
      · rename_i gt _ _ tuid online
        dsimp only
        split
        · exact result_of_same rfl .nothing
        · rename_i other
          split
          · exact result_of_same rfl .reclaims
          · split
            · exact result_of_same rfl .reclaims
            · refine result_of_same (by simp) (.challenges gt _ tuid rfl online other ?_ ?_)
              · omega
              · omega
  · exact result_of_same rfl .nothing

theorem result_doAccept :
    Result net «from» (some "ACCEPT") gs ctx (gs.doAccept catalog env net «from» args ctx) := by
  unfold doAccept
  dsimp only
  split
  · exact result_of_same rfl .nothing
  · rename_i id found
    have offered : ∃ g ∈ gs.games, g.id = id ∧ awaits from.ident g = true := by
      split at found
      · obtain ⟨-, pending⟩ := Option.filter_eq_some_iff.mp found
        obtain ⟨g, held, awaits⟩ := (Option.any_eq_true ..).mp pending
        exact ⟨g, (get_some held).1, (get_some held).2, awaits⟩
      · obtain ⟨g, first, rfl⟩ := Option.map_eq_some_iff.mp found
        refine ⟨g, ?_, rfl, List.find?_some first⟩
        exact (env.iter_perm _).mem_iff.mp (List.mem_of_find?_eq_some first)
    obtain ⟨g, mem, rfl, awaits⟩ := offered
    split
    · exact result_of_same rfl (.accepts g rfl mem awaits)
    · exact result_of_same (by simp) (.accepts g rfl mem awaits)

theorem result_doDecline :
    Result net «from» verb gs ctx (gs.doDecline catalog env net «from» args ctx) := by
  unfold doDecline
  dsimp only
  split
  · exact result_of_same rfl .nothing
  · rename_i g found
    have chosen := List.find?_some found
    rw [Bool.and_eq_true] at chosen
    refine result_of_same ?_ (.declines g ?_ chosen.1)
    · rw [Ctx.stats_notice]
      split <;> rfl
    · exact (env.iter_perm _).mem_iff.mp (List.mem_of_find?_eq_some found)

/-- A game that is there is finished. -/
theorem finish_of_get (net : NetView) (outcome : Outcome) (ctx : Ctx) (held : gs.get id = some g) :
    (gs.finish net id outcome ctx).1 = gs.remove id ∧
      (gs.finish net id outcome ctx).2.stats = ctx.stats ++ bumps g outcome := by
  unfold finish
  rw [held]
  dsimp only
  refine ⟨rfl, ?_⟩
  have counted := stats_countResult { g with status := .«over», result := some outcome } outcome ctx
  cases a : g.aReg <;> cases b : g.bReg <;> simp_all [bumps, resultKeys]

theorem get_modify (f : LiveGame → LiveGame) (keeps : ∀ g, (f g).id = g.id) :
    (gs.modify id f).get id = (gs.get id).map f := by
  unfold get modify
  rw [List.find?_map]
  induction gs.games with
  | nil => rfl
  | cons g games ih =>
      by_cases here : g.id = id
      · simp [here, keeps]
      · simpa [here] using ih

theorem remove_modify (f : LiveGame → LiveGame) (keeps : ∀ g, (f g).id = g.id) :
    (gs.modify id f).remove id = gs.remove id := by
  unfold modify remove
  congr 1
  induction gs.games with
  | nil => rfl
  | cons g games ih =>
      rw [List.map_cons, List.filter_cons, List.filter_cons, ih]
      by_cases here : g.id = id
      · simp [here, keeps]
      · simp [here]

theorem modify_modify (f h : LiveGame → LiveGame) (keeps : ∀ g, (f g).id = g.id) :
    (gs.modify id f).modify id h = gs.modify id fun g => h (f g) := by
  unfold modify
  simp only [List.map_map]
  congr 1
  refine List.map_congr_left fun g _ => ?_
  by_cases here : g.id = id
  · simp [here, keeps]
  · simp [here]

@[simp] theorem id_named (g : LiveGame) (side : Side) (nick : String) : (named g side nick).id = g.id := by
  cases side <;> rfl

@[simp] theorem id_moved (g : LiveGame) (side : Side) (nick : String) (game : Game) :
    (g.moved side nick game).id = g.id := id_named g side nick

theorem gtype_applyMove (g : Game) (side : Side) (mv : String) :
    (applyMove g side mv).1.gtype = g.gtype := by
  unfold applyMove
  split
  · rfl
  · dsimp only
    split
    · rename_i cells board
      split
      · rfl
      · split <;> simp [Game.gtype, board, Board.gtype]
    · rename_i cells board
      split
      · rfl
      · split
        · rfl
        · split <;> simp [Game.gtype, board, Board.gtype]
    · rename_i st board
      split <;> simp [Game.gtype, board, Board.gtype]

theorem bumps_moved (g : LiveGame) (side : Side) (nick : String) {game : Game} (same : game.gtype = g.gtype)
    (outcome : Outcome) : bumps (g.moved side nick game) outcome = bumps g outcome := by
  unfold bumps resultKeys LiveGame.moved
  cases side <;> simp only [named, same]

theorem result_doMove : Result net «from» verb gs ctx (gs.doMove catalog net «from» args ctx) := by
  unfold doMove
  split
  · rename_i ids mv _ _
    dsimp only
    split
    · exact result_of_same rfl .nothing
    · rename_i g held
      obtain ⟨mem, here⟩ := get_some held
      rw [← here] at held ⊢
      split
      · rename_i side playing active
        have moved : (gs.modify g.id fun g => named g side from.nick).modify g.id
              (fun h => { h with toGame := (applyMove g.toGame side mv).1 }) =
            gs.modify g.id (·.moved side from.nick (applyMove g.toGame side mv).1) :=
          modify_modify _ _ fun h => id_named h side from.nick
        split
        · exact result_of_same rfl (.renames g side mem)
        · rw [moved]
          split
          · rename_i outcome _
            have found : (gs.modify g.id (·.moved side from.nick (applyMove g.toGame side mv).1)).get
                g.id = _ := get_modify _ fun h => id_moved h ..
            rw [held] at found
            obtain ⟨games, stats⟩ := finish_of_get net outcome ctx found
            rw [remove_modify _ fun h => id_moved h ..] at games
            rw [bumps_moved g side from.nick (gtype_applyMove g.toGame side mv)] at stats
            refine ⟨bumps g outcome, stats, ?_⟩
            rw [games]
            exact .finishes g outcome mem active (by rw [playing]; rfl)
          · rename_i ongoing
            refine result_of_same ?_ (.moves g side _ mem active ongoing)
            cases (gs.modify g.id _).get g.id <;> simp
      · exact result_of_same rfl .nothing
  · exact result_of_same rfl .nothing

theorem result_doResign : Result net «from» verb gs ctx (gs.doResign catalog net «from» args ctx) := by
  unfold doResign
  split
  · exact result_of_same rfl .nothing
  · dsimp only
    split
    · exact result_of_same rfl .nothing
    · rename_i side found
      obtain ⟨g, held, playing⟩ := Option.bind_eq_some_iff.mp found
      split at playing
      · rename_i active
        obtain ⟨mem, here⟩ := get_some held
        rw [← here] at held ⊢
        obtain ⟨games, stats⟩ := finish_of_get net (.win side.other)
          (ctx.say catalog gs.uid from.uid
            (.t "You resigned game #{id}." [("id", toString g.id)])) held
        refine ⟨bumps g (.win side.other), stats, ?_⟩
        rw [games]
        exact .finishes g _ mem active (by rw [playing]; rfl)
      · contradiction

theorem stats_doGames (catalog : Catalog) (env : Env) (gs : Games) («from» : Sender) (ctx : Ctx) :
    (gs.doGames catalog env «from» ctx).stats = ctx.stats := by
  unfold doGames
  dsimp only
  split
  · rfl
  · refine Ctx.stats_foldl (fun ctx id => ?_) _ _
    cases gs.get id <;> simp

theorem stats_doStats (catalog : Catalog) (net : NetView) (gs : Games) («from» : Sender)
    (args : List String) (ctx : Ctx) : (gs.doStats catalog net «from» args ctx).stats = ctx.stats := by
  unfold doStats
  split
  · rfl
  · dsimp only
    split
    · rw [Ctx.stats_notice, Ctx.stats_foldl fun _ _ => Ctx.stats_say ..]
      simp
    · rw [Ctx.stats_foldl fun _ _ => Ctx.stats_say ..]
      simp

theorem stats_doTop (catalog : Catalog) (env : Env) (net : NetView) (gs : Games) («from» : Sender)
    (args : List String) (ctx : Ctx) :
    (gs.doTop catalog env net «from» args ctx).stats = ctx.stats := by
  unfold doTop
  dsimp only
  split
  · rfl
  · split
    · simp
    · rw [Ctx.stats_foldl fun _ _ => by simp]
      simp

theorem result_onCommand :
    Result net «from» (args.head?.map toAsciiUppercase) gs ctx
      (gs.onCommand catalog env net «from» args ctx) := by
  unfold onCommand
  split <;> rename_i verb
  · rw [verb]
    exact result_doChallenge
  · rw [verb]
    exact result_doAccept
  · exact result_doDecline
  · exact result_doMove
  · exact result_doResign
  · exact result_of_same (stats_doGames ..) .nothing
  · exact result_of_same (stats_doStats ..) .nothing
  · exact result_of_same (stats_doTop ..) .nothing
  · exact result_of_same rfl .nothing
  · exact result_of_same rfl .nothing
  · exact result_of_same rfl .nothing

end Games

/-! ### What holds of the games in progress -/

/-- A game that goes on. -/
structure LiveGame.Going (g : LiveGame) : Prop where
  open' : g.status ≠ .«over» ∧ g.result = none
  unended : terminal g.toGame = none

theorem terminal_new (gt : GameType) : terminal (Game.new gt) = none := by
  cases gt <;> decide +kernel

/-- Each game has an id of its own that has been given out, two players, and no end; they are
not too many, and nobody has started too many. -/
structure Games.Sane (gs : Games) : Prop where
  ids : (gs.games.map (·.id)).Nodup
  given : ∀ g ∈ gs.games, g.id < gs.nextid
  apart : ∀ g ∈ gs.games, g.accA ≠ g.accB
  going : ∀ g ∈ gs.games, g.Going
  room : gs.games.length ≤ maxGamesTotal
  started : ∀ who, (gs.games.filter (·.accA == who)).length ≤ maxGamesPerUser

namespace Games

variable {gs gs' : Games}

theorem sane_new (uid : String) : Sane { uid } where
  ids := List.nodup_nil
  given := by simp
  apart := by simp
  going := by simp
  room := Nat.zero_le _
  started _ := Nat.zero_le _

/-- Games may go. -/
theorem Sane.less (h : Sane gs) {games : List LiveGame} (less : games.Sublist gs.games)
    (nextid : gs.nextid ≤ gs'.nextid) (left : gs'.games = games) : Sane gs' where
  ids := left ▸ h.ids.sublist (less.map _)
  given g mem := Nat.lt_of_lt_of_le (h.given g (less.subset (left ▸ mem))) nextid
  apart g mem := h.apart g (less.subset (left ▸ mem))
  going g mem := h.going g (less.subset (left ▸ mem))
  room := left ▸ less.length_le.trans h.room
  started who := left ▸ (less.filter _).length_le.trans (h.started who)

/-- A game may change, but for its players. -/
theorem Sane.modify (h : Sane gs) {id : Nat} {f : LiveGame → LiveGame} (sameId : ∀ g, (f g).id = g.id)
    (samePlayers : ∀ g, (f g).accA = g.accA ∧ (f g).accB = g.accB)
    (going : ∀ g ∈ gs.games, g.id = id → (f g).Going) : Sane (gs.modify id f) := by
  have ids : (gs.modify id f).games.map (·.id) = gs.games.map (·.id) := by
    simp only [Games.modify, List.map_map]
    refine List.map_congr_left fun g _ => ?_
    by_cases here : g.id = id <;> simp [here, sameId]
  have from_old {g : LiveGame} (mem : g ∈ (gs.modify id f).games) :
      ∃ g' ∈ gs.games, g = if g'.id == id then f g' else g' := by
    obtain ⟨g', old, rfl⟩ := List.mem_map.mp mem
    exact ⟨g', old, rfl⟩
  constructor
  · rw [ids]
    exact h.ids
  · intro g mem
    obtain ⟨g', old, rfl⟩ := from_old mem
    have given := h.given g' old
    split
    · rwa [sameId]
    · exact given
  · intro g mem
    obtain ⟨g', old, rfl⟩ := from_old mem
    have apart := h.apart g' old
    split
    · rwa [(samePlayers g').1, (samePlayers g').2]
    · exact apart
  · intro g mem
    obtain ⟨g', old, rfl⟩ := from_old mem
    split
    · rename_i here
      exact going g' old (by simpa using here)
    · exact h.going g' old
  · simp only [Games.modify, List.length_map]
    exact h.room
  · intro who
    have same : ((gs.modify id f).games.filter (·.accA == who)).length =
        (gs.games.filter (·.accA == who)).length := by
      simp only [Games.modify, List.filter_map, List.length_map]
      congr 1
      refine List.filter_congr fun g _ => ?_
      by_cases here : g.id = id <;> simp [here, samePlayers]
    rw [same]
    exact h.started who

/-- A challenge within the limits. -/
theorem Sane.insert (h : Sane gs) {g : LiveGame} (given : g.id = gs.nextid) (apart : g.accA ≠ g.accB)
    (going : g.Going) (room : gs.games.length < maxGamesTotal)
    (few : gs.mine g.accA < maxGamesPerUser) :
    Sane (({ gs with nextid := gs.nextid + 1 } : Games).insert g) := by
  have others : gs.games.filter (fun h => h.id != g.id) = gs.games := by
    refine List.filter_eq_self.mpr fun h' mem => ?_
    have below := h.given h' mem
    simp only [bne_iff_ne, ne_eq]
    omega
  have games : (({ gs with nextid := gs.nextid + 1 } : Games).insert g).games = gs.games ++ [g] :=
    congrArg (· ++ [g]) others
  constructor
  · rw [games, List.map_append, List.map_singleton, ← List.concat_eq_append]
    refine h.ids.concat fun mem => ?_
    obtain ⟨h', old, same⟩ := List.mem_map.mp mem
    have below := h.given h' old
    omega
  · intro h' mem
    rw [games] at mem
    change h'.id < gs.nextid + 1
    rcases List.mem_append.mp mem with old | new
    · exact Nat.lt_succ_of_lt (h.given h' old)
    · rw [List.mem_singleton.mp new, given]
      exact Nat.lt_succ_self _
  · intro h' mem
    rw [games] at mem
    rcases List.mem_append.mp mem with old | new
    · exact h.apart h' old
    · rwa [List.mem_singleton.mp new]
  · intro h' mem
    rw [games] at mem
    rcases List.mem_append.mp mem with old | new
    · exact h.going h' old
    · rwa [List.mem_singleton.mp new]
  · rw [games, List.length_append]
    exact room
  · intro who
    rw [games, List.filter_append, List.length_append]
    by_cases own : g.accA = who
    · subst own
      have started : (gs.games.filter (·.accA == g.accA)).length ≤ gs.mine g.accA :=
        (List.monotone_filter_right _ fun h' starts => by simp [starts]).length_le
      have one : ([g].filter (·.accA == g.accA)).length = 1 := by simp
      omega
    · have none : ([g].filter (·.accA == who)).length = 0 := by simp [own]
      have old := h.started who
      omega

/-- No command does more than the limits allow. -/
theorem Sane.does (h : Sane gs) {net : NetView} {«from» : Sender} {verb : Option String}
    {keys : List String} (does : Does net «from» verb gs gs' keys) : Sane gs' := by
  cases does with
  | nothing => exact h
  | reclaims => exact h.less List.filter_sublist (Nat.le_refl _) rfl
  | challenges gt target tuid _ _ other room few =>
      have left : Sane (gs.reclaim net) := h.less List.filter_sublist (Nat.le_refl _) rfl
      exact left.insert rfl other.symm ⟨⟨by simp [LiveGame.new], rfl⟩, terminal_new gt⟩ room few
  | accepts g _ mem awaits =>
      refine h.modify (fun _ => rfl) (fun _ => ⟨rfl, rfl⟩) fun g' mem' _ => ?_
      exact ⟨⟨by simp, (h.going g' mem').open'.2⟩, (h.going g' mem').unended⟩
  | declines g mem => exact h.less List.filter_sublist (Nat.le_refl _) rfl
  | renames g side mem =>
      refine h.modify (fun g => id_named g ..) (fun g => by cases side <;> exact ⟨rfl, rfl⟩)
        fun g' mem' _ => ?_
      have going := h.going g' mem'
      cases side <;> exact ⟨going.open', going.unended⟩
  | moves g side game mem active ongoing =>
      refine h.modify (fun g => id_moved g ..) (fun g => by cases side <;> exact ⟨rfl, rfl⟩)
        fun g' mem' _ => ?_
      have going := h.going g' mem'
      cases side <;> exact ⟨going.open', ongoing⟩
  | finishes g outcome mem => exact h.less List.filter_sublist (Nat.le_refl _) rfl

end Games

end Echo.GameServ
