import Echo.Lib.Probing
import Echo.Lib.Runs
import Echo.Login.Agreement
import Echo.Login.Steps
import Echo.Net.State

/-!
Guest nicks (`next_guest_nick`, and who asks for one): NickServ at LOGOUT, GHOST, RECOVER and LOGIN
with a counter of its own, the engine when a LOGIN is through and when nobody has identified in time
with another. What has been asked for is not on the network yet, so neither counter sees what
the other has asked for.
-/

namespace Echo.GuestNicks

open Echo.Lib Echo.Net

/-- Who is behind a command. -/
structure Sender where
  uid : String
  account : Option String

/-- A base and a counter to make guest nicks of. -/
structure Guests where
  base : String
  seq : UInt32
  deriving DecidableEq, Repr

inductive Renamer where
  | nickServ
  | engine
  deriving DecidableEq, Repr

/-- A rename that is asked of the ircd (`ForceNick`). -/
structure Rename where
  uid : String
  nick : String
  deriving DecidableEq, Repr

/-- Someone on a registered nick who has not identified yet. -/
structure PendingEnforce where
  uid : String
  nick : String
  deadline : Nat

/-- What has a part in guest nicks; the guest nicks that are asked for and not confirmed come last. -/
structure World where
  net : Network
  /-- The bots' uids, by folded nick. -/
  bots : Table String := ∅
  logins : Logins
  nickServ : Guests
  engine : Guests
  pendingEnforce : List PendingEnforce := []
  requested : List Rename := []

namespace World

variable (c : Checks) (w : World)

def uidByNick (nick : String) : Option String :=
  ((w.net.users.entries.find? fun e => eqIgnoreAsciiCase e.2.nick nick).map (·.2.uid)).or w.bots[lc nick]?

def nickOf (uid : String) : Option String := (w.net.users.lookup uid).map (·.nick)

/-- A nick that nobody uses and that is not registered. -/
def free (nick : String) : Bool := (w.uidByNick nick).isNone && !w.logins.db.exists nick

def guests : Renamer → Guests
  | .nickServ => w.nickServ
  | .engine => w.engine

end World

def candidate (base : String) (seq : UInt32) : String := s!"{base}{seq}"

/-- The next free guest nick, or the one after 100,000 that are not. -/
def nextGuestNick (g : Guests) (free : String → Bool) : String × Guests :=
  let (nick, seq) := probe (candidate g.base) (· + 1) free 100000 g.seq
  (nick, { g with seq })

namespace World

variable (c : Checks) (w : World)

/-- Ask for a guest nick for someone. -/
def ask (renamer : Renamer) (uid : String) : World × Rename :=
  let (nick, g) := nextGuestNick (w.guests renamer) w.free
  let rename : Rename := ⟨uid, nick⟩
  let w := { w with requested := w.requested ++ [rename] }
  (match renamer with
    | .nickServ => { w with nickServ := g }
    | .engine => { w with engine := g }, rename)

/-! ### NickServ -/

def logout («from» : Sender) : World × List Rename :=
  match «from».account with
  | none => (w, [])
  | some _ =>
    let (w, guest) := w.ask .nickServ «from».uid
    (w, [guest])

/-- Whether a password is that of an account. -/
def authenticate (name password : String) : Bool :=
  (w.logins.db.scramLookup name .sha256).any fun found => c.verifyPlain found.2 password

/-- Whether who sends a command owns an account, by being identified to it or by its password. -/
def owns («from» : Sender) (account : String) (password : Option String) : World × Bool :=
  if «from».account = some account then (w, true)
  else
    match password with
    | none => (w, false)
    | some pw =>
      if (w.logins.authLockout account).isSome then (w, false)
      else
        let ok := w.authenticate c account pw
        ({ w with logins := w.logins.noteAuth account ok }, ok)

/-- GHOST and RECOVER; the latter puts the caller on the nick. -/
def ghost («from» : Sender) (args : List String) (regain : Bool) : World × List Rename :=
  match args[1]? with
  | none => (w, [])
  | some target =>
    match w.logins.db.resolveAccount target with
    | none => (w, [])
    | some account =>
      let (w, owns) := w.owns c «from» account args[2]?
      if !owns then (w, [])
      else
        let back := if regain then [⟨«from».uid, target⟩] else []
        match w.uidByNick target with
        | some ghost =>
          if ghost = «from».uid then (w, [])
          else
            let (w, guest) := w.ask .nickServ ghost
            (w, guest :: back)
        | none => (w, back)

def login («from» : Sender) (args : List String) : World × List Rename :=
  match args[1]?, args[2]? with
  | some nick, some password =>
    if «from».account.isSome ∧ w.logins.db.resolveAccount nick = «from».account then w.ghost c «from» args true
    else ({ w with logins := (w.logins.login «from».uid «from».account nick password).1 }, [])
  | _, _ => (w, [])

/-! ### The engine -/

/-- Reclaim a nick for who has logged in. -/
def recoverNick (uid nick : String) : World × List Rename :=
  let (w, freed) :=
    match w.uidByNick nick with
    | some ghost =>
      if ghost ≠ uid then
        let (w, guest) := w.ask .engine ghost
        (w, [guest])
      else (w, [])
    | none => (w, [])
  (w, freed ++ if w.nickOf uid ≠ some nick then [⟨uid, nick⟩] else [])

def accountWantsProtect (account : String) : Bool := (w.logins.db.accounts[key account]?).all (!·.noProtect)

/-- Whether someone who was to identify is to be renamed. -/
def fires (p : PendingEnforce) : Bool :=
  let stillThere := w.uidByNick p.nick = some p.uid
  let identified := w.net.accounts.lookup p.uid = w.logins.db.resolveAccount p.nick
  let wants := (w.logins.db.resolveAccount p.nick).any w.accountWantsProtect
  stillThere && !identified && wants

/-- Rename whoever did not identify in time. -/
def enforceSweep : World × List Rename :=
  let (due, pending) := w.pendingEnforce.partition fun p => p.deadline ≤ w.logins.now
  ((due.filter w.fires).map (·.uid)).foldl
    (fun (w, out) uid =>
      let (w, guest) := w.ask .engine uid
      (w, out ++ [guest]))
    ({ w with pendingEnforce := pending }, [])

end World

/-! ### Runs -/

inductive GuestAction where
  | logout («from» : Sender)
  | ghost («from» : Sender) (args : List String) (regain : Bool)
  | login («from» : Sender) (args : List String)
  | recoverNick (uid nick : String)
  | enforceSweep
  /-- The ircd has renamed someone. -/
  | confirm (rename : Rename)
  /-- Someone is gone, with what was asked for them. -/
  | gone (uid : String)
  /-- Whatever else happens to the network, the store and who is to identify, and another base for the
  engine by REHASH. -/
  | other (net : Network) (bots : Table String) (logins : Logins) (pendingEnforce : List PendingEnforce)
      (base : String)

namespace World

variable (c : Checks) (w : World)

def act : GuestAction → World × List Rename
  | .logout «from» => w.logout «from»
  | .ghost «from» args regain => w.ghost c «from» args regain
  | .login «from» args => w.login c «from» args
  | .recoverNick uid nick => w.recoverNick uid nick
  | .enforceSweep => w.enforceSweep
  | .confirm rename =>
    ({ w with
      net := w.net.userNickChange rename.uid rename.nick w.logins.now
      pendingEnforce := w.pendingEnforce.filter (·.uid ≠ rename.uid)
      requested := w.requested.filter (· ≠ rename) }, [])
  | .gone uid =>
    ({ w with
      net := w.net.userQuit uid w.logins.now
      pendingEnforce := w.pendingEnforce.filter (·.uid ≠ uid)
      requested := w.requested.filter (·.uid ≠ uid) }, [])
  | .other net bots logins pendingEnforce base =>
    ({ w with net, bots, logins, pendingEnforce, engine := { w.engine with base } }, [])

def step (w : World) (a : GuestAction) : World := (w.act c a).1

end World

/-! ### The renames of a step -/

namespace World

variable (c : Checks) (w : World)

/-- Who is to be renamed by GHOST, if anyone. -/
def ghosted («from» : Sender) (args : List String) : Option String :=
  args[1]?.bind fun target => (w.logins.db.resolveAccount target).bind fun account =>
    if (w.owns c «from» account args[2]?).2 then (w.uidByNick target).filter (· ≠ «from».uid) else none

/-- The guest nicks that an action asks for, one after the other. -/
def asked : GuestAction → List (Renamer × String)
  | .logout «from» => if «from».account.isSome then [(.nickServ, «from».uid)] else []
  | .ghost «from» args _ => (w.ghosted c «from» args).toList.map (.nickServ, ·)
  | .login «from» args =>
    if («from».account.isSome ∧ args[1]?.bind w.logins.db.resolveAccount = «from».account) ∧ args[2]?.isSome then
      (w.ghosted c «from» args).toList.map (.nickServ, ·)
    else []
  | .recoverNick uid nick => ((w.uidByNick nick).filter (· ≠ uid)).toList.map (.engine, ·)
  | .enforceSweep =>
    ((w.pendingEnforce.filter fun p => p.deadline ≤ w.logins.now && w.fires p).map fun p => (.engine, p.uid))
  | .confirm _ | .gone _ | .other .. => []

def askStep (w : World) (r : Renamer × String) : World := (w.ask r.1 r.2).1

/-- What the choice of a guest nick depends on, and what is asked for, is the same. -/
structure Same (w w' : World) : Prop where
  net : w'.net = w.net
  bots : w'.bots = w.bots
  db : w'.logins.db = w.logins.db
  nickServ : w'.nickServ = w.nickServ
  engine : w'.engine = w.engine
  requested : w'.requested = w.requested

variable {c w} {w' : World}

theorem Same.refl : Same w w := ⟨rfl, rfl, rfl, rfl, rfl, rfl⟩

theorem Same.trans {w'' : World} (h : Same w w') (h' : Same w' w'') : Same w w'' :=
  ⟨h'.net.trans h.net, h'.bots.trans h.bots, h'.db.trans h.db, h'.nickServ.trans h.nickServ,
    h'.engine.trans h.engine, h'.requested.trans h.requested⟩

theorem Same.uidByNick (same : Same w w') (nick : String) : w'.uidByNick nick = w.uidByNick nick := by
  simp [World.uidByNick, same.net, same.bots]

theorem Same.free (same : Same w w') : w'.free = w.free := by
  funext nick
  simp [World.free, same.uidByNick, same.db]

theorem Same.ask (same : Same w w') (r : Renamer × String) : Same (w.askStep r) (w'.askStep r) := by
  obtain ⟨renamer, uid⟩ := r
  cases renamer <;>
    exact ⟨same.net, same.bots, same.db, by simp [askStep, World.ask, guests, same.free, same.nickServ, same.engine],
      by simp [askStep, World.ask, guests, same.free, same.nickServ, same.engine],
      by simp [askStep, World.ask, guests, same.free, same.nickServ, same.engine, same.requested]⟩

theorem Same.asks (same : Same w w') (rs : List (Renamer × String)) :
    Same (after askStep w rs) (after askStep w' rs) := by
  induction rs generalizing w w' with
  | nil => exact same
  | cons r rs ih => exact ih (same.ask r)

theorem same_owns (w : World) («from» : Sender) (account : String) (password : Option String) :
    Same w (w.owns c «from» account password).1 := by
  rw [owns.eq_def]
  simp only
  split
  · exact .refl
  · split
    · exact .refl
    · split
      · exact .refl
      · exact { Same.refl with db := Logins.db_noteAuth _ _ }

theorem same_logout (w : World) («from» : Sender) :
    Same (after askStep w (w.asked c (.logout «from»))) (w.logout «from»).1 := by
  rw [logout, asked]
  cases «from».account with
  | none => exact .refl
  | some account => exact .refl

theorem same_ghost (w : World) («from» : Sender) (args : List String) (regain : Bool) :
    Same (after askStep w ((w.ghosted c «from» args).toList.map (.nickServ, ·))) (w.ghost c «from» args regain).1 := by
  rw [ghost, ghosted]
  cases args[1]? with
  | none => exact .refl
  | some target =>
    simp only [Option.bind_some]
    cases w.logins.db.resolveAccount target with
    | none => exact .refl
    | some account =>
      have owned := same_owns (c := c) w «from» account args[2]?
      simp only [Option.bind_some]
      by_cases yes : (w.owns c «from» account args[2]?).2 = true
      · simp only [yes, if_true, Bool.not_true, Bool.false_eq_true, if_false, owned.uidByNick]
        cases w.uidByNick target with
        | none => exact owned
        | some ghost =>
          by_cases self : ghost = «from».uid
          · simpa [self, Option.filter] using owned
          · simpa [self, Option.filter, askStep] using owned.ask (.nickServ, ghost)
      · simpa [yes] using owned

theorem db_login (l : Logins) (uid : String) (account : Option String) (nick password : String) :
    (l.login uid account nick password).1.db = l.db := by
  rw [Logins.login]
  split
  · rfl
  · rcases l.precheck_cases nick with ⟨found, passed⟩ | stopped | ⟨counted, -⟩
    · rw [passed]
      rfl
    · rw [stopped]
    · rw [counted]
      exact Logins.db_noteAuth nick false

theorem same_login (w : World) («from» : Sender) (args : List String) :
    Same (after askStep w (w.asked c (.login «from» args))) (w.login c «from» args).1 := by
  rw [login.eq_def, asked]
  cases nicked : args[1]? with
  | none => simpa [ghosted, nicked] using Same.refl
  | some nick =>
    cases passworded : args[2]? with
    | none => simpa using Same.refl
    | some password =>
      by_cases recover : «from».account.isSome ∧ w.logins.db.resolveAccount nick = «from».account
      · simpa [recover] using same_ghost (c := c) w «from» args true
      · simpa [recover] using { Same.refl with db := db_login _ _ _ _ _ }

theorem same_recoverNick (w : World) (uid nick : String) :
    Same (after askStep w (w.asked c (.recoverNick uid nick))) (w.recoverNick uid nick).1 := by
  rw [recoverNick, asked]
  cases w.uidByNick nick with
  | none => exact .refl
  | some ghost =>
    by_cases self : ghost = uid
    · simpa [self, Option.filter] using Same.refl
    · simpa [self, Option.filter, askStep] using Same.refl

theorem asks_foldl (uids : List String) (w : World) (out : List Rename) :
    (uids.foldl (fun (w, out) uid =>
      let (w, guest) := w.ask .engine uid
      (w, out ++ [guest])) (w, out)).1 = after askStep w (uids.map (.engine, ·)) := by
  induction uids generalizing w out with
  | nil => rfl
  | cons uid uids ih => exact ih _ _

theorem same_enforceSweep (w : World) :
    Same (after askStep w (w.asked c .enforceSweep)) w.enforceSweep.1 := by
  rw [enforceSweep, asked, List.partition_eq_filter_filter]
  simp only
  rw [asks_foldl, List.filter_filter, List.map_map]
  simp only [Bool.and_comm, Function.comp_def]
  refine Same.asks ?_ _
  exact ⟨rfl, rfl, rfl, rfl, rfl, rfl⟩

/-- An action of services asks for its guest nicks and else changes nothing that their choice depends
on; the others ask for none. -/
theorem step_cases (w : World) (a : GuestAction) :
    Same (after askStep w (w.asked c a)) (w.step c a) ∨
      w.asked c a = [] ∧ (w.step c a).requested.Sublist w.requested := by
  cases a with
  | logout «from» => exact .inl (same_logout w «from»)
  | ghost «from» args regain => exact .inl (same_ghost w «from» args regain)
  | login «from» args => exact .inl (same_login w «from» args)
  | recoverNick uid nick => exact .inl (same_recoverNick w uid nick)
  | enforceSweep => exact .inl (same_enforceSweep w)
  | confirm rename => exact .inr ⟨rfl, List.filter_sublist⟩
  | gone uid => exact .inr ⟨rfl, List.filter_sublist⟩
  | other net bots logins pendingEnforce base => exact .inr ⟨rfl, List.Sublist.refl _⟩

end World

/-! ### Distinct guest nicks -/

namespace World

/-- The `i`th nick from the counter on. -/
def counted (w : World) (renamer : Renamer) (i : ℕ) : String :=
  candidate (w.guests renamer).base ((· + 1)^[i] (w.guests renamer).seq)

/-- The first free one of the 100,001 nicks from the counter on has not been asked for. -/
def FirstFree (w : World) (renamer : Renamer) : Prop :=
  ∃ i ≤ 100000, (∀ j < i, w.free (w.counted renamer j) = false) ∧ w.free (w.counted renamer i) = true ∧
    ∀ r ∈ w.requested, key r.nick ≠ key (w.counted renamer i)

/-- At each rename of a step, so is the first free nick. -/
def Fits (c : Checks) (w : World) (a : GuestAction) : Prop :=
  Along askStep (fun w r => w.FirstFree r.1) w (w.asked c a)

variable {c : Checks} {w w' : World}

/-- Alice is logged in, a stranger is on carol's nick, and services started in a second that
leaves no remainder. -/
def sample : World where
  net := {
    users := ((∅ : Assoc String User).insert "1AAAAAAAB" ⟨"1AAAAAAAB", "alice", "a.example", "192.0.2.1"⟩).insert
      "1AAAAAAAC" ⟨"1AAAAAAAC", "carol", "c.example", "192.0.2.2"⟩
    accounts := (∅ : Assoc String String).insert "1AAAAAAAB" "alice" }
  logins := .sample
  nickServ := ⟨"Guest", 0⟩
  engine := ⟨"Guest", 0⟩
  pendingEnforce := [⟨"1AAAAAAAC", "carol", 90⟩]

end World

end Echo.GuestNicks
