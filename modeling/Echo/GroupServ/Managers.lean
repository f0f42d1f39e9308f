import Echo.Db.FlagLetters
import Echo.Db.Lockstep
import Echo.Engine.Owners
import Echo.Login.Doors
import Echo.Db.Run

/-!
GroupServ's member commands (`modules/groupserv`). Who holds `f` in a group manages its
members without being its founder. Nothing keeps such a manager from the flag `F` that
stands for a founder: FLAGS gives and takes it as any other, DEL removes who holds it, and
ADD of a member writes its entry anew without flags.
-/

namespace Echo

open Echo.Lib
open Engine (bold tryAgain)

/-- A command that changes who is in a group, with the words its sender typed. -/
inductive GroupCommand where
  | add (name target : Option String)
  | del (name target : Option String)
  | flags (name target delta : Option String)

structure GroupRequest where
  account : Option String
  command : GroupCommand

namespace Group

variable (g : Group)

/-- The flags of a member as they are stored. -/
def memberFlags (account : String) : Option String :=
  (g.members.find? fun m => eqIgnoreAsciiCase m.account account).map (·.flags)

/-- Whether an account may manage the group: its founder, or who holds `F` or `f`. -/
def canManage (who : String) : Bool :=
  eqIgnoreAsciiCase g.founder who ||
    g.members.any fun m =>
      eqIgnoreAsciiCase m.account who &&
        let f : GroupFlags := .parse m.flags
        f.has .founder || f.has .manage

/-- Whether a member's flags make it the founder's equal. -/
def holdsFounder (account : String) : Bool :=
  (g.memberFlags account).any fun f => (FlagSet.parse f : GroupFlags).has .founder

end Group

/-! ### The commands -/

namespace GroupServ

def logIn : String := "You need to be logged in. Identify to NickServ first."

def unregistered (name : String) : String := bold name ++ " isn't registered."

def shown (flags : String) : String := if flags.isEmpty then "(member)" else flags

/-- What ADD and DEL ask first. -/
def managing (usage : String) (db : Db) (account name target : Option String)
    (act : (name target : String) → Db × List String) : Db × List String :=
  match account with
  | none => (db, [logIn])
  | some acc =>
      match name, target with
      | some name, some target =>
          match db.group name with
          | none => (db, [unregistered name])
          | some g =>
              if !g.canManage acc then
                (db, ["You need the founder or the " ++ bold "f" ++ " flag to manage " ++ bold name ++ "."])
              else act name target
      | _, _ => (db, [usage])

/-- `ADD <!group> <account>`: a plain member, without flags. -/
def add (db : Db) (account name target : Option String) : Db × List String :=
  managing "Syntax: ADD <!group> <account>" db account name target fun name target =>
    match db.resolveAccount target with
    | none => (db, [unregistered target])
    | some canonical =>
        match (Db.groupSetFlags name canonical "").run.run db with
        | (.ok (), db) => (db, ["Added " ++ bold canonical ++ " to " ++ bold name ++ "."])
        | (.error _, db) => (db, [tryAgain])

/-- `DEL <!group> <account>` -/
def del (db : Db) (account name target : Option String) : Db × List String :=
  managing "Syntax: DEL <!group> <account>" db account name target fun name target =>
    match (Db.groupDelMember name target).run.run db with
    | (.ok true, db) => (db, ["Removed " ++ bold target ++ " from " ++ bold name ++ "."])
    | (.ok false, db) => (db, [bold target ++ " isn't in " ++ bold name ++ "."])
    | (.error _, db) => (db, [tryAgain])

/-- `FLAGS <!group> [account [delta]]`: list, show or change. What is shown and changed
are the flags under the name that was typed; what is written is the account it resolves to. -/
def flags (db : Db) (account name target delta : Option String) : Db × List String :=
  match account with
  | none => (db, [logIn])
  | some acc =>
      match name with
      | none => (db, ["Syntax: FLAGS <!group> [account [+/" ++ "-flags]]"])
      | some name =>
          match db.group name with
          | none => (db, [unregistered name])
          | some g =>
              match target with
              | none =>
                  (db, ["Flags for " ++ bold g.name ++ ":",
                    "  " ++ bold g.founder ++ " (founder): " ++ bold "F"] ++
                    g.members.map fun m => "  " ++ bold m.account ++ ": " ++ bold (shown m.flags))
              | some target =>
                  match delta with
                  | none =>
                      match g.memberFlags target with
                      | some f => (db, [bold target ++ " in " ++ bold name ++ ": " ++ bold (shown f)])
                      | none => (db, [bold target ++ " isn't in " ++ bold name ++ "."])
                  | some delta =>
                      if !g.canManage acc then
                        (db, ["You need the founder or the " ++ bold "f" ++ " flag to change " ++
                          bold name ++ "."])
                      else
                        match db.resolveAccount target with
                        | none => (db, [unregistered target])
                        | some canonical =>
                            match (FlagSet.parse ((g.memberFlags target).getD "") : GroupFlags).applyDelta
                              true delta.toList with
                            | .error bad =>
                                (db, [bold (toString bad) ++ " isn't a valid group flag. Valid: " ++
                                  bold "Fficsm" ++ "."])
                            | .ok updated =>
                                let letters := updated.toLetters
                                match (Db.groupSetFlags name canonical letters).run.run db with
                                | (.ok (), db) =>
                                    (db, [bold canonical ++ " in " ++ bold name ++ " now holds " ++
                                      bold (shown letters) ++ "."])
                                | (.error _, db) => (db, [tryAgain])

def answer (db : Db) (r : GroupRequest) : Db × List String :=
  match r.command with
  | .add name target => add db r.account name target
  | .del name target => del db r.account name target
  | .flags name target delta => flags db r.account name target delta

def step (db : Db) (r : GroupRequest) : Db := (answer db r).1

end GroupServ

/-! ### What a command writes -/

namespace Group

variable {g : Group} {account a : String}

/-- The entry of an account written anew, or taken away. -/
def withMember (account : String) (flags : Option String) (g : Group) : Group :=
  { g with members :=
      g.members.filter (fun m => !eqIgnoreAsciiCase m.account account) ++
        (flags.map fun f => ⟨account, f⟩).toList }

theorem memberFlags_eq (g : Group) (a : String) :
    g.memberFlags a = (g.members.find? fun m => key m.account == key a).map (·.flags) := rfl

theorem memberFlags_withMember (flags : Option String) :
    (g.withMember account flags).memberFlags a =
      if key a = key account then flags else g.memberFlags a := by
  have picks (m : GroupMember) : eqIgnoreAsciiCase m.account account = true ↔ key m.account = key account :=
    eqIgnoreAsciiCase_iff_key
  have others := find?_filter_key (fun m : GroupMember => key m.account) picks g.members (key a)
  rw [memberFlags_eq, memberFlags_eq, withMember, List.find?_append, others]
  by_cases same : key a = key account
  · rw [if_pos same, if_pos same, Option.none_or]
    cases flags with
    | none => rfl
    | some f => simp [same]
  · rw [if_neg same, if_neg same]
    cases flags with
    | none => simp
    | some f =>
        have missed : key account ≠ key a := fun hit => same hit.symm
        simp [missed]

end Group

namespace Db

variable {db : Db} {name account n a : String}

/-- The flags of an account in a group, if it is a member. -/
def memberFlags (db : Db) (name account : String) : Option String :=
  (db.group name).bind (·.memberFlags account)

theorem memberFlags_congr {m b : String} (group : key n = key m) (member : key a = key b) :
    db.memberFlags n a = db.memberFlags m b := by
  have same : db.group n = db.group m := by
    unfold Db.group
    rw [group]
  unfold memberFlags
  rw [same]
  cases db.group m with
  | none => rfl
  | some g =>
      change g.memberFlags a = g.memberFlags b
      rw [Group.memberFlags_eq, Group.memberFlags_eq, member]

/-- Whether an account holds the flag of a founder in a group. -/
def holdsFounder (db : Db) (name account : String) : Bool :=
  (db.memberFlags name account).any fun f => (FlagSet.parse f : GroupFlags).has .founder

/-- The entry of an account in a group was written, if the log took it, and no other. -/
def Entered (name account : String) (flags : Option String) (db db' : Db) : Prop :=
  ∀ n a, db'.memberFlags n a =
    if db.log.writable = true ∧ key n = key name ∧ key a = key account then flags
    else db.memberFlags n a

theorem entered_logged {ε : Type} {event : Event} {onError : IoError → ε} {g : Group}
    {flags : Option String} (held : db.group name = some g) :
    Keeps (Entered name account flags)
      (logged event onError (·.adjustGroup name (Group.withMember account flags))).run db := by
  intro n a
  rw [run_logged, EventLog.append_eq]
  cases db.log.writable with
  | false =>
      rw [if_neg (by simp)]
      cases db.log.readonly <;> rfl
  | true =>
      unfold memberFlags group
      change Option.bind ((modifyFirst _ _ db.net.groups).find? _) _ = _
      by_cases same : key n = key name
      · unfold group at held
        rw [same, find?_modifyFirst_self (f := Group.withMember account flags) fun g (hit : (key g.name == key name) = true) => hit, held]
        change (g.withMember account flags).memberFlags a = _
        rw [Group.memberFlags_withMember]
        by_cases here : key a = key account
        · rw [if_pos here, if_pos ⟨rfl, rfl, here⟩]
        · rw [if_neg here, if_neg (fun all => here all.2.2)]
          rfl
      · rw [if_neg (fun all => same all.2.1), find?_modifyFirst_of_disjoint fun g hit => ?_]
        have misses : (key g.name == key n) = false := by
          rw [beq_eq_false_iff_ne, beq_iff_eq.mp hit]
          exact fun eq => same eq.symm
        exact ⟨misses, misses⟩

theorem entered_groupSetFlags {flags : String} {g : Group} (held : db.group name = some g) :
    Keeps (Entered name account (some flags)) (groupSetFlags name account flags).run db := by
  refine keeps_get_bindE ?_
  rw [held]
  exact entered_logged held

theorem entered_groupDelMember {g : Group} (held : db.group name = some g) :
    Keeps (Entered name account none) (groupDelMember name account).run db := by
  refine keeps_get_bindE ?_
  rw [held]
  dsimp only
  split
  · have same : (fun g : Group => { g with
        members := g.members.filter fun m => !eqIgnoreAsciiCase m.account account }) =
          Group.withMember account none := by
      funext g
      simp [Group.withMember]
    have entered : Keeps (Entered name account none)
        (logged (.groupMemberDel name account) (fun _ => ChanError.internal)
          (·.adjustGroup name (Group.withMember account none))).run db := entered_logged held
    rw [same]
    unfold Keeps at entered ⊢
    rw [run_bindE]
    generalize (ExceptT.run (logged (.groupMemberDel name account) (fun _ => ChanError.internal) fun s =>
      s.adjustGroup name (Group.withMember account none))).run db = outcome at entered ⊢
    rcases outcome with ⟨_ | _, t⟩
    · exact entered
    · exact entered
  · rename_i absent
    intro n a
    split
    · rename_i here
      have member : db.memberFlags n a = none := by
        have group : db.group n = some g := by
          unfold group at held ⊢
          rw [here.2.1, held]
        unfold memberFlags
        rw [group]
        change g.memberFlags a = none
        rw [Group.memberFlags_eq, here.2.2]
        refine Option.map_eq_none_iff.mpr (List.find?_eq_none.mpr fun m mem hit => absent ?_)
        exact List.any_eq_true.mpr ⟨m, mem, hit⟩
      exact member
    · rfl

end Db

/-! ### What each command does -/

/-- Where a command names a group and a target, they are these. -/
def GroupCommand.names : GroupCommand → Option (String × String)
  | .add (some name) (some target) | .del (some name) (some target)
  | .flags (some name) (some target) _ => some (name, target)
  | _ => none

def GroupCommand.isAdd : GroupCommand → Bool
  | .add .. => true
  | _ => false

namespace GroupRequest

variable {db : Db} {r : GroupRequest}

/-- How far a request gets: to its target, where the group it names is there and its sender
may manage it. -/
def reaches (db : Db) (r : GroupRequest) : Option (String × String × Group) :=
  match r.account, r.command.names with
  | some acc, some (name, target) =>
      match db.group name with
      | some g => if g.canManage acc then some (name, target, g) else none
      | none => none
  | _, _ => none

/-- What a request writes of whom: ADD the account without flags, DEL nothing under the name
that was typed, FLAGS what the delta makes of the flags under that name, for the account. -/
def Writes (db : Db) (r : GroupRequest) (g : Group) (target account : String)
    (entry : Option String) : Prop :=
  match r.command with
  | .add .. => db.resolveAccount target = some account ∧ entry = some ""
  | .del .. => account = target ∧ entry = none
  | .flags _ _ delta =>
      db.resolveAccount target = some account ∧
        ∃ d updated, delta = some d ∧
          (FlagSet.parse ((g.memberFlags target).getD "") : GroupFlags).applyDelta true d.toList =
            .ok updated ∧ entry = some updated.toLetters

theorem reaches_held {name target : String} {g : Group} (there : r.reaches db = some (name, target, g)) :
    db.group name = some g := by
  unfold reaches at there
  split at there
  · split at there
    · split at there
      · cases there
        assumption
      · cases there
    · cases there
  · cases there

/-- ADD and DEL act on the target they reach. -/
theorem managing_eq (r : GroupRequest) {usage : String} {name target : Option String}
    {act : (name target : String) → Db × List String}
    (names : r.command.names = name.bind fun n => target.map fun t => (n, t)) :
    (GroupServ.managing usage db r.account name target act).1 =
      match r.reaches db with
      | some (n, t, _) => (act n t).1
      | none => db := by
  unfold GroupServ.managing reaches
  rw [names]
  cases r.account with
  | none => rfl
  | some acc =>
      cases name with
      | none => cases target <;> rfl
      | some n =>
          cases target with
          | none => rfl
          | some t =>
              dsimp only [Option.bind_some, Option.map_some]
              cases db.group n with
              | none => rfl
              | some g => cases entitled : g.canManage acc <;> simp [entitled]

/-- FLAGS changes what it reaches where it was given a delta that fits. -/
theorem flags_eq {acc name target delta : Option String} :
    (GroupServ.flags db acc name target delta).1 =
      match reaches db ⟨acc, .flags name target delta⟩ with
      | some (n, t, g) =>
          match delta, db.resolveAccount t with
          | some d, some canonical =>
              match (FlagSet.parse ((g.memberFlags t).getD "") : GroupFlags).applyDelta true d.toList with
              | .ok updated => ((Db.groupSetFlags n canonical updated.toLetters).run.run db).2
              | .error _ => db
          | _, _ => db
      | none => db := by
  unfold GroupServ.flags reaches
  cases acc with
  | none => rfl
  | some acc =>
      cases name with
      | none => cases target <;> rfl
      | some n =>
          dsimp only
          cases held : db.group n with
          | none => cases target <;> simp [GroupCommand.names, held]
          | some g =>
              cases target with
              | none => simp [GroupCommand.names]
              | some t =>
                  cases delta with
                  | none =>
                      dsimp only [GroupCommand.names]
                      rw [held]
                      cases entitled : g.canManage acc <;> cases g.memberFlags t <;> simp [entitled]
                  | some d =>
                      dsimp only [GroupCommand.names]
                      rw [held]
                      cases entitled : g.canManage acc with
                      | false => simp [entitled]
                      | true =>
                          simp only [entitled, Bool.not_true, Bool.false_eq_true, if_false, if_true]
                          cases db.resolveAccount t with
                          | none => rfl
                          | some canonical =>
                              dsimp only
                              cases (FlagSet.parse ((g.memberFlags t).getD "") : GroupFlags).applyDelta
                                  true d.toList with
                              | error bad => rfl
                              | ok updated =>
                                  dsimp only
                                  generalize (ExceptT.run (Db.groupSetFlags n canonical
                                    updated.toLetters)).run db = outcome
                                  rcases outcome with ⟨_ | _, t⟩ <;> rfl

/-- A request writes one entry, or it does nothing. -/
theorem step_cases (db : Db) (r : GroupRequest) :
    (∃ name target g account entry, r.reaches db = some (name, target, g) ∧
      Writes db r g target account entry ∧
      Db.Entered name account entry db (GroupServ.step db r)) ∨
    (GroupServ.step db r = db ∧ ∀ name target g account entry,
      r.reaches db = some (name, target, g) → ¬ Writes db r g target account entry) := by
  obtain ⟨acc, command⟩ := r
  cases command with
  | add name target =>
      have stepped : GroupServ.step db ⟨acc, .add name target⟩ = _ :=
        managing_eq ⟨acc, .add name target⟩ (by cases name <;> cases target <;> rfl)
      rw [stepped]
      cases there : reaches db ⟨acc, .add name target⟩ with
      | none => exact .inr ⟨rfl, nofun⟩
      | some found =>
          obtain ⟨n, t, g⟩ := found
          dsimp only
          cases resolved : db.resolveAccount t with
          | none =>
              refine .inr ⟨rfl, ?_⟩
              rintro _ _ _ account entry ⟨⟩ ⟨known, -⟩
              rw [resolved] at known
              cases known
          | some canonical =>
              refine .inl ⟨n, t, g, canonical, some "", rfl, ⟨resolved, rfl⟩, ?_⟩
              have entered : Keeps (Db.Entered n canonical (some ""))
                  (Db.groupSetFlags n canonical "").run db :=
                Db.entered_groupSetFlags (reaches_held there)
              unfold Keeps at entered
              dsimp only
              generalize (ExceptT.run (Db.groupSetFlags n canonical "")).run db = outcome at entered ⊢
              rcases outcome with ⟨_ | _, t⟩ <;> exact entered
  | del name target =>
      have stepped : GroupServ.step db ⟨acc, .del name target⟩ = _ :=
        managing_eq ⟨acc, .del name target⟩ (by cases name <;> cases target <;> rfl)
      rw [stepped]
      cases there : reaches db ⟨acc, .del name target⟩ with
      | none => exact .inr ⟨rfl, nofun⟩
      | some found =>
          obtain ⟨n, t, g⟩ := found
          refine .inl ⟨n, t, g, t, none, rfl, ⟨rfl, rfl⟩, ?_⟩
          have entered : Keeps (Db.Entered n t none) (Db.groupDelMember n t).run db :=
            Db.entered_groupDelMember (reaches_held there)
          unfold Keeps at entered
          dsimp only
          generalize (ExceptT.run (Db.groupDelMember n t)).run db = outcome at entered ⊢
          rcases outcome with ⟨_ | _ | _, t⟩ <;> exact entered
  | flags name target delta =>
      have stepped : GroupServ.step db ⟨acc, .flags name target delta⟩ = _ := flags_eq
      rw [stepped]
      cases there : reaches db ⟨acc, .flags name target delta⟩ with
      | none => exact .inr ⟨rfl, nofun⟩
      | some found =>
          obtain ⟨n, t, g⟩ := found
          cases delta with
          | none =>
              refine .inr ⟨rfl, ?_⟩
              rintro _ _ _ account entry ⟨⟩ ⟨-, d, _, given, -⟩
              cases given
          | some d =>
              dsimp only
              cases resolved : db.resolveAccount t with
              | none =>
                  refine .inr ⟨rfl, ?_⟩
                  rintro _ _ _ account entry ⟨⟩ ⟨known, -⟩
                  rw [resolved] at known
                  cases known
              | some canonical =>
                  dsimp only
                  cases applied : (FlagSet.parse ((g.memberFlags t).getD "") : GroupFlags).applyDelta
                      true d.toList with
                  | error bad =>
                      refine .inr ⟨rfl, ?_⟩
                      rintro _ _ _ account entry ⟨⟩ ⟨-, _, updated, ⟨⟩, worked, -⟩
                      rw [applied] at worked
                      cases worked
                  | ok updated =>
                      refine .inl ⟨n, t, g, canonical, some updated.toLetters, rfl,
                        ⟨resolved, d, updated, rfl, applied, rfl⟩, ?_⟩
                      exact Db.entered_groupSetFlags (reaches_held there)

/-- There is one entry to write. -/
theorem Writes.unique {g : Group} {target account account' : String} {entry entry' : Option String}
    (h : Writes db r g target account entry) (h' : Writes db r g target account' entry') :
    account' = account ∧ entry' = entry := by
  obtain ⟨acc, command⟩ := r
  unfold Writes at h h'
  cases command with
  | add name target =>
      exact ⟨Option.some.inj (h'.1.symm.trans h.1), h'.2.trans h.2.symm⟩
  | del name target =>
      exact ⟨h'.1.trans h.1.symm, h'.2.trans h.2.symm⟩
  | flags name target delta =>
      obtain ⟨resolved, d, updated, rfl, applied, rfl⟩ := h
      obtain ⟨resolved', d', updated', ⟨⟩, applied', rfl⟩ := h'
      refine ⟨Option.some.inj (resolved'.symm.trans resolved), ?_⟩
      rw [Except.ok.inj (applied'.symm.trans applied)]

/-- A request is harmless: it gets nowhere, or ADD names nobody who has flags, DEL nobody
who holds `F`, and what FLAGS writes has `F` exactly if who it is written of holds it. -/
def Spares (db : Db) (r : GroupRequest) : Prop :=
  ∀ name target g, r.reaches db = some (name, target, g) → db.log.writable = true →
    match r.command with
    | .add .. => ∀ account, db.resolveAccount target = some account →
        g.memberFlags account = none ∨ g.memberFlags account = some ""
    | .del .. => g.holdsFounder target = false
    | .flags _ _ delta => ∀ account d updated, db.resolveAccount target = some account →
        delta = some d →
        (FlagSet.parse ((g.memberFlags target).getD "") : GroupFlags).applyDelta true d.toList =
          .ok updated → updated.has .founder = g.holdsFounder account

/-- What a request must not do: nobody gains or loses the flag of a founder, in any group,
and ADD leaves the flags of members alone. -/
structure Confined (r : GroupRequest) (db db' : Db) : Prop where
  founders : ∀ n a, db'.holdsFounder n a = db.holdsFounder n a
  added : r.command.isAdd = true → ∀ n a f, db.memberFlags n a = some f → db'.memberFlags n a = some f

/-- The sender is not the founder of the group it names. -/
def Delegated (db : Db) (r : GroupRequest) : Prop :=
  ∀ name target g acc, r.command.names = some (name, target) → db.group name = some g →
    r.account = some acc → eqIgnoreAsciiCase g.founder acc = false

theorem spares_iff :
    Spares db r ↔ ∀ name target g account entry, r.reaches db = some (name, target, g) → db.log.writable = true →
      Writes db r g target account entry →
        (entry.any fun f => (FlagSet.parse f : GroupFlags).has .founder) = g.holdsFounder account ∧
          (r.command.isAdd = true → ∀ f, g.memberFlags account = some f → entry = some f) := by
  obtain ⟨acc, command⟩ := r
  unfold Spares Writes
  cases command with
  | add name target =>
      refine forall_congr' fun n => forall_congr' fun t => forall_congr' fun g => ?_
      constructor
      · rintro plain account entry acts writable ⟨resolved, rfl⟩
        have empty := plain acts writable account resolved
        unfold Group.holdsFounder
        rcases empty with none | empty
        · rw [none]
          exact ⟨by decide, fun _ f held => absurd held (by simp)⟩
        · rw [empty]
          exact ⟨rfl, fun _ f held => held⟩
      · intro all acts writable account resolved
        have kept := (all account (some "") acts writable ⟨resolved, rfl⟩).2 rfl
        cases held : g.memberFlags account with
        | none => exact .inl rfl
        | some f => exact .inr (kept f held).symm
  | del name target =>
      refine forall_congr' fun n => forall_congr' fun t => forall_congr' fun g => ?_
      constructor
      · rintro free account entry acts writable ⟨rfl, rfl⟩
        exact ⟨(free acts writable).symm, fun isAdd => absurd isAdd (by simp [GroupCommand.isAdd])⟩
      · intro all acts writable
        exact (all t none acts writable ⟨rfl, rfl⟩).1.symm
  | flags name target delta =>
      refine forall_congr' fun n => forall_congr' fun t => forall_congr' fun g => ?_
      constructor
      · rintro same account entry acts writable ⟨resolved, d, updated, given, applied, rfl⟩
        refine ⟨?_, fun isAdd => absurd isAdd (by simp [GroupCommand.isAdd])⟩
        rw [Option.any_some, FlagSet.has_parse_toLetters GroupFlags.bit_lt]
        exact same acts writable account d updated resolved given applied
      · intro all acts writable account d updated resolved given applied
        have same := (all account _ acts writable ⟨resolved, d, updated, given, applied, rfl⟩).1
        rwa [Option.any_some, FlagSet.has_parse_toLetters GroupFlags.bit_lt] at same

/-- One request. -/
theorem confined_iff (db : Db) (r : GroupRequest) :
    Confined r db (GroupServ.step db r) ↔ Spares db r := by
  rw [spares_iff]
  rcases step_cases db r with ⟨name, target, g, account, entry, there, writes, entered⟩ | ⟨still, none⟩
  · have group := reaches_held there
    have flags (a : String) : db.memberFlags name a = g.memberFlags a := by
      unfold Db.memberFlags
      rw [group]
      rfl
    have founder (a : String) : db.holdsFounder name a = g.holdsFounder a := by
      unfold Db.holdsFounder
      rw [flags]
      rfl
    constructor
    · rintro ⟨founders, added⟩ name' target' g' account' entry' there' writable writes'
      obtain ⟨rfl, rfl, rfl⟩ : name' = name ∧ target' = target ∧ g' = g := by
        simpa using there'.symm.trans there
      obtain ⟨rfl, rfl⟩ := writes.unique writes'
      have now : (GroupServ.step db r).memberFlags name' account' = entry' := by
        rw [entered, if_pos ⟨writable, rfl, rfl⟩]
      constructor
      · rw [← founder, ← founders]
        unfold Db.holdsFounder
        rw [now]
      · intro isAdd f held
        rw [← now]
        exact added isAdd name' account' f ((flags account').trans held)
    · intro spares
      constructor
      · intro n a
        unfold Db.holdsFounder
        rw [entered]
        split
        · rename_i here
          obtain ⟨writable, group', member⟩ := here
          rw [(spares name target g account entry there writable writes).1, ← founder,
            Db.memberFlags_congr group' member]
          rfl
        · rfl
      · intro isAdd n a f held
        rw [entered]
        split
        · rename_i here
          obtain ⟨writable, group', member⟩ := here
          refine (spares name target g account entry there writable writes).2 isAdd f ?_
          rw [← flags, ← Db.memberFlags_congr group' member, held]
        · exact held
  · rw [still]
    constructor
    · intro _ name target g account entry there _ writes
      exact absurd writes (none name target g account entry there)
    · intro _
      exact ⟨fun _ _ => rfl, fun _ _ _ _ held => held⟩

end GroupRequest

/-- Along any run of requests, those whose sender is not the founder of the group leave
everybody's `F`, and those that ADD leave the flags of members, exactly if each of them is
harmless. -/
theorem GroupServ.managers_confined_iff (db : Db) (requests : List GroupRequest) :
    Along step (fun db r => r.Delegated db → r.Confined db (step db r)) db requests ↔
      Along step (fun db r => r.Delegated db → r.Spares db) db requests := by
  refine along_congr (J := fun _ => True) (fun _ _ _ => trivial) (fun db r _ => ?_) trivial
  exact forall_congr' fun _ => GroupRequest.confined_iff db r

namespace GroupServ

/-- Alice's group, in which bob holds `f`. -/
def staffed : Db :=
  after Db.step (Db.fresh "a")
    [.call .still (.registerPrepared "alice" ⟨"v", "v", @rfl Bool false⟩ none),
      .call .still (.registerPrepared "bob" ⟨"v", "v", @rfl Bool false⟩ none),
      .call .still (.groupRegister "!staff" "alice"), .call .still (.groupSetFlags "!staff" "bob" "f")]

/-- Bob gives himself `F`. -/
def escalation : GroupRequest := ⟨some "bob", .flags (some "!staff") (some "bob") (some "+F")⟩

theorem manager_escalates :
    escalation.Delegated staffed ∧ staffed.holdsFounder "!staff" "bob" = false ∧
      (after step staffed [escalation]).holdsFounder "!staff" "bob" = true := by
  refine ⟨?_, by decide +kernel, by decide +kernel⟩
  rintro name target g acc ⟨⟩ held ⟨⟩
  have founder : (staffed.group "!staff").map (·.founder) = some "alice" := by decide +kernel
  rw [held] at founder
  have alice : g.founder = "alice" := Option.some.inj founder
  rw [alice]
  decide

end GroupServ

end Echo
