import Echo.Db.Release
import Echo.Engine.Lines
import Echo.Login.Agreement

/-!
When the ircd's lines mirror the store. The bans and the forbidden nicks are
leases on the ircd's lines, and the lines are the board that shows them. Each
request and each gossiped entry edits both, looking at its own table only: a nick
that is forbidden and banned at once has one line for two leases, and an entry
about a forbidden nick reaches the store but not the ircd.

`Fits` says of each step, by the leases before it, whether the board follows. It
does so from the burst on exactly as long as every step fits.
-/

namespace Echo

open Echo.Lib

/-! ### The store as a register of leases -/

section Leases

variable (fold : String → String)

def expiryEnd : Option Nat → WithTop Nat
  | none => ⊤
  | some e => (e : WithTop Nat)

theorem live_iff {now : Nat} {expires : Option Nat} :
    live now expires = true ↔ (now : WithTop Nat) < expiryEnd expires := by
  cases expires with
  | none => simp [live, expiryEnd]
  | some e =>
      rw [live, Option.all_some, decide_eq_true_iff]
      exact WithTop.coe_lt_coe.symm

def banLease (a : Akill) : LineKey × WithTop Nat := ((a.kind, fold a.mask), expiryEnd a.expires)

/-- The line of a mask forbidden as a nick, held for good. -/
def nickLease (mask : String) : LineKey × WithTop Nat := ((XlineKind.qline.wire, fold mask), ⊤)

def Forbid.isNick (f : Forbid) : Bool := ForbidKind.fromName f.kind == some ForbidKind.nick

theorem ForbidKind.fromName_wire (kind : ForbidKind) :
    ForbidKind.fromName kind.wire = some kind := by
  cases kind <;> decide +kernel

theorem Forbid.isNick_iff {f : Forbid} {kind : ForbidKind} (same : f.kind = kind.wire) :
    f.isNick = true ↔ kind = .nick := by
  unfold Forbid.isNick
  rw [same, ForbidKind.fromName_wire, beq_iff_eq, Option.some_inj]

/-- What bans and forbids ask of the ircd. -/
def leases (bans : List Akill) (forbids : List Forbid) : List (LineKey × WithTop Nat) :=
  bans.map (banLease fold) ++ (forbids.filter Forbid.isNick).map fun f => nickLease fold f.mask

variable {fold} {bans : List Akill} {forbids : List Forbid} {x : LineKey × WithTop Nat}

theorem mem_leases :
    x ∈ leases fold bans forbids ↔
      (∃ a ∈ bans, x = banLease fold a) ∨
        ∃ f ∈ forbids, f.isNick = true ∧ x = nickLease fold f.mask := by
  simp only [leases, List.mem_append, List.mem_map, List.mem_filter, and_assoc, eq_comm (a := x)]

/-- A ban replaced or lifted leaves the other bans and the forbids. -/
theorem parts_bans (p : Akill → Bool) :
    Lib.Parts (leases fold bans forbids) (leases fold (bans.filter fun a => !p a) forbids)
      (leases fold (bans.filter p) []) := by
  intro x
  simp only [mem_leases, List.mem_filter, List.not_mem_nil, false_and, exists_false, or_false]
  constructor
  · rintro (⟨a, mem, same⟩ | nick)
    · cases held : p a with
      | true => exact .inr ⟨a, ⟨mem, held⟩, same⟩
      | false => exact .inl (.inl ⟨a, ⟨mem, by simp [held]⟩, same⟩)
    · exact .inl (.inr nick)
  · rintro ((⟨a, ⟨mem, -⟩, same⟩ | nick) | ⟨a, ⟨mem, -⟩, same⟩)
    · exact .inl ⟨a, mem, same⟩
    · exact .inr nick
    · exact .inl ⟨a, mem, same⟩

theorem parts_forbids (p : Forbid → Bool) :
    Lib.Parts (leases fold bans forbids) (leases fold bans (forbids.filter fun f => !p f))
      (leases fold [] (forbids.filter p)) := by
  intro x
  simp only [mem_leases, List.mem_filter, List.not_mem_nil, false_and, exists_false, false_or]
  constructor
  · rintro (ban | ⟨f, mem, nick, same⟩)
    · exact .inl (.inl ban)
    · cases held : p f with
      | true => exact .inr ⟨f, ⟨mem, held⟩, nick, same⟩
      | false => exact .inl (.inr ⟨f, ⟨mem, by simp [held]⟩, nick, same⟩)
  · rintro ((ban | ⟨f, ⟨mem, -⟩, nick, same⟩) | ⟨f, ⟨mem, -⟩, nick, same⟩)
    · exact .inl ban
    · exact .inr ⟨f, mem, nick, same⟩
    · exact .inr ⟨f, mem, nick, same⟩

theorem mem_leases_ban_concat {a : Akill} :
    x ∈ leases fold (bans ++ [a]) forbids ↔ x ∈ banLease fold a :: leases fold bans forbids := by
  simp only [mem_leases, List.mem_append, List.mem_cons, List.not_mem_nil, or_false]
  constructor
  · rintro (⟨b, mem | rfl, same⟩ | nick)
    · exact .inr (.inl ⟨b, mem, same⟩)
    · exact .inl same
    · exact .inr (.inr nick)
  · rintro (same | ⟨b, mem, same⟩ | nick)
    · exact .inl ⟨a, .inr rfl, same⟩
    · exact .inl ⟨b, .inl mem, same⟩
    · exact .inr nick

/-- The lease of a forbid, if it is on a nick. -/
def forbidLeases (fold : String → String) (f : Forbid) : List (LineKey × WithTop Nat) :=
  if f.isNick then [nickLease fold f.mask] else []

theorem mem_leases_forbid_concat {f : Forbid} :
    x ∈ leases fold bans (forbids ++ [f]) ↔
      x ∈ forbidLeases fold f ++ leases fold bans forbids := by
  have own : x ∈ forbidLeases fold f ↔ f.isNick = true ∧ x = nickLease fold f.mask := by
    unfold forbidLeases
    split <;> simp [*]
  rw [List.mem_append, own]
  simp only [mem_leases, List.mem_append, List.mem_cons, List.not_mem_nil, or_false]
  constructor
  · rintro (ban | ⟨g, mem | rfl, nick, same⟩)
    · exact .inr (.inl ban)
    · exact .inr (.inr ⟨g, mem, nick, same⟩)
    · exact .inl ⟨nick, same⟩
  · rintro (⟨nick, same⟩ | ban | ⟨g, mem, nick, same⟩)
    · exact .inr ⟨f, .inr rfl, nick, same⟩
    · exact .inl ban
    · exact .inr ⟨g, .inl mem, nick, same⟩

end Leases

/-! ### Which steps the ircd follows -/

namespace Linked

variable (fold : String → String) (s : Linked)

/-- What the store asks of the ircd. -/
def register : List (LineKey × WithTop Nat) := leases fold s.db.net.akills s.db.net.forbids

/-- The leases but those of this ban. -/
def withoutBan (kind mask : String) : List (LineKey × WithTop Nat) :=
  leases fold (s.db.net.akills.filter fun a => !sameLine a.kind a.mask kind mask)
    s.db.net.forbids

def banLeases (kind mask : String) : List (LineKey × WithTop Nat) :=
  leases fold (s.db.net.akills.filter fun a => sameLine a.kind a.mask kind mask) []

/-- The leases but those of this forbid. -/
def withoutForbid (kind mask : String) : List (LineKey × WithTop Nat) :=
  leases fold s.db.net.akills
    (s.db.net.forbids.filter fun f => !sameLine f.kind f.mask kind mask)

def nickLeases (kind mask : String) : List (LineKey × WithTop Nat) :=
  leases fold [] (s.db.net.forbids.filter fun f => sameLine f.kind f.mask kind mask)

/-- A ban is put in place and its line is set. -/
def FitsBan (kind mask : String) (expires : Option Nat) (duration : Nat) : Prop :=
  PutFits (s.now : WithTop Nat) (s.withoutBan fold kind mask) (s.banLeases fold kind mask)
    ((kind, fold mask), expiryEnd expires) (lineEnd s.now duration)

/-- A ban is taken out and its line is lifted. -/
def FitsLift (kind mask : String) : Prop :=
  DropFits (s.now : WithTop Nat) (s.withoutBan fold kind mask) (s.banLeases fold kind mask)
    (kind, fold mask)

/-- A request the store agrees to. -/
def FitsRequest : BanRequest → Prop
  | .ban kind mask duration _ =>
      s.db.log.writable = true →
        s.FitsBan fold kind.wire mask (duration.map (expiryAfter s.now)) (duration.getD 0)
  | .lift kind mask =>
      s.db.log.writable = true →
        (s.db.net.akills.any fun a =>
          sameLine a.kind a.mask kind.wire mask && live s.now a.expires) = true →
        s.FitsLift fold kind.wire mask
  | .forbid kind mask _ =>
      s.db.log.writable = true → kind = .nick →
        PutFits (s.now : WithTop Nat) (s.withoutForbid fold kind.wire mask)
          (s.nickLeases fold kind.wire mask) (nickLease fold mask) ⊤
  | .permit kind mask =>
      s.db.log.writable = true → kind = .nick →
        (s.db.net.forbids.any fun f => sameLine f.kind f.mask kind.wire mask) = true →
        DropFits (s.now : WithTop Nat) (s.withoutForbid fold kind.wire mask)
          (s.nickLeases fold kind.wire mask) (XlineKind.qline.wire, fold mask)

/-- An entry the store takes in. The ircd is told of bans that have not expired, and
of bans lifted. -/
def FitsEntry : Event → Prop
  | .akillAdded kind mask _ _ _ expires =>
      if expires.any (· ≤ s.now) then
        SilentFits (s.now : WithTop Nat) (s.register fold) (s.withoutBan fold kind mask)
          (s.banLeases fold kind mask) [((kind, fold mask), expiryEnd expires)]
      else s.FitsBan fold kind mask expires ((expires.map (· - s.now)).getD 0)
  | .akillRemoved kind mask => s.FitsLift fold kind mask
  | .forbidAdded kind mask setter reason ts =>
      SilentFits (s.now : WithTop Nat) (s.register fold) (s.withoutForbid fold kind mask)
        (s.nickLeases fold kind mask) (forbidLeases fold ⟨kind, mask, setter, reason, ts⟩)
  | .forbidRemoved kind mask =>
      SilentFits (s.now : WithTop Nat) (s.register fold) (s.withoutForbid fold kind mask)
        (s.nickLeases fold kind mask) []
  | _ => True

/-- Whether the ircd's lines follow the step. -/
def Fits : LinkedStep → Prop
  | .wait _ | .disk _ => True
  | .command sender args =>
      ∀ request, readOperServ s.now s.db sender args = some request → s.FitsRequest fold request
  | .peer entry => s.db.adopts entry = true → s.FitsEntry fold entry.event

end Linked

/-! ### What the store answers -/

/-- An event about a ban line. -/
def Event.aboutLines : Event → Bool
  | .akillAdded .. | .akillRemoved .. | .forbidAdded .. | .forbidRemoved .. => true
  | _ => false

theorem apply_lines {s : Store} {event : Event} (other : event.aboutLines = false) :
    (apply s event).net.akills = s.net.akills ∧ (apply s event).net.forbids = s.net.forbids := by
  cases event with
  | akillAdded | akillRemoved | forbidAdded | forbidRemoved => contradiction
  | accountRegistered | channelRenamed | accountProfileSet | botRemoved | jupeAdded =>
      simp only [apply, Store.adjustNet]
      split <;> exact ⟨rfl, rfl⟩
  | _ => exact ⟨rfl, rfl⟩

namespace Db

theorem run_lineAdd (live : NetData → Bool) (event : Event) (write : NetData → NetData) (db : Db) :
    (lineAdd live event write).run.run db =
      if db.log.writable then
        (.ok (!live db.net),
          { db with toStore := db.toStore.adjustNet write, log := db.log.committed event })
      else (.error .internal, { db with log := (db.log.append event).1 }) := by
  unfold lineAdd
  rw [ExceptT.run_bind, StateT.run_bind]
  change ((logged event _ _ >>= fun _ => pure _).run).run db = _
  rw [run_bindE, run_logged]
  cases writable : db.log.writable with
  | true =>
      rw [EventLog.append_of_writable writable]
      rfl
  | false =>
      obtain ⟨e, log, refused, -⟩ := EventLog.append_of_not_writable writable event
      rw [refused]
      rfl

theorem run_lineDel (live : NetData → Bool) (event : Event) (write : NetData → NetData) (db : Db) :
    (lineDel live event write).run.run db =
      if live db.net then
        if db.log.writable then
          (.ok true,
            { db with toStore := db.toStore.adjustNet write, log := db.log.committed event })
        else (.error .internal, { db with log := (db.log.append event).1 })
      else (.ok false, db) := by
  unfold lineDel
  rw [ExceptT.run_bind, StateT.run_bind]
  cases stands : live db.net with
  | false =>
      change ((if live db.net = true then _ else pure false : DbM RegError Bool).run).run db = _
      rw [stands]
      rfl
  | true =>
      change ((if live db.net = true then _ else pure false : DbM RegError Bool).run).run db = _
      rw [if_pos stands, run_bindE, run_logged]
      cases writable : db.log.writable with
      | true =>
          rw [EventLog.append_of_writable writable]
          rfl
      | false =>
          obtain ⟨e, log, refused, -⟩ := EventLog.append_of_not_writable writable event
          rw [refused]
          rfl

theorem ownerEffect_cases (before : Option (String × Option (String × Option String))) (db : Db) :
    ownerEffect before db = none ∨ (∃ a, ownerEffect before db = some (.takenOver a)) ∨
      ∃ a, ownerEffect before db = some (.dropped a) := by
  unfold ownerEffect
  rcases before with _ | ⟨name, _ | ⟨home, verifier⟩⟩
  · exact .inl rfl
  · exact .inl rfl
  · dsimp only
    split
    · split
      · exact .inr (.inl ⟨name, rfl⟩)
      · exact .inl rfl
    · exact .inr (.inr ⟨name, rfl⟩)

/-- Of all an entry may bring about, the ircd's lines only follow the bans. -/
theorem gossipLines_effects (env : Env) (event : Event) (before db : Db) :
    gossipLines (.ok ((ownerEffect (before.watched event) db).or
      ((suspendEffect env db event).or (banEffect env event)))) =
        gossipLines (.ok (banEffect env event)) := by
  cases event with
  | accountRegistered | accountDropped =>
      rcases ownerEffect_cases (before.watched _) db with none | ⟨a, gone⟩ | ⟨a, gone⟩
      · rw [none]
        rfl
      · rw [gone]
        rfl
      · rw [gone]
        rfl
  | accountSuspended account setter reason ts expires =>
      change gossipLines (.ok ((suspendEffect env db _).or none)) = []
      unfold suspendEffect
      dsimp only
      split <;> rfl
  | _ => rfl

/-- What an arriving entry does to the store, and what the ircd hears of it. -/
theorem run_ingest_lines (env : Env) (entry : LogEntry) (db : Db) :
    ∃ answer, (ingest env entry).run.run db = (answer, db.step (.ingest env entry)) ∧
      gossipLines answer =
        if db.adopts entry then gossipLines (.ok (banEffect env entry.event)) else [] := by
  refine ⟨((ingest env entry).run.run db).1, rfl, ?_⟩
  rcases answer_ingest env entry db with ⟨adopted, answered⟩ | ⟨ignored, answered | ⟨err, answered⟩⟩
  · rw [answered, adopted, if_pos rfl]
    exact gossipLines_effects env entry.event db _
  · rw [answered, ignored]
    rfl
  · rw [answered, ignored]
    rfl

end Db

/-! ### One step -/

namespace BanRequest

variable {env : Env} {sender : Sender} {db : Db}

theorem run_ban (kind : XlineKind) (mask reason : String) (duration : Option Nat) :
    ((BanRequest.ban kind mask duration reason).run env sender).run db =
      match (Db.akillAdd env kind mask (sender.account.getD sender.nick) reason
        (duration.map (expiryAfter env.now))).run.run db with
      | (.ok _, db) => ([.addLine kind.wire mask sender.nick (duration.getD 0) reason], db)
      | (.error _, db) => ([], db) := by
  unfold BanRequest.run
  rw [StateT.run_bind]
  rcases (Db.akillAdd env kind mask (sender.account.getD sender.nick) reason
    (duration.map (expiryAfter env.now))).run.run db with ⟨_ | _, db'⟩ <;> rfl

theorem run_lift (kind : XlineKind) (mask : String) :
    ((BanRequest.lift kind mask).run env sender).run db =
      match (Db.akillDel env kind mask).run.run db with
      | (.ok true, db) => ([.delLine kind.wire mask], db)
      | (_, db) => ([], db) := by
  unfold BanRequest.run
  rw [StateT.run_bind]
  rcases (Db.akillDel env kind mask).run.run db with ⟨_ | _ | _, db'⟩ <;> rfl

theorem run_forbid (kind : ForbidKind) (mask reason : String) :
    ((BanRequest.forbid kind mask reason).run env sender).run db =
      match (Db.forbidAdd env kind mask (sender.account.getD sender.nick) reason).run.run db with
      | (.ok _, db) =>
          (if kind = .nick then
            [.addLine XlineKind.qline.wire mask (sender.account.getD sender.nick) 0 reason]
          else [], db)
      | (.error _, db) => ([], db) := by
  unfold BanRequest.run
  rw [StateT.run_bind]
  rcases (Db.forbidAdd env kind mask (sender.account.getD sender.nick) reason).run.run db with
    ⟨_ | _, db'⟩ <;> rfl

theorem run_permit (kind : ForbidKind) (mask : String) :
    ((BanRequest.permit kind mask).run env sender).run db =
      match (Db.forbidDel kind mask).run.run db with
      | (.ok true, db) =>
          (if kind = .nick then [.delLine XlineKind.qline.wire mask] else [], db)
      | (_, db) => ([], db) := by
  unfold BanRequest.run
  rw [StateT.run_bind]
  rcases (Db.forbidDel kind mask).run.run db with ⟨_ | _ | _, db'⟩ <;> rfl

end BanRequest

namespace Linked

variable {fold : String → String} {s t : Linked}

/-- From here on, however long one waits, the ircd's lines mirror the store. -/
def MirrorsOn (fold : String → String) (s : Linked) : Prop :=
  MirrorsFrom (s.register fold) s.ircd (s.now : WithTop Nat)

theorem wanted_iff {line : LineKey} :
    s.Wanted fold line ↔ Due (s.register fold) (s.now : WithTop Nat) line := by
  unfold Wanted Due register
  simp only [mem_leases, live_iff]
  constructor
  · rintro (⟨a, mem, alive, rfl⟩ | ⟨f, mem, nick, rfl⟩)
    · exact ⟨_, .inl ⟨a, mem, rfl⟩, alive⟩
    · exact ⟨⊤, .inr ⟨f, mem, beq_iff_eq.mpr nick, rfl⟩, WithTop.coe_lt_top _⟩
  · rintro ⟨e, ⟨a, mem, same⟩ | ⟨f, mem, nick, same⟩, alive⟩
    · cases same
      exact .inl ⟨a, mem, alive, rfl⟩
    · cases same
      exact .inr ⟨f, mem, beq_iff_eq.mp nick, rfl⟩

theorem mirrorsOn_iff :
    s.MirrorsOn fold ↔ ∀ seconds, (s.step fold (.wait seconds)).Mirrors fold := by
  constructor
  · intro mirrors seconds line
    rw [wanted_iff]
    refine mirrors ((s.now + seconds : Nat) : WithTop Nat) ?_ line
    exact WithTop.coe_le_coe.mpr (Nat.le_add_right _ _)
  · intro mirrors u after line
    cases u with
    | top => simp [Shown, Due]
    | coe u =>
        have seen := mirrors (u - s.now) line
        rw [wanted_iff] at seen
        have later : s.now + (u - s.now) = u := by
          have reached : s.now ≤ u := WithTop.coe_le_coe.mp after
          omega
        change Shown s.ircd ((s.now + (u - s.now) : Nat) : WithTop Nat) line ↔
          Due (s.register fold) ((s.now + (u - s.now) : Nat) : WithTop Nat) line at seen
        rwa [later] at seen

/-- A ban put in place of the same one, and its line set. -/
theorem mirrorsOn_ban (mirrors : s.MirrorsOn fold) (kind mask setter reason : String) (ts : Nat)
    (expires : Option Nat) (duration : Nat) (clock : t.now = s.now)
    (akills : t.db.net.akills =
      (s.db.net.akills.filter fun a => !sameLine a.kind a.mask kind mask) ++
        [⟨kind, mask, setter, reason, ts, expires⟩])
    (forbids : t.db.net.forbids = s.db.net.forbids)
    (line : t.ircd = Function.update s.ircd (kind, fold mask) (some (lineEnd s.now duration))) :
    t.MirrorsOn fold ↔ s.FitsBan fold kind mask expires duration := by
  unfold MirrorsOn register
  rw [clock, akills, forbids, line, mirrorsFrom_congr fun x => mem_leases_ban_concat]
  exact mirrorsFrom_put mirrors (parts_bans _)

/-- A ban taken out, and its line lifted. -/
theorem mirrorsOn_lift (mirrors : s.MirrorsOn fold) (kind mask : String) (clock : t.now = s.now)
    (akills : t.db.net.akills = s.db.net.akills.filter fun a => !sameLine a.kind a.mask kind mask)
    (forbids : t.db.net.forbids = s.db.net.forbids)
    (line : t.ircd = Function.update s.ircd (kind, fold mask) none) :
    t.MirrorsOn fold ↔ s.FitsLift fold kind mask := by
  unfold MirrorsOn register
  rw [clock, akills, forbids, line]
  exact mirrorsFrom_drop mirrors (parts_bans _)

/-- A nick forbidden, and its line set. -/
theorem mirrorsOn_forbid (mirrors : s.MirrorsOn fold) (mask setter reason : String) (ts : Nat)
    (clock : t.now = s.now) (akills : t.db.net.akills = s.db.net.akills)
    (forbids : t.db.net.forbids =
      (s.db.net.forbids.filter fun f => !sameLine f.kind f.mask ForbidKind.nick.wire mask) ++
        [⟨ForbidKind.nick.wire, mask, setter, reason, ts⟩])
    (line : t.ircd = Function.update s.ircd (XlineKind.qline.wire, fold mask) (some ⊤)) :
    t.MirrorsOn fold ↔
      PutFits (s.now : WithTop Nat) (s.withoutForbid fold ForbidKind.nick.wire mask)
        (s.nickLeases fold ForbidKind.nick.wire mask) (nickLease fold mask) ⊤ := by
  have own : forbidLeases fold ⟨ForbidKind.nick.wire, mask, setter, reason, ts⟩ =
      [nickLease fold mask] := if_pos ((Forbid.isNick_iff rfl).mpr rfl)
  unfold MirrorsOn register
  rw [clock, akills, forbids, line, mirrorsFrom_congr fun x => mem_leases_forbid_concat, own]
  exact mirrorsFrom_put mirrors (parts_forbids _)

/-- A nick no longer forbidden, and its line lifted. -/
theorem mirrorsOn_permit (mirrors : s.MirrorsOn fold) (mask : String)
    (clock : t.now = s.now) (akills : t.db.net.akills = s.db.net.akills)
    (forbids : t.db.net.forbids =
      s.db.net.forbids.filter fun f => !sameLine f.kind f.mask ForbidKind.nick.wire mask)
    (line : t.ircd = Function.update s.ircd (XlineKind.qline.wire, fold mask) none) :
    t.MirrorsOn fold ↔
      DropFits (s.now : WithTop Nat) (s.withoutForbid fold ForbidKind.nick.wire mask)
        (s.nickLeases fold ForbidKind.nick.wire mask) (XlineKind.qline.wire, fold mask) := by
  unfold MirrorsOn register
  rw [clock, akills, forbids, line]
  exact mirrorsFrom_drop mirrors (parts_forbids _)

/-- The leases are as they were, and so are the lines. -/
theorem mirrorsOn_congr (mirrors : s.MirrorsOn fold) (clock : t.now = s.now)
    (same : ∀ x, x ∈ t.register fold ↔ x ∈ s.register fold) (line : t.ircd = s.ircd) :
    t.MirrorsOn fold := by
  unfold MirrorsOn
  rw [clock, line, mirrorsFrom_congr same]
  exact mirrors

/-- A request that the file refuses, or that the store does not agree to. -/
theorem mirrorsOn_refused (mirrors : s.MirrorsOn fold) (log : EventLog) :
    (s.send fold { s.db with log } []).MirrorsOn fold :=
  mirrorsOn_congr mirrors rfl (fun _ => Iff.rfl) rfl

/-- A forbid or its end that is not about a nick. -/
theorem mem_leases_other {bans : List Akill} {forbids : List Forbid} {kind : ForbidKind}
    (other : kind ≠ .nick) (mask : String) {x : LineKey × WithTop Nat} :
    x ∈ leases fold bans (forbids.filter fun f => !sameLine f.kind f.mask kind.wire mask) ↔
      x ∈ leases fold bans forbids := by
  have apart (f : Forbid) (nick : f.isNick = true) : sameLine f.kind f.mask kind.wire mask = false := by
    by_contra same
    rw [Bool.not_eq_false, sameLine_iff, Prod.mk.injEq] at same
    exact other ((Forbid.isNick_iff same.1).mp nick)
  simp only [mem_leases, List.mem_filter]
  constructor
  · rintro (ban | ⟨f, ⟨mem, -⟩, nick, same⟩)
    · exact .inl ban
    · exact .inr ⟨f, mem, nick, same⟩
  · rintro (ban | ⟨f, mem, nick, same⟩)
    · exact .inl ban
    · exact .inr ⟨f, ⟨mem, by rw [apart f nick]; rfl⟩, nick, same⟩

/-- A request keeps the mirror exactly if it fits. -/
theorem mirrorsOn_request (mirrors : s.MirrorsOn fold) (sender : Sender) (request : BanRequest) :
    (s.send fold ((request.run s.env sender).run s.db).2
      ((request.run s.env sender).run s.db).1).MirrorsOn fold ↔ s.FitsRequest fold request := by
  cases request with
  | ban kind mask duration reason =>
      rw [BanRequest.run_ban]
      generalize ran : (Db.akillAdd _ _ _ _ _ _).run.run s.db = r
      rw [Db.akillAdd, Db.run_lineAdd] at ran
      split at ran
      · rename_i writable
        subst ran
        refine Iff.trans (mirrorsOn_ban mirrors kind.wire mask (sender.account.getD sender.nick)
          reason s.now (duration.map (expiryAfter s.now)) (duration.getD 0) rfl rfl rfl rfl) ?_
        exact ⟨fun fits _ => fits, fun fits => fits writable⟩
      · rename_i refused
        subst ran
        exact iff_of_true (mirrorsOn_refused mirrors _) fun taken => absurd taken refused
  | lift kind mask =>
      rw [BanRequest.run_lift]
      generalize ran : (Db.akillDel _ _ _).run.run s.db = r
      rw [Db.akillDel, Db.run_lineDel] at ran
      split at ran
      · rename_i stands
        split at ran
        · rename_i writable
          subst ran
          refine Iff.trans (mirrorsOn_lift mirrors kind.wire mask rfl rfl rfl rfl) ?_
          exact ⟨fun fits _ _ => fits, fun fits => fits writable stands⟩
        · rename_i refused
          subst ran
          exact iff_of_true (mirrorsOn_refused mirrors _) fun taken => absurd taken refused
      · rename_i none
        subst ran
        exact iff_of_true (mirrorsOn_refused mirrors _) fun _ stands => absurd stands none
  | forbid kind mask reason =>
      rw [BanRequest.run_forbid]
      generalize ran : (Db.forbidAdd _ _ _ _ _).run.run s.db = r
      rw [Db.forbidAdd, Db.run_lineAdd] at ran
      split at ran
      · rename_i writable
        subst ran
        by_cases nick : kind = .nick
        · subst nick
          refine Iff.trans (mirrorsOn_forbid mirrors mask (sender.account.getD sender.nick) reason
            s.now rfl rfl rfl rfl) ?_
          exact ⟨fun fits _ _ => fits, fun fits => fits writable rfl⟩
        · refine iff_of_true ?_ fun _ same => absurd same nick
          refine mirrorsOn_congr mirrors rfl (fun x => ?_) (by rw [if_neg nick]; rfl)
          have unseen : forbidLeases fold ⟨kind.wire, mask, sender.account.getD sender.nick, reason,
              s.now⟩ = [] := if_neg fun seen => nick ((Forbid.isNick_iff rfl).mp seen)
          refine Iff.trans mem_leases_forbid_concat ?_
          change x ∈ forbidLeases fold ⟨kind.wire, mask, sender.account.getD sender.nick, reason,
            s.now⟩ ++ _ ↔ _
          rw [unseen]
          exact mem_leases_other nick mask
      · rename_i refused
        subst ran
        exact iff_of_true (mirrorsOn_refused mirrors _) fun taken => absurd taken refused
  | permit kind mask =>
      rw [BanRequest.run_permit]
      generalize ran : (Db.forbidDel _ _).run.run s.db = r
      rw [Db.forbidDel, Db.run_lineDel] at ran
      split at ran
      · rename_i stands
        split at ran
        · rename_i writable
          subst ran
          by_cases nick : kind = .nick
          · subst nick
            refine Iff.trans (mirrorsOn_permit mirrors mask rfl rfl rfl rfl) ?_
            exact ⟨fun fits _ _ _ => fits, fun fits => fits writable rfl stands⟩
          · refine iff_of_true ?_ fun _ same => absurd same nick
            exact mirrorsOn_congr mirrors rfl (fun x => mem_leases_other nick mask)
              (by rw [if_neg nick]; rfl)
        · rename_i refused
          subst ran
          exact iff_of_true (mirrorsOn_refused mirrors _) fun taken => absurd taken refused
      · rename_i none
        subst ran
        exact iff_of_true (mirrorsOn_refused mirrors _) fun _ _ stands => absurd stands none

/-- The ircd hears of nothing but bans. -/
theorem fitsEntry_other (fold : String → String) (s : Linked) {event : Event}
    (other : event.aboutLines = false) (env : Env) :
    s.FitsEntry fold event ∧ Db.banEffect env event = none := by
  cases event with
  | akillAdded | akillRemoved | forbidAdded | forbidRemoved => contradiction
  | _ => exact ⟨trivial, rfl⟩

/-- Leases that come and go while the lines stay. -/
theorem mirrorsOn_silent {added stay gone : List (LineKey × WithTop Nat)}
    (mirrors : s.MirrorsOn fold) (parts : Lib.Parts (s.register fold) stay gone)
    (clock : t.now = s.now) (held : ∀ x, x ∈ t.register fold ↔ x ∈ added ++ stay)
    (line : t.ircd = s.ircd) :
    t.MirrorsOn fold ↔ SilentFits (s.now : WithTop Nat) (s.register fold) stay gone added := by
  unfold MirrorsOn
  rw [clock, line, mirrorsFrom_congr held]
  exact mirrorsFrom_silent mirrors parts

/-- An entry that is taken in keeps the mirror exactly if it fits. -/
theorem mirrorsOn_entry (mirrors : s.MirrorsOn fold) (event : Event) {db : Db}
    (stored : db.toStore = apply s.db.toStore event) :
    (s.send fold db (gossipLines (.ok (Db.banEffect s.env event)))).MirrorsOn fold ↔
      s.FitsEntry fold event := by
  have akills : (s.send fold db (gossipLines (.ok (Db.banEffect s.env event)))).db.net.akills =
      (apply s.db.toStore event).net.akills := congrArg (·.net.akills) stored
  have forbids : (s.send fold db (gossipLines (.ok (Db.banEffect s.env event)))).db.net.forbids =
      (apply s.db.toStore event).net.forbids := congrArg (·.net.forbids) stored
  cases about : event.aboutLines with
  | false =>
      obtain ⟨fits, unheard⟩ := fitsEntry_other fold s about s.env
      obtain ⟨sameBans, sameForbids⟩ := apply_lines (s := s.db.toStore) about
      refine iff_of_true (mirrorsOn_congr mirrors rfl (fun x => ?_) (by rw [unheard]; rfl)) fits
      unfold register
      rw [akills, forbids, sameBans, sameForbids]
  | true =>
      cases event with
      | akillAdded kind mask setter reason ts expires =>
          unfold FitsEntry
          dsimp only
          by_cases expired : expires.any (· ≤ s.now) = true
          · have unheard : Db.banEffect s.env (.akillAdded kind mask setter reason ts expires) =
              none := if_pos expired
            rw [if_pos expired]
            refine mirrorsOn_silent mirrors (parts_bans _) rfl (fun x => ?_) (by rw [unheard]; rfl)
            unfold register
            rw [akills, forbids]
            exact mem_leases_ban_concat
          · have heard : Db.banEffect s.env (.akillAdded kind mask setter reason ts expires) =
              some (.banAdded kind mask setter ((expires.map (· - s.now)).getD 0) reason) :=
                if_neg expired
            rw [if_neg expired]
            exact mirrorsOn_ban mirrors kind mask setter reason ts expires _ rfl akills forbids
              (by rw [heard]; rfl)
      | akillRemoved kind mask => exact mirrorsOn_lift mirrors kind mask rfl akills forbids rfl
      | forbidAdded kind mask setter reason ts =>
          refine mirrorsOn_silent mirrors (parts_forbids _) rfl (fun x => ?_) rfl
          unfold register
          rw [akills, forbids]
          exact mem_leases_forbid_concat
      | forbidRemoved kind mask =>
          refine mirrorsOn_silent mirrors (parts_forbids _) rfl (fun x => ?_) rfl
          unfold register
          rw [akills, forbids]
          rfl
      | _ => contradiction

/-- A step keeps the mirror exactly if it fits. -/
theorem mirrorsOn_step (mirrors : s.MirrorsOn fold) (a : LinkedStep) :
    (s.step fold a).MirrorsOn fold ↔ s.Fits fold a := by
  cases a with
  | wait seconds =>
      refine iff_of_true (MirrorsFrom.later mirrors ?_) trivial
      exact WithTop.coe_le_coe.mpr (Nat.le_add_right _ _)
  | disk outcomes => exact iff_of_true mirrors trivial
  | command sender args =>
      dsimp only [Fits, step]
      cases readOperServ s.now s.db sender args with
      | none => exact iff_of_true mirrors nofun
      | some request =>
          refine (mirrorsOn_request mirrors sender request).trans ?_
          constructor
          · intro fits _ same
            cases same
            exact fits
          · intro fits
            exact fits request rfl
  | peer entry =>
      obtain ⟨answer, ran, heard⟩ := Db.run_ingest_lines s.env entry s.db
      have stored : (s.db.step (.ingest s.env entry)).toStore = _ :=
        Db.step_ingest_adopts s.env entry
      dsimp only [Fits, step]
      rw [ran]
      dsimp only
      rw [heard]
      cases adopted : s.db.adopts entry with
      | false =>
          rw [adopted, if_neg Bool.false_ne_true] at stored
          rw [if_neg Bool.false_ne_true]
          refine iff_of_true (mirrorsOn_congr mirrors rfl (fun x => ?_) rfl) nofun
          unfold register
          change x ∈ leases fold (s.db.step _).toStore.net.akills (s.db.step _).toStore.net.forbids ↔ _
          rw [stored]
      | true =>
          rw [adopted, if_pos rfl] at stored
          rw [if_pos rfl]
          exact (mirrorsOn_entry mirrors entry.event stored).trans
            ⟨fun fits _ => fits, fun fits => fits rfl⟩

end Linked

/-! ### The startup lines -/

/-- A ban of a kind the services know. -/
def Akill.modelled (a : Akill) : Bool := (XlineKind.fromWire a.kind).isSome

theorem XlineKind.wire_fromWire {s : String} {kind : XlineKind}
    (parsed : XlineKind.fromWire s = some kind) : kind.wire = s := by
  unfold XlineKind.fromWire at parsed
  repeat' split at parsed
  all_goals cases parsed
  all_goals rename_i same
  all_goals exact same.symm

section Startup

variable {fold : String → String} {now : Nat}

/-- A live ban set for the time it has left ends when it was to end. -/
theorem lineEnd_remaining {expires : Option Nat} (alive : live now expires = true) :
    lineEnd now ((expires.map (· - now)).getD 0) = expiryEnd expires := by
  cases expires with
  | none => rfl
  | some e =>
      have later : now < e := by simpa [live] using alive
      have left : e - now ≠ 0 := by omega
      change (if e - now = 0 then ⊤ else ((now + (e - now) : Nat) : WithTop Nat)) = (e : WithTop Nat)
      rw [if_neg left, Nat.add_sub_cancel' later.le]

theorem startup_bans (bans : List Akill) :
    ((bans.filter fun a => live now a.expires).filterMap fun a =>
      (XlineKind.fromWire a.kind).map fun kind => (kind, a)).map (fun (kind, a) =>
        ((kind.wire, fold a.mask), lineEnd now ((a.expires.map (· - now)).getD 0))) =
      (bans.filter fun a => live now a.expires && a.modelled).map (banLease fold) := by
  induction bans with
  | nil => rfl
  | cons a bans ih =>
      cases alive : live now a.expires with
      | false => simpa [alive] using ih
      | true =>
          cases parsed : XlineKind.fromWire a.kind with
          | none => simpa [alive, parsed, Akill.modelled] using ih
          | some kind =>
              have own := XlineKind.wire_fromWire parsed
              simpa [alive, parsed, Akill.modelled, banLease, own, lineEnd_remaining alive] using ih

theorem startup_nicks (forbids : List Forbid) :
    ((forbids.filterMap fun f => (ForbidKind.fromName f.kind).map fun kind => (kind, f)).filter
      (·.1 = .nick)).map (fun (_, f) => nickLease fold f.mask) =
      (forbids.filter Forbid.isNick).map fun f => nickLease fold f.mask := by
  induction forbids with
  | nil => rfl
  | cons f forbids ih =>
      cases parsed : ForbidKind.fromName f.kind with
      | none => simpa [parsed, Forbid.isNick] using ih
      | some kind => cases kind <;> simpa [parsed, Forbid.isNick] using ih

/-- The lines asserted over a fresh link are those of the live bans of a known kind
and of the forbidden nicks. -/
theorem startup_board (db : Db) :
    (Linked.burst fold db now).ircd =
      (leases fold (db.net.akills.filter fun a => live now a.expires && a.modelled)
        db.net.forbids).foldl putUp fun _ => none := by
  change (startupLines now db).foldl (Ircd.take fold now) (fun _ => none) = _
  rw [leases, ← startup_bans, ← startup_nicks, startupLines]
  simp only [List.foldl_append, List.foldl_map]
  rfl

/-- No two live bans, and no ban and a forbidden nick put up after it, are shown
shorter than they are held. -/
theorem leases_pairwise (apart : ∀ a b, fold a = fold b → key a = key b) {bans : List Akill}
    (distinct : DistinctBy (fun a : Akill => (a.kind, key a.mask)) bans) (forbids : List Forbid) :
    (leases fold bans forbids).Pairwise fun x y => x.1 = y.1 → x.2 ≤ y.2 := by
  refine List.pairwise_append.mpr ⟨?_, ?_, ?_⟩
  · refine List.pairwise_map.mpr ((List.pairwise_map.mp distinct).imp fun {a b} differ same => ?_)
    obtain ⟨kinds, masks⟩ := Prod.mk.injEq _ _ _ _ ▸ same
    exact absurd (congrArg₂ Prod.mk kinds (apart _ _ masks)) differ
  · exact List.pairwise_map.mpr (List.pairwise_of_forall fun _ _ _ => le_rfl)
  · intro x _ y mem _
    obtain ⟨f, -, rfl⟩ := List.mem_map.mp mem
    exact le_top

/-- Over a fresh link the lines mirror the store exactly if every live ban is of a
known kind. -/
theorem Linked.mirrorsOn_burst (apart : ∀ a b, fold a = fold b → key a = key b) {db : Db}
    (wf : db.Wf) :
    (Linked.burst fold db now).MirrorsOn fold ↔
      ∀ a ∈ db.net.akills, live now a.expires = true → a.modelled = true := by
  have shown (t : WithTop Nat) (line : LineKey) :
      Shown (Linked.burst fold db now).ircd t line ↔
        Due (leases fold (db.net.akills.filter fun a => live now a.expires && a.modelled)
          db.net.forbids) t line := by
    rw [startup_board]
    exact shown_putAll_iff (leases_pairwise apart (wf.net.akills.filter _) _)
  constructor
  · intro mirrors a mem alive
    have due : Due (leases fold db.net.akills db.net.forbids) (now : WithTop Nat)
        (a.kind, fold a.mask) :=
      ⟨_, mem_leases.mpr (.inl ⟨a, mem, rfl⟩), live_iff.mp alive⟩
    obtain ⟨e, held, -⟩ := (shown _ _).mp ((mirrors _ le_rfl _).mpr due)
    rcases mem_leases.mp held with ⟨b, kept, same⟩ | ⟨f, -, -, same⟩
    · have known := (List.mem_filter.mp kept).2
      rw [Bool.and_eq_true] at known
      have kinds : a.kind = b.kind := congrArg (·.1.1) same
      unfold Akill.modelled at *
      rw [kinds]
      exact known.2
    · have kinds : a.kind = XlineKind.qline.wire := congrArg (·.1.1) same
      unfold Akill.modelled
      rw [kinds]
      rfl
  · intro known t after line
    rw [shown]
    constructor
    · intro due
      refine due.mono fun x mem => ?_
      rcases mem_leases.mp mem with ⟨a, kept, same⟩ | nick
      · exact mem_leases.mpr (.inl ⟨a, (List.mem_filter.mp kept).1, same⟩)
      · exact mem_leases.mpr (.inr nick)
    · rintro ⟨e, mem, later⟩
      refine ⟨e, ?_, later⟩
      rcases mem_leases.mp mem with ⟨a, kept, same⟩ | nick
      · cases same
        have alive : live now a.expires = true := live_iff.mpr (after.trans_lt later)
        refine mem_leases.mpr (.inl ⟨a, List.mem_filter.mpr ⟨kept, ?_⟩, rfl⟩)
        rw [alive, known a kept alive]
        rfl
      · exact mem_leases.mpr (.inr nick)

end Startup

/-! ### Whole runs -/

namespace Linked

/-- After the startup lines over a fresh link, through any run of commands, waits and
entries of other nodes, the ircd enforces a line for each live ban and each
forbidden nick and no others, however long one waits at any point, exactly if every
live ban was of a known kind at first and every step fits. -/
theorem lines_mirror_iff {fold : String → String}
    (apart : ∀ a b, fold a = fold b → key a = key b) {db : Db} (reachable : db.Reachable)
    (now : Nat) (steps : List LinkedStep) :
    ((∀ a ∈ db.net.akills, live now a.expires = true → a.modelled = true) ∧
        Along (Linked.step fold) (Fits fold) (burst fold db now) steps) ↔
      ∀ before, before <+: steps → ∀ seconds,
        ((after (Linked.step fold) (burst fold db now) before).step fold
          (.wait seconds)).Mirrors fold := by
  simp only [← mirrorsOn_iff]
  rw [← mirrorsOn_burst apart reachable.wf]
  constructor
  · rintro ⟨start, fits⟩
    exact (along_iff_throughout (I := MirrorsOn fold) (J := fun _ => True) (fun _ _ _ => trivial)
      (fun s a _ mirrors => mirrorsOn_step mirrors a) trivial start).mp fits
  · intro mirrors
    have start : (burst fold db now).MirrorsOn fold := mirrors [] List.nil_prefix
    exact ⟨start, (along_iff_throughout (I := MirrorsOn fold) (J := fun _ => True)
      (fun _ _ _ => trivial) (fun s a _ mirrors => mirrorsOn_step mirrors a) trivial start).mpr
        mirrors⟩

/-- A services operator who is also an administrator. -/
def admin : Sender := ⟨"oper", some "Oper", true, true⟩

def bannedForAnHour : List LinkedStep :=
  [.command admin ["AKILL", "ADD", "+1h", "*@evil.example", "spam"]]

/-- A first ban fits. -/
theorem lines_mirror_akill :
    ((after (Linked.step key) (burst key (.fresh "a") 1000) bannedForAnHour).step key
      (.wait 60)).Mirrors key := by
  have read : readOperServ 1000 (.fresh "a") admin
      ["AKILL", "ADD", "+1h", "*@evil.example", "spam"] =
        some (.ban .gline "*@evil.example" (some 3600) "spam") := by
    decide +kernel
  have fits : Along (Linked.step key) (Fits key) (burst key (.fresh "a") 1000) bannedForAnHour := by
    refine ⟨fun request asked => ?_, trivial⟩
    cases read.symm.trans asked
    intro _
    exact
      { others := nofun
        own := fun _ => le_of_eq rfl
        backed := fun _ => ⟨_, List.mem_cons_self, le_of_eq rfl⟩
        replaced := nofun }
  exact (lines_mirror_iff (fun _ _ => id) ⟨"a", [], [], rfl⟩ 1000 bannedForAnHour).mp ⟨nofun, fits⟩
    _ List.prefix_rfl 60

/-- A nick is banned and then forbidden, and the ban is lifted. -/
def nickBannedTwice : List LinkedStep :=
  [.command admin ["SQLINE", "ADD", "badnick", "spam"],
    .command admin ["FORBID", "ADD", "NICK", "badnick", "taken"],
    .command admin ["SQLINE", "DEL", "badnick"]]

/-- The nick is still forbidden, but nothing keeps it from being used. -/
theorem forbidden_nick_unenforced :
    ¬ (after (Linked.step key) (burst key (.fresh "a") 1000) nickBannedTwice).Mirrors key := by
  intro mirrors
  have held : (after (Linked.step key) (burst key (.fresh "a") 1000)
      nickBannedTwice).db.net.forbids = [⟨"NICK", "badnick", "Oper", "taken", 1000⟩] := by
    decide +kernel
  have wanted : (after (Linked.step key) (burst key (.fresh "a") 1000)
      nickBannedTwice).Wanted key ("Q", "badnick") := by
    refine .inr ⟨⟨"NICK", "badnick", "Oper", "taken", 1000⟩, ?_, by decide +kernel, by decide +kernel⟩
    rw [held]
    exact List.mem_cons_self
  have lifted : (after (Linked.step key) (burst key (.fresh "a") 1000)
      nickBannedTwice).ircd ("Q", "badnick") = none := by
    decide +kernel
  obtain ⟨ends, set, -⟩ := (mirrors _).mpr wanted
  rw [lifted] at set
  exact nomatch set

end Linked

end Echo
