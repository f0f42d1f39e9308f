import Echo.Engine.LinesMirror
import Echo.Engine.Security

/-!
Whom the screening bans. The gate before every detector spares a client at an
exempt address, and a ban by address reaches nobody else; but a ban by range reaches
whoever shares the /24 or the /64 of the client that tripped it, exempt or not.

`Clear` asks of a step that bans a range that the range meets no entry of the exempt
list. In any run the bans spare the exempt addresses exactly as long as every step is
clear.
-/

namespace Echo

open Echo.Lib

/-! ### What a mask covers -/

theorem maskCovers_host (host ip : String) : maskCovers ("*@" ++ host) ip = ipInCidr ip host := by
  unfold maskCovers
  have parts : splitOnce ['@'] ("*@" ++ host).toList = some (['*'], host.toList) := by
    rw [String.toList_append]
    rfl
  rw [parts]
  dsimp only
  rw [String.ofList_toList]

namespace Security

variable {s : Security}

theorem isExempt_iff {ip : String} :
    s.isExempt ip = true ↔
      ∃ cfg, s.cfg = some cfg ∧ ∃ entry ∈ cfg.exemptIps, ipInCidr ip entry = true := by
  unfold isExempt
  rw [Option.any_eq_true]
  simp only [List.any_eq_true]

/-- No entry of the exempt list meets the range. -/
def RangeSpares (s : Security) (range : String) : Prop :=
  ∀ cfg, s.cfg = some cfg → ∀ entry ∈ cfg.exemptIps, rangesMeet range entry = false

/-- A range ban spares the exempt addresses exactly if the range meets none of their
entries. -/
theorem rangeSpares_iff {range : String} :
    s.RangeSpares range ↔
      ∀ ip, s.isExempt ip = true → maskCovers ("*@" ++ range) ip = false := by
  constructor
  · intro spares ip exempt
    obtain ⟨cfg, configured, entry, listed, within⟩ := isExempt_iff.mp exempt
    rw [maskCovers_host]
    by_contra covered
    have meet := rangesMeet_of_mem (Bool.not_eq_false _ ▸ covered) within
    rw [spares cfg configured entry listed] at meet
    contradiction
  · intro spares cfg configured entry listed
    by_contra meet
    obtain ⟨ip, inside, within⟩ := mem_of_rangesMeet (Bool.not_eq_false _ ▸ meet)
    have covered := spares ip (isExempt_iff.mpr ⟨cfg, configured, entry, listed, within⟩)
    rw [maskCovers_host, inside] at covered
    contradiction

/-- Whoever passes the gate is at an address that is not exempt. -/
theorem address_spares {now : Nat} {c : Client} (passes : s.screens now c = true) :
    ∀ ip, s.isExempt ip = true → maskCovers ("*@" ++ c.ip) ip = false := by
  intro ip exempt
  unfold screens at passes
  simp only [Bool.and_eq_true, Bool.not_eq_true', bne_iff_ne] at passes
  obtain ⟨⟨⟨-, known⟩, spared⟩, -⟩ := passes
  obtain ⟨a, address⟩ := Option.isSome_iff_exists.mp (c.isAddress.resolve_left known)
  rw [maskCovers_host]
  by_contra covered
  have same := (ipInCidr_address address).mp (Bool.not_eq_false _ ▸ covered)
  have alike : s.isExempt ip = s.isExempt c.ip := by
    unfold isExempt
    congr 1
    funext cfg
    congr 1
    funext entry
    exact ipInCidr_congr same entry
  rw [alike, spared] at exempt
  contradiction

end Security

/-! ### What an action lays -/

namespace Screener

variable {e : Screener}

theorem feed_privmsg {text : String} {a : SecurityAction} (mem : a ∈ e.feed text) :
    ∃ «from» «to» text, a = .privmsg «from» «to» text := by
  unfold feed at mem
  split at mem
  · contradiction
  · split at mem
    · contradiction
    · exact ⟨_, _, _, List.mem_singleton.mp mem⟩

theorem mem_either {p : Prop} [Decidable p] {l l' : List SecurityAction} {a : SecurityAction}
    (mem : a ∈ if p then l else l') : a ∈ l ∨ a ∈ l' := by
  split at mem
  · exact .inl mem
  · exact .inr mem

/-- An announcement counts, and tells the staff. -/
theorem announce_spec (c : Client) (kind why : String) :
    (∃ counters, (e.announce c kind why).1 =
      { e with security := { e.security with counters } }) ∧
    ∀ a ∈ (e.announce c kind why).2, ∃ «from» «to» text, a = .privmsg «from» «to» text := by
  refine ⟨⟨_, rfl⟩, fun a mem => ?_⟩
  rcases List.mem_append.mp mem with alert | cascade
  · rcases mem_either alert with first | muted
    · exact feed_privmsg first
    · rcases mem_either muted with last | nothing
      · exact feed_privmsg last
      · contradiction
  · rcases mem_either cascade with many | nothing
    · exact feed_privmsg many
    · contradiction

theorem ban_security {mask reason : String} {banSecs : Nat} :
    (e.ban mask reason banSecs).1.security = e.security := by
  unfold ban
  split <;> rfl

theorem line_mem_ban {mask reason : String} {banSecs : Nat} {line : LineAction} :
    .line line ∈ (e.ban mask reason banSecs).2 ↔
      0 < banSecs ∧ line = .addLine "G" mask "Security" banSecs reason := by
  unfold ban
  split
  · rename_i lasting
    simp [lasting]
  · rename_i none
    simp [none]

/-- A ban is recorded under its mask, if the log takes it. -/
theorem akills_ban {mask reason : String} {banSecs : Nat} :
    ∀ a ∈ (e.ban mask reason banSecs).1.db.net.akills,
      a ∈ e.db.net.akills ∨ (0 < banSecs ∧ a.mask = mask) := by
  intro a mem
  unfold ban at mem
  split at mem
  · rename_i lasting
    dsimp only at mem
    rw [Db.akillAdd, Db.run_lineAdd] at mem
    split at mem
    · rcases List.mem_append.mp mem with kept | new
      · exact .inl (List.mem_filter.mp kept).1
      · cases List.mem_singleton.mp new
        exact .inr ⟨lasting, rfl⟩
    · exact .inl mem
  · exact .inl mem

theorem remember_db (account : Option String) : (e.remember account).db = e.db := by
  unfold remember
  split <;> rfl

theorem remember_cfg (account : Option String) :
    (e.remember account).security.cfg = e.security.cfg := by
  unfold remember
  split <;> rfl

/-- What an action leaves and sends: at most one line, which is for its mask. -/
theorem act_spec (c : Client) (uid mask kind why : String) (banSecs : Nat) :
    (e.act c uid mask kind why banSecs).1.security.cfg = e.security.cfg ∧
    (∀ a ∈ (e.act c uid mask kind why banSecs).1.db.net.akills,
      a ∈ e.db.net.akills ∨ (e.armed = true ∧ 0 < banSecs ∧ a.mask = mask)) ∧
    ∀ line, .line line ∈ (e.act c uid mask kind why banSecs).2 ↔
      e.armed = true ∧ 0 < banSecs ∧
        line = .addLine "G" mask "Security" banSecs ("Security: " ++ kind ++ " (" ++ why ++ ")") := by
  obtain ⟨⟨counters, counted⟩, told⟩ := announce_spec (e := e) c kind why
  have unheard (line : LineAction) : .line line ∉ (e.announce c kind why).2 := by
    intro mem
    obtain ⟨_, _, _, same⟩ := told _ mem
    contradiction
  have armed : (e.announce c kind why).1.armed = e.armed := by
    rw [counted]
    rfl
  unfold act
  dsimp only
  rw [armed]
  cases isArmed : e.armed with
  | false =>
      rw [if_neg Bool.false_ne_true]
      refine ⟨by rw [counted], fun a mem => .inl ?_, fun line => ?_⟩
      · rw [counted] at mem
        exact mem
      · exact iff_of_false (unheard line) fun h => Bool.false_ne_true h.1
  | true =>
      rw [if_pos rfl]
      refine ⟨?_, fun a mem => ?_, fun line => ?_⟩
      · rw [remember_cfg, ban_security, counted]
      · rw [remember_db] at mem
        refine (akills_ban a mem).imp (fun kept => ?_) fun laid => ⟨rfl, laid⟩
        rw [counted] at kept
        exact kept
      · rw [List.mem_append, List.mem_cons, line_mem_ban]
        simp [unheard]

end Screener

namespace Security

variable {s s' : Security}

theorem isExempt_congr (same : s.cfg = s'.cfg) (ip : String) : s.isExempt ip = s'.isExempt ip := by
  unfold isExempt
  rw [same]

theorem connectTrip_cfg (now : Nat) (u : Unicode) (c : Client) :
    (s.connectTrip now u c).1.cfg = s.cfg := by
  unfold connectTrip
  split
  · rfl
  · split
    · rfl
    · dsimp only
      split <;> rfl

theorem joinTrip_cfg (now : Nat) (rules : BehaviorRules) (uid channel : String) (c : Client) :
    (s.joinTrip now rules uid channel c).1.cfg = s.cfg := by
  unfold joinTrip
  dsimp only
  split <;> rfl

end Security

/-! ### Runs -/

/-- Whether a step that lays a ban on a range lays it where nobody is exempt: a
connection over the permit of its range and not over that of its address, or a join
over the permit of its range to the channel, when armed and set to ban. -/
def Screener.Clear (u : Unicode) (e : Screener) : SecurityStep → Prop
  | .connect _ (some c) =>
      (e.security.on && e.security.screens e.now c) = true →
        ∀ n, (e.security.connectTrip e.now u c).2 = some (.range n) →
          e.armed = true → 0 < ((e.security.cfg.map SecurityConfig.connect).getD {}).banDuration →
            e.security.RangeSpares (cidrOf c.ip)
  | .join uid channel (some c) =>
      ∀ rules, e.security.behaviorRules = some rules → e.security.screens e.now c = true →
        ∀ n, (e.security.joinTrip e.now rules uid channel c).2 = some (.range n) →
          e.armed = true → 0 < rules.banDuration → e.security.RangeSpares (cidrOf c.ip)
  | _ => True

namespace Screened

variable {start : Screener} {s : Screened} {u : Unicode}

/-- An action spares the exempt addresses exactly if the mask it lays does. -/
theorem spares_act (spares : s.Spares start) {e : Screener} (store : e.db = s.engine.db)
    (c : Client) (uid mask kind why : String) (banSecs : Nat) :
    Spares start ⟨(e.act c uid mask kind why banSecs).1,
        s.sent ++ (e.act c uid mask kind why banSecs).2⟩ ↔
      (e.armed = true → 0 < banSecs →
        ∀ ip, start.security.isExempt ip = true → maskCovers mask ip = false) := by
  obtain ⟨-, recorded, sent⟩ := e.act_spec c uid mask kind why banSecs
  constructor
  · intro after armed lasting ip exempt
    have laid := (sent _).mpr ⟨armed, lasting, rfl⟩
    exact (after ip exempt).1 _ _ _ _ _ (List.mem_append_right _ laid)
  · intro spared ip exempt
    constructor
    · intro kind' mask' setter duration reason mem
      rcases List.mem_append.mp mem with before | new
      · exact (spares ip exempt).1 _ _ _ _ _ before
      · obtain ⟨armed, lasting, same⟩ := (sent _).mp new
        cases same
        exact spared armed lasting ip exempt
    · intro a mem
      rcases recorded a mem with before | ⟨armed, lasting, same⟩
      · rw [store] at before
        exact (spares ip exempt).2 a before
      · rw [same]
        exact .inr (spared armed lasting ip exempt)

/-- A ban of the address of someone who was screened spares the exempt ones. -/
theorem spares_address (spares : s.Spares start) (same : s.engine.security.cfg = start.security.cfg)
    {e : Screener} (store : e.db = s.engine.db) {c : Client}
    (passes : s.engine.security.screens s.engine.now c = true) (uid kind why : String)
    (banSecs : Nat) :
    Spares start ⟨(e.act c uid ("*@" ++ c.ip) kind why banSecs).1,
      s.sent ++ (e.act c uid ("*@" ++ c.ip) kind why banSecs).2⟩ := by
  refine (spares_act spares store c uid _ kind why banSecs).mpr fun _ _ ip exempt => ?_
  rw [← Security.isExempt_congr same] at exempt
  exact Security.address_spares passes ip exempt

theorem spares_silent (spares : s.Spares start) {e : Screener}
    (store : e.db.net.akills = s.engine.db.net.akills) :
    Spares start ⟨e, s.sent ++ []⟩ := by
  rw [List.append_nil]
  intro ip exempt
  rw [store]
  exact spares ip exempt

theorem step_cfg (s : Screened) (a : SecurityStep) :
    (s.step u a).engine.security.cfg = s.engine.security.cfg := by
  cases a with
  | wait seconds => rfl
  | netsplit =>
      dsimp only [step]
      unfold Security.markNetsplit
      split <;> rfl
  | disk outcomes => rfl
  | connect uid client =>
      cases client with
      | none => rfl
      | some c =>
          dsimp only [step, Screener.screenConnect]
          split
          · have kept := Security.connectTrip_cfg (s := s.engine.security) s.engine.now u c
            split
            · exact kept
            · exact (Screener.act_spec ..).1.trans kept
            · exact (Screener.act_spec ..).1.trans kept
            · exact (Screener.act_spec ..).1.trans kept
          · rfl
  | join uid channel client =>
      dsimp only [step, Screener.screenJoin]
      split
      · rename_i rules c behaves
        split
        · have kept := Security.joinTrip_cfg (s := s.engine.security) s.engine.now rules uid channel c
          split
          · exact (Screener.act_spec ..).1.trans kept
          · exact (Screener.act_spec ..).1.trans kept
          · exact kept
        · rfl
      · rfl
  | login uid account client =>
      cases client with
      | none => rfl
      | some c =>
          dsimp only [step, Screener.screenLogin]
          split
          · exact (Screener.act_spec ..).1.trans (Screener.remember_cfg _)
          · rfl

/-- A step spares the exempt addresses exactly if it is clear. -/
theorem spares_step (spares : s.Spares start)
    (same : s.engine.security.cfg = start.security.cfg) (a : SecurityStep) :
    (s.step u a).Spares start ↔ s.engine.Clear u a := by
  have ranged (range : String) : s.engine.security.RangeSpares range ↔
      ∀ ip, start.security.isExempt ip = true → maskCovers ("*@" ++ range) ip = false := by
    rw [Security.rangeSpares_iff]
    simp only [Security.isExempt_congr same]
  cases a with
  | wait seconds => exact iff_of_true (spares_silent spares rfl) trivial
  | netsplit => exact iff_of_true (spares_silent spares rfl) trivial
  | disk outcomes => exact iff_of_true (spares_silent spares rfl) trivial
  | connect uid client =>
      cases client with
      | none => exact iff_of_true (spares_silent spares rfl) trivial
      | some c =>
          dsimp only [step, Screener.screenConnect, Screener.Clear]
          by_cases gate : (s.engine.security.on && s.engine.security.screens s.engine.now c) = true
          · have passes := (Bool.and_eq_true _ _ ▸ gate).2
            have kept := Security.connectTrip_cfg (s := s.engine.security) s.engine.now u c
            have armed : Screener.armed { s.engine with
                security := (s.engine.security.connectTrip s.engine.now u c).1 } =
              s.engine.armed := by
              unfold Screener.armed Security.enforcing
              rw [kept]
            rw [if_pos gate, kept]
            simp only [gate, forall_const]
            cases (s.engine.security.connectTrip s.engine.now u c).2 with
            | none => exact iff_of_true (spares_silent spares rfl) nofun
            | some trip =>
                cases trip with
                | pattern reason ban =>
                    refine iff_of_true (spares_address spares same ?_ passes _ _ _ _) nofun
                    rfl
                | address n =>
                    refine iff_of_true (spares_address spares same ?_ passes _ _ _ _) nofun
                    rfl
                | range n =>
                    refine Iff.trans (spares_act spares ?_ _ _ _ _ _ _) ?_
                    · rfl
                    rw [armed, ← ranged]
                    constructor
                    · intro spared _ _
                      exact spared
                    · intro spared
                      exact spared n rfl
          · rw [if_neg gate]
            exact iff_of_true (spares_silent spares rfl) fun screened => absurd screened gate
  | join uid channel client =>
      dsimp only [step, Screener.screenJoin]
      cases behaves : s.engine.security.behaviorRules with
      | none =>
          refine iff_of_true (spares_silent spares rfl) ?_
          cases client with
          | none => trivial
          | some c =>
              intro rules same
              rw [behaves] at same
              contradiction
      | some rules =>
          cases client with
          | none => exact iff_of_true (spares_silent spares rfl) trivial
          | some c =>
              dsimp only [Screener.Clear]
              by_cases passes : s.engine.security.screens s.engine.now c = true
              · have kept := Security.joinTrip_cfg (s := s.engine.security) s.engine.now rules uid
                  channel c
                have armed : Screener.armed { s.engine with
                    security := (s.engine.security.joinTrip s.engine.now rules uid channel c).1 } =
                  s.engine.armed := by
                  unfold Screener.armed Security.enforcing
                  rw [kept]
                have only : (∀ rules', s.engine.security.behaviorRules = some rules' →
                    s.engine.security.screens s.engine.now c = true →
                    ∀ n, (s.engine.security.joinTrip s.engine.now rules' uid channel c).2 =
                        some (.range n) →
                      s.engine.armed = true → 0 < rules'.banDuration →
                        s.engine.security.RangeSpares (cidrOf c.ip)) ↔
                    ∀ n, (s.engine.security.joinTrip s.engine.now rules uid channel c).2 =
                        some (.range n) →
                      s.engine.armed = true → 0 < rules.banDuration →
                        s.engine.security.RangeSpares (cidrOf c.ip) := by
                  rw [behaves]
                  simp [passes]
                rw [if_pos passes]
                refine Iff.trans ?_ only.symm
                cases (s.engine.security.joinTrip s.engine.now rules uid channel c).2 with
                | none => exact iff_of_true (spares_silent spares rfl) nofun
                | some trip =>
                    cases trip with
                    | pattern reason ban =>
                        refine iff_of_true (spares_address spares same ?_ passes _ _ _ _) nofun
                        rfl
                    | address n =>
                        refine iff_of_true (spares_address spares same ?_ passes _ _ _ _) nofun
                        rfl
                    | range n =>
                        refine Iff.trans (spares_act spares ?_ _ _ _ _ _ _) ?_
                        · rfl
                        rw [armed, ← ranged]
                        constructor
                        · intro spared _ _
                          exact spared
                        · intro spared
                          exact spared n rfl
              · rw [if_neg passes]
                exact iff_of_true (spares_silent spares rfl) fun _ _ screened =>
                  absurd screened passes
  | login uid account client =>
      refine iff_of_true ?_ trivial
      cases client with
      | none => exact spares_silent spares rfl
      | some c =>
          dsimp only [step, Screener.screenLogin]
          split
          · rename_i gate
            have passes := (Bool.and_eq_true _ _ ▸ gate).2
            exact spares_address spares same (Screener.remember_db _) passes _ _ _ _
          · exact spares_silent spares rfl

/-- In any run of connects, joins and logins, the bans that are sent and recorded spare
every exempt address exactly as long as each step is clear. -/
theorem bans_spare_iff (u : Unicode) (e : Screener) (steps : List SecurityStep) :
    Along (Screened.step u) (fun s a => s.engine.Clear u a) ⟨e, []⟩ steps ↔
      ∀ before, before <+: steps → (after (Screened.step u) ⟨e, []⟩ before).Spares e := by
  refine along_iff_throughout
    (J := fun s : Screened => s.engine.security.cfg = e.security.cfg) ?_ ?_ rfl ?_
  · intro s a same
    exact (step_cfg s a).trans same
  · intro s a same spares
    exact spares_step spares same a
  · intro ip _
    exact ⟨nofun, fun a mem => .inl mem⟩

/-- A client of this address and nothing else of note. -/
def clientAt (ip : String) (isAddress : (IpAddr.parse ip).isSome = true) : Client :=
  ⟨"clone", "user", "host.example", ip, "", false, none, .inr isAddress⟩

/-- Armed, with a gateway exempt, and two connections of a range at a time. -/
def armedScreener : Screener where
  security := {
    cfg := some {
      enabled := true, reportOnly := false, connect := { rangePermit := 2 }
      exemptIps := ["127.0.0.0/8", "::1", "203.0.113.5"] } }
  db := .fresh "a"
  now := 1000
  sid := "42X"
  debugservUid := ""
  logChannel := none

/-- Three clones connect from the network of the gateway. -/
def clones : List SecurityStep :=
  [.connect "0AAAAAAAA" (some (clientAt "203.0.113.20" (by decide +kernel))),
    .connect "0AAAAAAAB" (some (clientAt "203.0.113.21" (by decide +kernel))),
    .connect "0AAAAAAAC" (some (clientAt "203.0.113.22" (by decide +kernel)))]

/-- The alphabet as it folds under `to_lowercase`. -/
def ascii : Unicode := ⟨Char.isAlpha, fun c => [c.toLower]⟩

/-- The ban of their range takes in the gateway. -/
theorem exempt_address_banned :
    armedScreener.security.isExempt "203.0.113.5" = true ∧
      ¬ (after (Screened.step ascii) ⟨armedScreener, []⟩ clones).Spares armedScreener := by
  have exempt : armedScreener.security.isExempt "203.0.113.5" = true := by decide +kernel
  have banned : .line (.addLine "G" "*@203.0.113.0/24" "Security" 3600
      "Security: connection flood (3 connections in 20s from range 203.0.113.0/24)") ∈
        (after (Screened.step ascii) ⟨armedScreener, []⟩ clones).sent := by decide +kernel
  have covered : maskCovers "*@203.0.113.0/24" "203.0.113.5" = true := by decide +kernel
  refine ⟨exempt, fun spares => ?_⟩
  have spared := (spares _ exempt).1 _ _ _ _ _ banned
  rw [covered] at spared
  contradiction

end Screened

end Echo
