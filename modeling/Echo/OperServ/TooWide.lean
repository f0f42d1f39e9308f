import Echo.Engine.Ranges
import Echo.Lib.Regexes
import Echo.Lib.Wildcards
import Echo.OperServ.Durations

/-!
The guard of the network bans and the spam filters against masks that are too wide
(`too_wide` in `xline.rs`, and `spamfilter.rs`): a mask is refused if it has nothing but
wildcards.

A mask with wildcards that is let through has a character that stands for itself, so there
is somebody whom it does not concern. A regex has more ways to match everything.
-/

namespace Echo

open Echo.Lib

/-! ### Masks that are let through -/

/-- The command takes the mask, in whichever words. -/
def Xline.Accepts (x : Xline) (mask : String) : Prop :=
  ∃ rest duration reason, x.readAdd rest = some (.ban x.kind mask duration reason)

/-- `SPAMFILTER ADD` takes the pattern. -/
def OperServ.AcceptsFilter (pattern : String) : Prop :=
  ∃ (rest : List String) (reason : String),
    OperServ.readFilter (if (rest.head?.bind plusDuration).isSome then rest.tail else rest) = some (pattern, reason)

theorem Xline.accepts_iff {x : Xline} {mask : String} :
    x.Accepts mask ↔ (∃ raw, x.normalize raw = some mask) ∧ tooWide mask (x.kind = .rline) = false := by
  constructor
  · rintro ⟨rest, duration, reason, read⟩
    rw [TimedCommand.readAdd_eq, Option.map_eq_some_iff] at read
    obtain ⟨⟨mask', reason'⟩, read, same⟩ := read
    cases same
    revert read
    unfold readMask
    split
    · exact nofun
    · split
      · exact nofun
      · rename_i normal
        split
        · exact nofun
        · split
          · exact nofun
          · rename_i narrow
            rintro ⟨⟩
            exact ⟨⟨_, normal⟩, Bool.eq_false_iff.mpr narrow⟩
  · rintro ⟨⟨raw, normal⟩, narrow⟩
    refine ⟨["+1", raw, "reason"], some 1, "reason", ?_⟩
    have behind : x.readMask [raw, "reason"] = some (mask, "reason") := by
      unfold readMask
      dsimp only
      rw [normal]
      dsimp only
      rw [if_neg (List.cons_ne_nil _ _), if_neg (by rw [narrow]; exact Bool.false_ne_true)]
      rfl
    rw [TimedCommand.readAdd_eq]
    change (x.readMask [raw, "reason"]).map _ = _
    rw [behind]
    rfl

theorem OperServ.acceptsFilter_iff {pattern : String} :
    AcceptsFilter pattern ↔ (pattern.toList.all fun c => ".*+?".toList.contains c) = false := by
  constructor
  · rintro ⟨rest, reason, read⟩
    revert read
    generalize (if (rest.head?.bind plusDuration).isSome then rest.tail else rest) = words
    unfold readFilter
    split
    · exact nofun
    · split
      · exact nofun
      · split
        · exact nofun
        · rename_i narrow
          rintro ⟨⟩
          exact Bool.eq_false_iff.mpr narrow
  · intro narrow
    refine ⟨["+1", pattern, "reason"], "reason", ?_⟩
    change readFilter [pattern, "reason"] = _
    unfold readFilter
    dsimp only
    rw [if_neg (List.cons_ne_nil _ _), if_neg (by rw [narrow]; exact Bool.false_ne_true)]
    rfl

namespace TooWide

/-! ### Masks with wildcards -/

/-- What the ircd makes of a mask with wildcards. -/
def GlobMatches (mask text : String) : Prop :=
  Wildcards.Splits '*' '?' (toAsciiLowercase mask).toList (toAsciiLowercase text).toList

/-- A name that anyone may have. -/
def IsPlain (s : String) : Prop := s ≠ "" ∧ s.toList.all Char.isAlpha = true

instance (s : String) : Decidable (IsPlain s) := inferInstanceAs (Decidable (_ ∧ _))

/-- Who connects: a user at a host, with an address. -/
structure Client where
  user : String
  host : String
  ip : String
  address : IpAddr
  plain : IsPlain user ∧ IsPlain host
  reads : IpAddr.parse ip = some address

/-- A `user@host` mask concerns a client, by the name of its host, by its address or by a range
that this lies in. -/
def Client.Concerned (client : Client) (mask : String) : Prop :=
  ∃ user host, splitOnce ['@'] mask.toList = some (user, host) ∧ GlobMatches (String.ofList user) client.user ∧
    (GlobMatches (String.ofList host) client.host ∨ GlobMatches (String.ofList host) client.ip ∨
      InRange client.address (String.ofList host))

/-- The name of a channel that anyone may have. -/
def IsPlainChannel (s : String) : Prop := ∃ name, s = "#" ++ name ∧ IsPlain name

/-! ### Who is not concerned -/

/-- A character of a mask that stands for itself, whatever the mask is for. -/
def Literal (c : Char) : Prop := c ≠ '*' ∧ c ≠ '?' ∧ c ≠ '.' ∧ c ≠ '@'

instance (c : Char) : Decidable (Literal c) := inferInstanceAs (Decidable (_ ∧ _))

theorem exists_literal {mask : String} (narrow : tooWide mask false = false) :
    ∃ c ∈ (match mask.toList with
      | '#' :: body => body
      | '&' :: body => body
      | body => body), Literal c := by
  unfold tooWide at narrow
  rw [Bool.or_eq_false_iff] at narrow
  obtain ⟨c, mem, literal⟩ := List.all_eq_false.mp narrow.2
  refine ⟨c, mem, ?_⟩
  unfold Literal
  simpa [and_assoc] using literal

theorem literal_mem {mask : String} (narrow : tooWide mask false = false) : ∃ c ∈ mask.toList, Literal c := by
  obtain ⟨c, mem, literal⟩ := exists_literal narrow
  refine ⟨c, ?_, literal⟩
  split at mem
  · rename_i same
    rw [same]
    exact List.mem_cons_of_mem _ mem
  · rename_i same
    rw [same]
    exact List.mem_cons_of_mem _ mem
  · exact mem

theorem toLower_literal {c : Char} (literal : Literal c) : Literal c.toLower :=
  ⟨fun same => literal.1 ((toLower_eq_iff (by decide)).mp same),
    fun same => literal.2.1 ((toLower_eq_iff (by decide)).mp same),
    fun same => literal.2.2.1 ((toLower_eq_iff (by decide)).mp same),
    fun same => literal.2.2.2 ((toLower_eq_iff (by decide)).mp same)⟩

/-- A character that stands for itself is in what the mask matches. -/
theorem GlobMatches.mem {mask text : String} (matched : GlobMatches mask text) {c : Char} (mem : c ∈ mask.toList)
    (literal : Literal c) : c.toLower ∈ (toAsciiLowercase text).toList := by
  refine matched.literals.subset (List.mem_filter.mpr ⟨?_, ?_⟩)
  · unfold toAsciiLowercase
    rw [String.toList_ofList]
    exact List.mem_map_of_mem mem
  · exact decide_eq_true ⟨(toLower_literal literal).1, (toLower_literal literal).2.1⟩

section Clients

variable {mask : String} {user host : List Char} {c : Char}

/-- Three clients with no character but the dot in common, and one of the other family. -/
def ann : Client := ⟨"a", "a", "1.1.1.1", .v4 0x01010101, by decide, by decide +kernel⟩
def bob : Client := ⟨"b", "b", "2.2.2.2", .v4 0x02020202, by decide, by decide +kernel⟩
def dan : Client := ⟨"d", "d", "3.3.3.3", .v4 0x03030303, by decide, by decide +kernel⟩
def eve : Client := ⟨"e", "e", "::1", .v6 1, by decide, by decide +kernel⟩

/-- What the name of a client's host and its address are written with. -/
def Client.letters (client : Client) : List Char :=
  (toAsciiLowercase client.host).toList ++ (toAsciiLowercase client.ip).toList

theorem letters_apart :
    (∀ c ∈ ann.letters, c ≠ '.' → c ∉ bob.letters ∧ c ∉ dan.letters) ∧
      ∀ c ∈ bob.letters, c ≠ '.' → c ∉ dan.letters :=
  ⟨forall_of_all (by decide +kernel), forall_of_all (by decide +kernel)⟩

theorem Client.spared_user {client : Client} (split : splitOnce ['@'] mask.toList = some (user, host)) (mem : c ∈ user)
    (literal : Literal c) (lacks : c.toLower ∉ (toAsciiLowercase client.user).toList) : ¬ client.Concerned mask := by
  rintro ⟨user', host', split', matched, -⟩
  cases split.symm.trans split'
  exact lacks (matched.mem (by rwa [String.toList_ofList]) literal)

theorem Client.spared_host {client : Client} (split : splitOnce ['@'] mask.toList = some (user, host)) (mem : c ∈ host)
    (literal : Literal c) (lacks : c.toLower ∉ client.letters)
    (outside : ¬ InRange client.address (String.ofList host)) : ¬ client.Concerned mask := by
  rintro ⟨user', host', split', -, matched⟩
  cases split.symm.trans split'
  have mem' : c ∈ (String.ofList host).toList := by rwa [String.toList_ofList]
  rcases matched with name | ip | range
  · exact lacks (List.mem_append_left _ (name.mem mem' literal))
  · exact lacks (List.mem_append_right _ (ip.mem mem' literal))
  · exact outside range

/-- A range with a slash is of one family, and no client is known by a slash. -/
theorem spared_slash (split : splitOnce ['@'] mask.toList = some (user, host)) (slash : '/' ∈ host) :
    ∃ client : Client, ¬ client.Concerned mask := by
  by_cases inside : InRange eve.address (String.ofList host)
  · refine ⟨ann, ann.spared_host split slash (by decide) (by decide) ?_⟩
    rintro ⟨net, n, range, shares⟩
    obtain ⟨net', n', range', shares'⟩ := inside
    cases range.symm.trans range'
    cases net with
    | v4 => exact shares'
    | v6 => exact shares
  · exact ⟨eve, eve.spared_host split slash (by decide) (by decide) inside⟩

/-- Without a slash there is one address at most. -/
theorem spared_plain (split : splitOnce ['@'] mask.toList = some (user, host)) (mem : c ∈ host) (literal : Literal c)
    (plain : '/' ∉ host) : ∃ client : Client, ¬ client.Concerned mask := by
  have single : ∀ address, InRange address (String.ofList host) → IpAddr.parse (String.ofList host) = some address := by
    rintro address ⟨net, n, range, shares⟩
    unfold readRange at range
    rw [String.toList_ofList, splitOnce_single_none plain] at range
    obtain ⟨net', parsed, same⟩ := Option.map_eq_some_iff.mp range
    cases same
    rw [IpAddr.sharesPrefix_width] at shares
    rw [parsed, shares]
  have differs : ∀ {x y : IpAddr}, InRange x (String.ofList host) → x ≠ y → ¬ InRange y (String.ofList host) :=
    fun inside apart inside' => apart (Option.some.inj ((single _ inside).symm.trans (single _ inside')))
  have dotless : c.toLower ≠ '.' := (toLower_literal literal).2.2.1
  have spared : ∀ client : Client, c.toLower ∉ client.letters → ¬ InRange client.address (String.ofList host) →
      ∃ client : Client, ¬ client.Concerned mask :=
    fun client lacks outside => ⟨client, client.spared_host split mem literal lacks outside⟩
  by_cases inAnn : c.toLower ∈ ann.letters
  · obtain ⟨notBob, notDan⟩ := letters_apart.1 _ inAnn dotless
    by_cases isBob : InRange bob.address (String.ofList host)
    · exact spared dan notDan (differs isBob (by decide))
    · exact spared bob notBob isBob
  · by_cases isAnn : InRange ann.address (String.ofList host)
    · by_cases inBob : c.toLower ∈ bob.letters
      · exact spared dan (letters_apart.2 _ inBob dotless) (differs isAnn (by decide))
      · exact spared bob inBob (differs isAnn (by decide))
    · exact spared ann inAnn isAnn

/-- A `user@host` mask that is let through leaves a client out. -/
theorem exists_spared (narrow : tooWide mask false = false) : ∃ client : Client, ¬ client.Concerned mask := by
  obtain ⟨c, mem, literal⟩ := literal_mem narrow
  cases split : splitOnce ['@'] mask.toList with
  | none =>
      refine ⟨ann, ?_⟩
      rintro ⟨user, host, split', -⟩
      cases split.symm.trans split'
  | some parts =>
      obtain ⟨user, host⟩ := parts
      rw [splitOnce_eq split, List.mem_append, List.mem_append, List.mem_singleton] at mem
      rcases mem with inUser | isAt | inHost
      · by_cases isA : c.toLower ∈ (toAsciiLowercase ann.user).toList
        · refine ⟨bob, bob.spared_user split inUser literal fun isB => ?_⟩
          have apart : ∀ d ∈ (toAsciiLowercase ann.user).toList, d ∉ (toAsciiLowercase bob.user).toList :=
            forall_of_all (by decide)
          exact apart _ isA isB
        · exact ⟨ann, ann.spared_user split inUser literal isA⟩
      · exact absurd isAt literal.2.2.2
      · by_cases slash : '/' ∈ host
        · exact spared_slash split slash
        · exact spared_plain split inHost literal slash

/-- So does a mask for nicks. -/
theorem exists_spared_nick (narrow : tooWide mask false = false) : ∃ nick, IsPlain nick ∧ ¬ GlobMatches mask nick := by
  obtain ⟨c, mem, literal⟩ := literal_mem narrow
  by_cases isA : GlobMatches mask "a"
  · refine ⟨"b", by decide, fun isB => ?_⟩
    have apart : ∀ d ∈ (toAsciiLowercase "a").toList, d ∉ (toAsciiLowercase "b").toList :=
      forall_of_all (by decide)
    exact apart _ (isA.mem mem literal) (isB.mem mem literal)
  · exact ⟨"a", by decide, isA⟩

/-- What a channel begins with stands for itself once. -/
theorem not_matches_hashes {body : List Char} (begins : mask.toList = '#' :: body) (again : '#' ∈ body) {name : String}
    (once : (toAsciiLowercase name).toList.count '#' = 1) : ¬ GlobMatches mask name := by
  intro matched
  have counted := matched.literals.count_le '#'
  have folded : (toAsciiLowercase mask).toList = '#' :: body.map Char.toLower := by
    unfold toAsciiLowercase
    rw [String.toList_ofList, begins]
    rfl
  have inner : '#' ∈ body.map Char.toLower := List.mem_map.mpr ⟨'#', again, rfl⟩
  rw [List.count_filter (by decide), folded, List.count_cons_self, once] at counted
  have positive : 0 < (body.map Char.toLower).count '#' := List.count_pos_iff.mpr inner
  omega

/-- And one for channels, which names what a channel begins with. -/
theorem exists_spared_channel {raw : String} (normal : normChannel raw = some mask)
    (narrow : tooWide mask false = false) : ∃ channel, IsPlainChannel channel ∧ ¬ GlobMatches mask channel := by
  obtain ⟨c, mem, literal⟩ := exists_literal narrow
  split at mem
  · rename_i body begins
    by_cases again : c = '#'
    · subst again
      exact ⟨"#a", ⟨"a", rfl, by decide⟩, not_matches_hashes begins mem (by decide)⟩
    · have inMask : c ∈ mask.toList := begins ▸ List.mem_cons_of_mem '#' mem
      have other : c.toLower ≠ '#' := fun same => again ((toLower_eq_iff (by decide)).mp same)
      by_cases isA : GlobMatches mask "#a"
      · refine ⟨"#b", ⟨"b", rfl, by decide⟩, fun isB => ?_⟩
        have apart : ∀ d ∈ (toAsciiLowercase "#a").toList, d ≠ '#' → d ∉ (toAsciiLowercase "#b").toList :=
          forall_of_all (by decide)
        exact apart _ (isA.mem inMask literal) other (isB.mem inMask literal)
      · exact ⟨"#a", ⟨"a", rfl, by decide⟩, isA⟩
  · rename_i body begins
    have inMask : '&' ∈ mask.toList := begins ▸ List.mem_cons_self
    refine ⟨"#a", ⟨"a", rfl, by decide⟩, fun isA => ?_⟩
    exact absurd (isA.mem inMask (by decide)) (by decide)
  · rename_i notHash notAmp
    exfalso
    unfold normChannel at normal
    split at normal
    · cases normal
    · rename_i named
      obtain rfl := Option.some.inj normal
      have folded : ∀ {d : Char} {body : List Char}, raw.toList = d :: body →
          (toAsciiLowercase raw).toList = d.toLower :: body.map Char.toLower := by
        intro d body same
        unfold toAsciiLowercase
        rw [String.toList_ofList, same]
        rfl
      refine named (.inl ⟨fun hash => ?_, fun amp => ?_⟩)
      · obtain ⟨body, same⟩ := List.head?_eq_some_iff.mp hash
        exact notHash _ (folded same)
      · obtain ⟨body, same⟩ := List.head?_eq_some_iff.mp amp
        exact notAmp _ (folded same)

end Clients

/-! ### Regexes -/

/-- A character that a line of the network can carry. -/
def Carried (c : Char) : Prop := c ≠ '\n' ∧ c ≠ '\r' ∧ c ≠ '\x00'

/-- Some text that a regex can meet is not matched. -/
def Spares (r : Regex) : Prop := ∃ t : List Char, t ≠ [] ∧ (∀ c ∈ t, Carried c) ∧ r.Misses t

/-- The regex asks for a character, and there is one that is none for it. -/
def Narrow (r : Regex) : Prop := ∃ c, Carried c ∧ r.leavesOut c = true

variable {r : Regex}

theorem Narrow.spares (narrow : Narrow r) : Spares r := by
  obtain ⟨c, carried, out⟩ := narrow
  exact ⟨[c], List.cons_ne_nil c [], List.forall_mem_singleton.mpr carried, Regex.leavesOut_iff.mp out⟩

theorem spares_iff (anchorless : r.anchorless = true) : Spares r ↔ Narrow r := by
  refine ⟨?_, Narrow.spares⟩
  rintro ⟨t, some, carried, misses⟩
  obtain ⟨c, mem⟩ := List.exists_mem_of_ne_nil t some
  exact ⟨c, carried c mem, misses.leavesOut anchorless mem⟩

theorem snline_accepts_iff {mask : String} : snlineXline.Accepts mask ↔ tooWide mask true = false := by
  rw [Xline.accepts_iff]
  refine and_iff_right_of_imp fun narrow => ⟨mask, if_neg fun empty => ?_⟩
  unfold tooWide at narrow
  rw [empty] at narrow
  cases narrow

/-- Where what is let through is told apart by a test of the text, the regexes that are let through
and spare somebody are those that fail the test or are narrow. -/
theorem imp_spares_iff {accepts : Prop} {wide : Bool} (guard : accepts ↔ wide = false) (anchorless : r.anchorless = true) :
    (accepts → Spares r) ↔ wide = true ∨ Narrow r := by
  rw [guard, spares_iff anchorless, ← Bool.not_eq_true]
  tauto

/-- A mask that the guard lets through leaves somebody out, if it is one with wildcards. A regex
does so if it asks for some character and leaves out another; without anchors, only then. -/
theorem guard_sound_iff (mask : String) (r : Regex) :
    (akillXline.Accepts mask ∨ shunXline.Accepts mask → ∃ client : Client, ¬ client.Concerned mask) ∧
      (sqlineXline.Accepts mask → ∃ nick, IsPlain nick ∧ ¬ GlobMatches mask nick) ∧
      (cbanXline.Accepts mask → ∃ channel, IsPlainChannel channel ∧ ¬ GlobMatches mask channel) ∧
      (Narrow r → Spares r) ∧
      (r.anchorless = true →
        ((snlineXline.Accepts r.text → Spares r) ↔ tooWide r.text true = true ∨ Narrow r) ∧
        ((OperServ.AcceptsFilter r.text → Spares r) ↔
          (r.text.toList.all fun c => ".*+?".toList.contains c) = true ∨ Narrow r)) := by
  refine ⟨fun accepts => ?_, fun accepts => ?_, fun accepts => ?_, Narrow.spares, fun free => ?_⟩
  · rcases accepts with accepts | accepts
    · exact exists_spared (Xline.accepts_iff.mp accepts).2
    · exact exists_spared (Xline.accepts_iff.mp accepts).2
  · exact exists_spared_nick (Xline.accepts_iff.mp accepts).2
  · obtain ⟨⟨raw, normal⟩, narrow⟩ := Xline.accepts_iff.mp accepts
    exact exists_spared_channel normal narrow
  · exact ⟨imp_spares_iff snline_accepts_iff free, imp_spares_iff OperServ.acceptsFilter_iff free⟩

/-- Any text, from its beginning to its end. -/
def whole : Regex := .cat .bol (.cat (.rep .any .star) .eol)

theorem repeated_any (before t behind : List Char) : Repeated Regex.any.At t.length before t behind := by
  induction t generalizing before with
  | nil => exact .none
  | cons c t ih =>
      have all : Repeated Regex.any.At (t.length + 1) before ([c] ++ t) behind := .more ⟨c, rfl⟩ (ih _)
      exact all

theorem not_spares_whole : ¬ Spares whole := by
  rintro ⟨t, -, -, misses⟩
  refine misses ⟨[], t, [], by simp, [], t, rfl, ⟨rfl, rfl⟩, t, [], by simp, ?_, rfl, rfl⟩
  exact ⟨t.length, trivial, repeated_any _ _ _⟩

/-- Both commands take a regex that matches everything. -/
theorem everyone_matched :
    (¬ ∀ r : Regex, snlineXline.Accepts r.text → Spares r) ∧ ¬ ∀ r : Regex, OperServ.AcceptsFilter r.text → Spares r := by
  constructor
  · intro spares
    exact not_spares_whole (spares whole (snline_accepts_iff.mpr (by decide)))
  · intro spares
    exact not_spares_whole (spares whole (OperServ.acceptsFilter_iff.mpr (by decide)))

end TooWide

end Echo
