import Echo.Engine.ChanModes
import Echo.Lib.ModeString

/-!
FMODE, the mode change of a channel, as `InspIrcd::parse` reads it: once for the key, once
for the operators and once for the voices, each time with a sign and a place among the
parameters of its own. The letter a scan looks for takes a parameter there whatever the
ircd has advertised of it; of the others the advertised arity decides. Where that agrees,
the scans find what one walk over the letters does.
-/

namespace Echo

open Echo.Lib

/-- What an FMODE comes to. -/
inductive ChannelEvent where
  | channelModeChange (channel modes setter : String)
  | channelKey (channel : String) (key : Option String)
  | channelOp (channel uid : String) (op : Bool)
  | channelVoice (channel uid : String) (voice : Bool)
  deriving DecidableEq, Repr

/-- The kinds of the modes that the ircd has advertised, by letter. -/
abbrev Learned := Char → Option ChanModeKind

/-- Whether a mode takes a parameter: as the ircd advertised it, or else as the static
table has it. -/
def arity (learned : Learned) (c : Char) (adding : Bool) : Bool :=
  match learned c with
  | some kind => kind.takesParam adding
  | none => chanmodeTakesParam c adding

/-! ### The scans -/

structure KeyScan where
  adding : Bool := true
  pi : Nat := 0
  result : Option (Option String) := none

def KeyScan.step (params : List String) (learned : Learned) (scan : KeyScan) (m : Char) : KeyScan :=
  if m = '+' then { scan with adding := true }
  else if m = '-' then { scan with adding := false }
  else if m = 'k' then
    { scan with
      result := some (if scan.adding then params[scan.pi]? else none)
      pi := scan.pi + 1 }
  else if arity learned m scan.adding then { scan with pi := scan.pi + 1 }
  else scan

/-- The key a change sets, or `some none` where it clears it. -/
def scanKey (modes : String) (params : List String) (learned : Learned) : Option (Option String) :=
  (modes.toList.foldl (KeyScan.step params learned) {}).result

structure StatusScan where
  adding : Bool := true
  pi : Nat := 0
  out : List (Bool × String) := []

def StatusScan.step (params : List String) (want : Char) (learned : Learned) (scan : StatusScan)
    (m : Char) : StatusScan :=
  if m = '+' then { scan with adding := true }
  else if m = '-' then { scan with adding := false }
  else if m = want then
    { scan with
      out := scan.out ++ (params[scan.pi]?.map fun p => (scan.adding, p)).toList
      pi := scan.pi + 1 }
  else if arity learned m scan.adding then { scan with pi := scan.pi + 1 }
  else scan

/-- Whom a change gives one status mode, and from whom it takes it. -/
def scanStatus (modes : String) (params : List String) (want : Char) (learned : Learned) :
    List (Bool × String) :=
  (modes.toList.foldl (StatusScan.step params want learned) {}).out

/-- The events of an FMODE that is not of our own making, for a channel. -/
def parseFmode (sid : String) (learned : Learned) (source : Option String) (tokens : List String) :
    List ChannelEvent :=
  match source, tokens[0]?, tokens[2]? with
  | some src, some chan, some modes =>
      if !sid.toList.isPrefixOf src.toList && chan.toList.head? == some '#' then
        let params := tokens.drop 3
        .channelModeChange chan modes src ::
          ((scanKey modes params learned).map fun key => .channelKey chan key).toList
          ++ (scanStatus modes params 'o' learned).map (fun (op, uid) => .channelOp chan uid op)
          ++ (scanStatus modes params 'v' learned).map fun (voice, uid) => .channelVoice chan uid voice
      else []
  | _, _, _ => []

/-! ### One walk -/

/-- The letters of a change with their parameters, read from left to right. -/
def walk (takes : Char → Bool → Bool) (modes : String) (params : List String) :
    List ((Char × Bool) × Option String) :=
  pairUp takes (signed true modes.toList) params

/-- What a walk says of the key: the last of its letters decides. -/
def keyOf (asks : List ((Char × Bool) × Option String)) : Option (Option String) :=
  (asks.filter fun ask => ask.1.1 == 'k').getLast?.map fun ask => if ask.1.2 then ask.2 else none

/-- What a walk says of a status mode: who is given it and who loses it, in order. -/
def statusOf (want : Char) (asks : List ((Char × Bool) × Option String)) : List (Bool × String) :=
  asks.filterMap fun ask => if ask.1.1 = want then ask.2.map fun p => (ask.1.2, p) else none

/-- The events that walks over the letters come to: one for the key, one for the operators
and one for the voices. -/
def walkEvents (key op voice : Char → Bool → Bool) (sid : String) (source : Option String)
    (tokens : List String) : List ChannelEvent :=
  match source, tokens[0]?, tokens[2]? with
  | some src, some chan, some modes =>
      if !sid.toList.isPrefixOf src.toList && chan.toList.head? == some '#' then
        let params := tokens.drop 3
        .channelModeChange chan modes src ::
          ((keyOf (walk key modes params)).map fun key => .channelKey chan key).toList
          ++ (statusOf 'o' (walk op modes params)).map (fun (op, uid) => .channelOp chan uid op)
          ++ (statusOf 'v' (walk voice modes params)).map fun (voice, uid) => .channelVoice chan uid voice
      else []
  | _, _, _ => []

/-- The arity with one letter that always takes a parameter. -/
def always (want : Char) (takes : Char → Bool → Bool) (c : Char) (adding : Bool) : Bool :=
  c == want || takes c adding

section Scans

variable {params : List String} {learned : Learned} {want : Char}

theorem drop_head? (pi : Nat) : (params.drop pi).head? = params[pi]? := List.head?_drop

theorem drop_tail (pi : Nat) : (params.drop pi).tail = params.drop (pi + 1) := List.tail_drop

theorem keyOf_cons (ask : (Char × Bool) × Option String) (asks : List ((Char × Bool) × Option String)) :
    keyOf (ask :: asks) =
      (keyOf asks).or (if ask.1.1 = 'k' then some (if ask.1.2 then ask.2 else none) else none) := by
  unfold keyOf
  by_cases key : ask.1.1 = 'k'
  · rw [List.filter_cons_of_pos (by simpa using key), if_pos key, List.getLast?_cons]
    cases (asks.filter fun ask => ask.1.1 == 'k').getLast? <;> rfl
  · rw [List.filter_cons_of_neg (by simpa using key), if_neg key, Option.or_none]

/-- The scan for the key, from any place on: what the letters that are left say of it goes
before what has been found. -/
theorem foldl_keyScan (letters : List Char) (scan : KeyScan) :
    (letters.foldl (KeyScan.step params learned) scan).result =
      (keyOf (pairUp (always 'k' (arity learned)) (signed scan.adding letters)
        (params.drop scan.pi))).or scan.result := by
  induction letters generalizing scan with
  | nil => rfl
  | cons m letters ih =>
      rw [List.foldl_cons, ih]
      by_cases plus : m = '+'
      · subst plus
        rfl
      · by_cases minus : m = '-'
        · subst minus
          rfl
        · rw [signed_cons plus minus, KeyScan.step, if_neg plus, if_neg minus, pairUp]
          by_cases key : m = 'k'
          · subst key
            have takes : always 'k' (arity learned) 'k' scan.adding = true := rfl
            rw [if_pos rfl, if_pos takes, keyOf_cons, if_pos rfl, drop_head?, drop_tail, Option.or_assoc]
            rfl
          · have same : always 'k' (arity learned) m scan.adding = arity learned m scan.adding := by
              simp [always, key]
            rw [if_neg key]
            dsimp only
            rw [same]
            by_cases takes : arity learned m scan.adding = true
            · rw [if_pos takes, if_pos takes, keyOf_cons, if_neg key, Option.or_none, drop_tail]
            · rw [if_neg takes, if_neg takes, keyOf_cons, if_neg key, Option.or_none]

/-- The scan for the key is a walk in which k always takes a parameter. -/
theorem scanKey_eq (modes : String) :
    scanKey modes params learned = keyOf (walk (always 'k' (arity learned)) modes params) := by
  unfold scanKey
  rw [foldl_keyScan]
  exact Option.or_none

theorem foldl_statusScan (letters : List Char) (scan : StatusScan) :
    (letters.foldl (StatusScan.step params want learned) scan).out =
      scan.out ++ statusOf want (pairUp (always want (arity learned)) (signed scan.adding letters)
        (params.drop scan.pi)) := by
  induction letters generalizing scan with
  | nil => exact (List.append_nil _).symm
  | cons m letters ih =>
      rw [List.foldl_cons, ih]
      by_cases plus : m = '+'
      · subst plus
        rfl
      · by_cases minus : m = '-'
        · subst minus
          rfl
        · rw [signed_cons plus minus, StatusScan.step, if_neg plus, if_neg minus, pairUp]
          by_cases wanted : m = want
          · subst wanted
            have takes : always m (arity learned) m scan.adding = true := by simp [always]
            rw [if_pos rfl, if_pos takes, drop_head?, drop_tail]
            cases params[scan.pi]? <;> simp [statusOf]
          · have same : always want (arity learned) m scan.adding = arity learned m scan.adding := by
              simp [always, wanted]
            rw [if_neg wanted]
            dsimp only
            rw [same]
            by_cases takes : arity learned m scan.adding = true
            · rw [if_pos takes, if_pos takes, drop_tail]
              simp [statusOf, wanted]
            · rw [if_neg takes, if_neg takes]
              simp [statusOf, wanted]

/-- The scan for a status mode is a walk in which that mode always takes a parameter. -/
theorem scanStatus_eq (modes : String) :
    scanStatus modes params want learned = statusOf want (walk (always want (arity learned)) modes params) := by
  unfold scanStatus
  rw [foldl_statusScan]
  rfl

end Scans

/-- The key and the two status modes take a parameter wherever they stand in a change. -/
def Honoured (takes : Char → Bool → Bool) (modes : String) : Prop :=
  ∀ ask ∈ signed true modes.toList, ask.1 = 'k' ∨ ask.1 = 'o' ∨ ask.1 = 'v' → takes ask.1 ask.2 = true

/-- Walks that agree on the letters of a change are the same. -/
theorem walk_congr {takes takes' : Char → Bool → Bool} {modes : String} (params : List String)
    (agree : ∀ ask ∈ signed true modes.toList, takes ask.1 ask.2 = takes' ask.1 ask.2) :
    walk takes modes params = walk takes' modes params := by
  unfold walk
  generalize signed true modes.toList = asks at agree
  induction asks generalizing params with
  | nil => rfl
  | cons ask asks ih =>
      have rest := fun params => ih params fun a mem => agree a (List.mem_cons_of_mem ask mem)
      rw [pairUp, pairUp, agree ask List.mem_cons_self, rest, rest]

theorem walk_always {takes : Char → Bool → Bool} {modes : String} {want : Char}
    (listed : want = 'k' ∨ want = 'o' ∨ want = 'v') (honoured : Honoured takes modes)
    (params : List String) : walk (always want takes) modes params = walk takes modes params := by
  apply walk_congr
  intro ask mem
  by_cases wanted : ask.1 = want
  · subst wanted
    rw [honoured ask mem listed]
    simp [always]
  · simp [always, wanted]

/-- FMODE is read by one walk for the key, the operators and the voices each, in which the
letter that is looked for always takes a parameter. Where the ircd advertises one for k, o
and v, or nothing of them, all three are the walk by its own arities. -/
theorem parseFmode_eq_walkEvents (sid : String) (learned : Learned) (source : Option String)
    (tokens : List String) :
    parseFmode sid learned source tokens =
        walkEvents (always 'k' (arity learned)) (always 'o' (arity learned))
          (always 'v' (arity learned)) sid source tokens ∧
      ((∀ modes, tokens[2]? = some modes → Honoured (arity learned) modes) →
        parseFmode sid learned source tokens =
          walkEvents (arity learned) (arity learned) (arity learned) sid source tokens) := by
  have walks : parseFmode sid learned source tokens =
      walkEvents (always 'k' (arity learned)) (always 'o' (arity learned))
        (always 'v' (arity learned)) sid source tokens := by
    unfold parseFmode walkEvents
    simp only [scanKey_eq, scanStatus_eq]
  refine ⟨walks, fun honoured => ?_⟩
  rw [walks]
  unfold walkEvents
  cases modes : tokens[2]? with
  | none => cases source <;> cases tokens[0]? <;> rfl
  | some m =>
      have agree := honoured m modes
      cases source with
      | none => rfl
      | some src =>
          cases tokens[0]? with
          | none => rfl
          | some chan =>
              dsimp only
              rw [walk_always (.inl rfl) agree, walk_always (.inr (.inl rfl)) agree,
                walk_always (.inr (.inr rfl)) agree]

/-- An ircd with a filter list and a key, and a change that fills the one, gives op and
sets the other. -/
def filtering : Learned := fun c =>
  if c = 'g' then some .list else if c = 'k' then some .paramAlways else none

theorem filtering_walked :
    parseFmode "42S" filtering (some "0IR") ["#chan", "1783845132", "+gok", "badword", "0IRAAAAAB", "x"] =
      walkEvents (arity filtering) (arity filtering) (arity filtering) "42S" (some "0IR")
        ["#chan", "1783845132", "+gok", "badword", "0IRAAAAAB", "x"] :=
  (parseFmode_eq_walkEvents "42S" filtering (some "0IR")
    ["#chan", "1783845132", "+gok", "badword", "0IRAAAAAB", "x"]).2 fun modes here => by
      cases here
      exact forall_of_all (by decide)

/-- An ircd that unsets a key without a parameter. -/
def keySet : Learned := fun c => if c = 'k' then some .paramSet else none

/-- `-k+k x` sets the key to x there, and the scan finds no key. -/
theorem keySet_misread :
    parseFmode "42S" keySet (some "0IR") ["#chan", "1", "-k+k", "x"] =
        [.channelModeChange "#chan" "-k+k" "0IR", .channelKey "#chan" none] ∧
      walkEvents (arity keySet) (arity keySet) (arity keySet) "42S" (some "0IR")
          ["#chan", "1", "-k+k", "x"] =
        [.channelModeChange "#chan" "-k+k" "0IR", .channelKey "#chan" (some "x")] := by
  decide +kernel

end Echo
