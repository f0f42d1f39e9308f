import Echo.Db.File
import Echo.Engine.ModeLock
import Echo.Engine.Statuses
import Echo.Lib.ModeString

/-!
The mode lock as text. What MLOCK shows of a lock is what it would take to set it again.
A lock that is applied or brought back, and the status modes given to a user, are written
with their parameters, and it is only for `f` and `j` that a lock keeps one: the others
that take a parameter go out without it.
-/

namespace Echo

open Echo.Lib

/-- The arguments of a command, as the dispatcher takes them from its text. -/
def arguments (text : String) : List String := (words isWhitespace text.toList).map String.ofList

namespace ChannelInfo

variable (c : ChannelInfo)

/-- The channel with the lock set. -/
def withLock (lock : String × String × List (Char × String)) : ChannelInfo :=
  { c with lockOn := lock.1, lockOff := lock.2.1, lockParams := lock.2.2 }

/-- The lock as MLOCK shows it. -/
def showMlock : String :=
  String.ofList ((if c.lockOn.toList.isEmpty then [] else '+' :: c.lockOn.toList)
    ++ (if c.lockOff.toList.isEmpty then [] else '-' :: c.lockOff.toList)
    ++ c.lockParams.flatMap fun p => ' ' :: p.2.toList)

end ChannelInfo

/-- A parameter is a word of the command. -/
def IsArgument (p : String) : Prop := p.toList ≠ [] ∧ ∀ a ∈ p.toList, isWhitespace a = false

theorem isArgument_of_mem_arguments {text p : String} (mem : p ∈ arguments text) : IsArgument p := by
  obtain ⟨w, word, rfl⟩ := List.mem_map.mp mem
  unfold IsArgument
  rw [String.toList_ofList]
  exact mem_words word

theorem IsArgument.no_space {p : String} (word : IsArgument p) : ∀ a ∈ p.toList, (a == ' ') = false := by
  intro a mem
  rw [beq_eq_false_iff_ne]
  rintro rfl
  exact absurd (word.2 ' ' mem) (by decide)

/-! ### What is stored -/

namespace MlockScan

variable {scan : MlockScan} {m : Char}

/-- What the arguments read so far have come to: each mode is listed once, and the
parameters stand in the order of the modes they are for. -/
structure Aligned (scan : MlockScan) : Prop extends scan.Sound where
  onNodup : scan.on.Nodup
  offNodup : scan.off.Nodup
  onLetter : ∀ m ∈ scan.on, m.isAlpha
  offLetter : ∀ m ∈ scan.off, m.isAlpha
  aligned : scan.params.map (·.1) = scan.on.filter isParamMode
  words : ∀ p ∈ scan.params, IsArgument p.2
  restWords : ∀ p ∈ scan.rest, IsArgument p

theorem Aligned.without (aligned : scan.Aligned) (m : Char) : (scan.without m).Aligned where
  toSound := aligned.toSound.without m
  onNodup := aligned.onNodup.filter _
  offNodup := aligned.offNodup.filter _
  onLetter x on := aligned.onLetter x (List.mem_filter.mp on).1
  offLetter x off := aligned.offLetter x (List.mem_filter.mp off).1
  aligned := by
    have swap : (scan.on.filter (· ≠ m)).filter isParamMode =
        (scan.on.filter isParamMode).filter (· ≠ m) := by
      rw [List.filter_filter, List.filter_filter]
      exact List.filter_congr fun x _ => Bool.and_comm _ _
    change (scan.params.filter _).map _ = _
    rw [MlockScan.without, swap, ← aligned.aligned, List.filter_map]
    rfl
  words p mem := aligned.words p (List.mem_filter.mp mem).1
  restWords := aligned.restWords

theorem onFree : m ∉ (scan.without m).on := by simp [MlockScan.without]

theorem offFree : m ∉ (scan.without m).off := by simp [MlockScan.without]

theorem Aligned.step (aligned : scan.Aligned) (m : Char) : (scan.step m).Aligned := by
  have sound := aligned.toSound.step m
  have kept := aligned.without m
  unfold MlockScan.step at sound ⊢
  split_ifs at sound ⊢ with plus minus r alpha adding param
  · exact { aligned with toSound := sound }
  · exact { aligned with toSound := sound }
  · exact aligned
  · cases rest : scan.rest with
    | nil => exact kept
    | cons p rest' =>
        rw [rest] at sound
        have given : ∀ q ∈ p :: rest', IsArgument q := rest ▸ aligned.restWords
        constructor
        · exact sound
        · exact by simpa using kept.onNodup.concat onFree
        · exact kept.offNodup
        · intro x on
          rcases List.mem_append.mp on with held | new
          · exact kept.onLetter x held
          · exact List.mem_singleton.mp new ▸ alpha
        · exact kept.offLetter
        · change List.map _ (_ ++ _) = List.filter _ (_ ++ _)
          rw [List.map_append, List.filter_append, kept.aligned]
          simp [param]
        · intro q mem
          rcases List.mem_append.mp mem with held | new
          · exact kept.words q held
          · cases List.mem_singleton.mp new
            exact given p List.mem_cons_self
        · exact fun q mem => given q (List.mem_cons_of_mem p mem)
  · constructor
    · exact sound
    · exact by simpa using kept.onNodup.concat onFree
    · exact kept.offNodup
    · intro x on
      rcases List.mem_append.mp on with held | new
      · exact kept.onLetter x held
      · exact List.mem_singleton.mp new ▸ alpha
    · exact kept.offLetter
    · change List.map _ _ = List.filter _ (_ ++ _)
      rw [List.filter_append, kept.aligned]
      simp [param]
    · exact kept.words
    · exact kept.restWords
  · constructor
    · exact sound
    · exact kept.onNodup
    · exact by simpa using kept.offNodup.concat offFree
    · exact kept.onLetter
    · intro x off
      rcases List.mem_append.mp off with held | new
      · exact kept.offLetter x held
      · exact List.mem_singleton.mp new ▸ alpha
    · exact kept.aligned
    · exact kept.words
    · exact kept.restWords
  · exact aligned

theorem Aligned.run {letters : List Char} (aligned : scan.Aligned) :
    (letters.foldl MlockScan.step scan).Aligned := by
  induction letters generalizing scan with
  | nil => exact aligned
  | cons m letters ih => exact ih (aligned.step m)

end MlockScan

/-- The state in which MLOCK has read its arguments. -/
def mlockScan (tokens : List String) : MlockScan :=
  (tokens.headD "").toList.foldl MlockScan.step { rest := tokens.tail }

theorem parseMlock_eq (tokens : List String) :
    parseMlock tokens = (String.ofList (mlockScan tokens).on, String.ofList (mlockScan tokens).off,
      (mlockScan tokens).params) := rfl

theorem mlockScan_aligned (text : String) : (mlockScan (arguments text)).Aligned := by
  apply MlockScan.Aligned.run
  refine ⟨⟨by simp, by simp, by simp⟩, List.nodup_nil, List.nodup_nil, by simp, by simp, rfl, by simp, ?_⟩
  exact fun p mem => isArgument_of_mem_arguments (List.mem_of_mem_tail mem)

/-! ### What is shown -/

theorem ne_sign {m : Char} (alpha : m.isAlpha) : m ≠ '+' ∧ m ≠ '-' :=
  ⟨fun same => absurd alpha (same ▸ by decide), fun same => absurd alpha (same ▸ by decide)⟩

namespace MlockScan

variable {scan : MlockScan} {m : Char}

/-- Nothing is withdrawn of a mode that was not asked for. -/
theorem without_fresh (on : m ∉ scan.on) (off : m ∉ scan.off) (params : m ∉ scan.params.map (·.1)) :
    scan.without m = scan := by
  have onSame : scan.on.filter (· ≠ m) = scan.on :=
    List.filter_eq_self.mpr fun x mem => decide_eq_true (ne_of_mem_of_not_mem mem on)
  have offSame : scan.off.filter (· ≠ m) = scan.off :=
    List.filter_eq_self.mpr fun x mem => decide_eq_true (ne_of_mem_of_not_mem mem off)
  have paramsSame : scan.params.filter (·.1 ≠ m) = scan.params :=
    List.filter_eq_self.mpr fun p mem =>
      decide_eq_true (ne_of_mem_of_not_mem (List.mem_map_of_mem mem) params)
  rw [without, onSame, offSame, paramsSame]

theorem step_letter (alpha : m.isAlpha) (r : m ≠ 'r') (fresh : scan.without m = scan) :
    scan.step m =
      if scan.adding then
        if isParamMode m then
          match scan.rest with
          | p :: rest =>
              { scan with on := scan.on ++ [m], params := scan.params ++ [(m, p)], rest }
          | [] => scan
        else { scan with on := scan.on ++ [m] }
      else { scan with off := scan.off ++ [m] } := by
  obtain ⟨plus, minus⟩ := ne_sign alpha
  rw [step, if_neg plus, if_neg minus, if_neg r, if_pos alpha]
  generalize scan.without m = kept at fresh
  subst fresh
  rfl

/-- The modes kept on, read again with their parameters. -/
theorem run_on {on : List Char} {params : List (Char × String)} {before : List Char}
    {held : List (Char × String)} {rest : List String}
    (letters : ∀ m ∈ on, m.isAlpha ∧ m ≠ 'r') (distinct : (before ++ on).Nodup)
    (keys : ∀ p ∈ held, p.1 ∈ before) (aligned : params.map (·.1) = on.filter isParamMode) :
    on.foldl step ⟨before, [], held, true, params.map (·.2) ++ rest⟩ =
      ⟨before ++ on, [], held ++ params, true, rest⟩ := by
  induction on generalizing params before held with
  | nil =>
      have none : params = [] := List.map_eq_nil_iff.mp aligned
      subst none
      simp
  | cons m on ih =>
      obtain ⟨alpha, r⟩ := letters m List.mem_cons_self
      have others := fun x mem => letters x (List.mem_cons_of_mem m mem)
      have distinct' : (before ++ [m] ++ on).Nodup := by simpa using distinct
      have new : m ∉ before := by
        intro mem
        exact (List.nodup_append.mp distinct).2.2 m mem m List.mem_cons_self rfl
      have unkeyed : m ∉ held.map (·.1) := by
        intro mem
        obtain ⟨p, listed, rfl⟩ := List.mem_map.mp mem
        exact new (keys p listed)
      have fresh : (without ⟨before, [], held, true, params.map (·.2) ++ rest⟩ m) =
          ⟨before, [], held, true, params.map (·.2) ++ rest⟩ :=
        without_fresh new (by simp) unkeyed
      rw [List.foldl_cons, step_letter alpha r fresh]
      by_cases param : isParamMode m
      · rw [List.filter_cons_of_pos param] at aligned
        cases params with
        | nil => cases aligned
        | cons p params =>
            obtain ⟨rfl, rest'⟩ := List.cons.inj aligned
            have keys' : ∀ q ∈ held ++ [p], q.1 ∈ before ++ [p.1] := by
              intro q mem
              rcases List.mem_append.mp mem with old | here
              · exact List.mem_append_left _ (keys q old)
              · cases List.mem_singleton.mp here
                simp
            have later := ih others distinct' keys' rest'
            simpa [param] using later
      · rw [List.filter_cons_of_neg param] at aligned
        have keys' : ∀ q ∈ held, q.1 ∈ before ++ [m] :=
          fun q mem => List.mem_append_left _ (keys q mem)
        have later := ih others distinct' keys' aligned
        simpa [param] using later

/-- The modes kept off, read again. -/
theorem run_off {off before on : List Char} {held : List (Char × String)} {rest : List String}
    (letters : ∀ m ∈ off, m.isAlpha ∧ m ≠ 'r') (distinct : (before ++ off).Nodup)
    (apart : ∀ m ∈ on, m ∉ off) (keys : ∀ p ∈ held, p.1 ∈ on) :
    off.foldl step ⟨on, before, held, false, rest⟩ = ⟨on, before ++ off, held, false, rest⟩ := by
  induction off generalizing before with
  | nil => simp
  | cons m off ih =>
      obtain ⟨alpha, r⟩ := letters m List.mem_cons_self
      have notOn : m ∉ on := fun mem => apart m mem List.mem_cons_self
      have new : m ∉ before := by
        intro mem
        exact (List.nodup_append.mp distinct).2.2 m mem m List.mem_cons_self rfl
      have unkeyed : m ∉ held.map (·.1) := by
        intro mem
        obtain ⟨p, listed, rfl⟩ := List.mem_map.mp mem
        exact notOn (keys p listed)
      have fresh : without ⟨on, before, held, false, rest⟩ m = ⟨on, before, held, false, rest⟩ :=
        without_fresh notOn new unkeyed
      have later := @ih (before ++ [m]) (fun x mem => letters x (List.mem_cons_of_mem m mem))
        (by simpa using distinct) (fun x on off => apart x on (List.mem_cons_of_mem m off))
      rw [List.foldl_cons, step_letter alpha r fresh, if_neg (by simp), later]
      simp

theorem Aligned.keys (aligned : scan.Aligned) : ∀ p ∈ scan.params, p.1 ∈ scan.on := by
  intro p mem
  have key : p.1 ∈ scan.params.map (·.1) := List.mem_map_of_mem mem
  rw [aligned.aligned] at key
  exact (List.mem_filter.mp key).1

theorem Aligned.not_r (aligned : scan.Aligned) :
    (∀ m ∈ scan.on, m.isAlpha ∧ m ≠ 'r') ∧ ∀ m ∈ scan.off, m.isAlpha ∧ m ≠ 'r' :=
  ⟨fun m on => ⟨aligned.onLetter m on, ne_of_mem_of_not_mem on aligned.free.1⟩,
    fun m off => ⟨aligned.offLetter m off, ne_of_mem_of_not_mem off aligned.free.2⟩⟩

/-- The letters of a lock, each list under its sign. -/
def shown (scan : MlockScan) : List Char :=
  (if scan.on.isEmpty then [] else '+' :: scan.on) ++ (if scan.off.isEmpty then [] else '-' :: scan.off)

theorem shown_solid (letters : (∀ m ∈ scan.on, m.isAlpha) ∧ ∀ m ∈ scan.off, m.isAlpha) {a : Char}
    (mem : a ∈ scan.shown) : a = '+' ∨ a = '-' ∨ a.isAlpha := by
  rcases List.mem_append.mp mem with on | off
  · split_ifs at on
    · cases on
    · rcases List.mem_cons.mp on with rfl | held
      · exact .inl rfl
      · exact .inr (.inr (letters.1 a held))
  · split_ifs at off
    · cases off
    · rcases List.mem_cons.mp off with rfl | held
      · exact .inr (.inl rfl)
      · exact .inr (.inr (letters.2 a held))

theorem run_shown (aligned : scan.Aligned) :
    scan.shown.foldl step { rest := scan.params.map (·.2) } =
      { scan with adding := scan.off.isEmpty, rest := [] } := by
  obtain ⟨on, off⟩ := aligned.not_r
  have kept : scan.on.foldl step ⟨[], [], [], true, scan.params.map (·.2)⟩ =
      ⟨scan.on, [], scan.params, true, []⟩ := by
    have read : scan.on.foldl step ⟨[], [], [], true, scan.params.map (·.2) ++ []⟩ =
        ⟨[] ++ scan.on, [], [] ++ scan.params, true, []⟩ :=
      run_on on aligned.onNodup (by simp) aligned.aligned
    simpa using read
  have front : (if scan.on.isEmpty then [] else '+' :: scan.on).foldl step
      ⟨[], [], [], true, scan.params.map (·.2)⟩ = ⟨scan.on, [], scan.params, true, []⟩ := by
    split_ifs with none
    · rw [List.isEmpty_iff.mp none] at kept ⊢
      exact kept
    · exact kept
  rw [shown, List.foldl_append, front]
  split_ifs with none
  · rw [List.isEmpty_iff.mp none]
    rfl
  · have turned : step ⟨scan.on, [], scan.params, true, []⟩ '-' =
        ⟨scan.on, [], scan.params, false, []⟩ := rfl
    have read : scan.off.foldl step ⟨scan.on, [], scan.params, false, []⟩ =
        ⟨scan.on, [] ++ scan.off, scan.params, false, []⟩ :=
      run_off off aligned.offNodup aligned.apart aligned.keys
    rw [List.foldl_cons, turned, read]
    simp [none]

end MlockScan

/-- The words of what is shown: the letters, then the parameters. -/
theorem arguments_shown {scan : MlockScan} (aligned : scan.Aligned) (some : scan.shown ≠ []) :
    arguments (String.ofList (scan.shown ++ scan.params.flatMap fun p => ' ' :: p.2.toList)) =
      String.ofList scan.shown :: scan.params.map (·.2) := by
  have solid : ∀ a ∈ scan.shown, isWhitespace a = false := by
    intro a mem
    rcases MlockScan.shown_solid ⟨aligned.onLetter, aligned.offLetter⟩ mem with rfl | rfl | alpha
    · rfl
    · rfl
    · exact isWhitespace_of_alphanum (by simp [Char.isAlphanum, alpha])
  have spelled : scan.params.flatMap (fun p => ' ' :: p.2.toList) =
      (scan.params.map fun p => p.2.toList).flatMap (' ' :: ·) := by
    rw [List.flatMap_map]
  have split : words isWhitespace
      (scan.shown ++ (scan.params.map fun p => p.2.toList).flatMap (' ' :: ·)) =
        scan.shown :: scan.params.map fun p => p.2.toList := words_flatMap rfl some solid
    (by
      intro w mem
      obtain ⟨p, listed, rfl⟩ := List.mem_map.mp mem
      exact (aligned.words p listed).1)
    (by
      intro w mem
      obtain ⟨p, listed, rfl⟩ := List.mem_map.mp mem
      exact (aligned.words p listed).2)
  rw [arguments, String.toList_ofList, spelled, split]
  simp

/-- Shown and set again, a lock is what it was: the same modes on and off and the same
parameters, in the same order. -/
theorem parseMlock_showMlock (c : ChannelInfo) (text : String) :
    parseMlock (arguments (c.withLock (parseMlock (arguments text))).showMlock) =
      parseMlock (arguments text) := by
  have aligned := mlockScan_aligned text
  rw [parseMlock_eq (arguments text)]
  generalize mlockScan (arguments text) = scan at aligned
  have spelled : (c.withLock (String.ofList scan.on, String.ofList scan.off, scan.params)).showMlock =
      String.ofList (scan.shown ++ scan.params.flatMap fun p => ' ' :: p.2.toList) := by
    simp [ChannelInfo.showMlock, ChannelInfo.withLock, MlockScan.shown]
  rw [spelled]
  by_cases none : scan.shown = []
  · have onNone : scan.on = [] := by
      cases on : scan.on with
      | nil => rfl
      | cons => simp [MlockScan.shown, on] at none
    have offNone : scan.off = [] := by
      cases off : scan.off with
      | nil => rfl
      | cons => simp [MlockScan.shown, off] at none
    have paramsNone : scan.params = [] := by
      have keys := aligned.aligned
      rw [onNone, List.filter_nil] at keys
      exact List.map_eq_nil_iff.mp keys
    rw [none, onNone, offNone, paramsNone]
    decide
  · rw [arguments_shown aligned none, parseMlock_eq]
    have read : mlockScan (String.ofList scan.shown :: scan.params.map (·.2)) =
        { scan with adding := scan.off.isEmpty, rest := [] } := by
      have run := MlockScan.run_shown aligned
      unfold mlockScan
      rw [List.headD_cons, String.toList_ofList, List.tail_cons]
      exact run
    rw [read]

/-! ### What was asked of each mode last -/

/-- What MLOCK reads of its arguments: each letter with its sign, and those that are set
with a parameter with the next of them. -/
def mlockAsks (tokens : List String) : List ((Char × Bool) × Option String) :=
  pairUp (fun m adding => adding && isParamMode m)
    ((signed true (tokens.headD "").toList).filter fun ask => ask.1.isAlpha && ask.1 != 'r')
    tokens.tail

def lastAsk (asks : List ((Char × Bool) × Option String)) (m : Char) :
    Option ((Char × Bool) × Option String) :=
  (asks.filter fun ask => ask.1.1 == m).getLast?

theorem lastAsk_concat {asks : List ((Char × Bool) × Option String)}
    {ask : (Char × Bool) × Option String} {m : Char} :
    lastAsk (asks ++ [ask]) m = if ask.1.1 = m then some ask else lastAsk asks m := by
  unfold lastAsk
  rw [List.filter_append]
  by_cases same : ask.1.1 = m
  · rw [if_pos same, List.filter_cons_of_pos (by simpa using same), List.filter_nil,
      List.getLast?_concat]
  · rw [if_neg same, List.filter_cons_of_neg (by simpa using same), List.filter_nil, List.append_nil]

theorem lastAsk_mem {asks : List ((Char × Bool) × Option String)} {ask : (Char × Bool) × Option String}
    {m : Char} (last : lastAsk asks m = some ask) : ask ∈ asks ∧ ask.1.1 = m := by
  have listed := List.mem_filter.mp (List.mem_of_getLast? last)
  exact ⟨listed.1, by simpa using listed.2⟩

namespace MlockScan

variable {scan : MlockScan} {asks : List ((Char × Bool) × Option String)}

/-- A mode is kept on where it was last asked for with the parameter it wants, and kept off
where it was last taken away. -/
structure Reads (asks : List ((Char × Bool) × Option String)) (scan : MlockScan) : Prop where
  on : ∀ m, m ∈ scan.on ↔ ∃ p, lastAsk asks m = some ((m, true), p) ∧ p.isSome = isParamMode m
  off : ∀ m, m ∈ scan.off ↔ lastAsk asks m = some ((m, false), none)
  paired : ∀ ask ∈ asks, ask.2.isSome → ask.1.2 = true ∧ isParamMode ask.1.1 = true

/-- The parameter that the next letter is read with. -/
def next (scan : MlockScan) (m : Char) : Option String :=
  if scan.adding && isParamMode m then scan.rest.head? else none

theorem Reads.step (reads : Reads asks scan) {m : Char} (alpha : m.isAlpha) (r : m ≠ 'r') :
    Reads (asks ++ [((m, scan.adding), scan.next m)]) (scan.step m) := by
  obtain ⟨plus, minus⟩ := ne_sign alpha
  have stepped : ∀ x, (x ∈ (scan.step m).on ↔
        if m = x then scan.adding = true ∧ (scan.next m).isSome = isParamMode m else x ∈ scan.on) ∧
      (x ∈ (scan.step m).off ↔ if m = x then scan.adding = false else x ∈ scan.off) := by
    intro x
    rw [MlockScan.step, if_neg plus, if_neg minus, if_neg r, if_pos alpha]
    by_cases same : m = x
    · subst same
      cases adding : scan.adding with
      | false => simp [without]
      | true =>
          by_cases param : isParamMode m
          · cases rest : scan.rest with
            | nil => simp [without, param, next, adding, rest]
            | cons p rest' => simp [without, param, next, adding, rest]
          · simp [without, param, next]
    · have same' : x ≠ m := Ne.symm same
      cases adding : scan.adding with
      | false => simp [without, same, same']
      | true =>
          by_cases param : isParamMode m
          · cases rest : scan.rest with
            | nil => simp [without, param, same, same']
            | cons p rest' => simp [without, param, same, same']
          · simp [without, param, same, same']
  constructor
  · intro x
    rw [(stepped x).1, lastAsk_concat]
    by_cases same : m = x
    · subst same
      simp
    · rw [if_neg same, if_neg same]
      exact reads.on x
  · intro x
    rw [(stepped x).2, lastAsk_concat]
    by_cases same : m = x
    · subst same
      cases adding : scan.adding <;> simp [next, adding]
    · rw [if_neg same, if_neg same]
      exact reads.off x
  · intro ask mem
    rcases List.mem_append.mp mem with old | new
    · exact reads.paired ask old
    · cases List.mem_singleton.mp new
      unfold next
      split_ifs with wants
      · exact fun _ => Bool.and_eq_true_iff.mp wants
      · simp

theorem rest_step {m : Char} (alpha : m.isAlpha) (r : m ≠ 'r') :
    (scan.step m).rest = if scan.adding && isParamMode m then scan.rest.tail else scan.rest := by
  obtain ⟨plus, minus⟩ := ne_sign alpha
  rw [MlockScan.step, if_neg plus, if_neg minus, if_neg r, if_pos alpha]
  cases adding : scan.adding with
  | false => simp [without]
  | true =>
      by_cases param : isParamMode m
      · cases rest : scan.rest <;> simp [without, param, rest]
      · simp [without, param]

theorem adding_step {m : Char} (alpha : m.isAlpha) : (scan.step m).adding = scan.adding := by
  obtain ⟨plus, minus⟩ := ne_sign alpha
  rw [MlockScan.step, if_neg plus, if_neg minus]
  split_ifs
  · rfl
  · cases scan.rest <;> rfl
  · rfl
  · rfl

theorem Reads.run {letters : List Char} (reads : Reads asks scan) :
    Reads (asks ++ pairUp (fun m adding => adding && isParamMode m)
        ((signed scan.adding letters).filter fun ask => ask.1.isAlpha && ask.1 != 'r') scan.rest)
      (letters.foldl MlockScan.step scan) := by
  induction letters generalizing scan asks with
  | nil => simpa [signed, pairUp] using reads
  | cons m letters ih =>
      rw [List.foldl_cons]
      by_cases plus : m = '+'
      · subst plus
        have turned : Reads asks { scan with adding := true } := ⟨reads.on, reads.off, reads.paired⟩
        exact ih turned
      · by_cases minus : m = '-'
        · subst minus
          have turned : Reads asks { scan with adding := false } := ⟨reads.on, reads.off, reads.paired⟩
          exact ih turned
        · rw [signed_cons plus minus]
          by_cases relevant : (m.isAlpha && m != 'r') = true
          · rw [List.filter_cons_of_pos (by simpa using relevant)]
            rw [Bool.and_eq_true, bne_iff_ne] at relevant
            have later := ih (reads.step relevant.1 relevant.2)
            rw [adding_step relevant.1, rest_step relevant.1 relevant.2, List.append_assoc] at later
            unfold next at later
            unfold pairUp
            by_cases wants : (scan.adding && isParamMode m) = true
            · rw [if_pos wants, if_pos wants] at later
              rw [if_pos wants]
              exact later
            · rw [if_neg wants, if_neg wants] at later
              rw [if_neg wants]
              exact later
          · rw [List.filter_cons_of_neg (by simpa using relevant)]
            have still : scan.step m = scan := by
              rw [MlockScan.step, if_neg plus, if_neg minus]
              split_ifs with r alpha
              · rfl
              · simp [r, alpha] at relevant
              · simp [r, alpha] at relevant
              · simp [r, alpha] at relevant
              · rfl
            rw [still]
            exact ih reads

end MlockScan

theorem mlockScan_reads (tokens : List String) : (mlockScan tokens).Reads (mlockAsks tokens) := by
  have start : MlockScan.Reads [] { rest := tokens.tail } :=
    ⟨by simp [lastAsk], by simp [lastAsk], by simp⟩
  exact start.run

/-! ### Strings with their parameters -/

/-- A mode change carries exactly one parameter for each letter that takes one, the one
meant for it, in the order of the letters. -/
def CarriesParams (takes : Char → Bool → Bool) (meant : Char → Option String) (text : String) : Prop :=
  match words (· == ' ') text.toList with
  | [] => False
  | letters :: params => (wanting takes letters).map meant = params.map fun p => some (String.ofList p)

instance {takes : Char → Bool → Bool} {meant : Char → Option String} {text : String} :
    Decidable (CarriesParams takes meant text) := by
  unfold CarriesParams
  split
  · infer_instance
  · infer_instance

section Carries

variable {takes : Char → Bool → Bool} {meant : Char → Option String} {letters : List Char}

/-- What is written out as letters and parameters is read so. -/
theorem carriesParams_iff {params : List String} (begun : letters ≠ [])
    (solid : ∀ a ∈ letters, (a == ' ') = false)
    (words' : ∀ p ∈ params, p.toList ≠ [] ∧ ∀ a ∈ p.toList, (a == ' ') = false) :
    CarriesParams takes meant (String.ofList (letters ++ params.flatMap fun p => ' ' :: p.toList)) ↔
      (wanting takes letters).map meant = params.map some := by
  have spelled : params.flatMap (fun p => ' ' :: p.toList) =
      (params.map String.toList).flatMap (' ' :: ·) := by
    rw [List.flatMap_map]
  have split : words (· == ' ') (letters ++ (params.map String.toList).flatMap (' ' :: ·)) =
      letters :: params.map String.toList := words_flatMap rfl begun solid
    (by
      intro w mem
      obtain ⟨p, listed, rfl⟩ := List.mem_map.mp mem
      exact (words' p listed).1)
    (by
      intro w mem
      obtain ⟨p, listed, rfl⟩ := List.mem_map.mp mem
      exact (words' p listed).2)
  unfold CarriesParams
  rw [String.toList_ofList, spelled, split]
  simp [Function.comp_def]

theorem sign_notMem (alpha : ∀ m ∈ letters, m.isAlpha) : '+' ∉ letters ∧ '-' ∉ letters :=
  ⟨fun mem => absurd (alpha '+' mem) (by decide), fun mem => absurd (alpha '-' mem) (by decide)⟩

theorem space_notMem (alpha : ∀ m ∈ letters, m.isAlpha) : ∀ a ∈ letters, (a == ' ') = false := by
  intro a mem
  rw [beq_eq_false_iff_ne]
  rintro rfl
  exact absurd (alpha ' ' mem) (by decide)

/-- The modes of a lock written out, those set with what they are locked with. -/
theorem revert_carries_iff {c : ChannelInfo} {scan : LockScan} (begun : ¬ (scan.readd = [] ∧ scan.reremove = []))
    (onAlpha : ∀ m ∈ scan.readd, m.isAlpha) (offAlpha : ∀ m ∈ scan.reremove, m.isAlpha)
    (bare : ∀ m ∈ scan.reremove, c.lockParam m = none)
    (words' : ∀ m p, c.lockParam m = some p → IsArgument p) :
    CarriesParams takes c.lockParam (String.ofList (c.revert scan)) ↔
      (∀ m ∈ scan.readd, takes m true = (c.lockParam m).isSome) ∧
        ∀ m ∈ scan.reremove, takes m false = false := by
  have params : (scan.readd.flatMap fun ch => (c.lockParam ch).elim [] fun p => ' ' :: p.toList) =
      (scan.readd.filterMap c.lockParam).flatMap fun p => ' ' :: p.toList := by
    induction scan.readd with
    | nil => rfl
    | cons m on ih =>
        cases value : c.lockParam m with
        | none => rw [List.flatMap_cons, value, List.filterMap_cons_none value, ih]; rfl
        | some p => rw [List.flatMap_cons, value, List.filterMap_cons_some value, ih]; rfl
  obtain ⟨onPlus, onMinus⟩ := sign_notMem onAlpha
  obtain ⟨offPlus, offMinus⟩ := sign_notMem offAlpha
  have wants : wanting takes ((if scan.readd.isEmpty then [] else '+' :: scan.readd)
      ++ if scan.reremove.isEmpty then [] else '-' :: scan.reremove) =
        scan.readd.filter (takes · true) ++ scan.reremove.filter (takes · false) := by
    unfold wanting
    rw [signed_both onPlus onMinus offPlus offMinus, List.filter_append, List.map_append,
      List.filter_map, List.filter_map, List.map_map, List.map_map]
    simp [Function.comp_def]
  rw [ChannelInfo.revert, params, carriesParams_iff, wants]
  · exact map_wanting_iff bare
  · intro none
    apply begun
    cases readd : scan.readd <;> cases reremove : scan.reremove <;> simp_all
  · intro a mem
    rcases List.mem_append.mp mem with on | off
    · split_ifs at on
      · cases on
      · rcases List.mem_cons.mp on with rfl | held
        · rfl
        · exact space_notMem onAlpha a held
    · split_ifs at off
      · cases off
      · rcases List.mem_cons.mp off with rfl | held
        · rfl
        · exact space_notMem offAlpha a held
  · intro p mem
    obtain ⟨m, _, value⟩ := List.mem_filterMap.mp mem
    exact ⟨(words' m p value).1, (words' m p value).no_space⟩

/-- The status modes given to one user or taken from them. -/
theorem statusMode_carries_iff {sign : Char} (isSign : sign = '+' ∨ sign = '-')
    (alpha : ∀ m ∈ letters, m.isAlpha) (target : Param) :
    CarriesParams takes (fun _ => some target.text)
        (statusMode (String.ofList (sign :: letters)) target.text) ↔
      ∀ m ∈ letters, takes m (sign == '+') = true := by
  have named : (sign :: letters).filter Char.isAlpha = letters := by
    have out : ¬ sign.isAlpha = true := by rcases isSign with rfl | rfl <;> decide
    rw [List.filter_cons_of_neg out]
    exact List.filter_eq_self.mpr alpha
  have spelled : statusMode (String.ofList (sign :: letters)) target.text =
      String.ofList ((sign :: letters) ++
        (letters.map fun _ => target.text).flatMap fun p => ' ' :: p.toList) := by
    apply String.toList_inj.mp
    rw [statusMode_toList, String.toList_ofList, String.toList_ofList, named, List.flatMap_map]
  have repeated : (letters.map fun _ => target.text) = letters.filterMap fun _ => some target.text := by
    rw [← List.filterMap_eq_map]
    rfl
  have wants : wanting takes (sign :: letters) = letters.filter (takes · (sign == '+')) := by
    obtain ⟨plus, minus⟩ := sign_notMem alpha
    unfold wanting
    rcases isSign with rfl | rfl
    · rw [signed_plus, signed_letters plus minus, List.filter_map, List.map_map]
      simp [Function.comp_def]
    · rw [signed_minus, signed_letters plus minus, List.filter_map, List.map_map]
      simp [Function.comp_def]
  rw [spelled, carriesParams_iff, wants, repeated, map_filter_eq_iff]
  · simp
  · simp
  · intro a mem
    rcases List.mem_cons.mp mem with rfl | held
    · rcases isSign with rfl | rfl <;> rfl
    · exact space_notMem alpha a held
  · intro p mem
    obtain ⟨_, _, rfl⟩ := List.mem_map.mp mem
    exact ⟨target.ne_nil, target.ne_blank⟩

end Carries

/-! ### Where a lock is well formed -/

/-- The changes of status modes that services make. -/
def statusChanges : List String := autoModes ++ ["-qaohv"]

/-- The lock lists each mode once and leaves r alone, and whatever is sent of it carries
its parameters; so do the status modes. -/
structure ChannelInfo.WellLocked (takes : Char → Bool → Bool) (c : ChannelInfo) : Prop where
  onNodup : c.lockOn.toList.Nodup
  offNodup : c.lockOff.toList.Nodup
  apart : ∀ m ∈ c.lockOn.toList, m ∉ c.lockOff.toList
  free : 'r' ∉ c.lockOn.toList ∧ 'r' ∉ c.lockOff.toList
  applied : CarriesParams takes c.lockParam c.lockModes
  restored : ∀ change back, c.enforce change = some back → CarriesParams takes c.lockParam back
  statuses : ∀ m ∈ statusChanges, ∀ target : Param,
    CarriesParams takes (fun _ => some target.text) (statusMode m target.text)

/-- Each mode takes a parameter just where MLOCK gave it one: f and j when they are set,
and no other mode of those last asked for, nor r. The status modes take a user both ways. -/
structure LockFits (takes : Char → Bool → Bool) (tokens : List String) : Prop where
  registered : takes 'r' true = false
  asked : ∀ m ask, lastAsk (mlockAsks tokens) m = some ask →
    -- A mode that got no value is not locked.
    (ask.1.2 = true → isParamMode m = true → ask.2.isSome) → takes m ask.1.2 = ask.2.isSome
  statuses : ∀ m ∈ "qaohv".toList, takes m true = true ∧ takes m false = true

section WellLocked

variable {takes : Char → Bool → Bool} {c : ChannelInfo} {scan : MlockScan}

/-- The channel with what was scanned for its lock. -/
def ChannelInfo.withScan (c : ChannelInfo) (scan : MlockScan) : ChannelInfo :=
  c.withLock (String.ofList scan.on, String.ofList scan.off, scan.params)

@[simp] theorem withScan_lockOn : (c.withScan scan).lockOn.toList = scan.on := String.toList_ofList

@[simp] theorem withScan_lockOff : (c.withScan scan).lockOff.toList = scan.off := String.toList_ofList

theorem lockParam_mem {m : Char} {p : String} (value : (c.withScan scan).lockParam m = some p) :
    (m, p) ∈ scan.params := by
  obtain ⟨q, found, rfl⟩ := Option.map_eq_some_iff.mp value
  have key : q.1 = m := by simpa using List.find?_some found
  exact key ▸ List.mem_of_find?_eq_some found

theorem lockParam_isSome {m : Char} :
    ((c.withScan scan).lockParam m).isSome = true ↔ m ∈ scan.params.map (·.1) := by
  unfold ChannelInfo.lockParam
  rw [Option.isSome_map, List.find?_isSome]
  constructor
  · rintro ⟨p, mem, key⟩
    exact List.mem_map.mpr ⟨p, mem, by simpa using key⟩
  · intro mem
    obtain ⟨p, listed, key⟩ := List.mem_map.mp mem
    exact ⟨p, listed, by simpa using key⟩

theorem MlockScan.Aligned.lockParam_on (aligned : scan.Aligned) {m : Char} (on : m ∈ scan.on) :
    ((c.withScan scan).lockParam m).isSome = isParamMode m := by
  rw [Bool.eq_iff_iff, lockParam_isSome, aligned.aligned]
  simp [on]

theorem MlockScan.Aligned.lockParam_other (aligned : scan.Aligned) {m : Char} (other : m ∉ scan.on) :
    (c.withScan scan).lockParam m = none := by
  rw [← Option.not_isSome_iff_eq_none, lockParam_isSome, aligned.aligned]
  simp [other]

/-- What is sent of a lock carries its parameters just where the modes of the lock take
one when they are set with one, and r and those kept off take none. -/
theorem carries_iff (aligned : scan.Aligned) :
    (CarriesParams takes (c.withScan scan).lockParam (c.withScan scan).lockModes ∧
      ∀ change back, (c.withScan scan).enforce change = some back →
        CarriesParams takes (c.withScan scan).lockParam back) ↔
    takes 'r' true = false ∧ (∀ m ∈ scan.on, takes m true = isParamMode m) ∧
      ∀ m ∈ scan.off, takes m false = false := by
  have notR : (c.withScan scan).lockParam 'r' = none := aligned.lockParam_other aligned.free.1
  have bare : ∀ m ∈ scan.off, (c.withScan scan).lockParam m = none :=
    fun m off => aligned.lockParam_other fun on => aligned.apart m on off
  have words' : ∀ m p, (c.withScan scan).lockParam m = some p → IsArgument p :=
    fun m p value => aligned.words (m, p) (lockParam_mem value)
  have alpha : ∀ m ∈ (c.withScan scan).lockedOn, m.isAlpha := by
    intro m on
    rcases List.mem_cons.mp on with rfl | held
    · rfl
    · exact aligned.onLetter m (by simpa using held)
  have lockModes : (c.withScan scan).lockModes =
      String.ofList ((c.withScan scan).revert ⟨(c.withScan scan).lockedOn, scan.off, true⟩) := by
    simp [ChannelInfo.lockModes, ChannelInfo.revert, ChannelInfo.lockedOn, notR]
  constructor
  · rintro ⟨applied, _⟩
    rw [lockModes, revert_carries_iff (by simp [ChannelInfo.lockedOn]) alpha aligned.offLetter bare words']
      at applied
    refine ⟨?_, fun m on => ?_, applied.2⟩
    · rw [applied.1 'r' List.mem_cons_self, notR]
      rfl
    · rw [applied.1 m (List.mem_cons_of_mem _ (by simpa using on)), aligned.lockParam_on on]
  · rintro ⟨registered, on, off⟩
    have fits : ∀ m ∈ (c.withScan scan).lockedOn, takes m true = ((c.withScan scan).lockParam m).isSome := by
      intro m mem
      rcases List.mem_cons.mp mem with rfl | held
      · rw [registered, notR]
        rfl
      · have held : m ∈ scan.on := by simpa using held
        rw [on m held, aligned.lockParam_on held]
    constructor
    · rw [lockModes, revert_carries_iff (by simp [ChannelInfo.lockedOn]) alpha aligned.offLetter bare words']
      exact ⟨fits, off⟩
    · intro change back answered
      have within : (change.toList.foldl (c.withScan scan).scanMode {}).Within (c.withScan scan) :=
        Modes.within_scan _ ⟨by simp, by simp⟩
      unfold ChannelInfo.enforce at answered
      generalize change.toList.foldl (c.withScan scan).scanMode {} = answer at within answered
      dsimp only at answered
      split_ifs at answered with quiet
      cases answered
      have removed : ∀ m ∈ answer.reremove, m ∈ scan.off := by
        intro m mem
        simpa using (within.reremove m mem).1
      rw [revert_carries_iff (by simpa using quiet) (fun m mem => (within.readd m mem).2)
        (fun m mem => (within.reremove m mem).2) (fun m mem => bare m (removed m mem)) words']
      exact ⟨fun m mem => fits m (within.readd m mem).1, fun m mem => off m (removed m mem)⟩

theorem statusChanges_carry_iff :
    (∀ m ∈ statusChanges, ∀ target : Param,
      CarriesParams takes (fun _ => some target.text) (statusMode m target.text)) ↔
    ∀ m ∈ "qaohv".toList, takes m true = true ∧ takes m false = true := by
  have alpha : ∀ m ∈ "qaohv".toList, m.isAlpha := by simp
  have each : ∀ (sign : Char), sign = '+' ∨ sign = '-' → ∀ letters : List Char,
      (∀ m ∈ letters, m ∈ "qaohv".toList) → ∀ target : Param,
        (CarriesParams takes (fun _ => some target.text)
          (statusMode (String.ofList (sign :: letters)) target.text) ↔
            ∀ m ∈ letters, takes m (sign == '+') = true) :=
    fun sign isSign letters within target =>
      statusMode_carries_iff isSign (fun m mem => alpha m (within m mem)) target
  constructor
  · intro carried m mem
    have user : Param := ⟨"u", by decide⟩
    have up := fun letters within listed =>
      (each '+' (.inl rfl) letters within user).mp (carried _ listed user)
    have qo := up ['q', 'o'] (by simp) (by decide +kernel)
    have ao := up ['a', 'o'] (by simp) (by decide +kernel)
    have h := up ['h'] (by simp) (by decide +kernel)
    have v := up ['v'] (by simp) (by decide +kernel)
    have listed : String.ofList ('-' :: "qaohv".toList) ∈ statusChanges := by decide +kernel
    have down := (each '-' (.inr rfl) "qaohv".toList (fun _ mem => mem) user).mp
      (carried _ listed user)
    refine ⟨?_, down m mem⟩
    have named : m = 'q' ∨ m = 'a' ∨ m = 'o' ∨ m = 'h' ∨ m = 'v' := by simpa using mem
    rcases named with rfl | rfl | rfl | rfl | rfl
    · exact qo 'q' (by simp)
    · exact ao 'a' (by simp)
    · exact qo 'o' (by simp)
    · exact h 'h' (by simp)
    · exact v 'v' (by simp)
  · intro taken m mem target
    have up := fun letters (within : ∀ x ∈ letters, x ∈ "qaohv".toList) =>
      (each '+' (.inl rfl) letters within target).mpr fun x mem => (taken x (within x mem)).1
    have named : m = "+qo" ∨ m = "+ao" ∨ m = "+o" ∨ m = "+h" ∨ m = "+v" ∨ m = "-qaohv" := by
      simpa [statusChanges, autoModes] using mem
    rcases named with rfl | rfl | rfl | rfl | rfl | rfl
    · exact up ['q', 'o'] (by simp)
    · exact up ['a', 'o'] (by simp)
    · exact up ['o'] (by simp)
    · exact up ['h'] (by simp)
    · exact up ['v'] (by simp)
    · exact (each '-' (.inr rfl) "qaohv".toList (fun _ mem => mem) target).mpr
        fun x mem => (taken x mem).2

/-- What the lock lists, in terms of what was asked of each mode last. -/
theorem asked_iff {asks : List ((Char × Bool) × Option String)} (reads : scan.Reads asks) :
    (∀ m ask, lastAsk asks m = some ask →
      (ask.1.2 = true → isParamMode m = true → ask.2.isSome) → takes m ask.1.2 = ask.2.isSome) ↔
    (∀ m ∈ scan.on, takes m true = isParamMode m) ∧ ∀ m ∈ scan.off, takes m false = false := by
  constructor
  · intro asked
    constructor
    · intro m on
      obtain ⟨p, last, given⟩ := (reads.on m).mp on
      rw [← given]
      exact asked m _ last fun _ param => given.trans param
    · intro m off
      have last := (reads.off m).mp off
      exact asked m _ last fun adding => absurd adding (by simp)
  · rintro ⟨on, off⟩ m ⟨⟨m', adding⟩, p⟩ last answered
    obtain ⟨mem, rfl⟩ := lastAsk_mem last
    have paired := reads.paired _ mem
    dsimp only at answered paired ⊢
    cases adding with
    | true =>
        have given : p.isSome = isParamMode m' := by
          cases param : isParamMode m' with
          | true => exact answered rfl param
          | false =>
              cases p with
              | none => rfl
              | some v => exact absurd (paired rfl).2 (by simp [param])
        rw [given]
        exact on m' ((reads.on m').mpr ⟨p, last, given⟩)
    | false =>
        cases p with
        | none => exact off m' ((reads.off m').mpr last)
        | some v => exact absurd (paired rfl).1 (by simp)

/-- A lock is well formed exactly where what was scanned for it fits the modes. -/
theorem withScan_wellLocked_iff
    (aligned : scan.Aligned) :
    (c.withScan scan).WellLocked takes ↔
      (takes 'r' true = false ∧ (∀ m ∈ scan.on, takes m true = isParamMode m) ∧
        ∀ m ∈ scan.off, takes m false = false) ∧
      ∀ m ∈ "qaohv".toList, takes m true = true ∧ takes m false = true := by
  have carried := @carries_iff takes c scan aligned
  have changes := @statusChanges_carry_iff takes
  constructor
  · intro well
    have held : _ ∧ _ := ⟨@well.applied, well.restored⟩
    exact ⟨carried.mp held, changes.mp well.statuses⟩
  · rintro ⟨kept, statuses⟩
    obtain ⟨applied, restored⟩ := carried.mpr kept
    constructor
    · rw [withScan_lockOn]
      exact aligned.onNodup
    · rw [withScan_lockOff]
      exact aligned.offNodup
    · rw [withScan_lockOn, withScan_lockOff]
      exact aligned.apart
    · rw [withScan_lockOn, withScan_lockOff]
      exact aligned.free
    · exact @applied
    · exact restored
    · exact changes.mpr statuses

end WellLocked

/-- The lock that MLOCK stores is well formed exactly where its parameters fit the modes. -/
theorem wellLocked_iff_fits (takes : Char → Bool → Bool) (c : ChannelInfo) (text : String) :
    (c.withLock (parseMlock (arguments text))).WellLocked takes ↔ LockFits takes (arguments text) := by
  have asked := @asked_iff takes _ _ (mlockScan_reads (arguments text))
  have same : c.withLock (parseMlock (arguments text)) = c.withScan (mlockScan (arguments text)) := rfl
  rw [same, withScan_wellLocked_iff (mlockScan_aligned text), ← asked]
  constructor
  · rintro ⟨⟨registered, last⟩, statuses⟩
    exact ⟨registered, last, statuses⟩
  · rintro ⟨registered, last, statuses⟩
    exact ⟨⟨registered, last⟩, statuses⟩

/-- `MLOCK #c +k hidden` keeps the key on without its value. -/
theorem key_not_carried :
    ((newChannel "#c" "alice" 0).withLock (parseMlock (arguments "+k hidden"))).lockModes = "+rk" ∧
    ¬ ((newChannel "#c" "alice" 0).withLock (parseMlock (arguments "+k hidden"))).WellLocked
      chanmodeTakesParam := by
  refine ⟨by decide +kernel, fun well => ?_⟩
  exact absurd well.applied (by decide +kernel)

end Echo
