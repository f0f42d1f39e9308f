import Echo.Db.Run
import Echo.Engine.ChanModes

/-!
The mode lock: what MLOCK stores of its arguments, and what services send back when a
mode change went against it. The lock comes back whole where each mode it keeps on has
the parameter it wants, and each it keeps off can be taken away without one.
-/

namespace Echo

open Echo.Lib

namespace ChannelInfo

variable (c : ChannelInfo)

/-- The modes services keep set: +r and the lock. -/
def lockedOn : List Char := 'r' :: c.lockOn.toList

/-- The parameter a mode is locked with. -/
def lockParam (m : Char) : Option String := (c.lockParams.find? fun p => p.1 == m).map (·.2)

end ChannelInfo

namespace ChannelInfo

variable (c : ChannelInfo)

/-- The mode change services keep applied: +r and the lock, then the parameters in the
order of their modes. -/
def lockModes : String :=
  String.ofList ('+' :: 'r' :: c.lockOn.toList
    ++ (if c.lockOff.toList.isEmpty then [] else '-' :: c.lockOff.toList)
    ++ c.lockOn.toList.flatMap fun ch => (c.lockParam ch).elim [] fun p => ' ' :: p.toList)

end ChannelInfo

/-! ### What is sent back -/

/-- What has come of a change so far: the modes to set again, those to take away again,
and the sign that holds. -/
structure LockScan where
  readd : List Char := []
  reremove : List Char := []
  adding : Bool := true

namespace ChannelInfo

variable (c : ChannelInfo)

def paramLocked (m : Char) : Bool := c.lockParams.any fun p => p.1 == m

def scanMode (scan : LockScan) (ch : Char) : LockScan :=
  if ch = '+' then { scan with adding := true }
  else if ch = '-' then { scan with adding := false }
  else if ch.isAlpha then
    -- A mode with a parameter is asserted again when it is set as well: the change may
    -- have brought another parameter.
    if (ch == 'r' || c.lockOn.toList.contains ch) && (!scan.adding || c.paramLocked ch)
        && !scan.readd.contains ch then
      { scan with readd := scan.readd ++ [ch] }
    else if c.lockOff.toList.contains ch && scan.adding && !scan.reremove.contains ch then
      { scan with reremove := scan.reremove ++ [ch] }
    else scan
  else scan

/-- What a scan comes to, written as a mode change. -/
def revert (scan : LockScan) : List Char :=
  (if scan.readd.isEmpty then [] else '+' :: scan.readd)
    ++ (if scan.reremove.isEmpty then [] else '-' :: scan.reremove)
    ++ scan.readd.flatMap fun ch => (c.lockParam ch).elim [] fun p => ' ' :: p.toList

/-- The modes to send back so that the lock holds again. -/
def enforce (change : String) : Option String :=
  let scan := change.toList.foldl c.scanMode {}
  if scan.readd.isEmpty && scan.reremove.isEmpty then none
  else some (String.ofList (c.revert scan))

end ChannelInfo

/-! ### What MLOCK stores -/

/-- The modes for which MLOCK reads a parameter. -/
def isParamMode (m : Char) : Bool := m == 'f' || m == 'j'

structure MlockScan where
  on : List Char := []
  off : List Char := []
  params : List (Char × String) := []
  adding : Bool := true
  rest : List String

namespace MlockScan

/-- What was asked of a mode before, withdrawn. -/
def without (scan : MlockScan) (m : Char) : MlockScan :=
  { scan with
    on := scan.on.filter (· ≠ m)
    off := scan.off.filter (· ≠ m)
    params := scan.params.filter (·.1 ≠ m) }

def step (scan : MlockScan) (m : Char) : MlockScan :=
  if m = '+' then { scan with adding := true }
  else if m = '-' then { scan with adding := false }
  else if m = 'r' then scan
  else if m.isAlpha then
    let kept := scan.without m
    if scan.adding then
      if isParamMode m then
        match scan.rest with
        | p :: rest => { kept with on := kept.on ++ [m], params := kept.params ++ [(m, p)], rest }
        -- No value: the mode is dropped rather than locked without one.
        | [] => kept
      else { kept with on := kept.on ++ [m] }
    else { kept with off := kept.off ++ [m] }
  else scan

end MlockScan

/-- The lock that MLOCK's arguments ask for: the modes kept on, those kept off, and the
parameters. -/
def parseMlock (tokens : List String) : String × String × List (Char × String) :=
  let scan := (tokens.headD "").toList.foldl MlockScan.step { rest := tokens.tail }
  (String.ofList scan.on, String.ofList scan.off, scan.params)

example : parseMlock ["+ntf-s", "5:10"] = ("ntf", "s", [('f', "5:10")]) := by decide

/-- What the arguments read so far have come to: no mode is kept both on and off, r is
left alone, and the modes with a parameter have it. -/
structure MlockScan.Sound (scan : MlockScan) : Prop where
  apart : ∀ m ∈ scan.on, m ∉ scan.off
  free : 'r' ∉ scan.on ∧ 'r' ∉ scan.off
  valued : ∀ m ∈ scan.on, isParamMode m → ∃ p, (m, p) ∈ scan.params

namespace MlockScan

variable {scan : MlockScan}

theorem Sound.without (sound : scan.Sound) (m : Char) : (scan.without m).Sound where
  apart x on off :=
    sound.apart x (List.mem_filter.mp on).1 (List.mem_filter.mp off).1
  free :=
    ⟨fun on => sound.free.1 (List.mem_filter.mp on).1,
      fun off => sound.free.2 (List.mem_filter.mp off).1⟩
  valued x on wants := by
    obtain ⟨held, other⟩ := List.mem_filter.mp on
    obtain ⟨p, mem⟩ := sound.valued x held wants
    exact ⟨p, List.mem_filter.mpr ⟨mem, other⟩⟩

theorem Sound.step (sound : scan.Sound) (m : Char) : (scan.step m).Sound := by
  have kept := sound.without m
  have onFree : m ∉ (scan.without m).on := by simp [MlockScan.without]
  have offFree : m ∉ (scan.without m).off := by simp [MlockScan.without]
  unfold MlockScan.step
  split_ifs with plus minus r alpha adding param
  · exact ⟨sound.apart, sound.free, sound.valued⟩
  · exact ⟨sound.apart, sound.free, sound.valued⟩
  · exact sound
  · cases scan.rest with
    | nil => exact kept
    | cons p rest =>
        constructor
        · intro x on off
          rcases List.mem_append.mp on with held | new
          · exact kept.apart x held off
          · exact offFree (List.mem_singleton.mp new ▸ off)
        · exact ⟨by simp [kept.free.1, Ne.symm r], kept.free.2⟩
        · intro x on wants
          rcases List.mem_append.mp on with held | new
          · obtain ⟨p', mem⟩ := kept.valued x held wants
            exact ⟨p', List.mem_append_left _ mem⟩
          · exact ⟨p, List.mem_append_right _ (by simpa using new)⟩
  · constructor
    · intro x on off
      rcases List.mem_append.mp on with held | new
      · exact kept.apart x held off
      · exact offFree (List.mem_singleton.mp new ▸ off)
    · exact ⟨by simp [kept.free.1, Ne.symm r], kept.free.2⟩
    · intro x on wants
      rcases List.mem_append.mp on with held | new
      · exact kept.valued x held wants
      · exact absurd (List.mem_singleton.mp new ▸ wants) param
  · constructor
    · intro x on off
      rcases List.mem_append.mp off with held | new
      · exact kept.apart x on held
      · exact onFree (List.mem_singleton.mp new ▸ on)
    · exact ⟨kept.free.1, by simp [kept.free.2, Ne.symm r]⟩
    · exact kept.valued
  · exact sound

theorem Sound.run {letters : List Char} (sound : scan.Sound) :
    (letters.foldl MlockScan.step scan).Sound := by
  induction letters generalizing scan with
  | nil => exact sound
  | cons m letters ih => exact ih (sound.step m)

end MlockScan

/-- A lock that MLOCK stores keeps no mode both on and off. -/
theorem parseMlock_disjoint {tokens : List String} {m : Char}
    (on : m ∈ (parseMlock tokens).1.toList) : m ∉ (parseMlock tokens).2.1.toList := by
  unfold parseMlock at on ⊢
  rw [String.toList_ofList] at on ⊢
  exact (MlockScan.Sound.run ⟨by simp, by simp, by simp⟩).apart m on

/-! ### What the lock asks of a channel -/

/-- A mode change: its letters, and the parameters that follow them. -/
structure ModeChange where
  letters : String
  params : List Param

/-- The change as it is written out. -/
def ModeChange.text (d : ModeChange) : String :=
  String.ofList (d.letters.toList ++ d.params.flatMap fun p => ' ' :: p.text.toList)

namespace Modes

variable {k : ModeSet} (c : ChannelInfo) (s : Modes k) {m : Char} {adding : Bool}

/-- The mode is set, and with the parameter it is locked with. -/
def Locked (m : Char) : Prop :=
  match c.lockParam m with
  | none => s.held m ≠ []
  | some text => ∃ v ∈ s.held m, v.map (·.text) = some text

instance : Decidable (s.Locked c m) := by
  unfold Locked
  split
  · infer_instance
  · infer_instance

/-- The channel is as the lock wants it. -/
structure Satisfies : Prop where
  on : ∀ m ∈ c.lockedOn, s.Locked c m
  off : ∀ m ∈ c.lockOff.toList, s.held m = []

def changed (d : ModeChange) : Modes k := s.run true d.params d.letters.toList

/-- The channel once services have answered the change they were shown. -/
def enforced (shown : String) : Modes k :=
  match c.enforce shown with
  | none => s
  | some revert => s.apply revert

/-- After the change and the answer to it the lock holds, and the modes outside it are as
the change left them. The link shows services the letters alone; nothing else comes of it
when they see the parameters too. -/
def Restored : Prop :=
  ∀ (d : ModeChange) (shown : String), shown = d.letters ∨ shown = d.text →
    ((s.changed d).enforced c shown).Satisfies c ∧
    ∀ m, m ∉ c.lockedOn → m ∉ c.lockOff.toList →
      ((s.changed d).enforced c shown).held m = (s.changed d).held m

variable {c s}

theorem Locked.ne_nil (locked : s.Locked c m) : s.held m ≠ [] := by
  unfold Locked at locked
  split at locked
  · exact locked
  · obtain ⟨v, mem, _⟩ := locked
    exact List.ne_nil_of_mem mem

theorem Locked.known (locked : s.Locked c m) : (k.kind m).isSome :=
  k.known_of_held (s.fits m) locked.ne_nil

theorem Locked.congr {s' : Modes k} (locked : s.Locked c m) (same : s'.held m = s.held m) :
    s'.Locked c m := by
  unfold Locked at *
  rwa [same]

end Modes

namespace ChannelInfo

/-- Each mode kept on has the parameter it wants to be set, and each kept off wants none
to be unset. -/
def Enforceable (k : ModeSet) (c : ChannelInfo) : Prop :=
  (∀ m ∈ c.lockedOn, k.takesParam m true → c.lockParam m ≠ none) ∧
  ∀ m ∈ c.lockOff.toList, k.takesParam m false = false

/-- The parameter a mode is locked with, as a word of a mode change. -/
def lockWord (c : ChannelInfo) (m : Char) : Option Param :=
  (c.lockParam m).bind fun p => Param.ofWord p.toList

end ChannelInfo

/-! ### What a scan covers -/

namespace LockScan

variable {k : ModeSet} {c : ChannelInfo} {scan : LockScan} {s : Modes k} {m : Char}

/-- A scan only ever lists modes of the lock. -/
structure Within (c : ChannelInfo) (scan : LockScan) : Prop where
  readd : ∀ m ∈ scan.readd, m ∈ c.lockedOn ∧ m.isAlpha
  reremove : ∀ m ∈ scan.reremove, m ∈ c.lockOff.toList ∧ m.isAlpha

/-- What the lock asks for either stands or is on the list. -/
structure Covers (c : ChannelInfo) (s : Modes k) (scan : LockScan) : Prop where
  on : ∀ m ∈ c.lockedOn, m ∈ scan.readd ∨ s.Locked c m
  off : ∀ m ∈ c.lockOff.toList, m ∈ scan.reremove ∨ s.held m = []

theorem Within.scanMode (within : scan.Within c) (ch : Char) : (c.scanMode scan ch).Within c := by
  unfold ChannelInfo.scanMode
  split_ifs with plus minus alpha again away
  · exact ⟨within.readd, within.reremove⟩
  · exact ⟨within.readd, within.reremove⟩
  · constructor
    · intro m mem
      rcases List.mem_append.mp mem with old | new
      · exact within.readd m old
      · cases List.mem_singleton.mp new
        simp only [Bool.and_eq_true, Bool.or_eq_true, beq_iff_eq, List.contains_iff_mem] at again
        exact ⟨List.mem_cons.mpr again.1.1, alpha⟩
    · exact within.reremove
  · constructor
    · exact within.readd
    · intro m mem
      rcases List.mem_append.mp mem with old | new
      · exact within.reremove m old
      · cases List.mem_singleton.mp new
        simp only [Bool.and_eq_true, List.contains_iff_mem] at away
        exact ⟨away.1.1, alpha⟩
  · exact within
  · exact within

theorem readd_scanMode (mem : m ∈ scan.readd) (ch : Char) : m ∈ (c.scanMode scan ch).readd := by
  unfold ChannelInfo.scanMode
  split_ifs <;> simp [mem]

theorem reremove_scanMode (mem : m ∈ scan.reremove) (ch : Char) :
    m ∈ (c.scanMode scan ch).reremove := by
  unfold ChannelInfo.scanMode
  split_ifs <;> simp [mem]

/-- What is covered stays covered when services read on. -/
theorem Covers.scanMode (covers : scan.Covers c s) (ch : Char) : (c.scanMode scan ch).Covers c s where
  on m mem := (covers.on m mem).imp (readd_scanMode · ch) id
  off m mem := (covers.off m mem).imp (reremove_scanMode · ch) id

theorem adding_scanMode (plus : m ≠ '+') (minus : m ≠ '-') :
    (c.scanMode scan m).adding = scan.adding := by
  unfold ChannelInfo.scanMode
  rw [if_neg plus, if_neg minus]
  split_ifs <;> rfl

theorem mem_readd_scanMode (kept : m ∈ c.lockedOn) (alpha : m.isAlpha) (plus : m ≠ '+')
    (minus : m ≠ '-') (touched : scan.adding = false ∨ c.paramLocked m = true) :
    m ∈ (c.scanMode scan m).readd := by
  have listed : (m == 'r' || c.lockOn.toList.contains m) = true := by
    simpa [ChannelInfo.lockedOn] using kept
  have hit : (!scan.adding || c.paramLocked m) = true := by
    rcases touched with removing | valued
    · simp [removing]
    · simp [valued]
  unfold ChannelInfo.scanMode
  rw [if_neg plus, if_neg minus, if_pos alpha]
  by_cases already : m ∈ scan.readd
  · have again := readd_scanMode (c := c) already m
    unfold ChannelInfo.scanMode at again
    rwa [if_neg plus, if_neg minus, if_pos alpha] at again
  · rw [if_pos (by rw [listed, hit]; simpa using already)]
    simp

theorem mem_reremove_scanMode (off : m ∈ c.lockOff.toList) (apart : m ∉ c.lockedOn)
    (alpha : m.isAlpha) (plus : m ≠ '+') (minus : m ≠ '-') (adding : scan.adding = true) :
    m ∈ (c.scanMode scan m).reremove := by
  have unlisted : (m == 'r' || c.lockOn.toList.contains m) = false := by
    simpa [ChannelInfo.lockedOn] using apart
  unfold ChannelInfo.scanMode
  rw [if_neg plus, if_neg minus, if_pos alpha, if_neg (by rw [unlisted]; simp)]
  by_cases already : m ∈ scan.reremove
  · split_ifs <;> simp [already]
  · rw [if_pos (by simpa [adding, already] using off)]
    simp

end LockScan

namespace Modes

variable {k : ModeSet} {c : ChannelInfo} {s : Modes k} {scan : LockScan} {m : Char}

/-- A mode that is set and locked without a parameter stays so when it is set again. -/
theorem Locked.change_true (locked : s.Locked c m) (free : c.lockParam m = none)
    (param : Option Param) : (s.change m true param).Locked c m := by
  have set := locked.ne_nil
  unfold Locked
  rw [free]
  simpa using k.put_true_ne_nil set

theorem paramLocked_of_lockParam (valued : c.lockParam m ≠ none) : c.paramLocked m = true := by
  obtain ⟨text, found⟩ := Option.ne_none_iff_exists'.mp valued
  obtain ⟨p, first, _⟩ := Option.map_eq_some_iff.mp found
  have keyed := List.find?_some first
  exact List.any_eq_true.mpr ⟨p, List.mem_of_find?_eq_some first, keyed⟩

/-- One letter: what it takes from the lock, the scan lists. -/
theorem covers_change (apart : ∀ m ∈ c.lockedOn, m ∉ c.lockOff.toList) (covers : scan.Covers c s)
    (plus : m ≠ '+') (minus : m ≠ '-') (param : Option Param) :
    (c.scanMode scan m).Covers c (s.change m scan.adding param) := by
  have other : ∀ x, x ≠ m → (s.change m scan.adding param).held x = s.held x :=
    fun x other => change_held_other s other
  constructor
  · intro x kept
    rcases covers.on x kept with listed | locked
    · exact .inl (LockScan.readd_scanMode listed m)
    · by_cases same : x = m
      · subst same
        by_cases touched : scan.adding = false ∨ c.paramLocked x = true
        · have alpha := k.letter x locked.known
          exact .inl (LockScan.mem_readd_scanMode kept alpha plus minus touched)
        · obtain ⟨adding, bare⟩ := not_or.mp touched
          rw [Bool.not_eq_false] at adding
          have free : c.lockParam x = none := by
            by_contra valued
            exact bare (paramLocked_of_lockParam valued)
          rw [adding]
          exact .inr (locked.change_true free param)
      · exact .inr (locked.congr (other x same))
  · intro x off
    rcases covers.off x off with listed | unset
    · exact .inl (LockScan.reremove_scanMode listed m)
    · by_cases same : x = m
      · subst same
        have notOn : x ∉ c.lockedOn := fun on => apart x on off
        by_cases known : (k.kind x).isSome
        · have alpha := k.letter x known
          cases adding : scan.adding with
          | true => exact .inl (LockScan.mem_reremove_scanMode off notOn alpha plus minus adding)
          | false =>
              right
              rw [change_held_self, unset]
              exact k.put_false_nil
        · right
          rw [change_held_self, unset]
          exact k.put_unknown known
      · exact .inr ((other x same).trans unset)

/-- A change and the scan of its letters side by side. -/
theorem covers_run (apart : ∀ m ∈ c.lockedOn, m ∉ c.lockOff.toList) (letters : List Char)
    (params : List Param) (covers : scan.Covers c s) :
    (letters.foldl c.scanMode scan).Covers c (s.run scan.adding params letters) := by
  induction letters generalizing s scan params with
  | nil => exact covers
  | cons m letters ih =>
      rw [List.foldl_cons]
      unfold run
      split_ifs with plus minus wants
      · subst plus
        have turned : LockScan.Covers c s { scan with adding := true } := ⟨covers.on, covers.off⟩
        exact ih params turned
      · subst minus
        have turned : LockScan.Covers c s { scan with adding := false } := ⟨covers.on, covers.off⟩
        exact ih params turned
      · have step := covers_change apart covers plus minus params.head?
        have rest := ih params.tail step
        rwa [LockScan.adding_scanMode plus minus] at rest
      · have step := covers_change apart covers plus minus none
        have rest := ih params step
        rwa [LockScan.adding_scanMode plus minus] at rest

/-! ### The answer -/

/-- The modes set as they are locked. -/
def relocked (c : ChannelInfo) (s : Modes k) (letters : List Char) : Modes k :=
  letters.foldl (fun s m => s.change m true (c.lockWord m)) s

/-- The modes taken away. -/
def released (s : Modes k) (letters : List Char) : Modes k :=
  letters.foldl (fun s m => s.change m false none) s

theorem relocked_held_other {letters : List Char} (other : m ∉ letters) :
    (relocked c s letters).held m = s.held m := by
  induction letters generalizing s with
  | nil => rfl
  | cons x letters ih =>
      refine (ih (List.not_mem_of_not_mem_cons other)).trans ?_
      exact change_held_other s (List.ne_of_not_mem_cons other)

theorem released_held_other {letters : List Char} (other : m ∉ letters) :
    (released s letters).held m = s.held m := by
  induction letters generalizing s with
  | nil => rfl
  | cons x letters ih =>
      refine (ih (List.not_mem_of_not_mem_cons other)).trans ?_
      exact change_held_other s (List.ne_of_not_mem_cons other)

/-- What is known of a mode kept on in a channel where the lock held: the ircd has it, and
it takes a parameter just where it is locked with one, a word. -/
structure Fitted (k : ModeSet) (c : ChannelInfo) (m : Char) : Prop where
  known : (k.kind m).isSome
  wanted : k.takesParam m true = (c.lockWord m).isSome
  word : (c.lockWord m).map (·.text) = c.lockParam m

theorem Locked.fitted (locked : s.Locked c m)
    (valued : k.takesParam m true → c.lockParam m ≠ none) : Fitted k c m := by
  have known := locked.known
  cases found : c.lockParam m with
  | none =>
      have bare : c.lockWord m = none := by simp [ChannelInfo.lockWord, found]
      have free : k.takesParam m true = false := by
        by_contra wants
        rw [Bool.not_eq_false] at wants
        exact valued wants found
      exact ⟨known, by rw [free, bare]; rfl, by rw [bare, found]; rfl⟩
  | some text =>
      unfold Locked at locked
      rw [found] at locked
      obtain ⟨v, mem, valued⟩ := locked
      obtain ⟨p, rfl, same⟩ := Option.map_eq_some_iff.mp valued
      have word : c.lockWord m = some p := by
        unfold ChannelInfo.lockWord
        rw [found, ← same]
        exact p.ofWord_text
      have wants := k.takesParam_of_held (s.fits m) mem
      exact ⟨known, by rw [word, wants]; rfl, by rw [word, found, ← same]; rfl⟩

theorem Fitted.locked_change (fitted : Fitted k c m) :
    (s.change m true (c.lockWord m)).Locked c m := by
  have mem : c.lockWord m ∈ k.put m true (c.lockWord m) (s.held m) :=
    k.mem_put_true fitted.known fitted.wanted
  have word := fitted.word
  unfold Locked
  rw [change_held_self, ← word]
  cases found : c.lockWord m with
  | none =>
      rw [found] at mem
      exact List.ne_nil_of_mem mem
  | some p =>
      rw [found] at mem
      exact ⟨some p, mem, rfl⟩

/-- What is set again is locked, whatever else is set with it. -/
theorem relocked_locked {letters : List Char} (fitted : ∀ x ∈ letters, Fitted k c x)
    (either : m ∈ letters ∨ s.Locked c m) : (relocked c s letters).Locked c m := by
  induction letters generalizing s with
  | nil => exact either.resolve_left (List.not_mem_nil)
  | cons x letters ih =>
      refine ih (fun y mem => fitted y (List.mem_cons_of_mem x mem)) ?_
      by_cases same : m = x
      · subst same
        exact .inr (fitted m List.mem_cons_self).locked_change
      · rcases either with listed | locked
        · exact .inl ((List.mem_cons.mp listed).resolve_left same)
        · exact .inr (locked.congr (change_held_other s same))

theorem released_held {letters : List Char} (free : ∀ x ∈ letters, k.takesParam x false = false)
    (either : m ∈ letters ∨ s.held m = []) : (released s letters).held m = [] := by
  induction letters generalizing s with
  | nil => exact either.resolve_left (List.not_mem_nil)
  | cons x letters ih =>
      refine ih (fun y mem => free y (List.mem_cons_of_mem x mem)) ?_
      by_cases same : m = x
      · subst same
        by_cases known : (k.kind m).isSome
        · right
          rw [change_held_self]
          exact k.put_false_none known (free m List.mem_cons_self)
        · exact .inr (k.held_unknown ((s.change m false none).fits m) known)
      · rcases either with listed | unset
        · exact .inl ((List.mem_cons.mp listed).resolve_left same)
        · exact .inr ((change_held_other s same).trans unset)

theorem run_relocked {letters : List Char} (fitted : ∀ x ∈ letters, Fitted k c x)
    (params : List Param) (rest : List Char) :
    s.run true (letters.filterMap c.lockWord ++ params) (letters ++ rest) =
      (relocked c s letters).run true params rest := by
  induction letters generalizing s with
  | nil => rfl
  | cons x letters ih =>
      have here := fitted x List.mem_cons_self
      have alpha := k.letter x here.known
      have plus : x ≠ '+' := fun same => absurd alpha (same ▸ by decide)
      have minus : x ≠ '-' := fun same => absurd alpha (same ▸ by decide)
      have wanted := here.wanted
      have later := ih (s := s.change x true (c.lockWord x))
        fun y mem => fitted y (List.mem_cons_of_mem x mem)
      rw [List.cons_append, run, if_neg plus, if_neg minus]
      cases found : c.lockWord x with
      | none =>
          rw [found] at wanted later
          rw [wanted, Option.isSome_none, if_neg Bool.false_ne_true, List.filterMap_cons_none found,
            later, relocked, relocked, List.foldl_cons, found]
      | some p =>
          rw [found] at wanted later
          rw [wanted, Option.isSome_some, if_pos rfl, List.filterMap_cons_some found, List.cons_append,
            List.head?_cons, List.tail_cons, later, relocked, relocked, List.foldl_cons, found]

theorem run_released {letters : List Char}
    (free : ∀ x ∈ letters, x.isAlpha ∧ k.takesParam x false = false) (params : List Param) :
    s.run false params letters = released s letters := by
  induction letters generalizing s with
  | nil => rfl
  | cons x letters ih =>
      obtain ⟨alpha, bare⟩ := free x List.mem_cons_self
      have plus : x ≠ '+' := fun same => absurd alpha (same ▸ by decide)
      have minus : x ≠ '-' := fun same => absurd alpha (same ▸ by decide)
      rw [run, if_neg plus, if_neg minus, bare, if_neg Bool.false_ne_true,
        ih fun y mem => free y (List.mem_cons_of_mem x mem)]
      rfl

theorem revert_params {letters : List Char} (fitted : ∀ x ∈ letters, Fitted k c x) :
    (letters.flatMap fun ch => (c.lockParam ch).elim [] fun p => ' ' :: p.toList) =
      ((letters.filterMap c.lockWord).map fun p => p.text.toList).flatMap (' ' :: ·) := by
  induction letters with
  | nil => rfl
  | cons x letters ih =>
      have word := (fitted x List.mem_cons_self).word
      rw [List.flatMap_cons, ih fun y mem => fitted y (List.mem_cons_of_mem x mem), ← word]
      cases found : c.lockWord x with
      | none =>
          rw [List.filterMap_cons_none found]
          rfl
      | some p =>
          rw [List.filterMap_cons_some found]
          rfl

/-- The answer, read by the ircd: what is listed is locked again, then taken away. -/
theorem apply_revert (within : scan.Within c) (fitted : ∀ x ∈ scan.readd, Fitted k c x)
    (free : ∀ x ∈ scan.reremove, k.takesParam x false = false)
    (answers : ¬ (scan.readd.isEmpty && scan.reremove.isEmpty) = true) :
    s.apply (String.ofList (c.revert scan)) = released (relocked c s scan.readd) scan.reremove := by
  have free' : ∀ x ∈ scan.reremove, x.isAlpha ∧ k.takesParam x false = false :=
    fun x mem => ⟨(within.reremove x mem).2, free x mem⟩
  have solid : ∀ x : Char, x.isAlpha → (x == ' ') = false := by
    intro x alpha
    rw [beq_eq_false_iff_ne]
    exact fun same => absurd alpha (same ▸ by decide)
  have words' : words (· == ' ') (c.revert scan) =
      ((if scan.readd.isEmpty then [] else '+' :: scan.readd)
        ++ (if scan.reremove.isEmpty then [] else '-' :: scan.reremove))
      :: (scan.readd.filterMap c.lockWord).map fun p => p.text.toList := by
    rw [ChannelInfo.revert, revert_params fitted]
    refine words_flatMap rfl ?_ ?_ ?_ ?_
    · intro none
      apply answers
      cases readd : scan.readd <;> cases reremove : scan.reremove <;> simp_all
    · intro x mem
      rcases List.mem_append.mp mem with on | off
      · split at on
        · cases on
        · rcases List.mem_cons.mp on with rfl | mem
          · rfl
          · exact solid x (within.readd x mem).2
      · split at off
        · cases off
        · rcases List.mem_cons.mp off with rfl | mem
          · rfl
          · exact solid x (within.reremove x mem).2
    · intro w mem
      obtain ⟨p, _, same⟩ := List.mem_map.mp mem
      exact same ▸ p.ne_nil
    · intro w mem
      obtain ⟨p, _, same⟩ := List.mem_map.mp mem
      exact same ▸ p.ne_blank
  have params : (((scan.readd.filterMap c.lockWord).map fun p => p.text.toList).filterMap
      Param.ofWord) = scan.readd.filterMap c.lockWord ++ [] := by
    rw [List.filterMap_map, List.append_nil]
    exact (List.filterMap_congr fun p _ => p.ofWord_text).trans List.filterMap_some
  unfold Modes.apply
  rw [String.toList_ofList, words']
  dsimp only
  rw [params]
  cases readd : scan.readd with
  | nil =>
      cases reremove : scan.reremove with
      | nil => exact absurd (by rw [readd, reremove]; rfl) answers
      | cons y off =>
          rw [reremove] at free'
          exact run_released free' _
  | cons x on =>
      rw [readd] at fitted
      rw [List.isEmpty_cons, if_neg Bool.false_ne_true, List.cons_append, run, if_pos rfl,
        run_relocked fitted]
      cases reremove : scan.reremove with
      | nil => rfl
      | cons y off =>
          rw [reremove] at free'
          exact run_released free' _

/-! ### The lock comes back -/

/-- The lock applied to any channel holds there, where the ircd has its modes and they
take their parameters. -/
theorem satisfies_lockModes (fitted : ∀ m ∈ c.lockedOn, Fitted k c m)
    (free : ∀ m ∈ c.lockOff.toList, m.isAlpha ∧ k.takesParam m false = false)
    (apart : ∀ m ∈ c.lockedOn, m ∉ c.lockOff.toList) (registered : c.lockParam 'r' = none) :
    (s.apply c.lockModes).Satisfies c := by
  let scan : LockScan := ⟨c.lockedOn, c.lockOff.toList, true⟩
  have same : c.lockModes = String.ofList (c.revert scan) := by
    simp [ChannelInfo.lockModes, ChannelInfo.revert, scan, ChannelInfo.lockedOn, registered]
  have within : scan.Within c :=
    ⟨fun m on => ⟨on, k.letter m (fitted m on).known⟩, fun m off => ⟨off, (free m off).1⟩⟩
  rw [same, apply_revert within fitted (fun m off => (free m off).2) (by simp [scan, ChannelInfo.lockedOn])]
  constructor
  · intro m on
    have kept : m ∉ c.lockOff.toList := apart m on
    exact (relocked_locked fitted (.inl on)).congr (released_held_other kept)
  · intro m off
    exact released_held (fun x mem => (free x mem).2) (.inl off)

theorem Satisfies.apart (held : s.Satisfies c) : ∀ m ∈ c.lockedOn, m ∉ c.lockOff.toList :=
  fun m on off => (held.on m on).ne_nil (held.off m off)

theorem within_scan (letters : List Char) (within : scan.Within c) :
    (letters.foldl c.scanMode scan).Within c := by
  induction letters generalizing scan with
  | nil => exact within
  | cons m letters ih => exact ih (within.scanMode m)

theorem covers_scan (letters : List Char) (covers : scan.Covers c s) :
    (letters.foldl c.scanMode scan).Covers c s := by
  induction letters generalizing scan with
  | nil => exact covers
  | cons m letters ih => exact ih (covers.scanMode m)

/-- Whatever services are shown of a change, the scan covers what the change took. -/
theorem covers_shown (held : s.Satisfies c) {d : ModeChange} {shown : String}
    (sight : shown = d.letters ∨ shown = d.text) :
    (shown.toList.foldl c.scanMode {}).Covers c (s.changed d) := by
  have start : LockScan.Covers c s {} := ⟨fun m on => .inr (held.on m on), fun m off => .inr (held.off m off)⟩
  have letters : (d.letters.toList.foldl c.scanMode {}).Covers c (s.changed d) :=
    covers_run held.apart d.letters.toList d.params start
  rcases sight with rfl | rfl
  · exact letters
  · rw [ModeChange.text, String.toList_ofList, List.foldl_append]
    exact covers_scan _ letters

theorem restored_of_enforceable (held : s.Satisfies c) (enforceable : c.Enforceable k) :
    s.Restored c := by
  intro d shown sight
  have fitted : ∀ m ∈ c.lockedOn, Fitted k c m :=
    fun m on => (held.on m on).fitted (enforceable.1 m on)
  have within : (shown.toList.foldl c.scanMode {}).Within c :=
    within_scan _ ⟨by simp, by simp⟩
  have covers := covers_shown held sight
  unfold enforced ChannelInfo.enforce
  generalize shown.toList.foldl c.scanMode {} = scan at within covers
  dsimp only
  by_cases quiet : (scan.readd.isEmpty && scan.reremove.isEmpty) = true
  · rw [if_pos quiet]
    obtain ⟨noReadd, noReremove⟩ := Bool.and_eq_true_iff.mp quiet
    rw [List.isEmpty_iff] at noReadd noReremove
    refine ⟨⟨fun m on => ?_, fun m off => ?_⟩, fun m _ _ => rfl⟩
    · exact (covers.on m on).resolve_left (by simp [noReadd])
    · exact (covers.off m off).resolve_left (by simp [noReremove])
  · rw [if_neg quiet]
    dsimp only
    have readd : ∀ m ∈ scan.readd, Fitted k c m := fun m mem => fitted m (within.readd m mem).1
    have reremove : ∀ m ∈ scan.reremove, k.takesParam m false = false :=
      fun m mem => enforceable.2 m (within.reremove m mem).1
    rw [apply_revert within readd reremove quiet]
    refine ⟨⟨fun m on => ?_, fun m off => ?_⟩, fun m notOn notOff => ?_⟩
    · have kept : m ∉ scan.reremove := fun mem => held.apart m on (within.reremove m mem).1
      exact (relocked_locked readd (covers.on m on)).congr (released_held_other kept)
    · have apart : m ∉ scan.readd := fun mem => held.apart m (within.readd m mem).1 off
      refine released_held reremove ((covers.off m off).imp id fun unset => ?_)
      rw [relocked_held_other apart]
      exact unset
    · rw [released_held_other fun mem => notOff (within.reremove m mem).1,
        relocked_held_other fun mem => notOn (within.readd m mem).1]

/-! ### Where it does not -/

theorem run_unset (unset : s.held m = []) (plus : m ≠ '+') (minus : m ≠ '-') (params : List Param)
    (n : Nat) : (s.run false params (List.replicate n m)).held m = [] := by
  induction n generalizing s params with
  | zero => exact unset
  | succ n ih =>
      have still : ∀ param, (s.change m false param).held m = [] := by
        intro param
        rw [change_held_self, unset]
        exact k.put_false_nil
      rw [List.replicate_succ, run, if_neg plus, if_neg minus]
      split_ifs
      · exact ih (still _) _
      · exact ih (still _) _

/-- All that is held of a mode, taken away one by one. -/
theorem run_clearing (known : (k.kind m).isSome) :
    (s.run false ((s.held m).filterMap id) (List.replicate (s.held m).length m)).held m = [] := by
  have plus := k.ne_plus known
  have minus := k.ne_minus known
  generalize all : s.held m = held
  induction held generalizing s with
  | nil => exact all
  | cons v held ih =>
      have fits := s.fits m
      rw [all] at fits
      rw [List.length_cons, List.replicate_succ, run, if_neg plus, if_neg minus]
      cases asks : k.takesParam m false with
      | false =>
          rw [if_neg Bool.false_ne_true]
          refine run_unset ?_ plus minus _ _
          rw [change_held_self]
          exact k.put_false_none known asks
      | true =>
          rw [if_pos rfl]
          cases v with
          | none => exact absurd List.mem_cons_self (k.none_notMem_of_asks fits asks)
          | some p =>
              rw [List.filterMap_cons_some (f := id) rfl, List.head?_cons, List.tail_cons]
              refine ih ?_
              rw [change_held_self, all]
              exact k.put_false_head fits asks

theorem foldl_scanMode_unset (on : m ∈ c.lockedOn) (known : (k.kind m).isSome) (n : Nat) :
    ('-' :: List.replicate (n + 1) m).foldl c.scanMode {} = ⟨[m], [], false⟩ := by
  have listed : (m == 'r' || c.lockOn.toList.contains m) = true := by
    simpa [ChannelInfo.lockedOn] using on
  have plus := k.ne_plus known
  have minus := k.ne_minus known
  have alpha := k.letter m known
  have first : c.scanMode ⟨[], [], false⟩ m = ⟨[m], [], false⟩ := by
    unfold ChannelInfo.scanMode
    rw [if_neg plus, if_neg minus, if_pos alpha, listed]
    rfl
  have again : c.scanMode ⟨[m], [], false⟩ m = ⟨[m], [], false⟩ := by
    unfold ChannelInfo.scanMode
    rw [if_neg plus, if_neg minus, if_pos alpha]
    simp
  have turned : c.scanMode {} '-' = ⟨[], [], false⟩ := rfl
  rw [List.foldl_cons, turned, List.replicate_succ, List.foldl_cons, first]
  induction n with
  | zero => rfl
  | succ n ih => rw [List.replicate_succ, List.foldl_cons, again, ih]

theorem foldl_scanMode_set (off : m ∈ c.lockOff.toList) (apart : m ∉ c.lockedOn)
    (known : (k.kind m).isSome) : ['+', m].foldl c.scanMode {} = ⟨[], [m], true⟩ := by
  have unlisted : (m == 'r' || c.lockOn.toList.contains m) = false := by
    simpa [ChannelInfo.lockedOn] using apart
  have kept : c.lockOff.toList.contains m = true := by simpa using off
  have turned : c.scanMode {} '+' = {} := rfl
  rw [List.foldl_cons, turned, List.foldl_cons, List.foldl_nil]
  unfold ChannelInfo.scanMode
  rw [if_neg (k.ne_plus known), if_neg (k.ne_minus known), if_pos (k.letter m known), unlisted, kept]
  rfl

/-- A sign and a letter that gets no parameter it wants come to nothing. -/
theorem apply_bare {sign : Char} (signed : sign = '+' ∨ sign = '-') (known : (k.kind m).isSome)
    (wants : k.takesParam m (sign == '+') = true) :
    (s.apply (String.ofList [sign, m])).held m = s.held m := by
  have solid : (m == ' ') = false := by
    rw [beq_eq_false_iff_ne]
    exact fun same => absurd (k.letter m known) (same ▸ by decide)
  have word : words (· == ' ') [sign, m] = [[sign, m]] := by
    refine words_solid (by simp) fun a mem => ?_
    rcases signed with rfl | rfl <;> rcases List.mem_pair.mp mem with rfl | rfl <;> first | rfl | exact solid
  unfold Modes.apply
  rw [String.toList_ofList, word]
  dsimp only
  rcases signed with rfl | rfl
  · have wants : k.takesParam m true = true := wants
    rw [run, if_pos rfl, run, if_neg (k.ne_plus known), if_neg (k.ne_minus known), if_pos wants]
    refine (change_held_self s).trans ?_
    exact k.put_none wants
  · have wants : k.takesParam m false = true := wants
    rw [run, if_neg (by decide), if_pos rfl, run, if_neg (k.ne_plus known),
      if_neg (k.ne_minus known), if_pos wants]
    refine (change_held_self s).trans ?_
    exact k.put_none wants

theorem enforceable_of_restored (held : s.Satisfies c) (restored : s.Restored c) :
    c.Enforceable k := by
  constructor
  · intro m on wants free
    have set := (held.on m on).ne_nil
    have known := (held.on m on).known
    obtain ⟨n, size⟩ := Nat.exists_eq_succ_of_ne_zero (mt List.length_eq_zero_iff.mp set)
    -- The change that takes away all there is of the mode.
    let d : ModeChange :=
      ⟨String.ofList ('-' :: List.replicate (s.held m).length m), (s.held m).filterMap id⟩
    have cleared : (s.changed d).held m = [] := by
      unfold changed
      rw [String.toList_ofList, run, if_neg (by decide), if_pos rfl]
      exact run_clearing known
    have answer : c.enforce d.letters = some (String.ofList ['+', m]) := by
      unfold ChannelInfo.enforce
      rw [String.toList_ofList, size, foldl_scanMode_unset on known]
      simp [ChannelInfo.revert, free]
    obtain ⟨back, _⟩ := restored d d.letters (.inl rfl)
    unfold enforced at back
    rw [answer] at back
    refine (back.on m on).ne_nil ?_
    rw [apply_bare (.inl rfl) known wants]
    exact cleared
  · intro m off
    by_contra asks
    rw [Bool.not_eq_false] at asks
    have known := k.known_of_takesParam asks
    have apart : m ∉ c.lockedOn := fun on => held.apart m on off
    have wants := k.takesParam_true asks
    let x : Param := ⟨"x", by decide⟩
    let d : ModeChange := ⟨String.ofList ['+', m], [x]⟩
    have set : some x ∈ (s.changed d).held m := by
      unfold changed
      rw [String.toList_ofList, run, if_pos rfl, run, if_neg (k.ne_plus known),
        if_neg (k.ne_minus known), if_pos wants, List.head?_cons, run, change_held_self]
      exact k.mem_put_true known wants
    have answer : c.enforce d.letters = some (String.ofList ['-', m]) := by
      unfold ChannelInfo.enforce
      rw [String.toList_ofList, foldl_scanMode_set off apart known]
      simp [ChannelInfo.revert]
    obtain ⟨back, _⟩ := restored d d.letters (.inl rfl)
    unfold enforced at back
    rw [answer] at back
    have gone := back.off m off
    rw [apply_bare (.inr rfl) known asks] at gone
    rw [gone] at set
    cases set

/-- The lock comes back after every change exactly where each mode kept on is locked with
the parameter it wants, and each kept off can be unset without one. -/
theorem restored_iff_enforceable (k : ModeSet) (c : ChannelInfo) (s : Modes k)
    (held : s.Satisfies c) : s.Restored c ↔ c.Enforceable k :=
  ⟨enforceable_of_restored held, restored_of_enforceable held⟩

/-- A flood lock with its value, and a channel it was applied to. -/
def floodLock : ChannelInfo where
  name := "#c"
  founder := "alice"
  ts := 0
  lockOn := "nf"
  lockOff := "s"
  lockParams := [('f', "5:10")]
  lastUsed := 0

theorem flood_restored :
    (bare.apply floodLock.lockModes : Modes .standard).Restored floodLock :=
  (restored_iff_enforceable .standard floodLock (bare.apply floodLock.lockModes)
    ⟨forall_of_all (by decide), forall_of_all (by decide)⟩).mpr
    ⟨forall_of_all (by decide), forall_of_all (by decide)⟩

/-- `MLOCK #c +l 10` keeps the mode and not its value. -/
def limiting : List Action :=
  let (on, off, params) := parseMlock ["+l", "10"]
  [.call .still (.registerChannel "#c" "alice"),
    .call .still (.setMlockParams "#c" on off params)]

/-- With the limit taken away, what services send to bring it back has no value. -/
theorem limit_not_restored :
    ∃ c, (after Db.step (Db.fresh "a") limiting).channels["#c"]? = some c ∧
      (∀ m ∈ c.lockOn.toList, m ∉ c.lockOff.toList) ∧
      (bare.apply "+rl 10" : Modes .standard).Satisfies c ∧
      c.enforce "-l" = some "+l" ∧
      ¬ (bare.apply "+rl 10" : Modes .standard).Restored c := by
  refine ⟨{ newChannel "#c" "alice" 0 with lockOn := "l" }, by decide +kernel,
    forall_of_all (by decide), ⟨forall_of_all (by decide), forall_of_all (by decide)⟩, by decide, ?_⟩
  intro restored
  obtain ⟨back, _⟩ := restored ⟨"-l", []⟩ "-l" (.inl rfl)
  exact absurd (back.on 'l' (by decide)) (by decide)

end Modes

end Echo
