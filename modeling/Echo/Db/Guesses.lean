import Echo.Db.Codes

/-!
The life of an e-mailed code. From its issue a code stands until another is issued to
the account, services restart, it is accepted, its time runs out or the guesses do; a
code that is accepted was standing, whatever the clock showed in between.
-/

namespace Echo.Session

open Std (ExtTreeMap)
open Echo.Lib

/-- The step takes the account's code away, whatever it is: another is issued to the
account, or services restart. -/
def Replaces (k : String) : Action → Prop
  | .store a => a = .reopen
  | .issueCode _ account _ _ => key account = k
  | .takeCode .. => False

/-- The step is a guess at the account's code. -/
def Guesses (k : String) : Action → Bool
  | .takeCode _ account _ _ => key account == k
  | _ => false

/-- The guess is taken for right. -/
def Accepts (s : Session) : Action → Prop
  | .takeCode now account kind code => (s.takeCode now account kind code).2 = true
  | _ => False

/-- What has happened since a code was issued, which left `s`: nothing took it away,
the guesses at it were wrong, and they were few. -/
structure Stands (k : String) (s : Session) (since : List Action) : Prop where
  unreplaced : ∀ a ∈ since, ¬ Replaces k a
  wrong : Along step (fun s a => Guesses k a = true → ¬ Accepts s a) s since
  few : since.countP (Guesses k) < codeTries

/-- The run issued the pending code, which has stood since and has the guesses left
that were not made. -/
structure Issued (origin : String) (before : List Action) (k : String) (pc : PendingCode)
    (earlier : List Action) (issued : Nat) (account : String) (since : List Action) : Prop where
  run : before = earlier ++ .issueCode issued account pc.kind pc.code :: since
  same : key account = k
  deadline : pc.deadline = issued + 900
  stands : Stands k (after step (fresh origin)
    (earlier ++ [.issueCode issued account pc.kind pc.code])) since
  left : 0 < pc.triesLeft
  guesses : pc.triesLeft + since.countP (Guesses k) = codeTries

variable {s : Session} {k : String} {pc : PendingCode}

theorem codes_issueCode {now : Nat} {account : String} {kind : CodeKind} {code : String} :
    (s.issueCode now account kind code).codes[k]? =
      if key account = k then some ⟨kind, code, now + 900, codeTries⟩ else s.codes[k]? := by
  change (s.codes.insert (key account) _)[k]? = _
  rw [ExtTreeMap.getElem?_insert]
  simp

/-- What a guess leaves of the codes: those of other accounts, and its account's code
with one guess less, if the guess was wrong and not the last. -/
theorem codes_takeCode {now : Nat} {account : String} {kind : CodeKind} {code : String}
    (held : (s.takeCode now account kind code).1.codes[k]? = some pc) :
    (key account ≠ k ∧ s.codes[k]? = some pc) ∨
      key account = k ∧ (s.takeCode now account kind code).2 = false ∧ 0 < pc.triesLeft ∧
        s.codes[k]? = some { pc with triesLeft := pc.triesLeft + 1 } := by
  by_cases same : key account = k
  · subst same
    have gone : (s.codes.erase (key account))[key account]? ≠ some pc := by simp
    right
    unfold takeCode at held ⊢
    split at held
    · rename_i none_
      rw [none_] at held
      contradiction
    · rename_i was now_
      split at held
      · exact absurd held gone
      split at held
      · exact absurd held gone
      split at held
      · exact absurd held gone
      · rename_i late wrong last
        change (s.codes.insert (key account) _)[key account]? = some pc at held
        rw [ExtTreeMap.getElem?_insert_self] at held
        cases held
        simp only [now_, if_neg late, if_neg wrong, if_neg last]
        refine ⟨trivial, trivial, by omega, ?_⟩
        have back : was.triesLeft - 1 + 1 = was.triesLeft := by omega
        rw [back]
  · left
    refine ⟨same, ?_⟩
    unfold takeCode at held
    have other (pc' : PendingCode) : (s.codes.insert (key account) pc')[k]? = s.codes[k]? := by
      rw [ExtTreeMap.getElem?_insert, if_neg]
      simpa using same
    have erased : (s.codes.erase (key account))[k]? = s.codes[k]? := by
      rw [ExtTreeMap.getElem?_erase, if_neg]
      simpa using same
    split at held
    · exact held
    · split at held
      · exact erased ▸ held
      split at held
      · exact erased ▸ held
      split at held
      · exact erased ▸ held
      · exact other _ ▸ held

theorem Stands.concat {since : List Action} {a : Action} (h : Stands k s since)
    (keeps : ¬ Replaces k a)
    (wrong : Guesses k a = true → ¬ Accepts (after step s since) a)
    (few : (since ++ [a]).countP (Guesses k) < codeTries) : Stands k s (since ++ [a]) where
  unreplaced := by
    intro b mem
    rcases List.mem_append.mp mem with old | new
    · exact h.unreplaced b old
    · rw [List.mem_singleton.mp new]
      exact keeps
  wrong := along_append.mpr ⟨h.wrong, wrong, trivial⟩
  few := few

/-- A code that stands stands on after a step that leaves it as it was. -/
theorem Issued.other {origin : String} {before earlier since : List Action} {issued : Nat}
    {account : String} {a : Action} (h : Issued origin before k pc earlier issued account since)
    (keeps : ¬ Replaces k a) (noGuess : Guesses k a = false) :
    Issued origin (before ++ [a]) k pc earlier issued account (since ++ [a]) := by
  have count : (since ++ [a]).countP (Guesses k) = since.countP (Guesses k) := by
    rw [List.countP_append, List.countP_singleton, noGuess]
    rfl
  refine ⟨by simp [h.run], h.same, h.deadline, ?_, h.left, by rw [count, h.guesses]⟩
  refine h.stands.concat keeps ?_ (by rw [count]; exact h.stands.few)
  rw [noGuess]
  exact fun guess => absurd guess Bool.false_ne_true

/-- A wrong guess that is not the last takes one from those left. -/
theorem Issued.guess {origin : String} {before earlier since : List Action} {issued now : Nat}
    {account other : String} {kind : CodeKind} {code : String}
    (h : Issued origin before k { pc with triesLeft := pc.triesLeft + 1 } earlier issued account since)
    (same : key other = k) (left : 0 < pc.triesLeft)
    (wrong : ((after step (fresh origin) before).takeCode now other kind code).2 = false) :
    Issued origin (before ++ [.takeCode now other kind code]) k pc earlier issued account
      (since ++ [.takeCode now other kind code]) := by
  have guess : Guesses k (.takeCode now other kind code) = true := by simp [Guesses, same]
  have guesses : pc.triesLeft + 1 + since.countP (Guesses k) = codeTries := h.guesses
  have count : (since ++ [Action.takeCode now other kind code]).countP (Guesses k) =
      since.countP (Guesses k) + 1 := by
    rw [List.countP_append, List.countP_singleton, guess]
    rfl
  refine ⟨by simp [h.run], h.same, h.deadline, ?_, left, by rw [count]; omega⟩
  refine h.stands.concat (fun replaces => replaces) ?_ (by rw [count]; omega)
  intro _ accepts
  have ran := h.run
  rw [List.append_cons] at ran
  rw [← after_append, ← ran] at accepts
  rw [Accepts, wrong] at accepts
  exact Bool.false_ne_true accepts

/-- Every code that is pending after a run was issued in it and has stood since. -/
theorem pending_issued (origin : String) (before : List Action) :
    ∀ pc, (after step (fresh origin) before).codes[k]? = some pc →
      ∃ earlier issued account since, Issued origin before k pc earlier issued account since := by
  induction before using List.reverseRecOn with
  | nil =>
      intro pc held
      change (∅ : Table PendingCode)[k]? = some pc at held
      rw [ExtTreeMap.getElem?_empty] at held
      contradiction
  | append_singleton before a ih =>
      intro pc held
      rw [after_concat] at held
      cases a with
      | store a =>
          by_cases restart : a = .reopen
          · subst restart
            change (∅ : Table PendingCode)[k]? = some pc at held
            rw [ExtTreeMap.getElem?_empty] at held
            contradiction
          · have was : (after step (fresh origin) before).codes[k]? = some pc := by
              cases a with
              | reopen => exact absurd rfl restart
              | _ => exact held
            obtain ⟨earlier, issued, account, since, h⟩ := ih pc was
            exact ⟨_, _, _, _, h.other restart rfl⟩
      | issueCode now account kind code =>
          change ((after step (fresh origin) before).issueCode now account kind code).codes[k]? =
            some pc at held
          rw [codes_issueCode] at held
          split at held
          · rename_i same
            cases held
            refine ⟨before, now, account, [], rfl, same, rfl, ⟨?_, trivial, Nat.succ_pos _⟩,
              Nat.succ_pos _, rfl⟩
            exact fun b mem => absurd mem List.not_mem_nil
          · rename_i other
            obtain ⟨earlier, issued, account', since, h⟩ := ih pc held
            exact ⟨_, _, _, _, h.other other rfl⟩
      | takeCode now account kind code =>
          rcases codes_takeCode held with ⟨other, was⟩ | ⟨same, wrong, left, was⟩
          · obtain ⟨earlier, issued, account', since, h⟩ := ih pc was
            exact ⟨_, _, _, _, h.other (fun replaces => replaces) (by simp [Guesses, other])⟩
          · obtain ⟨earlier, issued, account', since, h⟩ := ih _ was
            exact ⟨_, _, _, _, h.guess same left wrong⟩

/-- A guess is taken for right only while the code stands, in time and for its
purpose. -/
theorem takeCode_accepts {now : Nat} {account : String} {kind : CodeKind} {code : String}
    (accepted : (s.takeCode now account kind code).2 = true) :
    ∃ pc, s.codes[key account]? = some pc ∧ now < pc.deadline ∧ pc.kind = kind ∧ pc.code = code := by
  unfold takeCode at accepted
  split at accepted
  · exact absurd accepted Bool.false_ne_true
  · rename_i pc held
    split at accepted
    · exact absurd accepted Bool.false_ne_true
    rename_i inTime
    split at accepted
    · rename_i right
      exact ⟨pc, held, Nat.lt_of_not_le inTime, right⟩
    · split at accepted <;> exact absurd accepted Bool.false_ne_true

/-- A code that is accepted was issued in the run, to the account and for the purpose,
less than fifteen minutes before; since then no other was issued to the account, it was
not accepted, and fewer than five guesses were made, all of them wrong. -/
theorem accepted_stands (origin : String) (before : List Action) {now : Nat} {account : String}
    {kind : CodeKind} {code : String}
    (accepted : ((after step (fresh origin) before).takeCode now account kind code).2 = true) :
    ∃ earlier issued other since,
      before = earlier ++ .issueCode issued other kind code :: since ∧
        key other = key account ∧ now < issued + 900 ∧
        Stands (key account)
          (after step (fresh origin) (earlier ++ [.issueCode issued other kind code])) since := by
  obtain ⟨pc, held, inTime, rfl, rfl⟩ := takeCode_accepts accepted
  obtain ⟨earlier, issued, other, since, h⟩ := pending_issued origin before pc held
  rw [h.deadline] at inTime
  exact ⟨earlier, issued, other, since, h.run, h.same, inTime, h.stands⟩

/-- The fifth guess after four wrong ones is still in. -/
theorem accepted_stands_fifth :
    ∃ earlier issued other since,
      [.issueCode 0 "alice" .reset "SECRET", .takeCode 1 "Alice" .reset "A",
          .takeCode 2 "alice" .confirm "SECRET", .takeCode 3 "alice" .reset "B",
          .takeCode 4 "alice" .reset "C"] =
          earlier ++ .issueCode issued other .reset "SECRET" :: since ∧
        key other = key "alice" ∧ 899 < issued + 900 ∧
        Stands (key "alice")
          (after step (fresh "a") (earlier ++ [.issueCode issued other .reset "SECRET"])) since :=
  accepted_stands "a" _ (by decide +kernel)

end Echo.Session
