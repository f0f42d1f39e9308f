import Echo.Db.File

/-!
A crash in the middle of `persist`: the file is cut somewhere in its last record,
the log is opened over what is left, further entries are appended, and the file
is opened again.

The reader takes lines, and the writer appends where the file ends. So a cut that
leaves part of a record leaves a line without its end, and the next record is
written onto that line; and a cut inside a character leaves a file that is not
text at all, which the reader treats as empty.
-/

namespace Echo

open Echo.Lib
open Echo.Lib.Brackets (Value Object Text)

/-- The entries whose text is in what a crash left of their file. -/
def survivors (serde : Serde) (earlier : List LogEntry) (last : LogEntry) (torn : List UInt8) :
    List LogEntry :=
  if records serde earlier ++ encode (serde.toString last) <+: torn then earlier ++ [last]
  else earlier

section Torn

variable {serde : Serde} {earlier : List LogEntry} {last : LogEntry}

/-- The text that is cut is a beginning of the last record: nothing of it, all of
it, or a beginning of its entry's text. -/
theorem cut_cases {front lost : List UInt8} (cut : record serde last = front ++ lost)
    (text : IsUtf8 front) :
    front = [] ∨ lost = [] ∨
      ∃ p q, p ≠ [] ∧ serde.toString last = p ++ q ∧ front = encode p ∧
        lost = encode (q ++ ['\n']) := by
  obtain ⟨p, rfl⟩ := text
  unfold record at cut
  obtain ⟨rest, spelt⟩ := prefix_of_encode cut.symm
  have tail : lost = encode rest := by
    rw [← spelt, encode_append] at cut
    exact (List.append_cancel_left cut).symm
  by_cases nothing : p = []
  · left
    rw [nothing, encode_nil]
  · right
    rcases List.eq_nil_or_concat rest with rfl | ⟨q, c, rfl⟩
    · left
      exact tail
    · right
      unfold recordText at spelt
      rw [List.concat_eq_append, ← List.append_assoc] at spelt
      obtain ⟨body, newline⟩ := List.append_inj' spelt rfl
      rw [List.concat_eq_append, newline] at tail
      exact ⟨p, q, nothing, body.symm, rfl, tail⟩

/-- A file cut inside a character reads as empty, whatever is written behind
the cut. -/
theorem readLog_broken {torn lost : List UInt8} {entries appended : List LogEntry}
    (cut : records serde entries = torn ++ lost) (broken : ¬ IsUtf8 torn) :
    readLog serde (torn ++ records serde appended) = [] := by
  have still : ¬ IsUtf8 (torn ++ records serde appended) :=
    fun valid => broken (isUtf8_of_append cut (startable_encode _) valid)
  unfold readLog
  rw [decode_eq_none still]

variable {p q : List Char}

theorem torn_printable (faithful : serde.Faithful last) (cut : serde.toString last = p ++ q) :
    ∀ c ∈ p, 32 ≤ c.toNat := by
  intro c mem
  refine faithful.printable c ?_
  rw [cut]
  exact List.mem_append_left q mem

theorem torn_not_blank (faithful : serde.Faithful last) (cut : serde.toString last = p ++ q)
    (kept : p ≠ []) (rest : List Char) : (p ++ rest).all isWhitespace = false := by
  obtain ⟨c, tail, spelt, bracket⟩ := faithful.value.cons
  cases p with
  | nil => contradiction
  | cons d p =>
      rw [cut] at spelt
      obtain rfl : d = c := (List.cons.inj spelt).1
      exact not_blank bracket

/-- The beginning of a record, left at the end of the file, reads as no entry
unless it is the whole of its text. -/
theorem readLog_torn (strict : serde.Strict) (faithful : ∀ e ∈ earlier ++ [last], serde.Faithful e)
    (cut : serde.toString last = p ++ q) (kept : p ≠ []) :
    readLog serde (records serde earlier ++ encode p) =
      if q = [] then earlier ++ [last] else earlier := by
  have final : serde.Faithful last := faithful last (by simp)
  have before : ∀ e ∈ earlier, serde.Faithful e :=
    fun e mem => faithful e (List.mem_append_left [last] mem)
  have blank : p.all isWhitespace = false := by
    have any := torn_not_blank final cut kept []
    rwa [List.append_nil] at any
  rw [readLog_records_encode before, parseLines_last (torn_printable final cut) blank]
  by_cases whole : q = []
  · rw [if_pos whole]
    rw [whole, List.append_nil] at cut
    rw [← cut, final.reads_back]
    rfl
  · rw [if_neg whole]
    cases read : serde.fromStr p with
    | none => exact List.append_nil earlier
    | some e =>
        exact absurd (strict p e read) (final.value.not_text_of_front cut kept whole)

/-- The first record written behind the beginning of another is lost with it. -/
theorem readLog_merged (strict : serde.Strict)
    (faithful : ∀ e ∈ earlier ++ [last], serde.Faithful e) (cut : serde.toString last = p ++ q)
    (kept : p ≠ []) {next : LogEntry} {rest : List LogEntry}
    (faithful' : ∀ e ∈ next :: rest, serde.Faithful e) :
    readLog serde (records serde earlier ++ encode p ++ records serde (next :: rest)) =
      earlier ++ rest := by
  have final : serde.Faithful last := faithful last (by simp)
  have head : serde.Faithful next := faithful' next List.mem_cons_self
  have spelt : records serde earlier ++ encode p ++ records serde (next :: rest) =
      records serde earlier ++
        encode ((p ++ serde.toString next) ++ '\n' :: rest.flatMap (recordText serde)) := by
    unfold records
    rw [List.append_assoc, ← encode_append]
    simp [recordText]
  have printable : ∀ c ∈ p ++ serde.toString next, 32 ≤ c.toNat := by
    intro c mem
    rcases List.mem_append.mp mem with mem | mem
    · exact torn_printable final cut c mem
    · exact head.printable c mem
  have unread : serde.fromStr (p ++ serde.toString next) = none := by
    cases read : serde.fromStr (p ++ serde.toString next) with
    | none => rfl
    | some e =>
        exact absurd (strict _ e read) (final.value.not_text_append cut kept head.value)
  have after : parseLines serde (rest.flatMap (recordText serde)) = rest := by
    have all := parseLines_records (fun e mem => faithful' e (List.mem_cons_of_mem next mem)) []
    rw [List.append_nil] at all
    rw [all]
    exact List.append_nil rest
  rw [spelt, readLog_records_encode fun e mem => faithful e (List.mem_append_left [last] mem),
    parseLines_newline printable (torn_not_blank final cut kept _), unread, after]
  rfl

/-- Part of a record's text is the whole of it only if nothing is missing. -/
theorem survivors_torn (cut : serde.toString last = p ++ q) :
    survivors serde earlier last (records serde earlier ++ encode p) =
      if q = [] then earlier ++ [last] else earlier := by
  unfold survivors
  refine if_congr ?_ rfl rfl
  rw [List.prefix_append_right_inj, cut, encode_append]
  constructor
  · intro whole
    have length := whole.length_le
    rw [List.length_append] at length
    exact encode_eq_nil (List.length_eq_zero_iff.mp (by omega))
  · rintro rfl
    rw [encode_nil, List.append_nil]

theorem survivors_none (faithful : serde.Faithful last) :
    survivors serde earlier last (records serde earlier) = earlier := by
  have part := @survivors_torn serde earlier last [] (serde.toString last) rfl
  rw [encode_nil, List.append_nil, if_neg faithful.value.ne_nil] at part
  exact part

theorem survivors_all :
    survivors serde earlier last (records serde (earlier ++ [last])) = earlier ++ [last] := by
  unfold survivors
  rw [if_pos]
  rw [records_concat, List.prefix_append_right_inj]
  unfold record recordText
  rw [encode_append]
  exact List.prefix_append _ _

/-- A cut inside a character leaves the last entry incomplete. -/
theorem survivors_broken {front lost : List UInt8} (cut : record serde last = front ++ lost)
    (broken : ¬ IsUtf8 front) :
    survivors serde earlier last (records serde earlier ++ front) = earlier := by
  unfold survivors
  rw [if_neg]
  rw [List.prefix_append_right_inj]
  rintro ⟨extra, spelt⟩
  unfold record recordText at cut
  rw [encode_append, ← spelt, List.append_assoc] at cut
  have newline : [10] = extra ++ lost := List.append_cancel_left cut
  cases extra with
  | nil =>
      rw [List.append_nil] at spelt
      exact broken ⟨_, spelt.symm⟩
  | cons byte extra =>
      have rest := (List.cons.inj newline).2
      obtain rfl := (List.append_eq_nil_iff.mp rest.symm).1
      obtain rfl : 10 = byte := (List.cons.inj newline).1
      exact broken ⟨serde.toString last ++ ['\n'], by rw [← spelt, encode_append]; rfl⟩

/-- What opening the file again yields, against what should be in it. -/
theorem reread_iff (strict : serde.Strict) (faithful : ∀ e ∈ earlier ++ [last], serde.Faithful e)
    {front lost : List UInt8} (cut : record serde last = front ++ lost) {appended : List LogEntry}
    (faithful' : ∀ e ∈ appended, serde.Faithful e) :
    readLog serde (records serde earlier ++ front ++ records serde appended) =
        survivors serde earlier last (records serde earlier ++ front) ++ appended ↔
      front = [] ∨ lost = [] ∨
        appended = [] ∧ (IsUtf8 (records serde earlier ++ front) ∨ earlier = []) := by
  have final : serde.Faithful last := faithful last (by simp)
  have before : ∀ e ∈ earlier, serde.Faithful e :=
    fun e mem => faithful e (List.mem_append_left [last] mem)
  by_cases text : IsUtf8 front
  · have fine : IsUtf8 (records serde earlier ++ front) := by
      exact (isUtf8_encode_append_iff _ front).mpr text
    rcases cut_cases cut text with rfl | rfl | ⟨p, q, kept, spelt, rfl, rest⟩
    · have whole := @readLog_records serde (earlier ++ appended) (by
        intro e mem
        rcases List.mem_append.mp mem with mem | mem
        · exact before e mem
        · exact faithful' e mem)
      rw [List.append_nil, ← records_append, whole, survivors_none final]
      exact iff_of_true rfl (.inl rfl)
    · have whole := @readLog_records serde (earlier ++ [last] ++ appended) (by
        intro e mem
        rcases List.mem_append.mp mem with mem | mem
        · exact faithful e mem
        · exact faithful' e mem)
      rw [List.append_nil] at cut
      rw [← cut, ← records_concat, ← records_append, whole, survivors_all]
      exact iff_of_true rfl (.inr (.inl rfl))
    · have some : encode p ≠ [] := fun nothing => kept (encode_eq_nil nothing)
      have missing : lost ≠ [] := by
        rw [rest]
        intro nothing
        exact List.append_ne_nil_of_right_ne_nil q (by simp) (encode_eq_nil nothing)
      rw [survivors_torn spelt]
      cases appended with
      | nil =>
          have alone := readLog_torn strict faithful spelt kept
          rw [show records serde [] = [] from rfl, List.append_nil, List.append_nil, alone]
          exact iff_of_true rfl (.inr (.inr ⟨rfl, .inl fine⟩))
      | cons next more =>
          rw [readLog_merged strict faithful spelt kept faithful']
          refine iff_of_false (fun same => ?_) ?_
          · have length := congrArg List.length same
            simp only [List.length_append, List.length_cons] at length
            split at length
            · rw [List.length_append] at length
              omega
            · omega
          · rintro (nothing | nothing | ⟨nothing, _⟩)
            · exact some nothing
            · exact missing nothing
            · exact List.cons_ne_nil next more nothing
  · have cut' : records serde (earlier ++ [last]) = records serde earlier ++ front ++ lost := by
      rw [records_concat, cut, List.append_assoc]
    have broken : ¬ IsUtf8 (records serde earlier ++ front) :=
      fun valid => text ((isUtf8_encode_append_iff _ front).mp valid)
    rw [readLog_broken cut' broken, survivors_broken cut text]
    have nonempty : front ≠ [] := by
      rintro rfl
      exact text ⟨[], rfl⟩
    have missing : lost ≠ [] := by
      rintro rfl
      rw [List.append_nil] at cut
      exact text ⟨_, cut.symm⟩
    constructor
    · intro same
      obtain ⟨none, nothing⟩ := List.append_eq_nil_iff.mp same.symm
      exact .inr (.inr ⟨nothing, .inr none⟩)
    · rintro (nothing | nothing | ⟨rfl, valid | rfl⟩)
      · exact absurd nothing nonempty
      · exact absurd nothing missing
      · exact absurd valid broken
      · rfl

end Torn

namespace Disk

/-- For every file a run leaves and every cut of its last record: opening it,
appending entries and opening it again yields what had been fully written and what
was appended, in order, exactly if the cut loses the whole record or nothing, or
nothing is appended and the cut leaves text (or there was nothing before). -/
theorem crash_durable_iff (serde : Serde) (strict : serde.Strict) (origin : String)
    (actions : List LogAction)
    (run : Along (step serde) (Prints serde) (fresh serde origin) actions)
    {earlier : List LogEntry} {last : LogEntry}
    (entries : (after (step serde) (fresh serde origin) actions).log.entries = earlier ++ [last])
    {torn lost : List UInt8}
    (cut : (after (step serde) (fresh serde origin) actions).file = torn ++ lost)
    (final : lost.length ≤ (record serde last).length)
    (appended : List LogEntry) (faithful : ∀ e ∈ appended, serde.Faithful e) :
    let reopened := reopen serde origin torn
    (reopen serde origin (appended.foldl (persist serde) reopened.file)).log.entries =
        survivors serde earlier last torn ++ appended ↔
      torn = records serde earlier ∨ lost = [] ∨
        appended = [] ∧ (IsUtf8 torn ∨ earlier = []) := by
  have intact := intact_after origin actions run
  have written := intact.file
  rw [entries, records_concat, cut] at written
  obtain ⟨front, rfl, whole⟩ : ∃ front, torn = records serde earlier ++ front ∧
      record serde last = front ++ lost := by
    rcases List.append_eq_append_iff.mp written with ⟨extra, before, rest⟩ | ⟨front, here, rest⟩
    · have length := congrArg List.length rest
      rw [List.length_append] at length
      obtain rfl : extra = [] := List.length_eq_zero_iff.mp (by omega)
      exact ⟨[], by rw [before, List.append_nil, List.append_nil], rest.symm⟩
    · exact ⟨front, here, rest⟩
  intro reopened
  have readable : ∀ e ∈ earlier ++ [last], serde.Faithful e := by
    rw [← entries]
    exact intact.faithful
  rw [foldl_persist]
  show (EventLog.open' origin (readLog serde _)).entries = _ ↔ _
  rw [EventLog.open_entries, List.append_right_eq_self]
  exact reread_iff strict readable whole faithful

/-! A node "a" that has verified two accounts when it crashes, and a third after
its restart, with the text of each record. -/

def verifiedFirst : LogEntry := ⟨"a", 0, 1, 0, none, .accountVerified "b"⟩

def verifiedSecond : LogEntry := ⟨"a", 1, 2, 0, none, .accountVerified "c"⟩

def verifiedThird : LogEntry := ⟨"a", 1, 2, 0, none, .accountVerified "d"⟩

def verifiedTexts : List (LogEntry × List Char) :=
  [(verifiedFirst,
      "\x7b\"origin\":\"a\",\"seq\":0,\"lamport\":1,\"event\":\"AccountVerified\",\"account\":\"b\"\x7d".toList),
    (verifiedSecond,
      "\x7b\"origin\":\"a\",\"seq\":1,\"lamport\":2,\"event\":\"AccountVerified\",\"account\":\"c\"\x7d".toList),
    (verifiedThird,
      "\x7b\"origin\":\"a\",\"seq\":1,\"lamport\":2,\"event\":\"AccountVerified\",\"account\":\"d\"\x7d".toList)]

/-- The JSON library on these records. -/
def verifiedSerde : Serde := Serde.ofTable verifiedTexts

theorem verifiedTexts_value : ∀ known ∈ verifiedTexts, Object known.2 := by
  decide +kernel

theorem verifiedSerde_strict : verifiedSerde.Strict := Serde.ofTable_strict verifiedTexts_value

theorem verifiedSerde_faithful :
    ∀ e ∈ [verifiedFirst, verifiedSecond, verifiedThird], verifiedSerde.Faithful e := by
  intro e mem
  simp only [List.mem_cons, List.not_mem_nil, or_false] at mem
  refine Serde.ofTable_faithful verifiedTexts_value rfl ?_ ?_
  · rcases mem with rfl | rfl | rfl <;> decide
  · rcases mem with rfl | rfl | rfl <;> decide

def verifiedRun : List LogAction :=
  [.append (.accountVerified "b"), .append (.accountVerified "c")]

theorem verifiedRun_prints :
    Along (step verifiedSerde) (Prints verifiedSerde) (fresh verifiedSerde "a") verifiedRun := by
  refine (intact_fresh "a").along ?_
  rw [fresh_eq]
  refine ⟨fun e mem => verifiedSerde_faithful e ?_, fun e mem => verifiedSerde_faithful e ?_, trivial⟩
  · exact List.mem_of_mem_take (i := 1) mem
  · exact List.mem_of_mem_take (i := 2) mem

theorem verifiedRun_entries :
    (after (step verifiedSerde) (fresh verifiedSerde "a") verifiedRun).log.entries =
      [verifiedFirst] ++ [verifiedSecond] := by
  rw [after_log "a" verifiedRun verifiedRun_prints]
  decide

/-- What the crash leaves, and what it loses, of the second record. -/
def verifiedTorn : List UInt8 :=
  records verifiedSerde [verifiedFirst] ++ encode ((verifiedSerde.toString verifiedSecond).take 30)

def verifiedLost : List UInt8 :=
  encode ((verifiedSerde.toString verifiedSecond).drop 30 ++ ['\n'])

theorem verifiedRun_file :
    (after (step verifiedSerde) (fresh verifiedSerde "a") verifiedRun).file =
      verifiedTorn ++ verifiedLost := by
  have file := (intact_after "a" verifiedRun verifiedRun_prints).file
  rw [verifiedRun_entries, records_concat] at file
  rw [file]
  unfold verifiedTorn verifiedLost record recordText
  rw [List.append_assoc, ← encode_append, ← List.append_assoc, List.take_append_drop]

theorem verifiedTorn_cut :
    verifiedSerde.toString verifiedSecond =
      (verifiedSerde.toString verifiedSecond).take 30 ++
        (verifiedSerde.toString verifiedSecond).drop 30 := (List.take_append_drop 30 _).symm

theorem verifiedTorn_faithful :
    ∀ e ∈ [verifiedFirst] ++ [verifiedSecond], verifiedSerde.Faithful e :=
  fun e mem => verifiedSerde_faithful e (List.mem_of_mem_take (i := 2) mem)

theorem verifiedTorn_reads : readLog verifiedSerde verifiedTorn = [verifiedFirst] :=
  (readLog_torn verifiedSerde_strict verifiedTorn_faithful verifiedTorn_cut (by decide)).trans
    (if_neg (by decide))

/-- The crash loses the second entry, and the restart the third: its record is
written onto what is left of the second. -/
theorem torn_record_swallows_next :
    let reopened := reopen verifiedSerde "a" verifiedTorn
    let grown := reopened.step verifiedSerde (.append (.accountVerified "d"))
    (after (step verifiedSerde) (fresh verifiedSerde "a") verifiedRun).file =
        verifiedTorn ++ verifiedLost ∧
      grown.log.entries = [verifiedFirst, verifiedThird] ∧
      (reopen verifiedSerde "a" grown.file).log.entries ≠
        survivors verifiedSerde [verifiedFirst] verifiedSecond verifiedTorn ++ [verifiedThird] := by
  have reopened : reopen verifiedSerde "a" verifiedTorn =
      { log := EventLog.open' "a" [verifiedFirst], file := verifiedTorn } := by
    unfold reopen
    rw [verifiedTorn_reads]
  have grown : (reopen verifiedSerde "a" verifiedTorn).step verifiedSerde
      (.append (.accountVerified "d")) =
        { log := ( EventLog.open' "a" [verifiedFirst]).committed (.accountVerified "d")
          file := persist verifiedSerde verifiedTorn verifiedThird } := by
    rw [reopened]
    unfold step
    dsimp only
    rw [EventLog.append_of_writable (by rfl)]
    rfl
  have reads : readLog verifiedSerde (persist verifiedSerde verifiedTorn verifiedThird) =
      [verifiedFirst] := by
    unfold persist
    rw [← records_singleton]
    exact readLog_merged verifiedSerde_strict verifiedTorn_faithful verifiedTorn_cut (by decide)
      fun e mem => verifiedSerde_faithful e (List.mem_of_mem_drop (i := 2) mem)
  intro _ _
  refine ⟨verifiedRun_file, ?_, ?_⟩
  · show ((reopen verifiedSerde "a" verifiedTorn).step verifiedSerde
      (.append (.accountVerified "d"))).log.entries = _
    rw [grown]
    decide
  · show (reopen verifiedSerde "a" ((reopen verifiedSerde "a" verifiedTorn).step verifiedSerde
      (.append (.accountVerified "d"))).file).log.entries ≠ _
    rw [grown]
    show ( EventLog.open' "a" (readLog verifiedSerde
      (persist verifiedSerde verifiedTorn verifiedThird))).entries ≠ _
    rw [reads, EventLog.open_entries]
    intro same
    have length := congrArg List.length same
    unfold verifiedTorn at length
    rw [survivors_torn verifiedTorn_cut, if_neg (by decide)] at length
    exact absurd length (by decide)

theorem crash_durable_iff_verified :
    let reopened := reopen verifiedSerde "a" verifiedTorn
    (reopen verifiedSerde "a" ([].foldl (persist verifiedSerde) reopened.file)).log.entries =
        survivors verifiedSerde [verifiedFirst] verifiedSecond verifiedTorn ++ [] := by
  refine (crash_durable_iff verifiedSerde verifiedSerde_strict "a" verifiedRun verifiedRun_prints
    verifiedRun_entries verifiedRun_file ?_ [] (by simp)).mpr (.inr (.inr ⟨rfl, .inl ?_⟩))
  · have whole : record verifiedSerde verifiedSecond =
        encode ((verifiedSerde.toString verifiedSecond).take 30) ++ verifiedLost := by
      unfold record recordText verifiedLost
      rw [← encode_append, ← List.append_assoc, List.take_append_drop]
    rw [whole, List.length_append]
    omega
  · exact ⟨_, (encode_append _ _).symm⟩

end Disk

end Echo
