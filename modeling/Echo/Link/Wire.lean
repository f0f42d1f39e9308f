import Echo.Link.Serialize

/-!
The lines for the uplink are read as what they are to say.
-/

namespace Echo.Link

open Echo.Api Echo.Lib Echo.Lib.Irc

/-! ### The formats -/

section Formats

variable {proto : InspIrcd} {now : Nat}

theorem toString_string (s : String) : toString s = s := rfl

/-- A line of its source, as it is written. -/
theorem write_lineOf (source command : String) (middles : List String) (trailing : Option String) :
    (lineOf source command middles trailing).write =
      ':' :: (source.toList ++ ' ' :: (command.toList ++
        writeParams (trailing.map String.toList) (middles.map String.toList))) := by
  simp [lineOf, Line.write, writeTags, writeSource]

theorem toList_foldl_words (data : List String) (line : String) :
    (data.foldl (fun line d => line ++ " " ++ d) line).toList =
      line.toList ++ writeParams none (data.map String.toList) := by
  induction data generalizing line with
  | nil => simp [writeParams]
  | cons d data ih =>
    rw [List.foldl_cons, ih]
    simp [writeParams]

/-- What an action is written as by itself. -/
theorem written (action : NetAction) (single : ∀ tags inner, action ≠ .tagged tags inner)
    (joins : ∀ uid channel modes, action ≠ .serviceJoin uid channel modes) (raw : ∀ line, action ≠ .raw line) :
    (proto.lines now action).map String.toList = (proto.intended now action).map Line.write := by
  cases action with
  | tagged tags inner => exact absurd rfl (single tags inner)
  | serviceJoin uid channel modes => exact absurd rfl (joins uid channel modes)
  | raw line => exact absurd rfl (raw line)
  | sasl =>
    simp [InspIrcd.lines, InspIrcd.intended, write_lineOf, writeParams, InspIrcd.sourced, toString_string,
      toList_foldl_words]
  | forcePart _ _ optional | forceJoin _ _ optional | redact _ _ _ optional | channelMode optional =>
    cases optional.isEmpty.eq_false_or_eq_true with
    | inl none | inr none =>
      simp [InspIrcd.lines, InspIrcd.intended, write_lineOf, writeParams, InspIrcd.sourced, toString_string, given,
        none]
  | topic src channel topic setter =>
    cases setter.isEmpty.eq_false_or_eq_true with
    | inl none | inr none =>
      cases digit : setter.toList.head?.any Char.isDigit <;>
        simp [InspIrcd.lines, InspIrcd.intended, write_lineOf, writeParams, toString_string, given, none, digit,
          Option.filter]
  | standardReply _ src _ command =>
    have giveStar (text : String) : (given text).getD "*" = if text.isEmpty then "*" else text := by
      rw [given]
      split <;> rfl
    simp [InspIrcd.lines, InspIrcd.intended, write_lineOf, writeParams, InspIrcd.sourced, toString_string, giveStar]
  | _ => simp [InspIrcd.lines, InspIrcd.intended, write_lineOf, writeParams, InspIrcd.sourced, toString_string]

end Formats

/-! ### Stripping -/

/-- A line whose fields are plain. -/
structure Fine (line : Line) : Prop where
  keys : ∀ tag ∈ line.tags, (';' ∉ tag.1 ∧ '=' ∉ tag.1 ∧ ' ' ∉ tag.1) ∧ ∀ c ∈ tag.1, kept c = true
  source : ∀ source ∈ line.source, Plain source
  command : Plain line.command ∧ line.command.head? ≠ some '@'
  middles : ∀ middle ∈ line.middles, Plain middle

theorem filter_kept {word : List Char} (all : ∀ c ∈ word, kept c = true) : word.filter kept = word :=
  List.filter_eq_self.mpr all

theorem filter_escape (value : List Char) :
    (value.flatMap escape).filter kept = (value.filter (· ≠ nul)).flatMap escape := by
  induction value with
  | nil => rfl
  | cons c value ih =>
    have one : (escape c).filter kept = if c ≠ nul then escape c else [] := by
      rw [escape.eq_def]
      split
      iterate 5 rfl
      simp_all [kept, List.filter_cons]
    rw [List.flatMap_cons, List.filter_append, ih, one, List.filter_cons]
    split <;> simp_all

theorem filter_intercalate {sep : Char} (keep : kept sep = true) (parts : List (List Char)) :
    ([sep].intercalate parts).filter kept = [sep].intercalate (parts.map (·.filter kept)) := by
  induction parts with
  | nil => rfl
  | cons part parts ih =>
    cases parts with
    | nil => simp
    | cons next parts =>
      rw [List.map_cons, List.map_cons, List.intercalate_cons_cons, List.intercalate_cons_cons, ← List.map_cons,
        ← ih]
      simp [keep]

theorem filter_writeTags {tags : List (List Char × List Char)}
    (keys : ∀ tag ∈ tags, ∀ c ∈ tag.1, kept c = true) :
    (writeTags tags).filter kept = writeTags (tags.map fun tag => (tag.1, tag.2.filter (· ≠ nul))) := by
  by_cases none : tags = []
  · rw [none]
    rfl
  · have one : ∀ tag ∈ tags, (writeTag tag).filter kept = writeTag (tag.1, tag.2.filter (· ≠ nul)) := by
      intro tag mem
      rw [writeTag, List.filter_append, filter_kept (keys tag mem), List.filter_cons_of_pos (by decide), filter_escape]
      rfl
    rw [writeTags_of_ne_nil none, writeTags_of_ne_nil (by simpa using none), List.filter_cons_of_pos (by decide),
      List.filter_append, filter_intercalate (by decide), List.map_map, List.map_map]
    exact congrArg (fun parts => '@' :: ([';'].intercalate parts ++ [' '])) (List.map_congr_left one)

theorem filter_writeParams {middles : List (List Char)} (all : ∀ middle ∈ middles, ∀ c ∈ middle, kept c = true)
    (trailing : Option (List Char)) :
    (writeParams trailing middles).filter kept = writeParams (trailing.map (·.filter kept)) middles := by
  have space : kept ' ' = true := by decide
  have colon : kept ':' = true := by decide
  induction middles with
  | nil => cases trailing <;> simp [writeParams, space, colon]
  | cons middle middles ih =>
    obtain ⟨here, later⟩ := List.forall_mem_cons.mp all
    simp [writeParams, space, filter_kept here, ih later]

theorem filter_write {line : Line} (fine : Fine line) : line.write.filter kept = (clean line).write := by
  have source : (writeSource line.source).filter kept = writeSource line.source := by
    cases found : line.source with
    | none => rfl
    | some source =>
      have space : kept ' ' = true := by decide
      have colon : kept ':' = true := by decide
      simp [writeSource, space, colon, filter_kept (fine.source source found).2]
  rw [Line.write, List.filter_append, List.filter_append, List.filter_append,
    filter_writeTags fun tag mem => (fine.keys tag mem).2, source, filter_kept fine.command.1.2,
    filter_writeParams fun middle mem => (fine.middles middle mem).2]
  rfl

theorem Fine.clean {line : Line} (fine : Fine line) : Fine (clean line) where
  keys := by
    intro tag mem
    obtain ⟨tag, there, rfl⟩ := List.mem_map.mp mem
    exact fine.keys tag there
  source := fine.source
  command := fine.command
  middles := fine.middles

theorem Fine.proper {line : Line} (fine : Fine line) : line.Proper where
  keys tag mem := (fine.keys tag mem).1
  source source mem := (fine.source source mem).1.solid
  command := ⟨fine.command.1.1, fine.command.2⟩
  middles middle mem := (fine.middles middle mem).1

theorem clean_clean (line : Line) : clean (clean line) = clean line := by
  simp [clean, Function.comp_def]

/-- A stripped line is read as what it was to say. -/
theorem readLine_filter {line : Line} (fine : Fine line) :
    readLine (line.write.filter kept) = some (clean line) := by
  rw [filter_write fine, readLine_write fine.clean.proper]

/-! ### The fields of the lines -/

instance (word : List Char) : Decidable (Plain word) :=
  decidable_of_iff ((!word.isEmpty && !word.contains ' ' && word.head? != some ':' && word.all kept) = true) <| by
    simp only [Bool.and_eq_true, Bool.not_eq_true', List.isEmpty_eq_false_iff, List.contains_eq_mem,
      decide_eq_false_iff_not, bne_iff_ne, List.all_eq_true]
    exact ⟨fun h => ⟨⟨h.1.1.1, h.1.1.2, h.1.2⟩, h.2⟩, fun h => ⟨⟨⟨h.1.nonempty, h.1.solid⟩, h.1.plain⟩, h.2⟩⟩

/-- A word of characters none of which is a space, a colon or one that is stripped. -/
theorem plain_of_forall {word : List Char} (nonempty : word ≠ [])
    (all : ∀ c ∈ word, kept c = true ∧ c ≠ ' ' ∧ c ≠ ':') : Plain word where
  left := {
    nonempty
    solid := fun mem => (all ' ' mem).2.1 rfl
    plain := by
      cases word with
      | nil => exact absurd rfl nonempty
      | cons c word => simpa using (all c List.mem_cons_self).2.2 }
  right := fun c mem => (all c mem).1

theorem kept_of_alphanum {c : Char} (alphanum : c.isAlphanum = true) : kept c = true ∧ c ≠ ' ' ∧ c ≠ ':' := by
  refine ⟨?_, ?_, ?_⟩
  · have cr : c ≠ '\r' := by rintro rfl; cases alphanum
    have lf : c ≠ '\n' := by rintro rfl; cases alphanum
    have zero : c ≠ nul := by rintro rfl; cases alphanum
    simp [kept, cr, lf, zero]
  · rintro rfl
    cases alphanum
  · rintro rfl
    cases alphanum

theorem plain_digits (n : Nat) : Plain (Nat.toDigits 10 n) :=
  plain_of_forall Nat.toDigits_ne_nil fun c mem => kept_of_alphanum (by
    simp [Char.isAlphanum, Nat.isDigit_of_mem_toDigits (by decide) (by decide) mem])

theorem plain_membid (n : UInt64) : Plain (toString n).toList := by
  have digits := plain_digits n.toNat
  rw [← Nat.toList_repr] at digits
  exact digits

theorem plain_sid (proto : InspIrcd) : Plain proto.sid.toList := by
  refine plain_of_forall ?_ fun c mem => kept_of_alphanum (List.all_eq_true.mp proto.sidOk.2 c mem)
  intro none
  have size := proto.sidOk.1
  rw [String.toList_eq_nil_iff.mp none] at size
  cases size

theorem plain_serverOf {uid : String} (plain : Plain uid.toList) : Plain (serverOf uid).toList := by
  rw [serverOf]
  split
  · rename_i head tail split
    obtain ⟨whole, size⟩ := splitAtByte_eq_some_iff.mp split
    rw [whole] at plain
    cases head with
    | nil => cases size
    | cons c head =>
      obtain ⟨word, all⟩ := plain
      rw [String.toList_ofList]
      exact ⟨⟨by simp, fun mem => word.solid (List.mem_append_left _ mem), word.plain⟩,
        fun c mem => all c (List.mem_append_left _ mem)⟩
  · exact plain

theorem fine_lineOf {source command : String} {middles : List String} {trailing : Option String}
    (named : Plain source.toList) (upper : Plain command.toList ∧ command.toList.head? ≠ some '@')
    (plain : ∀ middle ∈ middles, Plain middle.toList) : Fine (lineOf source command middles trailing) where
  keys tag mem := by cases mem
  source source mem := by cases mem; exact named
  command := upper
  middles middle mem := by
    obtain ⟨text, there, rfl⟩ := List.mem_map.mp mem
    exact plain text there

theorem fine_single {source command : String} {middles : List String} {trailing : Option String}
    (named : Plain source.toList) (upper : Plain command.toList ∧ command.toList.head? ≠ some '@')
    (plain : ∀ middle ∈ middles, Plain middle.toList) :
    ∀ line ∈ [lineOf source command middles trailing], Fine line ∧ line.tags = [] :=
  List.forall_mem_singleton.mpr ⟨fine_lineOf named upper plain, rfl⟩

theorem plain_marks : Plain "*".toList ∧ Plain "0".toList ∧ Plain "1".toList ∧ Plain "0.0.0.0".toList ∧
    Plain "SWSTDRPL".toList ∧ Plain "SWACCTRES".toList ∧ Plain "SASL".toList ∧ Plain "CHGHOST".toList ∧ Plain "CHGIDENT".toList := by
  decide

theorem plain_modes {modes : String} (configured : ∀ c ∈ modes.toList, kept c = true ∧ c ≠ ' ') :
    Plain ('+' :: modes.toList) where
  left := {
    nonempty := by simp
    solid := fun mem => by
      rcases List.mem_cons.mp mem with bad | mem
      · cases bad
      · exact (configured ' ' mem).2 rfl
    plain := by simp }
  right := List.forall_mem_cons.mpr ⟨by decide, fun c mem => (configured c mem).1⟩

theorem plain_given {field other : String} (plain : field = "" ∨ Plain field.toList) (default : Plain other.toList) :
    Plain ((given field).getD other).toList := by
  rw [given]
  split
  · exact default
  · rename_i some
    rcases plain with rfl | plain
    · exact absurd rfl some
    · exact plain

theorem plain_of_mem_given {field word : String} (plain : field = "" ∨ Plain field.toList)
    (mem : word ∈ given field) : Plain word.toList := by
  rw [given] at mem
  split at mem
  · cases mem
  · rename_i some
    cases mem
    exact plain.resolve_left fun empty => some (by rw [empty]; rfl)

theorem intended_fine (proto : InspIrcd) (now : Nat)
    (configured : ∀ c ∈ proto.serviceModes.toList, kept c = true ∧ c ≠ ' ') (action : NetAction)
    (single : ∀ tags inner, action ≠ .tagged tags inner)
    (fields : ∀ field ∈ plainFields action, Plain field.toList)
    (optional : ∀ field ∈ optionalFields action, field = "" ∨ Plain field.toList) :
    ∀ line ∈ proto.intended now action, Fine line ∧ line.tags = [] := by
  have marks := plain_marks
  simp at marks
  cases action with
  | tagged tags inner => exact absurd rfl (single tags inner)
  | raw | internal => simp [InspIrcd.intended]
  | privmsg | notice =>
    simp only [plainFields, List.forall_mem_cons] at fields
    intro line mem
    obtain ⟨chunk, -, rfl⟩ := List.mem_map.mp mem
    exact ⟨fine_lineOf (by simp [fields]) (by decide) (by simp [fields]), rfl⟩
  | pong token src =>
    simp only [plainFields, List.forall_mem_cons] at fields
    refine fine_single (plain_sid proto) (by decide) ?_
    cases src with
    | none => simp [fields, plain_sid]
    | some src => simpa using fields.symm
  | standardReply kind src dst command code =>
    simp only [plainFields, optionalFields, List.forall_mem_cons] at fields optional
    have verb : Plain kind.verb.toList := by cases kind <;> decide
    exact fine_single (plain_sid proto) (by decide)
      (by simp [fields, marks, verb, plain_given optional.1 plain_marks.1, plain_given optional.2.1 plain_marks.1])
  | forceJoin uid channel key =>
    simp only [plainFields, optionalFields, List.forall_mem_cons] at fields optional
    have key := fun word mem => @plain_of_mem_given key word optional.1 mem
    exact fine_single (plain_sid proto) (by decide) (by simpa [fields] using key)
  | channelMode src =>
    simp only [plainFields, optionalFields, List.forall_mem_cons] at fields optional
    exact fine_single (plain_given optional.1 (plain_sid proto)) (by decide) (by simp [fields, marks])
  | topic src channel topic setter =>
    simp only [plainFields, optionalFields, List.forall_mem_cons] at fields optional
    have setter := fun word mem => @plain_of_mem_given setter word optional.1 mem
    exact fine_single fields.1 (by decide) (by
      simpa [fields, marks, plain_digits, Option.filter_eq_some_iff] using fun word mem _ => setter word mem)
  | introduceUser =>
    simp only [plainFields, List.forall_mem_cons] at fields
    exact fine_single (plain_sid proto) (by decide)
      (by simp [fields, marks, plain_digits, plain_modes configured])
  | sasl =>
    simp only [plainFields, List.forall_mem_cons] at fields
    refine fine_single (plain_sid proto) (by decide) (by simpa [marks] using fields)
  | _ =>
    simp only [plainFields, List.forall_mem_cons] at fields
    exact fine_single (by simp [plain_sid, fields]) (by decide)
      (by simp [fields, marks, plain_digits, plain_membid, plain_serverOf])

/-! ### The lines as they go out -/

/-- An action whose fields are plain, in tags with proper keys at most once. -/
structure Carried (action : NetAction) : Prop where
  fields : ∀ field ∈ plainFields action, Plain field.toList
  optional : ∀ field ∈ optionalFields action, field = "" ∨ Plain field.toList
  raw : ∀ line, action.inner ≠ .raw line
  single : ∀ tags inner, action.inner ≠ .tagged tags inner
  keys : ∀ tags inner, action = .tagged tags inner →
    ∀ tag ∈ tags, Plain tag.1.toList ∧ ';' ∉ tag.1.toList ∧ '=' ∉ tag.1.toList

section Serialize

variable {proto : InspIrcd} {now : Nat} {action : NetAction}

theorem toList_strip (line : String) : (strip line).toList = line.toList.filter kept := by
  simp [strip]

/-- The lines of an action without tags. -/
theorem serialize_single (configured : ∀ c ∈ proto.serviceModes.toList, kept c = true ∧ c ≠ ' ')
    (fields : ∀ field ∈ plainFields action, Plain field.toList)
    (optional : ∀ field ∈ optionalFields action, field = "" ∨ Plain field.toList)
    (raw : ∀ line, action ≠ .raw line) (single : ∀ tags inner, action ≠ .tagged tags inner) :
    (proto.serialize now action).1.map String.toList =
      (proto.intended now action).map fun line => (clean line).write := by
  have fine := intended_fine proto now configured action single fields optional
  have stripped : (proto.intended now action).map (fun line => (clean line).write) =
      (proto.intended now action).map fun line => line.write.filter kept :=
    List.map_congr_left fun line mem => (filter_write (fine line mem).1).symm
  rw [stripped]
  have whole : ∀ {lines : List String}, lines.map String.toList = (proto.intended now action).map Line.write →
      (lines.map strip).map String.toList = (proto.intended now action).map fun line => line.write.filter kept := by
    intro lines same
    have filtered := congrArg (List.map (List.filter kept)) same
    simpa [Function.comp_def, toList_strip] using filtered
  by_cases joins : ∃ uid channel modes, action = .serviceJoin uid channel modes
  · obtain ⟨uid, channel, modes, rfl⟩ := joins
    refine whole ?_
    simp [InspIrcd.intended, write_lineOf, writeParams, toString_string]
  · have lines : (proto.serialize now action).1 = (proto.lines now action).map strip := by
      cases action with
      | tagged tags inner => exact absurd rfl (single tags inner)
      | serviceJoin uid channel modes => exact absurd ⟨uid, channel, modes, rfl⟩ joins
      | _ => rfl
    rw [lines]
    exact whole (written action single (fun uid channel modes same => joins ⟨uid, channel, modes, same⟩) raw)

theorem escapeTagValue_toList (v : String) : (escapeTagValue v).toList = v.toList.flatMap escape := by
  rw [escapeTagValue, String.toList_ofList]
  congr 1
  funext c
  grind [escape]

/-- Tags are put before a line that has none. -/
theorem write_tagged {tags : List (List Char × List Char)} {line : Line} (some : tags ≠ []) (none : line.tags = []) :
    ({ line with tags } : Line).write = '@' :: ([';'].intercalate (tags.map writeTag) ++ ' ' :: line.write) := by
  simp [Line.write, none, writeTags]

theorem Fine.tagged {tags : List (List Char × List Char)} {line : Line} (fine : Fine line)
    (keys : ∀ tag ∈ tags, (';' ∉ tag.1 ∧ '=' ∉ tag.1 ∧ ' ' ∉ tag.1) ∧ ∀ c ∈ tag.1, kept c = true) :
    Fine { line with tags } where
  keys := keys
  source := fine.source
  command := fine.command
  middles := fine.middles

/-- Tags before a line that has been stripped already. -/
theorem filter_tagged {tags : List (List Char × List Char)} {line : Line} (some : tags ≠ [])
    (keys : ∀ tag ∈ tags, (';' ∉ tag.1 ∧ '=' ∉ tag.1 ∧ ' ' ∉ tag.1) ∧ ∀ c ∈ tag.1, kept c = true) (fine : Fine line)
    (none : line.tags = []) :
    ('@' :: ([';'].intercalate (tags.map writeTag) ++ ' ' :: (Link.clean line).write)).filter kept =
      (Link.clean { line with tags }).write := by
  have bare : (Link.clean line).tags = [] := by simp [Link.clean, none]
  rw [← write_tagged some bare, filter_write (fine.clean.tagged keys)]
  simp [Link.clean, Function.comp_def]

/-- A stripped line is stripped of nothing more. -/
theorem restripped {line : Line} (fine : Fine line) : (clean line).write.filter kept = (clean line).write := by
  rw [filter_write fine.clean, clean_clean]

/-- The lines of an action in tags are its lines with the tags. -/
theorem serialize_tagged {tags : List (String × String)} {inner : NetAction}
    (keys : ∀ tag ∈ tags, Plain tag.1.toList ∧ ';' ∉ tag.1.toList ∧ '=' ∉ tag.1.toList)
    (fine : ∀ line ∈ proto.intended now inner, Fine line ∧ line.tags = [])
    (lines : (proto.serialize now inner).1.map String.toList =
      (proto.intended now inner).map fun line => (clean line).write) :
    (proto.serialize now (.tagged tags inner)).1.map String.toList =
        (proto.intended now (.tagged tags inner)).map (fun line => (clean line).write) ∧
      ∀ line ∈ proto.intended now (.tagged tags inner), Fine line := by
  by_cases bare : proto.supportsCtctags = false ∨ tags = []
  · have same : proto.intended now (.tagged tags inner) = proto.intended now inner := by
      rcases bare with off | rfl
      · simp [InspIrcd.intended, off]
      · have untouched : ∀ line ∈ proto.intended now inner, ({ line with tags := [] } : Line) = line := by
          intro line mem
          rw [← (fine line mem).2]
        simpa [InspIrcd.intended] using fun _ => List.map_congr_left untouched
    have stripped : (proto.serialize now (.tagged tags inner)).1 = (proto.serialize now inner).1.map strip := by
      rcases bare with off | rfl <;> simp [InspIrcd.serialize, *]
    rw [same, stripped]
    refine ⟨?_, fun line mem => (fine line mem).1⟩
    have filtered := congrArg (List.map (List.filter kept)) lines
    rw [List.map_map, List.map_map] at filtered
    simp only [List.map_map, Function.comp_def, toList_strip]
    exact filtered.trans (List.map_congr_left fun line mem => restripped (fine line mem).1)
  · obtain ⟨on, some⟩ := not_or.mp bare
    rw [Bool.not_eq_false] at on
    generalize written : (tags.map fun t => (t.1.toList, t.2.toList)) = T
    have someT : T ≠ [] := by simpa [← written] using some
    have keysT : ∀ tag ∈ T, (';' ∉ tag.1 ∧ '=' ∉ tag.1 ∧ ' ' ∉ tag.1) ∧ ∀ c ∈ tag.1, kept c = true := by
      intro tag mem
      rw [← written] at mem
      obtain ⟨t, there, rfl⟩ := List.mem_map.mp mem
      obtain ⟨plain, semicolon, equals⟩ := keys t there
      exact ⟨⟨semicolon, equals, plain.1.solid⟩, plain.2⟩
    have intended : proto.intended now (.tagged tags inner) =
        (proto.intended now inner).map fun line => { line with tags := T } := by
      simp [InspIrcd.intended, on, written]
    have tagged : (tagList tags).toList = [';'].intercalate (T.map writeTag) := by
      simp [tagList, ← written, String.toList_intercalate, Function.comp_def, toString_string, escapeTagValue_toList,
        writeTag]
    have serialized : (proto.serialize now (.tagged tags inner)).1 =
        ((proto.serialize now inner).1.map fun l => "@" ++ tagList tags ++ " " ++ l).map strip := by
      simp [InspIrcd.serialize, on, some, toString_string]
    constructor
    · have filtered := congrArg (List.map fun l =>
        ('@' :: ([';'].intercalate (T.map writeTag) ++ ' ' :: l)).filter kept) lines
      rw [List.map_map, List.map_map] at filtered
      rw [serialized, intended, List.map_map, List.map_map, List.map_map]
      refine Eq.trans ?_ (filtered.trans (List.map_congr_left fun line mem =>
        filter_tagged someT keysT (fine line mem).1 (fine line mem).2))
      refine List.map_congr_left fun l _ => ?_
      simp only [Function.comp_def, toList_strip]
      rw [← tagged]
      simp
    · intro line mem
      rw [intended] at mem
      obtain ⟨line, there, rfl⟩ := List.mem_map.mp mem
      exact (fine line there).1.tagged keysT

theorem spacedOut_bodies (text : String) : SpacedOut text.toList ((bodies text).map String.toList) := by
  have whole : ∀ {chunks}, splitBody (text.toList.length + 1) text.toList = some chunks →
      (bodies text).map String.toList = chunks := by
    intro chunks split
    simp [bodies, split, Function.comp_def]
  by_cases cut : text.toList ≠ [] ∧ ctcp ∉ text.toList
  · obtain ⟨chunks, runs, -, spaced, -⟩ := splitBody_chunks cut.1 cut.2
    rwa [whole (runs _ (Nat.lt_succ_self _))]
  · have one : splitBody (text.toList.length + 1) text.toList = some [text.toList] := by
      rw [splitBody, if_pos]
      by_cases empty : text.toList = []
      · simp [empty]
      · simp_all
    rw [whole one]
    exact (whole_chunk _).1

end Serialize

/-- The lines for the uplink have no control character that could end them, and are read as the source,
the command and the parameters that they are to say. A long text is in chunks that are the text
but for spaces between them. -/
theorem lines_carry_parameters (proto : InspIrcd) (now : Nat) (action : NetAction)
    (configured : ∀ c ∈ proto.serviceModes.toList, kept c = true ∧ c ≠ ' ') (carried : Carried action) :
    (∀ line ∈ (proto.serialize now action).1, ∀ c ∈ line.toList, c ≠ '\r' ∧ c ≠ '\n' ∧ c ≠ nul) ∧
      (proto.serialize now action).1.map (fun line => readLine line.toList) =
        (proto.intended now action).map (fun line => some (clean line)) ∧
      ∀ text, SpacedOut text.toList ((bodies text).map String.toList) := by
  have main : (proto.serialize now action).1.map String.toList =
        (proto.intended now action).map (fun line => (clean line).write) ∧
      ∀ line ∈ proto.intended now action, Fine line := by
    by_cases wraps : ∃ tags inner, action = .tagged tags inner
    · obtain ⟨tags, inner, rfl⟩ := wraps
      have fine := intended_fine proto now configured inner carried.single carried.fields carried.optional
      exact serialize_tagged (carried.keys tags inner rfl) fine
        (serialize_single configured carried.fields carried.optional carried.raw carried.single)
    · have single : ∀ tags inner, action ≠ .tagged tags inner := fun tags inner same => wraps ⟨tags, inner, same⟩
      have itself : action.inner = action := by
        cases action with
        | tagged tags inner => exact absurd rfl (single tags inner)
        | _ => rfl
      have raw := itself ▸ carried.raw
      have fine := intended_fine proto now configured action single carried.fields carried.optional
      exact ⟨serialize_single configured carried.fields carried.optional raw single, fun line mem => (fine line mem).1⟩
  obtain ⟨written, fine⟩ := main
  refine ⟨fun line mem c there => ?_, ?_, spacedOut_bodies⟩
  · have here : line.toList ∈ (proto.intended now action).map fun line => (clean line).write :=
      written ▸ List.mem_map_of_mem mem
    obtain ⟨said, among, same⟩ := List.mem_map.mp here
    rw [← same, ← filter_write (fine said among)] at there
    simpa [kept, and_assoc] using (List.mem_filter.mp there).2
  · have read := congrArg (List.map readLine) written
    rw [List.map_map, List.map_map] at read
    exact read.trans (List.map_congr_left fun line mem => readLine_write (fine line mem).clean.proper)

/-- The protocol module of a network. -/
def network : InspIrcd where
  sid := "42S"
  ts := 1700000000
  serviceModes := "iHkB"
  supportsCtctags := true
  sidOk := by decide

theorem lines_carry_parameters_reply :
    (network.serialize 0 (.tagged [("+draft/reply", "a;b c")] (.notice "42SAAAAAB" "042AAAAAA" "a\r\nQUIT :b"))).1.map
        (fun line => readLine line.toList) =
      [some {
        tags := [("+draft/reply".toList, "a;b c".toList)], source := some "42SAAAAAB".toList
        command := "NOTICE".toList, middles := ["042AAAAAA".toList], trailing := some "aQUIT :b".toList }] := by
  have carried : Carried (.tagged [("+draft/reply", "a;b c")] (.notice "42SAAAAAB" "042AAAAAA" "a\r\nQUIT :b")) := {
    fields := forall_of_all (by decide)
    optional := by simp [optionalFields]
    raw := by simp [NetAction.inner]
    single := by simp [NetAction.inner]
    keys := by
      rintro tags inner same
      cases same
      exact forall_of_all (by decide) }
  have read := (lines_carry_parameters network 0 _ (forall_of_all (by decide)) carried).2.1
  rw [read]
  decide +kernel

/-- A key with a semicolon in it is read as two tags, and tags around tags take the place of the
command. -/
theorem tags_misread :
    (network.serialize 0 (.tagged [("+a;+b", "x")] (.notice "A" "B" "hi"))).1.map (fun line => readLine line.toList) =
        [some {
          tags := [("+a".toList, []), ("+b".toList, "x".toList)], source := some "A".toList
          command := "NOTICE".toList, middles := ["B".toList], trailing := some "hi".toList }] ∧
      (network.serialize 0 (.tagged [("+a", "x")] (.tagged [("+b", "y")] (.notice "A" "B" "hi")))).1.map
          (fun line => (readLine line.toList).map Line.command) = [some "@+b=y".toList] ∧
      Plain "+a;+b".toList := by
  decide +kernel

end Echo.Link
