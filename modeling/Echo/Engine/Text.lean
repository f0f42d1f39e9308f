import Echo.Db.Types

/-!
What the guards of a registration look for in a name or an address: the wildcard
match of the FORBID list, the shape of an e-mail address, and the tricks by which
a name imitates another.
-/

namespace Echo

/-- What the guards need of Unicode: which characters are letters, and the
characters a letter folds to. -/
structure Unicode where
  alphabetic : Char → Bool
  lowercase : Char → List Char

/-! ### Wildcards -/

/-- The loop of `glob_match`, over what is left of the pattern and of the text.
`star` is the pattern after the last `*` passed, `back` the text read since it,
last character first. A mismatch goes back to the star and gives it one more
character. -/
def globLoop (p t back : List Char) (star : Option (List Char)) : Bool :=
  match t with
  | [] => p.all (· == '*')
  | c :: t =>
      let retry (_ : Unit) : Bool :=
        match star with
        | none => false
        | some afterStar => globLoop afterStar (back.reverse ++ c :: t).tail [] star
      match p with
      | [] => retry ()
      | q :: p =>
          if q = '?' ∨ q = c then globLoop p t (c :: back) star
          else if q = '*' then globLoop p (c :: t) [] (some p)
          else retry ()
termination_by (t.length + back.length, p.length)
decreasing_by
  all_goals simp_wf
  all_goals grind

def globMatch (u : Unicode) (pattern text : String) : Bool :=
  globLoop (pattern.toList.flatMap u.lowercase) (text.toList.flatMap u.lowercase) [] none

/-! ### E-mail addresses -/

/-- `char::is_control`: the C0 and C1 controls. -/
def isControl (c : Char) : Bool :=
  decide (c.toNat < 0x20) || decide (0x7F ≤ c.toNat ∧ c.toNat ≤ 0x9F)

/-- Whether an address is safe to store and to put in a mail header. -/
def validEmail (addr : String) : Bool :=
  if addr.isEmpty || decide (addr.utf8ByteSize > 254) then false
  else if addr.toList.any fun c => isControl c || c == ' ' then false
  else
    match addr.toList.splitOn '@' with
    | [localPart, domain] => !localPart.isEmpty && !domain.isEmpty
    | _ => false

/-! ### Look-alike names -/

inductive Script where
  | latin | other
  deriving DecidableEq, Repr

/-- A letter's script, coarsely, with a number for its range. -/
def scriptId (cp : Nat) : Option (Script × Nat) :=
  let within (lo hi : Nat) : Bool := decide (lo ≤ cp ∧ cp ≤ hi)
  if within 0x41 0x5A || within 0x61 0x7A || within 0xC0 0x24F then some (.latin, 0)
  else if within 0x370 0x3FF || within 0x1F00 0x1FFF then some (.other, 1)
  else if within 0x400 0x52F || within 0x1C80 0x1C8F || within 0x2DE0 0x2DFF ||
      within 0xA640 0xA69F then some (.other, 2)
  else if within 0x530 0x58F then some (.other, 3)
  else if within 0x590 0x5FF then some (.other, 4)
  else if within 0x600 0x6FF then some (.other, 5)
  else if within 0x4E00 0x9FFF || within 0x3040 0x30FF then some (.other, 6)
  else none

/-- Invisible, zero-width and text-direction characters. -/
def isInvisible (cp : Nat) : Bool :=
  let within (lo hi : Nat) : Bool := decide (lo ≤ cp ∧ cp ≤ hi)
  cp == 0xAD || cp == 0x180E || within 0x200B 0x200F || within 0x202A 0x202E || cp == 0x2060 ||
    within 0x2066 0x2069 || cp == 0xFEFF

/-- Styled letters that render as plain Latin ones. -/
def isFancyLatin (cp : Nat) : Bool :=
  let within (lo hi : Nat) : Bool := decide (lo ≤ cp ∧ cp ≤ hi)
  within 0xFF21 0xFF5A || within 0x1D400 0x1D7FF || within 0x1F130 0x1F189 ||
    within 0x24B6 0x24E9 || within 0x2460 0x24FF

/-- Cyrillic and Greek letters that look like a Latin one. -/
def latinConfusables : List Nat :=
  [0x0430, 0x0410, 0x0435, 0x0415, 0x043E, 0x041E, 0x0440, 0x0420, 0x0441, 0x0421, 0x0443, 0x0423,
    0x0445, 0x0425, 0x0456, 0x0406, 0x0455, 0x0405, 0x0458, 0x0408, 0x043A, 0x041A, 0x043C, 0x041C,
    0x043D, 0x041D, 0x0432, 0x0412, 0x0442, 0x0422, 0x03BF, 0x039F, 0x03B1, 0x0391, 0x03B5, 0x0395,
    0x03C1, 0x03A1, 0x03C5, 0x03A5, 0x03BD, 0x03BA, 0x039A, 0x03B9, 0x0399, 0x03BC, 0x0392, 0x039D,
    0x03A4, 0x0397, 0x03A7, 0x0396]

def isLatinConfusable (cp : Nat) : Bool := latinConfusables.contains cp

/-- What has been seen of a name: the scripts it uses, whether Latin is one, how
many letters it has and how many of them look Latin. -/
structure ScriptScan where
  scripts : List Nat := []
  hasLatin : Bool := false
  letters : Nat := 0
  confusables : Nat := 0

def ScriptScan.use (id : Nat) (scan : ScriptScan) : ScriptScan :=
  { scan with scripts := if scan.scripts.contains id then scan.scripts else scan.scripts ++ [id] }

/-- Scan the rest of a name. A character that no name needs ends the scan. -/
def scanScripts (u : Unicode) (scan : ScriptScan) : List Char → Except String ScriptScan
  | [] => .ok scan
  | ch :: rest =>
      let cp := ch.toNat
      if isInvisible cp then
        .error ("That name uses invisible or text-direction characters. " ++
          "Please choose a plain name.")
      else if isFancyLatin cp then
        .error ("That name uses styled look-alike letters (fullwidth or symbol fonts). " ++
          "Please choose a plain name.")
      else
        match scriptId cp with
        | some (script, id) =>
            let counted := { scan with
              letters := scan.letters + 1
              hasLatin := scan.hasLatin || script == Script.latin
              confusables := scan.confusables + if isLatinConfusable cp then 1 else 0 }
            scanScripts u (counted.use id) rest
        | none =>
            -- A letter of any other alphabet counts as one more.
            if u.alphabetic ch then
              scanScripts u (ScriptScan.use 99 { scan with letters := scan.letters + 1 }) rest
            else scanScripts u scan rest

/-- Why a name is refused as a look-alike, if it is. -/
def confusableReason (u : Unicode) (name : String) : Option String :=
  match scanScripts u {} name.toList with
  | .error reason => some reason
  | .ok scan =>
      if scan.scripts.length > 1 then
        some ("That name mixes characters from different alphabets, a look-alike trick used " ++
          "to impersonate others. Please choose a plain name.")
      else if decide (scan.letters > 0) && !scan.hasLatin && scan.confusables == scan.letters then
        some ("That name is made of look-alike characters imitating Latin letters. " ++
          "Please choose a plain name.")
      else none

end Echo
