import ApiHandbook.Text.CaseTable

/-! Case mapping: by Unicode's tables for prose, by the 26 ASCII letters for keywords and header names. -/
namespace ApiHandbook.Text

/-- The image of a character under the run that covers it. -/
def shifted (runs : List CaseRun) (c : Char) : Char :=
  match runs.find? fun run => run.contains c.toNat with
  | some run => Char.ofNat ((c.toNat : Int) + run.offset).toNat
  | none => c

/-- The lower-case mapping of one character on its own. -/
def lowerChar (c : Char) : List Char :=
  if c.toNat < 128 then [c.toLower]
  else if c.toNat == 0x130 then ['i', '\u0307']
  else [shifted lowerRuns c]

/-- The upper-case mapping of one character, up to three characters long. -/
def upperChar (c : Char) : List Char :=
  if c.toNat < 128 then [c.toUpper]
  else match upperExpansions.find? fun entry => entry.1 == c.toNat with
    | some (_, codes) => codes.map Char.ofNat
    | none => [shifted upperRuns c]

/-- The first character in upper case and all others in lower case. -/
def capitalize : List Char → List Char
  | [] => []
  | c :: rest => upperChar c ++ rest.flatMap lowerChar

/-- Words joined by underscores become capitalized words joined by spaces. -/
def humanize (s : List Char) : List Char :=
  [' '].intercalate ((s.splitOn '_').map capitalize)

def isCased (c : Char) : Bool :=
  if c.toNat < 128 then c.isAlpha else inRanges casedRanges c.toNat

def isCaseIgnorable (c : Char) : Bool :=
  if c.toNat < 128 then c == '\'' || c == '.' || c == ':' || c == '^' || c.toNat == 0x60
  else inRanges caseIgnorableRanges c.toNat

/-- Whether the first character that is not case-ignorable is a cased one. -/
def meetsCased (s : List Char) : Bool :=
  match s.dropWhile isCaseIgnorable with
  | [] => false
  | c :: _ => isCased c

/-- Lower-cases a text whose earlier characters, last first, are `before`: a sigma at the end of a word has a form of
its own. -/
def lowerFrom (before : List Char) : List Char → List Char
  | [] => []
  | c :: rest =>
    (if c = 'Σ' then [if meetsCased before && !meetsCased rest then 'ς' else 'σ'] else lowerChar c)
      ++ lowerFrom (c :: before) rest

/-- The lower-case form of a whole text. -/
def lowerCase (s : List Char) : List Char := lowerFrom [] s

/-- Maps the ASCII capitals to small letters. -/
def asciiLower (s : List Char) : List Char := s.map Char.toLower

/-- Maps the ASCII small letters to capitals. -/
def asciiUpper (s : List Char) : List Char := s.map Char.toUpper

/-- Equality up to the case of ASCII letters. -/
def sameIgnoringCase (a b : List Char) : Bool := asciiLower a == asciiLower b

end ApiHandbook.Text
