/-! Blank characters are those of Unicode's White_Space property; trimming takes them from the ends of a text. -/
namespace ApiHandbook.Text

/-- The characters with the White_Space property. -/
def isBlank (c : Char) : Bool :=
  let n := c.toNat
  (9 ≤ n && n ≤ 13) || n == 0x20 || n == 0x85 || n == 0xA0 || n == 0x1680 ||
    (0x2000 ≤ n && n ≤ 0x200A) || n == 0x2028 || n == 0x2029 || n == 0x202F || n == 0x205F ||
    n == 0x3000

/-- Removes the longest run at the end whose characters all satisfy `p`. -/
def dropEndWhile (p : Char → Bool) (s : List Char) : List Char :=
  (s.reverse.dropWhile p).reverse

/-- Removes a run of characters satisfying `p` from both ends. -/
def stripWhile (p : Char → Bool) (s : List Char) : List Char :=
  dropEndWhile p (s.dropWhile p)

def trimStart (s : List Char) : List Char := s.dropWhile isBlank

def trimEnd (s : List Char) : List Char := dropEndWhile isBlank s

def trim (s : List Char) : List Char := trimEnd (trimStart s)

/-- A text is blank when it holds nothing but blank characters. -/
def isBlankText (s : List Char) : Bool := s.all isBlank

/-- Applies an operation on characters to a string. -/
def mapped (f : List Char → List Char) (s : String) : String := String.ofList (f s.toList)

/-- The words of a text: its maximal runs without blank characters. -/
def words (s : List Char) : List (List Char) :=
  (s.splitOnP isBlank).filter fun word => !word.isEmpty

end ApiHandbook.Text
