import Odorobo.Saturating

/-! String operations of the standard library, by the characters of the string.
White space is the Unicode property, not the ASCII one. -/

namespace Odorobo.Text

/-- The Unicode property `White_Space`. -/
def isWhitespace (c : Char) : Bool :=
  let n := c.toNat
  (0x9 ≤ n && n ≤ 0xD) || n == 0x20 || n == 0x85 || n == 0xA0 || n == 0x1680 ||
    (0x2000 ≤ n && n ≤ 0x200A) || n == 0x2028 || n == 0x2029 || n == 0x202F || n == 0x205F ||
    n == 0x3000

def trim (s : String) : String :=
  .ofList (((s.toList.dropWhile isWhitespace).reverse.dropWhile isWhitespace).reverse)

def trimStartMatches (c : Char) (s : String) : String := .ofList (s.toList.dropWhile (· == c))

def startsWith (pre s : String) : Bool := pre.toList.isPrefixOf s.toList

def stripPrefix (pre s : String) : Option String :=
  if startsWith pre s then some (.ofList (s.toList.drop pre.toList.length)) else none

theorem startsWith_append (pre s : String) : startsWith pre (pre ++ s) = true := by
  rw [startsWith, String.toList_append, List.isPrefixOf_iff_prefix]
  exact List.prefix_append _ _

theorem stripPrefix_append (pre s : String) : stripPrefix pre (pre ++ s) = some s := by
  rw [stripPrefix, if_pos (startsWith_append pre s), String.toList_append, List.drop_left,
    String.ofList_toList]

def split (c : Char) (s : String) : List String := (s.toList.splitOn c).map .ofList

/-- `str::lines`: a line end is a newline, with an optional carriage return before
it, and a last empty line is none. -/
def lines (s : String) : List (List Char) :=
  let parts := s.toList.splitOn '\n'
  let parts := if parts.getLast? = some [] then parts.dropLast else parts
  parts.map fun line => if line.getLast? = some '\r' then line.dropLast else line

/-- The runs of characters between white space, `word` being the one begun. -/
def wordsFrom (word : List Char) : List Char → List (List Char)
  | [] => if word = [] then [] else [word]
  | c :: cs =>
    if isWhitespace c then
      if word = [] then wordsFrom [] cs else word :: wordsFrom [] cs
    else wordsFrom (word ++ [c]) cs

def splitWhitespace (line : List Char) : List String := (wordsFrom [] line).map .ofList

/-- `str::parse` for `u32`: an optional plus sign and digits, in range. -/
def parseU32 (s : String) : Option U32 :=
  let digits := match s.toList with
    | '+' :: rest => rest
    | all => all
  if digits ≠ [] ∧ digits.all Char.isDigit then
    let value := digits.foldl (fun n c => 10 * n + (c.toNat - '0'.toNat)) 0
    if h : value < 2 ^ 32 then some ⟨value, h⟩ else none
  else none

example : parseU32 "+42" = some 42 ∧ parseU32 "4294967296" = none ∧ parseU32 "" = none := by
  decide +kernel

/-- `Path::is_absolute` on Unix. -/
def isAbsolute (path : String) : Bool := startsWith "/" path

/-- `Path::join` on Unix. -/
def join (base path : String) : String :=
  if isAbsolute path then path
  else if base.toList.getLast?.all (· == '/') then base ++ path
  else base ++ "/" ++ path

/-! Slices by byte index, which panic off a character boundary. -/

def byteLength (cs : List Char) : Nat := (cs.map fun c => c.utf8Size).sum

def sliceFrom : Nat → List Char → Option (List Char)
  | 0, cs => some cs
  | _ + 1, [] => none
  | n + 1, c :: cs => if c.utf8Size ≤ n + 1 then sliceFrom (n + 1 - c.utf8Size) cs else none

def sliceTo : Nat → List Char → Option (List Char)
  | 0, _ => some []
  | _ + 1, [] => none
  | n + 1, c :: cs =>
    if c.utf8Size ≤ n + 1 then (sliceTo (n + 1 - c.utf8Size) cs).map (c :: ·) else none

end Odorobo.Text
