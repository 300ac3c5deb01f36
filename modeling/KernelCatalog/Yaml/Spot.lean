import KernelCatalog.Text.Decimal

/-!
# The characters of a YAML text

YAML gives a meaning to where a character stands, so a text is read as its spots: each character
with its line and column. All line breaks are read as a line feed, except the line and the paragraph
separator, which stay themselves.
-/

namespace KernelCatalog.Yaml

/-- A character and where it stands. -/
structure Spot where
  char : Char
  line : Nat
  column : Nat
  /-- How many bytes stand in front of it. -/
  index : Nat
  deriving DecidableEq, Repr

/-- Whether a character ends a line. -/
def isBreak (c : Char) : Bool := c == '\n' || c == '\u2028' || c == '\u2029'

/-- Whether a character is a space or a tab. -/
def isSpace (c : Char) : Bool := c == ' ' || c == '\t'

/-- The characters with each line break but the two separators read as a line feed. -/
def normalize : List Char → List Char
  | [] => []
  | '\r' :: '\n' :: rest => '\n' :: normalize rest
  | '\r' :: rest => '\n' :: normalize rest
  | '\u0085' :: rest => '\n' :: normalize rest
  | c :: rest => c :: normalize rest

/-- Whether a character may stand in a YAML text. -/
def isAllowed (c : Char) : Bool :=
  let n := c.toNat
  n == 0x09 || n == 0x0a || n == 0x0d || (0x20 ≤ n && n ≤ 0x7e) || n == 0x85 ||
    (0xa0 ≤ n && n ≤ 0xd7ff) || (0xe000 ≤ n && n ≤ 0xfffd) || 0x10000 ≤ n

/-- The spots of characters, from the given place on. -/
def spotsFrom (line column index : Nat) : List Char → List Spot
  | [] => []
  | c :: rest =>
    ⟨c, line, column, index⟩ ::
      if isBreak c then spotsFrom (line + 1) 0 (index + c.utf8Size) rest
      else spotsFrom line (column + 1) (index + c.utf8Size) rest

/-- The spots of a text. A byte order mark in front is dropped; so is a second one, which takes up
a column. -/
def spots? (text : String) : Option (List Spot) :=
  let (column, cs) := match text.toList with
    | '\ufeff' :: '\ufeff' :: rest => (1, rest)
    | '\ufeff' :: rest => (0, rest)
    | all => (0, all)
  if cs.all isAllowed then some (spotsFrom 0 column (3 * column) (normalize cs)) else none

/-- Whether the text ends, or a space or a line break follows. -/
def atGap : List Spot → Bool
  | [] => true
  | spot :: _ => isSpace spot.char || isBreak spot.char

/-- Whether the text ends, or a line break follows. -/
def atBreak : List Spot → Bool
  | [] => true
  | spot :: _ => isBreak spot.char

/-- Whether the first three characters, in front of a gap, are all the given one, at the start of a
line. -/
def atMark (c : Char) : List Spot → Bool
  | a :: b :: d :: rest =>
    a.column == 0 && a.char == c && b.char == c && d.char == c && atGap rest
  | _ => false

/-- Whether a mark that starts or ends a document follows. -/
def atDocumentMark (spots : List Spot) : Bool := atMark '-' spots || atMark '.' spots

/-- The spots behind those of the same line. -/
def skipLine (spots : List Spot) : List Spot := spots.dropWhile fun spot => !isBreak spot.char

end KernelCatalog.Yaml
