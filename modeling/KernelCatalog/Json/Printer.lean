import KernelCatalog.Json.Basic
import KernelCatalog.Text.Decimal

/-!
# JSON as text

Two layouts: `compact` without blanks, and `pretty` with one member or item a line, indented by two
blanks a level. In a string only the quote, the backslash and control characters are escaped.
-/

namespace KernelCatalog.Json

/-- The four lower-case hexadecimal digits of a number below 65536. -/
def fourDigits (n : Nat) : List Char :=
  [Nat.digitChar (n / 4096 % 16), Nat.digitChar (n / 256 % 16), Nat.digitChar (n / 16 % 16),
    Nat.digitChar (n % 16)]

/-- How one character is written in a string. -/
def escape (c : Char) : List Char :=
  if c = '"' then ['\\', '"']
  else if c = '\\' then ['\\', '\\']
  else if c = '\x08' then ['\\', 'b']
  else if c = '\x0c' then ['\\', 'f']
  else if c = '\n' then ['\\', 'n']
  else if c = '\r' then ['\\', 'r']
  else if c = '\t' then ['\\', 't']
  else if c.toNat < 0x20 then '\\' :: 'u' :: fourDigits c.toNat
  else [c]

/-- A string with its quotes. -/
def stringChars (text : String) : List Char := '"' :: (text.toList.flatMap escape ++ ['"'])

/-- A number as it is written. -/
def numberChars : JsonNumber → List Char
  | .whole n => Nat.toDigits 10 n
  | .negative n => '-' :: Nat.toDigits 10 n
  | .other literal => literal

/-- A string that is not legible: one half of a surrogate pair. -/
def lonelyChars : List Char := ['"', '\\', 'u', 'd', '8', '0', '0', '"']

mutual

/-- A value without blanks. -/
def compactChars : Json → List Char
  | .null => ['n', 'u', 'l', 'l']
  | .bool true => ['t', 'r', 'u', 'e']
  | .bool false => ['f', 'a', 'l', 's', 'e']
  | .num n => numberChars n
  | .str text => stringChars text
  | .arr [] => ['[', ']']
  | .arr (item :: rest) => '[' :: (compactChars item ++ compactItems rest)
  | .obj [] => ['\x7b', '\x7d']
  | .obj ((name, value) :: rest) =>
    '\x7b' :: (stringChars name ++ ':' :: (compactChars value ++ compactMembers rest))
  | .illegible => lonelyChars

/-- The items behind the first one, and the bracket that closes the array. -/
def compactItems : List Json → List Char
  | [] => [']']
  | item :: rest => ',' :: (compactChars item ++ compactItems rest)

/-- The members behind the first one, and the brace that closes the object. -/
def compactMembers : List (String × Json) → List Char
  | [] => ['\x7d']
  | (name, value) :: rest =>
    ',' :: (stringChars name ++ ':' :: (compactChars value ++ compactMembers rest))

end

/-- A line break and the indentation of the given level. -/
def newLine (level : Nat) : List Char := '\n' :: List.replicate (2 * level) ' '

mutual

/-- A value laid out over lines, for a line indented by `level`. -/
def prettyChars (level : Nat) : Json → List Char
  | .null => ['n', 'u', 'l', 'l']
  | .bool true => ['t', 'r', 'u', 'e']
  | .bool false => ['f', 'a', 'l', 's', 'e']
  | .num n => numberChars n
  | .str text => stringChars text
  | .arr [] => ['[', ']']
  | .arr (item :: rest) =>
    '[' :: (newLine (level + 1) ++ (prettyChars (level + 1) item ++ prettyItems level rest))
  | .obj [] => ['\x7b', '\x7d']
  | .obj ((name, value) :: rest) =>
    '\x7b' :: (newLine (level + 1) ++ (stringChars name ++ ':' :: ' ' ::
      (prettyChars (level + 1) value ++ prettyMembers level rest)))
  | .illegible => lonelyChars

/-- The items behind the first one, and the bracket that closes the array. -/
def prettyItems (level : Nat) : List Json → List Char
  | [] => newLine level ++ [']']
  | item :: rest =>
    ',' :: (newLine (level + 1) ++ (prettyChars (level + 1) item ++ prettyItems level rest))

/-- The members behind the first one, and the brace that closes the object. -/
def prettyMembers (level : Nat) : List (String × Json) → List Char
  | [] => newLine level ++ ['\x7d']
  | (name, value) :: rest =>
    ',' :: (newLine (level + 1) ++ (stringChars name ++ ':' :: ' ' ::
      (prettyChars (level + 1) value ++ prettyMembers level rest)))

end

/-- A value as text without blanks. -/
def compact (value : Json) : String := String.ofList (compactChars value)

/-- A value as text laid out over lines. -/
def pretty (value : Json) : String := String.ofList (prettyChars 0 value)

end KernelCatalog.Json
