import KernelCatalog.Text.Utf8

/-!
# Patterns

A pattern matches texts byte by byte: `?` stands for one byte, `*` for any bytes, and a set in
brackets for one of its bytes. A character that is quoted stands for itself.
-/

namespace KernelCatalog.Shell

/-- A byte of a pattern, and whether it stands for itself. -/
abbrev PatternByte := UInt8 × Bool

/-- What a set in a pattern holds. -/
inductive SetItem where
  | range (low high : UInt8)
  | named (name : String)
  deriving DecidableEq, Repr

/-- A piece of a pattern. -/
inductive PatternItem where
  | byte (b : UInt8)
  | one
  | many
  | set (negated : Bool) (items : List SetItem)
  deriving DecidableEq, Repr

/-- A pattern. -/
abbrev Pattern := List PatternItem

namespace SetItem

/-- Whether a byte is of a named class. -/
def isNamed (name : String) (b : UInt8) : Bool :=
  let c := Char.ofNat b.toNat
  let ascii := b < 0x80
  match name with
  | "alpha" => ascii && c.isAlpha
  | "digit" => c.isDigit
  | "alnum" => ascii && c.isAlphanum
  | "upper" => ascii && c.isUpper
  | "lower" => ascii && c.isLower
  | "space" => b == 0x20 || (0x09 ≤ b && b ≤ 0x0d)
  | "blank" => b == 0x20 || b == 0x09
  | "punct" => 0x21 ≤ b && b ≤ 0x7e && !c.isAlphanum
  | "print" => 0x20 ≤ b && b ≤ 0x7e
  | "graph" => 0x21 ≤ b && b ≤ 0x7e
  | "cntrl" => b < 0x20 || b == 0x7f
  | "xdigit" => c.isDigit || ('a' ≤ c && c ≤ 'f') || ('A' ≤ c && c ≤ 'F')
  | _ => false

/-- Whether a byte is in a set. -/
def holds (item : SetItem) (b : UInt8) : Bool :=
  match item with
  | .range low high => low ≤ b && b ≤ high
  | .named name => isNamed name b

end SetItem

namespace Pattern

/-- The names of the classes. -/
def classNames : List String :=
  ["alpha", "digit", "alnum", "upper", "lower", "space", "blank", "punct", "print", "graph",
    "cntrl", "xdigit"]

/-- The class that stands behind `[`, and what is behind it. -/
def class? (bytes : List PatternByte) : Option (String × List PatternByte) :=
  classNames.findSome? fun name =>
    let text := Text.toBytes (":" ++ name ++ ":]")
    if text.isPrefixOf (bytes.map (·.1)) then some (name, bytes.drop text.length) else none

/-- The byte that a pattern byte and those behind it stand for, where a backslash is left out. -/
def plain (first : PatternByte) (rest : List PatternByte) : UInt8 × List PatternByte :=
  match first, rest with
  | (0x5c, false), next :: left => (next.1, left)
  | _, _ => (first.1, rest)

/-- The items of a set up to its closing bracket, and what is behind it; `none` if there is no such
bracket. -/
def items? : (fuel : Nat) → (first : Bool) → List PatternByte →
    Option (List SetItem × List PatternByte)
  | 0, _, _ | _, _, [] => none
  | fuel + 1, first, b :: rest =>
    if b == (0x5d, false) && !first then some ([], rest)
    else
      let onward (item : SetItem) (left : List PatternByte) :=
        (items? fuel false left).map fun (items, left) => (item :: items, left)
      match if b == (0x5b, false) then class? rest else none with
      | some (name, left) => onward (.named name) left
      | none =>
        let (low, left) := plain b rest
        match left with
        | (0x2d, false) :: next :: more =>
          if next == (0x5d, false) then onward (.range low low) left
          else
            let (high, left) := plain next more
            onward (.range low high) left
        | _ => onward (.range low low) left

/-- The pattern that bytes write. -/
def parse : (fuel : Nat) → List PatternByte → Pattern
  | 0, _ | _, [] => []
  | fuel + 1, (b, quoted) :: rest =>
    if quoted then .byte b :: parse fuel rest
    else if b == 0x2a then .many :: parse fuel rest
    else if b == 0x3f then .one :: parse fuel rest
    else if b == 0x5c then
      let (literal, left) := plain (b, false) rest
      .byte literal :: parse fuel left
    else if b == 0x5b then
      let (negated, inner) := match rest with
        | (0x21, false) :: inner => (true, inner)
        | _ => (false, rest)
      match items? (inner.length + 1) true inner with
      | some (items, left) => .set negated items :: parse fuel left
      | none => .byte b :: parse fuel rest
    else .byte b :: parse fuel rest

/-- The pattern that bytes write. -/
def ofBytes (bytes : List PatternByte) : Pattern := parse (bytes.length + 1) bytes

/-- Whether a piece other than `*` matches a byte. -/
def matchesByte : PatternItem → UInt8 → Bool
  | .byte a, b => a == b
  | .one, _ => true
  | .many, _ => false
  | .set negated items, b => (items.any fun item => item.holds b) != negated

/-- Whether a pattern matches bytes as a whole. -/
def matchesAll : Pattern → Bytes → Bool
  | [], bytes => bytes.isEmpty
  | .many :: rest, bytes =>
    (List.range (bytes.length + 1)).any fun n => matchesAll rest (bytes.drop n)
  | _ :: _, [] => false
  | item :: rest, b :: left => matchesByte item b && matchesAll rest left

/-- Bytes without what a pattern matches at their front: the shortest, or the longest. -/
def trimFront (pattern : Pattern) (longest : Bool) (bytes : Bytes) : Bytes :=
  let counts := List.range (bytes.length + 1)
  let order := if longest then counts.reverse else counts
  match order.find? fun n => pattern.matchesAll (bytes.take n) with
  | some n => bytes.drop n
  | none => bytes

/-- Bytes without what a pattern matches at their end: the shortest, or the longest. -/
def trimBack (pattern : Pattern) (longest : Bool) (bytes : Bytes) : Bytes :=
  let counts := List.range (bytes.length + 1)
  let order := if longest then counts else counts.reverse
  match order.find? fun n => pattern.matchesAll (bytes.drop n) with
  | some n => bytes.take n
  | none => bytes

end Pattern

/-- Whether a byte of a pattern may have a meaning of its own. -/
def isWild (byte : PatternByte) : Bool :=
  !byte.2 && (byte.1 == 0x2a || byte.1 == 0x3f || byte.1 == 0x5b)

end KernelCatalog.Shell
