/-!
# Numbers as text

Unsigned numbers are read from an optional plus sign and decimal digits, and written in decimal or
in lower-case hexadecimal with an optional width.
-/

namespace KernelCatalog.Text

/-- The value of one decimal digit. -/
def digit? (c : Char) : Option Nat :=
  if c.isDigit then some (c.toNat - '0'.toNat) else none

/-- The value of one hexadecimal digit, of either case. -/
def hexDigit? (c : Char) : Option Nat :=
  if c.isDigit then some (c.toNat - '0'.toNat)
  else if 'a' ≤ c ∧ c ≤ 'f' then some (c.toNat - 'a'.toNat + 10)
  else if 'A' ≤ c ∧ c ≤ 'F' then some (c.toNat - 'A'.toNat + 10)
  else none

/-- The number written by a list of decimal digits, continuing from the digits read so far. -/
def digits? (sofar : Nat) : List Char → Option Nat
  | [] => some sofar
  | c :: rest =>
    match digit? c with
    | some d => digits? (sofar * 10 + d) rest
    | none => none

/-- A number of at least one digit, with an optional plus sign in front, that does not exceed
`limit`. -/
def unsigned? (limit : Nat) (text : String) : Option Nat :=
  let body := match text.toList with
    | '+' :: rest => rest
    | all => all
  if body.isEmpty then none
  else
    match digits? 0 body with
    | some n => if n ≤ limit then some n else none
    | none => none

/-- The lower-case hexadecimal digits of a number, without leading zeros. -/
def hex (n : Nat) : String := String.ofList (Nat.toDigits 16 n)

/-- `text` with `fill` repeated in front of it up to the given width. -/
def padLeft (fill : Char) (width : Nat) (text : String) : String :=
  String.ofList (List.replicate (width - text.length) fill) ++ text

/-- `text` with blanks behind it up to the given width. -/
def padRight (width : Nat) (text : String) : String :=
  text ++ String.ofList (List.replicate (width - text.length) ' ')

/-- Lower-case hexadecimal digits with leading zeros up to the given width. -/
def hexPadded (width n : Nat) : String := padLeft '0' width (hex n)

end KernelCatalog.Text
