import KernelCatalog.Text.Number

/-!
# JSON values

Projects, ledgers and reports are exchanged as JSON. An object is the list of its members in the
order in which they are written, repeated names included, so that a reader can refuse a repetition.
-/

namespace KernelCatalog

/-- A number as it is written: without sign, fraction and exponent, or otherwise. -/
inductive JsonNumber where
  /-- Decimal digits only. -/
  | whole (n : Nat)
  /-- A minus sign and decimal digits that are not zero. -/
  | negative (n : Nat)
  /-- Any other number, by its characters. -/
  | other (literal : List Char)
  deriving DecidableEq, Repr

/-- The number without its sign, as it is written. -/
def JsonNumber.decimal? : JsonNumber → Option Text.Decimal
  | .whole n | .negative n => some { whole := Nat.toDigits 10 n }
  | .other literal => Text.Decimal.parse? (literal.dropWhile (· == '-'))

/-- Whether a number can be calculated in double precision. -/
def JsonNumber.fits (n : JsonNumber) : Bool := (n.decimal?.map Text.Decimal.staysFinite).getD false

/-- A JSON value. -/
inductive Json where
  | null
  | bool (b : Bool)
  | num (n : JsonNumber)
  | str (text : String)
  | arr (items : List Json)
  | obj (members : List (String × Json))
  /-- A string that has half of a surrogate pair, or an object with such a name. It is well written,
  so it can be skipped, but there is no text that it stands for. -/
  | illegible

namespace Json

instance : Inhabited Json := ⟨.null⟩

/-- A whole number. -/
def nat (n : Nat) : Json := .num (.whole n)

/-- A number that may be negative. -/
def int : Int → Json
  | .ofNat n => .num (.whole n)
  | .negSucc n => .num (.negative (n + 1))

/-- A text, or `null`. -/
def strOrNull : Option String → Json
  | some text => .str text
  | none => .null

/-- The members of an object; every other value has none. -/
def members : Json → List (String × Json)
  | .obj members => members
  | _ => []

/-- The last member of the given name. -/
def field? (name : String) (value : Json) : Option Json :=
  (value.members.reverse.find? fun member => member.1 == name).map (·.2)

/-- How many arrays and objects may stand around a value that is read. -/
def depthLimit : Nat := 127

end Json

end KernelCatalog
