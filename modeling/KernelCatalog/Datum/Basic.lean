import KernelCatalog.Json.Basic

/-!
# Values that are kept before they are read

A value whose shape is not known in advance is kept as a whole, and then read as one thing or
another. Such values come from JSON and from YAML, so the keys of their tables are values as well.
Only whole numbers of sixty-four bits are kept with their value.
-/

namespace KernelCatalog

/-- A kept value. -/
inductive Datum where
  | null
  | bool (b : Bool)
  /-- A number without a minus sign. -/
  | whole (n : Nat)
  /-- A number with a minus sign, which may be zero. -/
  | negative (n : Nat)
  /-- Any number that is not whole, or too great to be kept as such. -/
  | real
  | text (s : String)
  | list (items : List Datum)
  | table (members : List (Datum × Datum))

namespace Datum

instance : Inhabited Datum := ⟨.null⟩

/-- The greatest number without a minus sign that is kept. -/
def wholeLimit : Nat := 0xffffffffffffffff

/-- The greatest number behind a minus sign that is kept. -/
def negativeLimit : Nat := 0x8000000000000000

/-- A number of JSON, which must be finite in double precision if it is not kept as a whole one. -/
def ofJsonNumber? (n : JsonNumber) : Option Datum :=
  let finite : Option Datum := if n.fits then some .real else none
  match n with
  | .whole m => if m ≤ wholeLimit then some (.whole m) else finite
  | .negative m => if m ≤ negativeLimit then some (.negative m) else finite
  | .other _ => finite

mutual

/-- A value of JSON in which at most `room` arrays and objects stand around each other. -/
def ofJson? : (room : Nat) → Json → Option Datum
  | _, .null => some .null
  | _, .bool b => some (.bool b)
  | _, .num n => ofJsonNumber? n
  | _, .str s => some (.text s)
  | room + 1, .arr items => (ofItems? room items).map .list
  | room + 1, .obj members => (ofMembers? room members).map .table
  | _, _ => none

/-- The items of an array. -/
def ofItems? : (room : Nat) → List Json → Option (List Datum)
  | _, [] => some []
  | room, item :: rest =>
    match ofJson? room item with
    | some value => (ofItems? room rest).map (value :: ·)
    | none => none

/-- The members of an object. -/
def ofMembers? : (room : Nat) → List (String × Json) → Option (List (Datum × Datum))
  | _, [] => some []
  | room, (name, value) :: rest =>
    match ofJson? room value with
    | some value => (ofMembers? room rest).map ((.text name, value) :: ·)
    | none => none

end

end Datum

end KernelCatalog
