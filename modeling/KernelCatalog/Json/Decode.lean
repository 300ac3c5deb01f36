import KernelCatalog.Json.Basic

/-!
# Reading records and alternatives from JSON

A record is written as an object, whose unknown members are ignored and whose known members may not
be repeated, or as an array of its fields in order. An alternative is written by its name, or, with
its contents, as an object of one member.
-/

namespace KernelCatalog.Json

/-- A text. -/
def text? : Json → Option String
  | .str text => some text
  | _ => none

def bool? : Json → Option Bool
  | .bool b => some b
  | _ => none

/-- A whole number that does not exceed `limit`. -/
def natUpTo? (limit : Nat) : Json → Option Nat
  | .num (.whole n) => if n ≤ limit then some n else none
  | _ => none

def uint16? (value : Json) : Option UInt16 := (value.natUpTo? 0xffff).map UInt16.ofNat

def uint32? (value : Json) : Option UInt32 := (value.natUpTo? 0xffffffff).map UInt32.ofNat

def uint64? (value : Json) : Option UInt64 := (value.natUpTo? 0xffffffffffffffff).map UInt64.ofNat

/-- An array whose items all decode. -/
def list? {α : Type} (item? : Json → Option α) : Json → Option (List α)
  | .arr items => items.mapM item?
  | _ => none

/-- The fields of a record that has the given names, of which an array must hold at least the first
`least`. -/
def record? (names : List String) (least : Nat) : Json → Option (List (String × Json))
  | .obj members =>
    let known := members.filter fun member => names.contains member.1
    if (known.map (·.1)).Nodup then some known else none
  | .arr items =>
    if least ≤ items.length ∧ items.length ≤ names.length then some (names.zip items) else none
  | _ => none

/-- A field that must be present. -/
def required? {α : Type} (fields : List (String × Json)) (name : String)
    (decode : Json → Option α) : Option α :=
  match fields.lookup name with
  | some value => decode value
  | none => none

/-- A field that may be absent or `null`. -/
def optional? {α : Type} (fields : List (String × Json)) (name : String)
    (decode : Json → Option α) : Option (Option α) :=
  match fields.lookup name with
  | none | some .null => some none
  | some value => (decode value).map some

/-- A field that has the value `preset` when it is absent. -/
def preset? {α : Type} (fields : List (String × Json)) (name : String) (preset : α)
    (decode : Json → Option α) : Option α :=
  match fields.lookup name with
  | some value => decode value
  | none => some preset

/-- The name of an alternative and its contents, if it has any. -/
def alternative? : Json → Option (String × Option Json)
  | .str name => some (name, none)
  | .obj [(name, value)] => some (name, some value)
  | _ => none

/-- An alternative without contents, by its name in a table. -/
def named? {α : Type} (table : List (String × α)) (value : Json) : Option α :=
  match value.alternative? with
  | some (name, none) | some (name, some .null) => table.lookup name
  | _ => none

end KernelCatalog.Json
