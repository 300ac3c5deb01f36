import KernelCatalog.Datum.Basic

/-!
# Reading records and alternatives from kept values

A record is kept as a table of its fields, or as a list of them in order; an alternative by its
name, or, with its contents, as a table of one member. Fields and alternatives may also be given by
their numbers, counted from zero. Unknown fields are ignored, known ones may not be repeated.
-/

namespace KernelCatalog.Datum

/-- A text. -/
def text? : Datum → Option String
  | .text s => some s
  | _ => none

def uint16? : Datum → Option UInt16
  | .whole n => if n ≤ 0xffff then some (UInt16.ofNat n) else none
  | .negative 0 => some 0
  | _ => none

/-- A list whose items can all be read. -/
def list? {α : Type} (item? : Datum → Option α) : Datum → Option (List α)
  | .list items => items.mapM item?
  | _ => none

/-- Whether a value is the given text. -/
def isText (s : String) (value : Datum) : Bool := value.text? == some s

/-- One of the given names, by itself or by its number. -/
def nameAmong? (names : List String) : Datum → Option String
  | .text s => if names.contains s then some s else none
  | .whole n => names[n]?
  | _ => none

/-- Whether a value can be the key of a field, known or not. -/
def isKey : Datum → Bool
  | .text _ | .whole _ => true
  | _ => false

/-- The fields of a table that have one of the given names. -/
def knownFields (names : List String) (members : List (Datum × Datum)) : List (String × Datum) :=
  members.filterMap fun (key, value) => (key.nameAmong? names).map (·, value)

/-- The fields of a record that has the given names, of which a list must hold at least the first
`least`. -/
def record? (names : List String) (least : Nat) : Datum → Option (List (String × Datum))
  | .table members =>
    let known := knownFields names members
    if members.all (fun member => member.1.isKey) ∧ (known.map (·.1)).Nodup then some known
    else none
  | .list items =>
    if least ≤ items.length ∧ items.length ≤ names.length then some (names.zip items) else none
  | _ => none

/-- A field that must be present. -/
def required? {α : Type} (fields : List (String × Datum)) (name : String)
    (decode : Datum → Option α) : Option α :=
  match fields.lookup name with
  | some value => decode value
  | none => none

/-- A field that may be absent or null. -/
def optional? {α : Type} (fields : List (String × Datum)) (name : String)
    (decode : Datum → Option α) : Option (Option α) :=
  match fields.lookup name with
  | none | some .null => some none
  | some value => (decode value).map some

/-- A field that has the value `preset` when it is absent. -/
def preset? {α : Type} (fields : List (String × Datum)) (name : String) (preset : α)
    (decode : Datum → Option α) : Option α :=
  match fields.lookup name with
  | some value => decode value
  | none => some preset

/-- One of the named alternatives and its contents, if it has any. -/
def alternative? (names : List String) : Datum → Option (String × Option Datum)
  | .text s => if names.contains s then some (s, none) else none
  | .table [(key, value)] => (key.nameAmong? names).map (·, some value)
  | _ => none

end KernelCatalog.Datum
