import KernelCatalog.Datum.Basic
import KernelCatalog.Text.Number
import KernelCatalog.Text.Split
import KernelCatalog.Yaml.Node

/-!
# The values of YAML nodes

A plain scalar that is written like a null, a truth value or a number is one; every other scalar is
a text. A tag of the core schema forces the reading, and a tag that is local to the document is
refused. Aliases are replaced by what they refer to, as long as there are not too many of them and
the collections do not nest too deeply.
-/

namespace KernelCatalog.Yaml

/-- The words of a null. -/
def nullWords : List String := ["~", "null", "Null", "NULL"]

/-- The words of the truth values. -/
def boolWords : List (String × Bool) :=
  [("true", true), ("True", true), ("TRUE", true), ("false", false), ("False", false),
    ("FALSE", false)]

/-- The characters without a sign in front. -/
def unsign : List Char → List Char
  | '-' :: cs => cs
  | '+' :: cs => cs
  | cs => cs

/-- Whether characters are several digits with a zero in front, which is not how a number is
written. -/
def hasLeadingZero : List Char → Bool
  | '0' :: c :: rest => (c :: rest).all Char.isDigit
  | _ => false

/-- The number that unsigned characters write. -/
def natural? : List Char → Option Nat
  | '0' :: 'x' :: digits => Text.inBase? 16 digits
  | '0' :: 'o' :: digits => Text.inBase? 8 digits
  | '0' :: 'b' :: digits => Text.inBase? 2 digits
  | cs => if hasLeadingZero cs then none else Text.inBase? 10 cs

/-- The least number without a minus sign that has more than 128 bits. -/
def wideWhole : Nat := 0x100000000000000000000000000000000

/-- The least number behind a minus sign that has more than 128 bits, with its sign. -/
def wideNegative : Nat := 0x80000000000000000000000000000001

/-- What characters are that write a whole number: kept, or refused because it has more than
sixty-four bits. One that has more than 128 bits does not count as whole. -/
def integer? (cs : List Char) : Option (Option Datum) :=
  match cs, natural? (unsign cs) with
  | '-' :: _, some n =>
    if n ≤ Datum.negativeLimit then some (some (.negative n))
    else if n < wideNegative then some none
    else none
  | _, some n =>
    if n ≤ Datum.wholeLimit then some (some (.whole n))
    else if n < wideWhole then some none
    else none
  | _, none => none

/-- The words of numbers that are none. -/
def specialWords : List String :=
  [".inf", ".Inf", ".INF", "+.inf", "+.Inf", "+.INF", "-.inf", "-.Inf", "-.INF", ".nan", ".NaN",
    ".NAN"]

/-- Whether characters write a number, with or without a fraction. -/
def isNumber (cs : List Char) : Bool :=
  specialWords.contains (String.ofList cs) || Text.isDouble (unsign cs)

/-- The value of a plain scalar without a tag. -/
def plainValue? (cs : List Char) : Option Datum :=
  let text := String.ofList cs
  if cs.isEmpty || nullWords.contains text then some .null
  else
    match boolWords.lookup text, integer? cs with
    | some b, _ => some (.bool b)
    | none, some n => n
    | none, none =>
      some (if isNumber cs && !hasLeadingZero (unsign cs) then .real else .text text)

/-- The part of a tag of the core schema behind what they have in common. -/
def coreTag? (tag : Bytes) : Option String :=
  let stem := Text.toBytes "tag:yaml.org,2002:"
  if tag.take stem.length == stem then Text.ofBytes? (tag.drop stem.length) else none

/-- Whether a tag starts with an exclamation mark. -/
def isMarked (tag : Bytes) : Bool := tag.head? == some 0x21

/-- Whether a tag is local to its document. No value can have such a tag. -/
def isLocal (tag : Option Bytes) : Bool :=
  match tag with
  | some tag => isMarked tag && (Text.ofBytes? tag).isSome
  | none => false

/-- The value of a scalar whose tag is not local. -/
def scalarValue? (tag : Option Bytes) (plain : Bool) (cs : List Char) : Option Datum :=
  let text := String.ofList cs
  match tag with
  | none => if plain then plainValue? cs else some (.text text)
  | some tag =>
    match coreTag? tag with
    | some "bool" => (boolWords.lookup text).map .bool
    | some "int" => (integer? cs).getD none
    | some "float" => if isNumber cs then some .real else none
    | some "null" => if nullWords.contains text then some .null else none
    | _ => if isMarked tag && plain then plainValue? cs else some (.text text)

/-- How many collections may stand around each other. -/
def depthLimit : Nat := 128

/-- How many aliases may be followed in a document, for each mark and scalar in it. -/
def aliasesPerMark : Nat := 100

mutual

/-- The value of a node in which at most `room` collections stand around each other, and how many
aliases may still be followed behind it. -/
def nodeValue? (nodes : List (Nat × Node)) : (fuel : Nat) → (room aliases : Nat) → Node →
    Option (Datum × Nat)
  | 0, _, _, _ => none
  | fuel + 1, room, aliases, node =>
    match node with
    | .alias number =>
      match aliases, nodes.lookup number with
      | aliases + 1, some node => nodeValue? nodes fuel room aliases node
      | _, _ => none
    | .scalar tag plain text =>
      if isLocal tag then none
      else (scalarValue? tag plain text).map fun value => (value, aliases)
    | .sequence tag items =>
      if isLocal tag || room == 0 then none
      else (itemValues? nodes fuel (room - 1) aliases items).map fun (values, left) =>
        (.list values, left)
    | .mapping tag members =>
      if isLocal tag || room == 0 then none
      else (memberValues? nodes fuel (room - 1) aliases members).map fun (values, left) =>
        (.table values, left)

/-- The values of items. -/
def itemValues? (nodes : List (Nat × Node)) : (fuel : Nat) → (room aliases : Nat) → List Node →
    Option (List Datum × Nat)
  | 0, _, _, _ => none
  | _ + 1, _, aliases, [] => some ([], aliases)
  | fuel + 1, room, aliases, item :: rest => do
    let (value, aliases) ← nodeValue? nodes fuel room aliases item
    let (values, aliases) ← itemValues? nodes fuel room aliases rest
    some (value :: values, aliases)

/-- The values of keys and of what they stand for. -/
def memberValues? (nodes : List (Nat × Node)) : (fuel : Nat) → (room aliases : Nat) →
    List (Node × Node) → Option (List (Datum × Datum) × Nat)
  | 0, _, _, _ => none
  | _ + 1, _, aliases, [] => some ([], aliases)
  | fuel + 1, room, aliases, (key, value) :: rest => do
    let (key, aliases) ← nodeValue? nodes fuel room aliases key
    let (value, aliases) ← nodeValue? nodes fuel room aliases value
    let (values, aliases) ← memberValues? nodes fuel room aliases rest
    some ((key, value) :: values, aliases)

end

/-- The value of a document. Each collection is at most as long as the document, which bounds the
steps within each other. -/
def Document.value? (document : Document) : Option Datum :=
  let weight := document.root.weight
  (nodeValue? document.nodes ((depthLimit + 2) * (weight + 3)) depthLimit
    (aliasesPerMark * weight) document.root).map (·.1)

/-- The value of the only document of a text. -/
def parse? (text : String) : Option Datum := do
  (← Document.ofTokens? (← Token.scan? text)).value?

end KernelCatalog.Yaml
