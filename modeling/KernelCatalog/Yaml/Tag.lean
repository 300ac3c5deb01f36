import KernelCatalog.Text.Utf8
import KernelCatalog.Yaml.Spot

/-!
# YAML tags and directives

A tag is written in full between angle brackets, or as a handle and a suffix; directives in front of
a document say what the handles stand for. A tag is a sequence of octets, some of which may be
escaped by a percent sign. Each reader returns what it read and the spots behind it, or fails.
-/

namespace KernelCatalog.Yaml

/-- A tag as it is written. -/
inductive TagForm where
  /-- The whole tag. -/
  | verbatim (octets : Bytes)
  /-- A handle, and what stands behind it. -/
  | shorthand (handle : List Char) (suffix : Bytes)
  deriving DecidableEq, Repr

/-- A directive in front of a document. -/
inductive Directive where
  | version (major minor : Nat)
  /-- What a handle stands for. -/
  | handle (name : List Char) (stem : Bytes)
  deriving DecidableEq, Repr

/-- Whether a character may stand in the name of an anchor, a handle or a directive. -/
def isNameChar (c : Char) : Bool := c.isAlphanum || c == '_' || c == '-'

/-- Whether the next character is the given one. -/
def startsWith (c : Char) (spots : List Spot) : Bool := spots.head?.map Spot.char == some c

/-- The spots behind leading spaces and tabs. -/
def skipSpaces (spots : List Spot) : List Spot := spots.dropWhile fun spot => isSpace spot.char

def readOctet? : List Spot → Option (UInt8 × List Spot)
  | percent :: a :: b :: rest =>
    if percent.char == '%' then
      match Text.hexDigit? a.char, Text.hexDigit? b.char with
      | some a, some b => some (UInt8.ofNat (a * 16 + b), rest)
      | _, _ => none
    else none
  | _ => none

/-- How many octets continue a character that starts with the given one. -/
def tailCount? (octet : UInt8) : Option Nat :=
  if octet < 0x80 then some 0
  else if octet < 0xc0 then none
  else if octet < 0xe0 then some 1
  else if octet < 0xf0 then some 2
  else if octet < 0xf8 then some 3
  else none

/-- The octets that continue an escaped character. -/
def readTail? : (count : Nat) → List Spot → Option (Bytes × List Spot)
  | 0, spots => some ([], spots)
  | count + 1, spots => do
    let (octet, rest) ← readOctet? spots
    if Text.isTail octet then
      let (octets, left) ← readTail? count rest
      some (octet :: octets, left)
    else none

def readEscaped? (spots : List Spot) : Option (Bytes × List Spot) := do
  let (octet, rest) ← readOctet? spots
  let (octets, left) ← readTail? (← tailCount? octet) rest
  some (octet :: octets, left)

/-- Whether a character may stand in a tag; the signs of flow collections may only between angle
brackets and in directives. -/
def isTagChar (free : Bool) (c : Char) : Bool :=
  isNameChar c || ";/?:@&=+$.%!~*'()".toList.contains c || (free && ",[]".toList.contains c)

/-- The octets of a tag or of a part of one, as far as they go. -/
def readOctets? (free : Bool) : (fuel : Nat) → List Spot → Option (Bytes × List Spot)
  | 0, spots => some ([], spots)
  | _ + 1, [] => some ([], [])
  | fuel + 1, spot :: rest =>
    if !isTagChar free spot.char then some ([], spot :: rest)
    else do
      let (octets, left) ←
        if spot.char == '%' then readEscaped? (spot :: rest)
        else some ([UInt8.ofNat spot.char.toNat], rest)
      let (more, left) ← readOctets? free fuel left
      some (octets ++ more, left)

/-- A part of a tag that is not empty. -/
def readSome? (free : Bool) (spots : List Spot) : Option (Bytes × List Spot) := do
  let (octets, left) ← readOctets? free spots.length spots
  if octets.isEmpty then none else some (octets, left)

/-- The handle at the start of a tag: an exclamation mark, and a name with another one behind it if
there is one. The answer also says whether the second mark was there. -/
def readHandle? (spots : List Spot) : Option (List Char × Bool × List Spot) :=
  match spots with
  | [] => none
  | mark :: rest =>
    let name := (rest.takeWhile fun spot => isNameChar spot.char).map Spot.char
    let left := rest.drop name.length
    if mark.char != '!' then none
    else if startsWith '!' left then some ('!' :: name ++ ['!'], true, left.drop 1)
    else some ('!' :: name, false, left)

/-- A tag behind which no more than a gap or, in a flow collection, a comma may stand. -/
def readTag? (flow : Bool) (spots : List Spot) : Option (TagForm × List Spot) := do
  let (form, left) ←
    if startsWith '<' (spots.drop 1) then do
      let (octets, left) ← readSome? true (spots.drop 2)
      if startsWith '>' left then some (TagForm.verbatim octets, left.drop 1) else none
    else do
      let (handle, closed, left) ← readHandle? spots
      if closed then
        let (octets, left) ← readSome? false left
        some (TagForm.shorthand handle octets, left)
      else
        let (octets, left) ← readOctets? false left.length left
        let suffix := (handle.drop 1).map (fun c => UInt8.ofNat c.toNat) ++ octets
        some (TagForm.shorthand ['!'] suffix, left)
  if atGap left || (flow && startsWith ',' left) then some (form, left) else none

/-- How many digits a number of a version may have. -/
def versionDigits : Nat := 9

/-- A number of a version. -/
def readVersionNumber? (spots : List Spot) : Option (Nat × List Spot) := do
  let digits := (spots.takeWhile fun spot => spot.char.isDigit).map Spot.char
  if digits.isEmpty || versionDigits < digits.length then none
  else some (← Text.digits? 0 digits, spots.drop digits.length)

def readVersion? (spots : List Spot) : Option (Directive × List Spot) := do
  let (major, left) ← readVersionNumber? (skipSpaces spots)
  if startsWith '.' left then
    let (minor, left) ← readVersionNumber? (left.drop 1)
    some (.version major minor, left)
  else none

/-- The handle and its stem behind their directive's name. -/
def readHandleStem? (spots : List Spot) : Option (Directive × List Spot) := do
  let (name, closed, left) ← readHandle? (skipSpaces spots)
  if !closed && name != ['!'] then none
  else if !left.head?.any fun spot => isSpace spot.char then none
  else
    let (stem, left) ← readSome? true (skipSpaces left)
    if atGap left then some (.handle name stem, left) else none

/-- A directive behind its percent sign; only a comment may stand behind it in its line. -/
def readDirective? (spots : List Spot) : Option (Directive × List Spot) := do
  let name := (spots.takeWhile fun spot => isNameChar spot.char).map Spot.char
  let left := spots.drop name.length
  let (directive, left) ←
    if !atGap left then none
    else if name == "YAML".toList then readVersion? left
    else if name == "TAG".toList then readHandleStem? left
    else none
  let behind := skipSpaces left
  let behind := if startsWith '#' behind then skipLine behind else behind
  if atBreak behind then some (directive, behind) else none

/-- The handles that are known without a directive. -/
def presetHandles : List (List Char × Bytes) :=
  [(['!'], Text.toBytes "!"), (['!', '!'], Text.toBytes "tag:yaml.org,2002:")]

/-- What the handles of a document stand for, if its directives are in order: at most one version,
which must be a known one, and no handle twice. -/
def handles? (directives : List Directive) : Option (List (List Char × Bytes)) :=
  let versions := directives.filterMap fun d => match d with
    | .version major minor => some (major, minor)
    | .handle .. => none
  let stems := directives.filterMap fun d => match d with
    | .handle name stem => some (name, stem)
    | .version .. => none
  let known := versions.all fun (major, minor) => major == 1 && (minor == 1 || minor == 2)
  if known ∧ versions.length ≤ 1 ∧ (stems.map (·.1)).Nodup then some (stems ++ presetHandles)
  else none

/-- The octets in front of the first zero. -/
def upToZero (octets : Bytes) : Bytes := octets.takeWhile (· != 0)

/-- The tag that is meant, if its handle is known. A mark alone stands for itself. -/
def TagForm.resolve? (handles : List (List Char × Bytes)) : TagForm → Option Bytes
  | .verbatim octets => some (upToZero octets)
  | .shorthand handle suffix =>
    if handle == ['!'] && (upToZero suffix).isEmpty then some (Text.toBytes "!")
    else (handles.lookup handle).map fun stem => upToZero stem ++ upToZero suffix

end KernelCatalog.Yaml
