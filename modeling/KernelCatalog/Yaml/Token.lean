import KernelCatalog.Yaml.Scalar
import KernelCatalog.Yaml.Tag

/-!
# YAML tokens

The tokens of a YAML text make its indentation explicit: a block collection has a token where it
starts and one where it ends. A key is only known as one when the colon behind it is met; its tokens
are then put in at the place that was remembered for it.
-/

namespace KernelCatalog.Yaml

/-- A token. -/
inductive Token where
  | documentStart
  | documentEnd
  | directive (contents : Directive)
  | sequenceStart
  | mappingStart
  | blockEnd
  | flowSequenceStart
  | flowSequenceEnd
  | flowMappingStart
  | flowMappingEnd
  /-- A dash in front of an item. -/
  | entry
  /-- A comma. -/
  | flowEntry
  | key
  | value
  | alias (name : List Char)
  | anchor (name : List Char)
  | tag (form : TagForm)
  | scalar (plain : Bool) (text : List Char)
  deriving DecidableEq, Repr

/-- A place where a key may have started. -/
structure KeyPlace where
  /-- The number of tokens in front of it. -/
  position : Nat
  /-- Whether there must be a key, because of the indentation. -/
  required : Bool
  line : Nat
  column : Nat
  index : Nat
  deriving DecidableEq, Repr

/-- How far the reading of tokens has come. -/
structure Scan where
  rest : List Spot
  tokens : List Token := []
  /-- The column of the innermost block collection, or -1. -/
  indent : Int := -1
  /-- The columns of the collections around it. -/
  indents : List Int := []
  /-- Whether a key may start here. -/
  keyAllowed : Bool := true
  /-- For each flow collection around, and for the text itself, where a key may have started. -/
  keys : List (Option KeyPlace) := [none]

namespace Scan

/-- Whether the scan is within a flow collection. -/
def inFlow (scan : Scan) : Bool := 1 < scan.keys.length

/-- The column of the next spot. -/
def column (scan : Scan) : Nat :=
  match scan.rest with
  | spot :: _ => spot.column
  | [] => 0

/-- The scan with a token behind the others. -/
def push (scan : Scan) (token : Token) : Scan := { scan with tokens := scan.tokens ++ [token] }

/-- The scan with a token put in at a place. -/
def insertAt (scan : Scan) (position : Nat) (token : Token) : Scan :=
  { scan with tokens := scan.tokens.take position ++ token :: scan.tokens.drop position }

/-- The scan without the spaces, comments and line breaks in front. A tab counts as a space only
where no key may start. -/
def skipGaps : (fuel : Nat) → Scan → Scan
  | 0, scan => scan
  | fuel + 1, scan =>
    match scan.rest with
    | [] => scan
    | spot :: rest =>
      if spot.char == ' ' || (spot.char == '\t' && (scan.inFlow || !scan.keyAllowed)) then
        skipGaps fuel { scan with rest }
      else if spot.char == '#' then skipGaps fuel { scan with rest := skipLine rest }
      else if isBreak spot.char then
        skipGaps fuel { scan with rest, keyAllowed := scan.keyAllowed || !scan.inFlow }
      else scan

/-- The scan after a place of a key is given up; a key that must be there is missing then. -/
def dropKey? (scan : Scan) : Option Scan :=
  match scan.keys with
  | some place :: around =>
    if place.required then none else some { scan with keys := none :: around }
  | _ => some scan

/-- How many bytes a key may have. -/
def keyLimit : Nat := 1024

/-- Whether a key can no longer end here: it lies on another line, or too far back. -/
def isStale (spot : Spot) (place : KeyPlace) : Bool :=
  place.line < spot.line || place.index + keyLimit < spot.index

/-- The scan after the places are given up whose key can no longer end here. -/
def dropStale? (scan : Scan) : Option Scan :=
  match scan.rest with
  | [] => some scan
  | spot :: _ =>
    let stale (key : Option KeyPlace) : Bool := (key.map (isStale spot)).getD false
    if scan.keys.any fun key => stale key && (key.map KeyPlace.required).getD false then none
    else some { scan with keys := scan.keys.map fun key => if stale key then none else key }

/-- The scan with a place for a key that may start here. -/
def saveKey? (scan : Scan) : Option Scan :=
  match scan.rest with
  | [] => some scan
  | spot :: _ =>
    if !scan.keyAllowed then some scan
    else
      match scan.dropKey? with
      | none => none
      | some scan =>
        let required := !scan.inFlow && scan.indent == spot.column
        let place := ⟨scan.tokens.length, required, spot.line, spot.column, spot.index⟩
        some { scan with keys := some place :: scan.keys.drop 1 }

/-- Ends the block collections that are indented by more than the given column. -/
def unroll (column : Int) : List Int → Scan → Scan
  | [], scan => scan
  | outer :: around, scan =>
    if scan.indent ≤ column then scan
    else unroll column around { scan.push .blockEnd with indent := outer, indents := around }

/-- Ends the block collections that are indented by more than the given column, unless the scan is
within a flow collection. -/
def unrollTo (scan : Scan) (column : Int) : Scan :=
  if scan.inFlow then scan else unroll column scan.indents scan

/-- Starts a block collection at a column, if it is indented by more than the one around it. -/
def roll (scan : Scan) (column position : Nat) (token : Token) : Scan :=
  if scan.inFlow || (column : Int) ≤ scan.indent then scan
  else
    { scan.insertAt position token with
      indent := column, indents := scan.indent :: scan.indents }

/-- The scan behind its next spot. -/
def skip (scan : Scan) (count : Nat) : Scan := { scan with rest := scan.rest.drop count }

/-- Reads a mark that starts or ends a document. -/
def documentMark? (scan : Scan) (token : Token) : Option Scan := do
  let scan ← (scan.unrollTo (-1)).dropKey?
  some ({ scan with keyAllowed := false }.skip 3 |>.push token)

def directive? (scan : Scan) : Option Scan := do
  let scan ← (scan.unrollTo (-1)).dropKey?
  let (directive, rest) ← readDirective? (scan.rest.drop 1)
  some ({ scan with keyAllowed := false, rest }.push (.directive directive))

/-- Reads the opening bracket of a flow collection. -/
def openFlow? (scan : Scan) (token : Token) : Option Scan := do
  let scan ← scan.saveKey?
  some ({ scan with keyAllowed := true, keys := none :: scan.keys }.skip 1 |>.push token)

/-- Reads the closing bracket of a flow collection. -/
def closeFlow? (scan : Scan) (token : Token) : Option Scan := do
  let scan ← scan.dropKey?
  let keys := if scan.inFlow then scan.keys.drop 1 else scan.keys
  some ({ scan with keyAllowed := false, keys }.skip 1 |>.push token)

def flowEntry? (scan : Scan) : Option Scan := do
  let scan ← scan.dropKey?
  some ({ scan with keyAllowed := true }.skip 1 |>.push .flowEntry)

/-- Reads a mark that may start a block collection, where one may start. -/
def startBlock? (scan : Scan) (token : Token) : Option Scan :=
  if scan.inFlow then some scan
  else if scan.keyAllowed then some (scan.roll scan.column scan.tokens.length token)
  else none

/-- Reads the dash in front of an item. -/
def blockEntry? (scan : Scan) : Option Scan := do
  let scan ← (← scan.startBlock? .sequenceStart).dropKey?
  some ({ scan with keyAllowed := true }.skip 1 |>.push .entry)

/-- Reads the question mark in front of a key. -/
def keyMark? (scan : Scan) : Option Scan := do
  let scan ← (← scan.startBlock? .mappingStart).dropKey?
  some ({ scan with keyAllowed := !scan.inFlow }.skip 1 |>.push .key)

/-- Reads the colon in front of a value; what stands before it is a key, if one may have started. -/
def valueMark? (scan : Scan) : Option Scan :=
  match scan.keys with
  | some place :: around =>
    let scan := (scan.insertAt place.position .key).roll place.column place.position .mappingStart
    some ({ scan with keyAllowed := false, keys := none :: around }.skip 1 |>.push .value)
  | _ => do
    let scan ← scan.startBlock? .mappingStart
    some ({ scan with keyAllowed := !scan.inFlow }.skip 1 |>.push .value)

/-- Whether the name of an anchor may end here. -/
def atNameEnd (spots : List Spot) : Bool :=
  atGap spots || match spots with
    | spot :: _ => "?:,]\x7d%@\x60".toList.contains spot.char
    | [] => true

/-- Reads an anchor or an alias. -/
def name? (scan : Scan) (token : List Char → Token) : Option Scan := do
  let scan ← scan.saveKey?
  let behind := scan.rest.drop 1
  let name := (behind.takeWhile fun spot => isNameChar spot.char).map Spot.char
  let rest := behind.drop name.length
  if name.isEmpty || !atNameEnd rest then none
  else some ({ scan with keyAllowed := false, rest }.push (token name))

/-- Reads a tag. -/
def tag? (scan : Scan) : Option Scan := do
  let scan ← scan.saveKey?
  let (form, rest) ← readTag? scan.inFlow scan.rest
  some ({ scan with keyAllowed := false, rest }.push (.tag form))

/-- Reads a block scalar. -/
def block? (scan : Scan) (folded : Bool) : Option Scan := do
  let scan ← scan.dropKey?
  let (text, rest) ← readBlock? folded scan.indent (scan.rest.drop 1)
  some ({ scan with keyAllowed := true, rest }.push (.scalar false text))

/-- Reads a quoted scalar. -/
def quoted? (scan : Scan) (single : Bool) : Option Scan := do
  let scan ← scan.saveKey?
  let (text, rest) ← readQuoted? single (scan.rest.length + 1) (scan.rest.drop 1)
  some ({ scan with keyAllowed := false, rest }.push (.scalar false text))

/-- Reads a plain scalar. -/
def plain? (scan : Scan) : Option Scan := do
  let scan ← scan.saveKey?
  let (text, broke, rest) ←
    readPlain? scan.inFlow (scan.indent + 1).toNat (scan.rest.length + 1) [] false scan.rest
  some ({ scan with keyAllowed := broke, rest }.push (.scalar true text))

/-- Whether a plain scalar may start with a character in front of the given spots. -/
def startsPlain (flow : Bool) (c : Char) (rest : List Spot) : Bool :=
  let blankNext := match rest with
    | spot :: _ => isSpace spot.char
    | [] => false
  !"-?:,[]\x7b\x7d#&*!|>'\"%@\x60".toList.contains c && !isSpace c && !isBreak c
    || (c == '-' && !blankNext)
    || (!flow && (c == '?' || c == ':') && !atGap rest)

/-- Reads the next token, which starts at the given spot. -/
def token? (scan : Scan) (spot : Spot) (rest : List Spot) : Option Scan :=
  let c := spot.char
  let flow := scan.inFlow
  if spot.column == 0 && c == '%' then scan.directive?
  else if atMark '-' scan.rest then scan.documentMark? .documentStart
  else if atMark '.' scan.rest then scan.documentMark? .documentEnd
  else if c == '[' then scan.openFlow? .flowSequenceStart
  else if c == '\x7b' then scan.openFlow? .flowMappingStart
  else if c == ']' then scan.closeFlow? .flowSequenceEnd
  else if c == '\x7d' then scan.closeFlow? .flowMappingEnd
  else if c == ',' then scan.flowEntry?
  else if c == '-' && atGap rest then scan.blockEntry?
  else if c == '?' && (flow || atGap rest) then scan.keyMark?
  else if c == ':' && (flow || atGap rest) then scan.valueMark?
  else if c == '*' then scan.name? .alias
  else if c == '&' then scan.name? .anchor
  else if c == '!' then scan.tag?
  else if c == '|' && !flow then scan.block? false
  else if c == '>' && !flow then scan.block? true
  else if c == '\'' then scan.quoted? true
  else if c == '"' then scan.quoted? false
  else if startsPlain flow c rest then scan.plain?
  else none

/-- Reads tokens to the end of the text. -/
def tokens? : (fuel : Nat) → Scan → Option (List Token)
  | 0, _ => none
  | fuel + 1, scan =>
    match (scan.skipGaps (scan.rest.length + 1)).dropStale? with
    | none => none
    | some scan =>
      match scan.rest with
      | [] => ((scan.unrollTo (-1)).dropKey?).map Scan.tokens
      | spot :: rest =>
        match (scan.unrollTo spot.column).token? spot rest with
        | none => none
        | some next => tokens? fuel next

end Scan

/-- The tokens of a text. -/
def Token.scan? (text : String) : Option (List Token) := do
  let spots ← spots? text
  Scan.tokens? (spots.length + 1) { rest := spots }

end KernelCatalog.Yaml
