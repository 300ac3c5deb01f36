import KernelCatalog.Shell.Arithmetic
import KernelCatalog.Shell.Pattern
import KernelCatalog.Shell.Session

/-!
# Expansion of words

A word is expanded to characters that remember whether they are quoted and whether they may divide
fields. Then it is cut into fields, and each field that is a pattern stands for the paths that match
it. Running substituted commands is left to an argument, since commands are made of words.
-/

namespace KernelCatalog.Shell

/-- A step of a running shell that may break off. -/
abbrev Acting := ExceptT Unit (StateM Session)

/-- Runs a substituted command: what it prints, and the session afterwards. -/
abbrev Capture := Option Command → Session → Bytes × Session

/-- A piece of an expanded word. -/
inductive Glyph where
  /-- A character; if it divides, it may stand between fields. -/
  | char (c : Char) (quoted divides : Bool)
  /-- Quotes were here, so that there is a field even if it is empty. -/
  | mark
  /-- A field ends here. -/
  | cut
  deriving DecidableEq, Repr

def breakOff {α : Type} (message : String) : Acting α := do
  modify fun session => session.abort message
  throw ()

/-- Does something that may end the session. -/
def attempt (change : Session → Session) : Acting Unit := do
  modify change
  if !(← get).isOn then throw ()

/-- The glyphs of a value. -/
def glyphs (value : String) (quoted : Bool) : List Glyph :=
  (if quoted then [.mark] else []) ++ value.toList.map fun c => .char c quoted !quoted

/-- Lists of glyphs with a cut between each two. -/
def cutBetween : List (List Glyph) → List Glyph
  | [] => []
  | [last] => last
  | first :: rest => first ++ .cut :: cutBetween rest

/-- The glyphs of all arguments. -/
def argumentGlyphs (session : Session) (starred quoted : Bool) : List Glyph :=
  if starred && quoted then
    let separator := match session.value? "IFS" with
      | some text => String.ofList (text.toList.take 1)
      | none => " "
    glyphs (Text.join separator session.arguments) true
  else cutBetween (session.arguments.map fun value => glyphs value quoted)

/-- The text of glyphs that are not cut into fields. -/
def plainText (glyphs : List Glyph) : List Char :=
  glyphs.filterMap fun glyph =>
    match glyph with
    | .char c _ _ => some c
    | .mark => none
    | .cut => some ' '

/-- The bytes of glyphs that are a pattern. -/
def patternBytes (glyphs : List Glyph) : List PatternByte :=
  glyphs.flatMap fun glyph =>
    match glyph with
    | .char c quoted _ => (Text.toBytes c.toString).map fun b => (b, quoted)
    | .mark => []
    | .cut => [(0x20, true)]

/-- What a substituted command printed, as a text: without line breaks at its end. -/
def printedText (bytes : Bytes) : String :=
  let chars := (Text.ofBytesLenient (bytes.filter (· ≠ 0))).toList
  String.ofList (chars.reverse.dropWhile (· == '\n')).reverse

/-- The value of a parameter without what matches a pattern. -/
def trimmed (usage : Usage) (pattern : List Glyph) (value : String) : String :=
  let pattern := Pattern.ofBytes (patternBytes pattern)
  let bytes := Text.toBytes value
  match usage with
  | .trimFront longest => Text.ofBytesLenient (pattern.trimFront longest bytes)
  | .trimBack longest => Text.ofBytesLenient (pattern.trimBack longest bytes)
  | _ => value

/-- Whether an empty value counts as none. -/
def Usage.emptyToo : Usage → Bool
  | .instead flag | .assign flag | .alternate flag | .demand flag => flag
  | _ => false

mutual

/-- The glyphs of a part of a word. In braces, bare text may divide fields. -/
def expandPart (capture : Capture) (inBraces : Bool) : Part → Acting (List Glyph)
  | .text cs quoted =>
    return (if quoted then [.mark] else [])
      ++ cs.map fun c => .char c quoted (!quoted && inBraces)
  | .output body quoted => do
    let (bytes, after) := capture body (← get)
    attempt fun _ => after
    return glyphs (printedText bytes) quoted
  | .arithmetic expression quoted => do
    let text := plainText (← expandParts capture false expression)
    let session ← get
    match Arithmetic.evaluate (fun name => (session.value? name).getD "") text with
    | .error trouble => breakOff (trouble.message text)
    | .ok (value, assigned) =>
      assigned.reverse.forM fun (name, n) =>
        attempt fun session => session.assignChecked name (toString n)
      return glyphs (toString value) quoted
  | .parameter name usage word quoted => do
    let session ← get
    let isList := name == "@" || name == "*"
    let value? : Option String :=
      if isList then
        if session.arguments.isEmpty then none else some (Text.join " " session.arguments)
      else session.parameter? name
    let shown : List Glyph :=
      if isList then argumentGlyphs session (name == "*") quoted
      else glyphs (value?.getD "") quoted
    let isPresent := match value? with
      | none => false
      | some value => !(usage.emptyToo && value.isEmpty)
    let isMissing := value?.isNone && !isList && session.has 'u'
    match usage with
    | .malformed => breakOff "Bad substitution"
    | .plain => if isMissing then breakOff (name ++ ": parameter not set") else return shown
    | .length =>
      if isMissing then breakOff (name ++ ": parameter not set")
      else if isList then return glyphs (toString session.arguments.length) quoted
      else return glyphs (toString (value?.getD "").utf8ByteSize) quoted
    | .instead _ => if isPresent then return shown else expandParts capture (!quoted) word
    | .alternate _ => if isPresent then expandParts capture (!quoted) word else return []
    | .assign _ =>
      if isPresent then return shown
      else
        let text := String.ofList (plainText (← expandParts capture false word))
        if !isName name.toList then breakOff (name ++ ": bad variable name")
        else
          attempt fun session => session.assignChecked name text
          return glyphs text quoted
    | .demand emptyToo =>
      if isPresent then return shown
      else
        let text := plainText (← expandParts capture false word)
        let message := if !word.isEmpty then String.ofList text
          else if emptyToo then "parameter not set or null" else "parameter not set"
        breakOff (name ++ ": " ++ message)
    | .trimFront _ | .trimBack _ =>
      if isMissing then breakOff (name ++ ": parameter not set")
      else
        let pattern ← expandParts capture false word
        return glyphs (trimmed usage pattern (value?.getD "")) quoted

def expandParts (capture : Capture) (inBraces : Bool) : List Part → Acting (List Glyph)
  | [] => return []
  | part :: rest => do
    let first ← expandPart capture inBraces part
    return first ++ (← expandParts capture inBraces rest)

end

/-- The directory that a tilde with a name behind it stands for. -/
def homeOf (session : Session) (name : String) : Option String :=
  if name == "" then session.value? "HOME" else if name == "root" then some "/root" else none

/-- The parts of a word with a tilde at its front replaced. -/
def withHome (session : Session) (parts : List Part) : List Part :=
  match parts with
  | .text ('~' :: cs) false :: rest =>
    let (name, behind) := cs.span (· ≠ '/')
    if behind.isEmpty && !rest.isEmpty then parts
    else
      match homeOf session (String.ofList name) with
      | some home => .text home.toList true :: .text behind false :: rest
      | none => parts
  | _ => parts

/-- The text of a word that is not cut into fields. -/
def expandText (capture : Capture) (parts : List Part) : Acting String := do
  let parts := withHome (← get) parts
  return String.ofList (plainText (← expandParts capture false parts))

def expandPattern (capture : Capture) (parts : List Part) : Acting Pattern := do
  let parts := withHome (← get) parts
  return Pattern.ofBytes (patternBytes (← expandParts capture false parts))

/-! ## Fields -/

/-- A field of a word, character by character, each with whether it is quoted. -/
abbrev Field := List (Char × Bool)

/-- Cuts glyphs into fields. The field that is being put together is given in reverse, if there is
one yet; `blank` says that the last thing was a blank behind a field. -/
def cutFields (separators : List Char) :
    (field : Option Field) → (blank : Bool) → List Glyph → List Field
  | field, _, [] => (field.map List.reverse).toList
  | field, _, .mark :: rest => cutFields separators (some (field.getD [])) false rest
  | field, _, .cut :: rest =>
    (field.map List.reverse).toList ++ cutFields separators none false rest
  | field, blank, .char c quoted divides :: rest =>
    if divides && separators.contains c then
      if c == ' ' || c == '\t' || c == '\n' then
        match field with
        | some field => field.reverse :: cutFields separators none true rest
        | none => cutFields separators none blank rest
      else
        match field with
        | some field => field.reverse :: cutFields separators none false rest
        | none =>
          if blank then cutFields separators none false rest
          else [] :: cutFields separators none false rest
    else cutFields separators (some ((c, quoted) :: field.getD [])) false rest

/-- The bytes of a field as a pattern. -/
def fieldBytes (field : Field) : List PatternByte :=
  field.flatMap fun (c, quoted) => (Text.toBytes c.toString).map fun b => (b, quoted)

/-- The text of a field. -/
def fieldText (field : Field) : String := String.ofList (field.map (·.1))

/-- The names in the directory at a path, with those of the directory itself and the one around
it. -/
def namesIn (files : Files) (path : String) : List String :=
  match files.locate ⟨if path.isEmpty then "." else path⟩ with
  | .error _ => []
  | .ok location =>
    "." :: ".." :: files.entries.filterMap fun (place, _) =>
      if place.dropLast == location && !place.isEmpty then place.getLast? else none

/-- Whether something is at a path, be it a link that leads nowhere. -/
def isThere (files : Files) (path : String) : Bool :=
  match files.around ⟨path⟩ with
  | .ok (directory, last, slashed) =>
    if slashed || Files.isDots last then (files.stat ⟨path⟩).isOk
    else
      match files.step directory last with
      | .ok location => (files.get? location).isSome
      | .error _ => false
  | .error _ => false

/-- The names of a directory that a component of a path matches. -/
def matchingNames (files : Files) (directory : String) (component : Field) : List String :=
  let pattern := Pattern.ofBytes (fieldBytes component)
  let dotted := (component.head?.map (·.1)) == some '.'
  (namesIn files directory).filter fun name =>
    (dotted || name.toList.head? != some '.') && pattern.matchesAll (Text.toBytes name)

/-- The paths that components match, behind a path in front of them. -/
def matchingPaths (files : Files) : (front : String) → List Field → List String
  | front, [] => if isThere files front then [front] else []
  | front, component :: rest =>
    let ending := if rest.isEmpty then "" else "/"
    if (fieldBytes component).any isWild then
      (matchingNames files front component).flatMap fun name =>
        if rest.isEmpty then [front ++ name]
        else if files.isDirectory ⟨front ++ name⟩ then
          matchingPaths files (front ++ name ++ ending) rest
        else []
    else matchingPaths files (front ++ fieldText component ++ ending) rest

/-- The components of a field that is a path. -/
def components : Field → List Field
  | [] => [[]]
  | (c, quoted) :: rest =>
    if c == '/' then [] :: components rest
    else
      match components rest with
      | first :: others => ((c, quoted) :: first) :: others
      | [] => [[(c, quoted)]]

/-- The paths that a field stands for: those it matches, or itself if there are none. -/
def fieldPaths (files : Files) (field : Field) : List String :=
  if (fieldBytes field).any isWild then
    match matchingPaths files "" (components field) with
    | [] => [fieldText field]
    | paths => paths.mergeSort
  else [fieldText field]

def expandWord (capture : Capture) (parts : List Part) : Acting (List String) := do
  let parts := withHome (← get) parts
  let glyphs ← expandParts capture false parts
  let session ← get
  let fields := cutFields session.separators none false glyphs
  if session.has 'f' then return fields.map fieldText
  else return fields.flatMap (fieldPaths session.files)

def expandWords (capture : Capture) : List (List Part) → Acting (List String)
  | [] => return []
  | parts :: rest => do
    let first ← expandWord capture parts
    return first ++ (← expandWords capture rest)

end KernelCatalog.Shell
