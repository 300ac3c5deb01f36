import KernelCatalog.Yaml.Spot

/-!
# YAML scalars

A scalar is written plainly, between quotes, or as a block of indented lines. Line breaks within the
first two forms are folded: a single one is read as a space, and of several the first is dropped.
Each reader returns the text and the spots behind it, or fails.
-/

namespace KernelCatalog.Yaml

/-- The spaces and line breaks in front of a spot that is neither. Spaces that stand beside a line
break are dropped; a tab among them must not stand in front of column `indent`. -/
def readGap? (indent : Nat) (spaces breaks : List Char) :
    List Spot → Option (List Char × List Char × List Spot)
  | [] => some (spaces, breaks, [])
  | spot :: rest =>
    if isSpace spot.char then
      if breaks.isEmpty then readGap? indent (spaces ++ [spot.char]) [] rest
      else if spot.char == '\t' && spot.column < indent then none
      else readGap? indent [] breaks rest
    else if isBreak spot.char then readGap? indent [] (breaks ++ [spot.char]) rest
    else some (spaces, breaks, spot :: rest)

/-- What a gap within a text is read as. -/
def foldGap (spaces : List Char) : (breaks : List Char) → List Char
  | [] => spaces
  | ['\n'] => [' ']
  | '\n' :: more => more
  | breaks => breaks

/-- Whether a character separates the parts of a flow collection. -/
def isFlowMark (c : Char) : Bool := c == ',' || c == '[' || c == ']' || c == '\x7b' || c == '\x7d'

/-- A run of plain characters without a gap. Within a flow collection, a colon in front of a
separating character is refused. -/
def readWord? (flow : Bool) : List Spot → Option (List Char × List Spot)
  | [] => some ([], [])
  | spot :: rest =>
    let c := spot.char
    let next := (rest.head?.map Spot.char).getD ' '
    if isSpace c || isBreak c then some ([], spot :: rest)
    else if flow && c == ':' && (isFlowMark next || next == '?') then none
    else if (c == ':' && atGap rest) || (flow && isFlowMark c) then some ([], spot :: rest)
    else (readWord? flow rest).map fun (cs, left) => (c :: cs, left)

/-- A plain text: runs with folded gaps between them. It ends in front of a comment, a document mark
or, outside of flow collections, a line with less than `indent` columns in front. The answer also
says whether a line break was passed at its end. -/
def readPlain? (flow : Bool) (indent : Nat) : (fuel : Nat) → (gap : List Char) → (broke : Bool) →
    List Spot → Option (List Char × Bool × List Spot)
  | 0, _, _, _ => none
  | fuel + 1, gap, broke, spots =>
    if atDocumentMark spots || (spots.head?.map Spot.char) == some '#' then some ([], broke, spots)
    else
      match readWord? flow spots with
      | none => none
      | some ([], left) => some ([], broke, left)
      | some (word, left) =>
        if !atGap left || left.isEmpty then some (gap ++ word, false, left)
        else
          match readGap? indent [] [] left with
          | none => none
          | some (spaces, breaks, behind) =>
            let outdented := match behind with
              | spot :: _ => !flow && spot.column < indent
              | [] => true
            if outdented then some (gap ++ word, !breaks.isEmpty, behind)
            else
              (readPlain? flow indent fuel (foldGap spaces breaks) (!breaks.isEmpty) behind).map
                fun (cs, broke, left) => (gap ++ word ++ cs, broke, left)

/-- The character that an escape of one letter stands for. -/
def escape? (c : Char) : Option Char :=
  [('0', '\x00'), ('a', '\x07'), ('b', '\x08'), ('t', '\t'), ('\t', '\t'), ('n', '\n'),
    ('v', '\x0b'), ('f', '\x0c'), ('r', '\r'), ('e', '\x1b'), (' ', ' '), ('"', '"'), ('/', '/'),
    ('\\', '\\'), ('N', '\u0085'), ('_', '\u00a0'), ('L', '\u2028'), ('P', '\u2029')].lookup c

/-- How many digits an escape by number has. -/
def escapeLength? (c : Char) : Option Nat := [('x', 2), ('u', 4), ('U', 8)].lookup c

/-- The character with the number that hexadecimal digits write. -/
def numberedChar? (digits : List Spot) : Option Char :=
  match digits.mapM fun spot => Text.hexDigit? spot.char with
  | none => none
  | some values =>
    let n := values.foldl (fun n d => n * 16 + d) 0
    if n ≤ 0x10ffff && !(0xd800 ≤ n && n ≤ 0xdfff) then some (Char.ofNat n) else none

/-- A run of characters between quotes, up to a gap or the closing quote. The answer also says
whether the run ended with a line break that is escaped. -/
def readQuotedRun? (single : Bool) : (fuel : Nat) → List Spot →
    Option (List Char × Bool × List Spot)
  | 0, _ => none
  | _ + 1, [] => some ([], false, [])
  | fuel + 1, spot :: rest =>
    let c := spot.char
    let more (c : Char) (left : List Spot) :=
      (readQuotedRun? single fuel left).map fun (cs, escaped, left) => (c :: cs, escaped, left)
    if isSpace c || isBreak c then some ([], false, spot :: rest)
    else if single then
      if c == '\'' then
        match rest with
        | next :: left =>
          if next.char == '\'' then more '\'' left else some ([], false, spot :: rest)
        | [] => some ([], false, spot :: rest)
      else more c rest
    else if c == '"' then some ([], false, spot :: rest)
    else if c == '\\' then
      match rest with
      | [] => none
      | next :: left =>
        if isBreak next.char then some ([], true, left)
        else
          match escape? next.char, escapeLength? next.char with
          | some c, _ => more c left
          | none, some length =>
            if left.length < length then none
            else
              match numberedChar? (left.take length) with
              | some c => more c (left.drop length)
              | none => none
          | none, none => none
    else more c rest

/-- The line breaks and spaces behind an escaped line break, without the spaces. -/
def readBreaks : List Spot → List Char × List Spot
  | [] => ([], [])
  | spot :: rest =>
    if isSpace spot.char then readBreaks rest
    else if isBreak spot.char then
      let (breaks, left) := readBreaks rest
      (spot.char :: breaks, left)
    else ([], spot :: rest)

/-- A quoted text behind its opening quote: runs with folded gaps between them, up to the closing
quote. -/
def readQuoted? (single : Bool) : (fuel : Nat) → List Spot → Option (List Char × List Spot)
  | 0, _ => none
  | fuel + 1, spots =>
    if atDocumentMark spots || spots.isEmpty then none
    else
      match readQuotedRun? single (spots.length + 1) spots with
      | none => none
      | some (run, escaped, left) =>
        let closing := if single then '\'' else '"'
        if !escaped && (left.head?.map Spot.char) == some closing then some (run, left.drop 1)
        else
          let gap := if escaped then some (readBreaks left) else
            (readGap? 0 [] [] left).map fun (spaces, breaks, behind) =>
              (foldGap spaces breaks, behind)
          match gap with
          | none => none
          | some (folded, behind) =>
            (readQuoted? single fuel behind).map fun (cs, left) => (run ++ folded ++ cs, left)

/-- What becomes of the line breaks at the end of a block. -/
inductive Chomping where
  /-- One is kept. -/
  | clip
  /-- None is kept. -/
  | strip
  /-- All are kept. -/
  | keep
  deriving DecidableEq, Repr

/-- The sign of a chomping. -/
def chomping? (c : Char) : Option Chomping := [('-', .strip), ('+', .keep)].lookup c

/-- The digit of an indentation. -/
def indentDigit? (c : Char) : Option Nat := (Text.digit? c).filter (0 < ·)

/-- The signs behind the mark of a block: chomping and indentation, in either order. -/
def readBlockSigns (spots : List Spot) : Chomping × Nat × List Spot :=
  let sign (spots : List Spot) : Option (Chomping × List Spot) :=
    match spots with
    | spot :: rest => (chomping? spot.char).map (·, rest)
    | [] => none
  let digit (spots : List Spot) : Option (Nat × List Spot) :=
    match spots with
    | spot :: rest => (indentDigit? spot.char).map (·, rest)
    | [] => none
  match sign spots with
  | some (chomping, left) =>
    match digit left with
    | some (n, left) => (chomping, n, left)
    | none => (chomping, 0, left)
  | none =>
    match digit spots with
    | some (n, left) =>
      match sign left with
      | some (chomping, left) => (chomping, n, left)
      | none => (.clip, n, left)
    | none => (.clip, 0, spots)

/-- The blank lines in front of a line of a block, whose indentation is not known if it is 0; with
the greatest column that was reached. A tab in the indentation is refused. -/
def readBlankLines? (indent : Nat) (reached : Nat) : List Spot →
    Option (List Char × Nat × List Spot)
  | [] => some ([], reached, [])
  | spot :: rest =>
    let reached := max reached spot.column
    let inside := indent == 0 || spot.column < indent
    if inside && spot.char == ' ' then readBlankLines? indent reached rest
    else if inside && spot.char == '\t' then none
    else if isBreak spot.char then
      (readBlankLines? indent reached rest).map fun (breaks, reached, left) =>
        (spot.char :: breaks, reached, left)
    else some ([], reached, spot :: rest)

/-- The lines of a block from the given indentation on. `ending` is the line break of the line
before, `blank` the blank lines behind it, and `spaced` says whether that line started with a space.
The answer has the text, the last line break and the blank lines at the end. -/
def readBlockLines? (folded : Bool) (indent : Nat) : (fuel : Nat) → (ending blank : List Char) →
    (spaced : Bool) → List Spot → Option (List Char × List Char × List Char × List Spot)
  | 0, _, _, _, _ => none
  | _ + 1, ending, blank, _, [] => some ([], ending, blank, [])
  | fuel + 1, ending, blank, spaced, spot :: rest =>
    if spot.column ≠ indent then some ([], ending, blank, spot :: rest)
    else
      let spacedNow := isSpace spot.char
      let joint :=
        if folded && ending == ['\n'] && !spaced && !spacedNow then
          if blank.isEmpty then [' '] else []
        else ending
      let line := ((spot :: rest).takeWhile fun s => !isBreak s.char).map Spot.char
      let left := skipLine (spot :: rest)
      let nextEnding := (left.head?.map Spot.char).toList
      match readBlankLines? indent 0 (left.drop 1) with
      | none => none
      | some (nextBlank, _, behind) =>
        (readBlockLines? folded indent fuel nextEnding nextBlank spacedNow behind).map
          fun (cs, ending, blanks, left) => (joint ++ blank ++ line ++ cs, ending, blanks, left)

/-- A block behind its mark, within `outer` columns of indentation. -/
def readBlock? (folded : Bool) (outer : Int) (spots : List Spot) :
    Option (List Char × List Spot) :=
  let (chomping, increment, behind) := readBlockSigns spots
  let spaces := behind.dropWhile fun spot => isSpace spot.char
  let left := if (spaces.head?.map Spot.char) == some '#' then skipLine spaces else spaces
  if !atBreak left then none
  else
    let given := if increment = 0 then 0 else (max outer 0).toNat + increment
    match readBlankLines? given 0 (left.drop 1) with
    | none => none
    | some (blank, reached, first) =>
      let indent := if increment = 0 then max reached (max (outer + 1).toNat 1) else given
      match readBlockLines? folded indent (first.length + 1) [] blank false first with
      | none => none
      | some (text, ending, blanks, left) =>
        let tail := match chomping with
          | .strip => []
          | .clip => ending
          | .keep => ending ++ blanks
        some (text ++ tail, left)

end KernelCatalog.Yaml
