import KernelCatalog.Shell.Script.Basic

/-!
# Reading words

A script is read from a cursor, which knows the line it is on and the documents that are still to
come. Words are read with their quotes, parameters and substitutions. Reading a substituted command
is left to an argument, since commands are made of words.
-/

namespace KernelCatalog.Shell

/-- Why a script cannot be read, and on which line. -/
structure ReadError where
  line : Nat
  message : String
  deriving DecidableEq, Repr

/-- A document that is announced but not read yet. -/
structure Awaited where
  number : Nat
  ending : List Char
  /-- Whether nothing in it is expanded. -/
  quoted : Bool
  /-- Whether tabs in front of its lines are left out. -/
  stripped : Bool

/-- The words that have a meaning of their own in front of a command. -/
def keywords : List String :=
  ["!", "case", "do", "done", "elif", "else", "esac", "fi", "for", "if", "in", "then", "until",
    "while", "\x7b", "\x7d"]

/-- The smallest pieces of a script. -/
inductive Token where
  | finish
  | newline
  /-- One of `;`, `&`, `&&`, `||`, `|`, `(`, `)` and `;;`. -/
  | operator (text : String)
  /-- A redirection without its target. -/
  | redirect (descriptor : Nat) (mode : RedirectMode)
  /-- The start of a document. -/
  | document (descriptor : Nat) (stripped : Bool)
  | word (parts : List Part)
  | keyword (text : String)

/-- What messages call a token. -/
def Token.name : Token → String
  | .finish => "end of file"
  | .newline => "newline"
  | .operator text | .keyword text => "\"" ++ text ++ "\""
  | .redirect .. | .document .. => "redirection"
  | .word _ => "word"

/-- A place in a script. -/
structure Cursor where
  rest : List Char
  line : Nat := 1
  /-- A token that was read and put back. -/
  back : Option Token := none
  awaited : List Awaited := []
  /-- The documents that have been read, with their numbers. -/
  documents : List (Nat × List Part) := []
  /-- The number of the next document. -/
  nextDocument : Nat := 0

/-- Reading from a cursor. -/
abbrev Reading := StateT Cursor (Except ReadError)

/-- Gives up reading. -/
def refuse {α : Type} (message : String) : Reading α := do
  throw ⟨(← get).line, "Syntax error: " ++ message⟩

/-- Takes the next character as it stands. -/
def takeRaw : Reading (Option Char) := do
  let cursor ← get
  match cursor.rest with
  | [] => return none
  | c :: rest =>
    set { cursor with rest, line := if c == '\n' then cursor.line + 1 else cursor.line }
    return some c

/-- The characters behind line breaks that are escaped, and how many these are. -/
def skipJoins : List Char → List Char × Nat
  | '\\' :: '\n' :: rest =>
    let (left, count) := skipJoins rest
    (left, count + 1)
  | cs => (cs, 0)

/-- The next character behind escaped line breaks, which are left out. -/
def look : Reading (Option Char) := do
  let cursor ← get
  let (rest, count) := skipJoins cursor.rest
  set { cursor with rest, line := cursor.line + count }
  return rest.head?

/-- Takes the next character behind escaped line breaks. -/
def take : Reading (Option Char) := do
  let _ ← look
  takeRaw

/-- Takes the next character if it is the given one. -/
def takeIf (c : Char) : Reading Bool := do
  if (← look) == some c then
    let _ ← takeRaw
    return true
  else return false

/-- Takes characters as long as they are of a kind. -/
def takeSpan (kind : Char → Bool) : (fuel : Nat) → Reading (List Char)
  | 0 => return []
  | fuel + 1 => do
    match ← look with
    | some c =>
      if kind c then
        let _ ← takeRaw
        return c :: (← takeSpan kind fuel)
      else return []
    | none => return []

/-- How many characters are left. -/
def remaining : Reading Nat := do return (← get).rest.length

/-- Takes the characters up to a closing quote, and the quote. -/
def takeQuoted : (fuel : Nat) → Reading (List Char)
  | 0 => refuse "Unterminated quoted string"
  | fuel + 1 => do
    match ← takeRaw with
    | none => refuse "Unterminated quoted string"
    | some '\'' => return []
    | some c => return c :: (← takeQuoted fuel)

/-- What parts of words stand in. -/
inductive Surroundings where
  | bare
  /-- Double quotes. -/
  | quotes
  /-- The braces of a parameter. -/
  | braces
  /-- The braces of a parameter in double quotes. -/
  | quotedBraces
  /-- An arithmetic expression. -/
  | arithmetic
  | document
  deriving DecidableEq, Repr

namespace Surroundings

def isQuoted : Surroundings → Bool
  | .bare | .braces => false
  | _ => true

/-- The surroundings of a word in braces, given those around the braces. -/
def inBraces (surroundings : Surroundings) : Surroundings :=
  if surroundings.isQuoted then .quotedBraces else .braces

/-- Whether a backslash takes the meaning of a character and is itself left out. -/
def escapes (surroundings : Surroundings) (c : Char) : Bool :=
  match surroundings, c with
  | _, '\\' | _, '\x60' | _, '$' => true
  | .document, '"' => false
  | _, '"' => true
  | .quotedBraces, '\x7d' => true
  | .bare, _ | .braces, _ => true
  | _, _ => false

end Surroundings

/-- Whether a character ends a word. -/
def endsWord (c : Char) : Bool := " \t\n;&|<>()".toList.contains c

/-- Takes the text between back quotes. -/
def takeBackQuoted (quoted : Bool) : (fuel : Nat) → Reading (List Char)
  | 0 => refuse "EOF in backquote substitution"
  | fuel + 1 => do
    match ← take with
    | none => refuse "EOF in backquote substitution"
    | some '\x60' => return []
    | some '\\' =>
      match ← takeRaw with
      | none => refuse "EOF in backquote substitution"
      | some c =>
        let rest ← takeBackQuoted quoted fuel
        if c == '\\' || c == '\x60' || c == '$' || (quoted && c == '"') then return c :: rest
        else return '\\' :: c :: rest
    | some c => return c :: (← takeBackQuoted quoted fuel)

/-- Reads a script inside another one, which has documents of its own. Those that have not been
read when it ends are empty. -/
def enclosed {α : Type} (reading : Reading α) : Reading α := do
  let awaited := (← get).awaited
  modify fun cursor => { cursor with awaited := [] }
  let result ← reading
  modify fun cursor =>
    { cursor with
      awaited
      documents := cursor.awaited.map (fun left => (left.number, [])) ++ cursor.documents }
  return result

/-- Reads with another text, from a line on, in place of the rest of the script. -/
def within {α : Type} (text : List Char) (line : Nat) (reading : Reading α) : Reading α := do
  let cursor ← get
  set { cursor with rest := text, line, back := none }
  let result ← enclosed reading
  modify fun inner => { inner with rest := cursor.rest, line := cursor.line, back := cursor.back }
  return result

/-- The parameter that is named behind an opening brace, and its usage as far as it is known. -/
def takeName : Reading (Option String × Bool) := do
  let fuel ← remaining
  let named (fuel : Nat) : Reading (Option String) := do
    match ← look with
    | some c =>
      if c.isDigit then return some (String.ofList (← takeSpan Char.isDigit fuel))
      else if isNameChar c then return some (String.ofList (← takeSpan isNameChar fuel))
      else return none
    | none => return none
  match ← named fuel with
  | some name => return (some name, false)
  | none =>
    match ← look with
    | none => return (none, false)
    | some '\x7d' => return (none, false)
    | some '#' =>
      let _ ← takeRaw
      match ← named fuel with
      | some name => return (some name, true)
      | none =>
        let before ← get
        match ← take, ← look with
        | some c, some '\x7d' =>
          if c == '\x7d' || !isSpecial c then
            set before
            return (some "#", false)
          else return (some c.toString, true)
        | _, _ =>
          set before
          return (some "#", false)
    | some c =>
      let _ ← takeRaw
      return (if isSpecial c then some c.toString else none, false)

/-- The usage of a parameter that the characters behind its name ask for, and whether a word
follows. -/
def takeUsage : Reading (Usage × Bool) := do
  let chosen (emptyToo : Bool) : Reading (Usage × Bool) := do
    match ← take with
    | some '\x7d' => return (.plain, false)
    | some '-' => return (.instead emptyToo, true)
    | some '+' => return (.alternate emptyToo, true)
    | some '?' => return (.demand emptyToo, true)
    | some '=' => return (.assign emptyToo, true)
    | _ => return (.malformed, true)
  match ← look with
  | some ':' =>
    let _ ← takeRaw
    chosen true
  | some '#' =>
    let _ ← takeRaw
    return (.trimFront (← takeIf '#'), true)
  | some '%' =>
    let _ ← takeRaw
    return (.trimBack (← takeIf '%'), true)
  | _ => chosen false

/-- Whether a usage takes its word as a pattern. -/
def Usage.isTrim : Usage → Bool
  | .trimFront _ | .trimBack _ => true
  | _ => false

mutual

/-- Reads the parts of a word up to the end that its surroundings have, which is taken where it
belongs to them. Open parentheses count in arithmetic only. -/
def readParts (script : Reading (Option Command)) :
    (fuel : Nat) → Surroundings → (parentheses : Nat) → Reading (List Part)
  | 0, _, _ => return []
  | fuel + 1, surroundings, parentheses => do
    let quoted := surroundings.isQuoted
    match ← look with
    | none =>
      match surroundings with
      | .bare | .document => return []
      | .quotes | .quotedBraces => refuse "Unterminated quoted string"
      | .braces => refuse "Missing '\x7d'"
      | .arithmetic => refuse "Missing '))'"
    | some c =>
      if surroundings == .bare && endsWord c then return []
      else
        let _ ← takeRaw
        let onward (part : Part) (parentheses : Nat) : Reading (List Part) := do
          return part.cons (← readParts script fuel surroundings parentheses)
        let literal := onward (.text [c] quoted) parentheses
        match c, surroundings with
        | '\\', _ =>
          match ← takeRaw with
          | none => onward (.text [c] true) parentheses
          | some d =>
            if surroundings.escapes d then onward (.text [d] true) parentheses
            else onward (.text [c, d] true) parentheses
        | '\'', .bare | '\'', .braces =>
          onward (.text (← takeQuoted ((← remaining) + 1)) true) parentheses
        | '"', .quotes => return []
        | '"', .bare | '"', .braces | '"', .quotedBraces =>
          let inner ← readParts script fuel .quotes 0
          let rest ← readParts script fuel surroundings parentheses
          match inner with
          | [.parameter "@" .plain [] true] => return inner ++ rest
          | _ => return Part.cons (.text [] true) (inner.foldr Part.cons rest)
        | '\x7d', .braces | '\x7d', .quotedBraces => return []
        | '(', .arithmetic => onward (.text [c] true) (parentheses + 1)
        | ')', .arithmetic =>
          if parentheses > 0 then onward (.text [c] true) (parentheses - 1)
          else if ← takeIf ')' then return []
          else literal
        | '\x60', _ =>
          let text ← takeBackQuoted quoted ((← remaining) + 1)
          onward (.output (← within text 1 script) quoted) parentheses
        | '$', _ => onward (← readDollar script fuel surroundings) parentheses
        | _, _ => literal

/-- Reads what a dollar sign starts. -/
def readDollar (script : Reading (Option Command)) :
    (fuel : Nat) → Surroundings → Reading Part
  | 0, _ => return .text ['$'] true
  | fuel + 1, surroundings => do
    let quoted := surroundings.isQuoted
    match ← look with
    | some '(' =>
      let _ ← takeRaw
      if ← takeIf '(' then return .arithmetic (← readParts script fuel .arithmetic 0) quoted
      else
        let body ← enclosed script
        let cursor ← get
        match cursor.back with
        | some (.operator ")") =>
          set { cursor with back := none }
          return .output body quoted
        | some token => refuse (token.name ++ " unexpected (expecting \")\")")
        | none => refuse "end of file unexpected (expecting \")\")"
    | some '\x7b' =>
      let _ ← takeRaw
      let word (usage : Usage) : Reading (List Part) :=
        readParts script fuel (if usage.isTrim then .braces else surroundings.inBraces) 0
      match ← takeName with
      | (some name, true) =>
        if ← takeIf '\x7d' then return .parameter name .length [] quoted
        else return .parameter name .malformed (← word .length) quoted
      | (some name, false) =>
        let (usage, more) ← takeUsage
        return .parameter name usage (← if more then word usage else pure []) quoted
      | (none, _) => return .parameter "" .malformed (← word .malformed) quoted
    | some c =>
      if isNameChar c && !c.isDigit then
        return .parameter (String.ofList (← takeSpan isNameChar (← remaining))) .plain [] quoted
      else if isSpecial c then
        let _ ← takeRaw
        return .parameter c.toString .plain [] quoted
      else return .text ['$'] quoted
    | none => return .text ['$'] quoted

end

/-- Reads the word that ends a document: its text, and whether any of it is quoted. -/
def readEnding : (fuel : Nat) → (inQuotes : Bool) → Reading (List Char × Bool)
  | 0, _ => return ([], false)
  | fuel + 1, inQuotes => do
    let more (cs : List Char) (quoted : Bool) (inQuotes : Bool) : Reading (List Char × Bool) := do
      let (rest, others) ← readEnding fuel inQuotes
      return (cs ++ rest, quoted || others)
    match ← look with
    | none => if inQuotes then refuse "Unterminated quoted string" else return ([], false)
    | some c =>
      if !inQuotes && endsWord c then return ([], false)
      else
        let _ ← takeRaw
        match c, inQuotes with
        | '"', _ => more [] true !inQuotes
        | '\'', false => more (← takeQuoted ((← remaining) + 1)) true inQuotes
        | '\\', _ =>
          match ← takeRaw with
          | none => more [c] true inQuotes
          | some d =>
            if inQuotes && !Surroundings.quotes.escapes d then more [c, d] true inQuotes
            else more [d] true inQuotes
        | _, _ => more [c] false inQuotes

/-- Whether an odd number of backslashes ends a line. -/
def isJoined (line : List Char) : Bool :=
  (line.reverse.takeWhile (· == '\\')).length % 2 == 1

/-- Takes the lines of a document. -/
def takeDocument (awaited : Awaited) : (fuel : Nat) → (joined : Bool) → Reading (List Char)
  | 0, _ => return []
  | fuel + 1, joined => do
    let cursor ← get
    match cursor.rest with
    | [] => return []
    | _ :: _ =>
      let (whole, behind) := cursor.rest.span (· ≠ '\n')
      let line := if awaited.stripped then whole.dropWhile (· == '\t') else whole
      set { cursor with
        rest := behind.drop 1
        line := cursor.line + (if behind.isEmpty then 0 else 1) }
      if !joined && line == awaited.ending then return []
      else
        let rest ← takeDocument awaited fuel (!awaited.quoted && isJoined line)
        return line ++ behind.take 1 ++ rest

/-- Reads the documents that are awaited. -/
def readDocuments (script : Reading (Option Command)) : (fuel : Nat) → Reading Unit
  | 0 => return ()
  | fuel + 1 => do
    let cursor ← get
    match cursor.awaited with
    | [] => return ()
    | awaited :: others =>
      set { cursor with awaited := others }
      let text ← takeDocument awaited (cursor.rest.length + 1) false
      let parts ← if awaited.quoted then pure [Part.text text true]
        else
          within text cursor.line (readParts script (2 * text.length + 2) .document 0)
      modify fun cursor => { cursor with documents := (awaited.number, parts) :: cursor.documents }
      readDocuments script fuel

/-- Reads the redirection that a `<` or `>` starts. -/
def readRedirect (descriptor : Option Nat) : Reading Token := do
  match ← takeRaw with
  | some '>' =>
    let token := Token.redirect (descriptor.getD 1)
    if ← takeIf '>' then return token .append
    else if ← takeIf '|' then return token .overwrite
    else if ← takeIf '&' then return token .duplicate
    else return token .write
  | _ =>
    let token := Token.redirect (descriptor.getD 0)
    if ← takeIf '<' then return .document (descriptor.getD 0) (← takeIf '-')
    else if ← takeIf '&' then return token .duplicate
    else if ← takeIf '>' then return token .readWrite
    else return token .read

def readOperator (c : Char) : Reading Token := do
  let _ ← takeRaw
  let doubles := c == '&' || c == '|' || c == ';'
  if ← if doubles then takeIf c else pure false then return .operator (String.ofList [c, c])
  else return .operator c.toString

/-- The descriptor in front of a redirection, if one stands next. -/
def numberedRedirect? : Reading (Option Nat) := do
  let before ← get
  match ← take, ← look with
  | some c, some d =>
    if c.isDigit && (d == '<' || d == '>') then return some (c.toNat - '0'.toNat)
    else
      set before
      return none
  | _, _ =>
    set before
    return none

/-- Reads the next token, whatever keywords there are. -/
def readPlainToken (script : Reading (Option Command)) : (fuel : Nat) → Reading Token
  | 0 => return .finish
  | fuel + 1 => do
    match ← look with
    | none => return .finish
    | some c =>
      if c == ' ' || c == '\t' then
        let _ ← takeRaw
        readPlainToken script fuel
      else if c == '#' then
        modify fun cursor => { cursor with rest := cursor.rest.dropWhile (· ≠ '\n') }
        readPlainToken script fuel
      else if c == '\n' then
        let _ ← takeRaw
        return .newline
      else if c == '<' || c == '>' then readRedirect none
      else if "&|;()".toList.contains c then readOperator c
      else
        match ← numberedRedirect? with
        | some n => readRedirect (some n)
        | none => return .word (← readParts script (2 * (← remaining) + 2) .bare 0)

/-- Skips line breaks, and reads the documents behind them. -/
def skipNewlines (script : Reading (Option Command)) : (fuel : Nat) → Token → Reading Token
  | 0, token => return token
  | fuel + 1, .newline => do
    readDocuments script ((← get).awaited.length + 1)
    skipNewlines script fuel (← readPlainToken script ((← remaining) + 1))
  | _, token => return token

/-- What counts when a token is read. -/
structure TokenMode where
  /-- Whether line breaks are skipped. -/
  skip : Bool := false
  /-- Whether keywords are looked for. -/
  keyword : Bool := false

/-- The token with a word taken as a keyword, if it is one. -/
def Token.recognize (token : Token) : Token :=
  match token with
  | .word [.text cs false] =>
    if keywords.contains (String.ofList cs) then .keyword (String.ofList cs) else token
  | _ => token

def readToken (script : Reading (Option Command)) (mode : TokenMode) : Reading Token := do
  let cursor ← get
  let fuel := cursor.rest.length + 1
  let first ← match cursor.back with
    | some token =>
      set { cursor with back := none }
      pure token
    | none => readPlainToken script fuel
  let token ← if mode.skip then skipNewlines script (fuel + 1) first else pure first
  return if mode.keyword then token.recognize else token

/-- Puts a token back, so that it is read again. -/
def putBack (token : Token) : Reading Unit :=
  modify fun cursor => { cursor with back := some token }

end KernelCatalog.Shell
