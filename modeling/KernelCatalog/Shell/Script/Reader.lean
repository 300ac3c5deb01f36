import KernelCatalog.Shell.Script.Word

/-!
# Reading scripts

A script is read one line at a time, since what is wrong on a later line does not keep the earlier
ones from running. A line is a list of commands and goes on over line breaks as long as a command is
open.
-/

namespace KernelCatalog.Shell

/-- Refuses a token. -/
def unexpected {α : Type} (token : Token) : Reading α := refuse (token.name ++ " unexpected")

/-- Refuses a token where another one has to be. -/
def expecting {α : Type} (token : Token) (wanted : String) : Reading α :=
  refuse (token.name ++ " unexpected (expecting " ++ wanted ++ ")")

/-- Whether a token ends a list of commands. -/
def Token.endsList : Token → Bool
  | .finish => true
  | .operator text => [")", ";;"].contains text
  | .keyword text =>
    ["do", "done", "elif", "else", "esac", "fi", "then", "\x7d"].contains text
  | _ => false

/-- Which list of commands is read. -/
inductive ListKind where
  /-- One line of a script. -/
  | line
  /-- Commands inside another one, at least one unless the script ends. -/
  | inner
  /-- Commands that may be missing. -/
  | optional
  deriving DecidableEq, Repr

/-- The name of an assignment and its value, if a word is one. -/
def assignment? : List Part → Option (String × List Part)
  | .text cs false :: rest =>
    let (name, behind) := cs.span (· ≠ '=')
    match behind with
    | _ :: value =>
      if isName name then
        some (String.ofList name,
          if value.isEmpty then rest else .text value false :: rest)
      else none
    | [] => none
  | _ => none

/-- The builtins that a function cannot replace. -/
def specialBuiltins : List String :=
  [".", ":", "break", "continue", "eval", "exec", "exit", "export", "readonly", "return", "set",
    "shift", "times", "trap", "unset", "local"]

/-- The command that a list of nothing in it stands for. -/
def orNothing : Option Command → Command
  | some command => command
  | none => .nothing

/-- A command with redirections behind it. -/
def withRedirects (line : Nat) (command : Command) (redirects : List Redirect) : Command :=
  if redirects.isEmpty then command
  else
    match command with
    | .subshell line body _ => .subshell line body redirects
    | _ => .redirected line command redirects

/-- Commands one after the other. -/
def followedBy (first : Option Command) (second : Command) : Command :=
  match first with
  | none => second
  | some first => .sequence first second

def readTarget (script : Reading (Option Command)) : Token → Reading Redirect
  | .document descriptor stripped => do
    let fuel := (← remaining) + 1
    let rec skip : Nat → Reading Unit
      | 0 => return ()
      | n + 1 => do
        match ← look with
        | some ' ' | some '\t' =>
          let _ ← takeRaw
          skip n
        | _ => return ()
    skip fuel
    match ← look with
    | some c =>
      if endsWord c || c == '#' then unexpected (← readToken script {})
      else
        let (ending, quoted) ← readEnding fuel false
        let number := (← get).nextDocument
        modify fun cursor =>
          { cursor with
            nextDocument := number + 1
            awaited := cursor.awaited ++ [⟨number, ending, quoted, stripped⟩] }
        return .document descriptor number
    | none => unexpected .finish
  | .redirect descriptor mode => do
    match ← readToken script {} with
    | .word parts => return .file descriptor mode parts
    | token => unexpected token
  | token => unexpected token

def readRedirects (script : Reading (Option Command)) : (fuel : Nat) → Reading (List Redirect)
  | 0 => return []
  | fuel + 1 => do
    match ← readToken script { keyword := true } with
    | .redirect descriptor mode =>
      let redirect ← readTarget script (.redirect descriptor mode)
      return redirect :: (← readRedirects script fuel)
    | .document descriptor stripped =>
      let redirect ← readTarget script (.document descriptor stripped)
      return redirect :: (← readRedirects script fuel)
    | token =>
      putBack token
      return []

def readWords (script : Reading (Option Command)) :
    (fuel : Nat) → Reading (List (List Part) × Token)
  | 0 => return ([], .finish)
  | fuel + 1 => do
    match ← readToken script {} with
    | .word parts =>
      let (more, token) ← readWords script fuel
      return (parts :: more, token)
    | token => return ([], token)

/-- The text that a token stands for as a pattern. -/
def Token.pattern : Token → List Part
  | .word parts => parts
  | .keyword text => [.text text.toList false]
  | _ => []

/-- Reads the further patterns of a case, up to the token behind them. -/
def readPatterns (script : Reading (Option Command)) :
    (fuel : Nat) → Reading (List (List Part) × Token)
  | 0 => return ([], .finish)
  | fuel + 1 => do
    match ← readToken script {} with
    | .operator "|" =>
      let pattern := (← readToken script {}).pattern
      let (more, token) ← readPatterns script fuel
      return (pattern :: more, token)
    | token => return ([], token)

mutual

/-- Reads a list of commands; the token behind it is put back, unless the list is a line and its
end is reached. -/
def readList : (fuel : Nat) → ListKind → (sofar : Option Command) → Reading (Option Command)
  | 0, _, sofar => return sofar
  | fuel + 1, kind, sofar => do
    let script := readList fuel .optional none
    match ← readToken script { skip := kind != .line, keyword := true } with
    | .newline =>
      readDocuments script ((← get).awaited.length + 1)
      return sofar
    | .finish =>
      readDocuments script ((← get).awaited.length + 1)
      putBack .finish
      return sofar
    | token =>
      putBack token
      if token.endsList && (kind == .optional || (kind == .inner && sofar.isSome)) then
        return sofar
      else
        let line := (← get).line
        let command ← readChain fuel none
        match ← readToken script {} with
        | .operator "&" =>
          readList fuel kind (some (followedBy sofar (.background line command)))
        | .operator ";" => readList fuel kind (some (followedBy sofar command))
        | .newline =>
          putBack .newline
          readList fuel kind (some (followedBy sofar command))
        | .finish =>
          readDocuments script ((← get).awaited.length + 1)
          putBack .finish
          return some (followedBy sofar command)
        | token =>
          if kind == .line then unexpected token
          else
            putBack token
            return some (followedBy sofar command)

/-- Reads pipelines joined by `&&` and `||`, where the first may have been read. -/
def readChain : (fuel : Nat) → (sofar : Option Command) → Reading Command
  | 0, sofar => return orNothing sofar
  | fuel + 1, sofar => do
    let script := readList fuel .optional none
    let first ← match sofar with
      | some command => pure command
      | none => readPipeline fuel
    match ← readToken script {} with
    | .operator "&&" =>
      let second ← readNext fuel
      readChain fuel (some (.both first second))
    | .operator "||" =>
      let second ← readNext fuel
      readChain fuel (some (.either first second))
    | token =>
      putBack token
      return first

/-- Reads a pipeline behind an operator, where line breaks do not count. -/
def readNext : (fuel : Nat) → Reading Command
  | 0 => return .nothing
  | fuel + 1 => do
    putBack (← readToken (readList fuel .optional none) { skip := true, keyword := true })
    readPipeline fuel

/-- Reads commands joined by `|`, with an exclamation mark in front or not. -/
def readPipeline : (fuel : Nat) → Reading Command
  | 0 => return .nothing
  | fuel + 1 => do
    let script := readList fuel .optional none
    match ← readToken script {} with
    | .keyword "!" =>
      putBack (← readToken script { keyword := true })
      return .negation (← readPiped fuel)
    | token =>
      putBack token
      readPiped fuel

def readPiped : (fuel : Nat) → Reading Command
  | 0 => return .nothing
  | fuel + 1 => do
    let script := readList fuel .optional none
    let first ← readCommand fuel
    match ← readToken script {} with
    | .operator "|" =>
      putBack (← readToken script { skip := true, keyword := true })
      match ← readPiped fuel with
      | .pipeline others => return .pipeline (first :: others)
      | other => return .pipeline [first, other]
    | token =>
      putBack token
      return first

def readCommand : (fuel : Nat) → Reading Command
  | 0 => return .nothing
  | fuel + 1 => do
    let script := readList fuel .optional none
    let line := (← get).line
    let inner := readList fuel .inner none
    let closed (wanted : Token) (command : Command) : Reading Command := do
      let token ← readToken script {}
      if token.name != wanted.name then expecting token wanted.name
      else return withRedirects line command (← readRedirects script ((← remaining) + 1))
    match ← readToken script {} with
    | .keyword "if" => closed (.keyword "fi") (← readBranches fuel)
    | .keyword "while" =>
      let (test, body) ← readLoop fuel
      closed (.keyword "done") (.repetition true test body)
    | .keyword "until" =>
      let (test, body) ← readLoop fuel
      closed (.keyword "done") (.repetition false test body)
    | .keyword "for" =>
      let name ← match ← readToken script {} with
        | .word [.text cs false] =>
          if isName cs then pure (String.ofList cs) else refuse "Bad for loop variable"
        | _ => refuse "Bad for loop variable"
      let words ← match ← readToken script { skip := true, keyword := true } with
        | .keyword "in" =>
          match ← readWords script ((← remaining) + 2) with
          | (words, .newline) | (words, .operator ";") => pure words
          | (_, token) => unexpected token
        | token =>
          match token with
          | .operator ";" => pure ()
          | _ => putBack token
          pure [[.parameter "@" .plain [] true]]
      match ← readToken script { skip := true, keyword := true } with
      | .keyword "do" => closed (.keyword "done") (.iteration line name words (← inner))
      | token => expecting token "\"do\""
    | .keyword "case" =>
      let subject ← match ← readToken script {} with
        | .word parts => pure parts
        | token => expecting token "word"
      match ← readToken script { skip := true, keyword := true } with
      | .keyword "in" =>
        let cases ← readCases fuel
        return withRedirects line (.selection line subject cases)
          (← readRedirects script ((← remaining) + 1))
      | token => expecting token "\"in\""
    | .operator "(" => closed (.operator ")") (.subshell line (← inner) [])
    | .keyword "\x7b" => closed (.keyword "\x7d") (orNothing (← inner))
    | .word parts =>
      putBack (.word parts)
      readSimple fuel line [] [] []
    | .redirect descriptor mode =>
      putBack (.redirect descriptor mode)
      readSimple fuel line [] [] []
    | .document descriptor stripped =>
      putBack (.document descriptor stripped)
      readSimple fuel line [] [] []
    | token => unexpected token

def readBranches : (fuel : Nat) → Reading Command
  | 0 => return .nothing
  | fuel + 1 => do
    let script := readList fuel .optional none
    let test ← readList fuel .inner none
    match ← readToken script {} with
    | .keyword "then" =>
      let yes ← readList fuel .inner none
      match ← readToken script {} with
      | .keyword "elif" => return .branch test yes (some (← readBranches fuel))
      | .keyword "else" => return .branch test yes (← readList fuel .inner none)
      | token =>
        putBack token
        return .branch test yes none
    | token => expecting token "\"then\""

def readLoop : (fuel : Nat) → Reading (Option Command × Option Command)
  | 0 => return (none, none)
  | fuel + 1 => do
    let script := readList fuel .optional none
    let test ← readList fuel .inner none
    match ← readToken script {} with
    | .keyword "do" => return (test, ← readList fuel .inner none)
    | token => expecting token "\"do\""

/-- Reads the cases of a selection and the word that ends them. -/
def readCases : (fuel : Nat) → Reading (List (List (List Part) × Option Command))
  | 0 => return []
  | fuel + 1 => do
    let script := readList fuel .optional none
    match ← readToken script { skip := true, keyword := true } with
    | .keyword "esac" => return []
    | token =>
      let first ← match token with
        | .operator "(" => readToken script {}
        | _ => pure token
      let (others, token) ← readPatterns script ((← remaining) + 2)
      match token with
      | .operator ")" =>
        let body ← readList fuel .optional none
        let this := (first.pattern :: others, body)
        match ← readToken script { skip := true, keyword := true } with
        | .keyword "esac" => return [this]
        | .operator ";;" => return this :: (← readCases fuel)
        | token => expecting token "\";;\""
      | token => expecting token "\")\""

/-- Reads the assignments, words and redirections of a simple command, each list in reverse, or a
function. -/
def readSimple : (fuel : Nat) → (line : Nat) → List (String × List Part) → List (List Part) →
    List Redirect → Reading Command
  | 0, _, _, _, _ => return .nothing
  | fuel + 1, line, assignments, words, redirects => do
    let script := readList fuel .optional none
    match ← readToken script {} with
    | .word parts =>
      match assignment? parts, words with
      | some assignment, [] => readSimple fuel line (assignment :: assignments) [] redirects
      | _, _ => readSimple fuel line assignments (parts :: words) redirects
    | .redirect descriptor mode =>
      let redirect ← readTarget script (.redirect descriptor mode)
      readSimple fuel line assignments words (redirect :: redirects)
    | .document descriptor stripped =>
      let redirect ← readTarget script (.document descriptor stripped)
      readSimple fuel line assignments words (redirect :: redirects)
    | token =>
      match token, assignments, words, redirects with
      | .operator "(", [], [parts], [] =>
        match ← readToken script {} with
        | .operator ")" =>
          match parts with
          | [.text cs false] =>
            if !isName cs || specialBuiltins.contains (String.ofList cs) then
              refuse "Bad function name"
            else
              putBack (← readToken script { skip := true, keyword := true })
              return .definition (String.ofList cs) (← readCommand fuel)
          | _ => refuse "Bad function name"
        | token => expecting token "\")\""
      | _, _, _, _ =>
        putBack token
        return .simple line assignments.reverse words.reverse redirects.reverse

end

/-- One line of a script. -/
structure Line where
  /-- The commands of the line, if there are any. -/
  command : Option Command
  /-- Whether the script ends with this line, which has no line break. -/
  isLast : Bool
  /-- The documents that the line brings. -/
  documents : List (Nat × List Part)
  /-- Where the next line starts. -/
  cursor : Cursor

/-- Reads one line of a script; `none` is behind the last one. -/
def readLine (cursor : Cursor) : Except ReadError (Option Line) :=
  let start := { cursor with awaited := [], documents := [] }
  match readList (12 * (cursor.rest.length + 10)) .line none start with
  | .error e => .error e
  | .ok (command, after) =>
    let isLast := match after.back with
      | some .finish => true
      | _ => false
    if command.isNone && isLast then .ok none
    else .ok (some ⟨command, isLast, after.documents, after⟩)

end KernelCatalog.Shell
