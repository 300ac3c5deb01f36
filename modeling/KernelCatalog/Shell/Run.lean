import KernelCatalog.Shell.Builtin.Settings
import KernelCatalog.Shell.Builtin.Signals
import KernelCatalog.Shell.Program
import KernelCatalog.Shell.Redirection

/-!
# Running scripts

A script is run line by line and command by command on a session. Parts of a pipeline run one after
the other, and a command that is not waited for runs at once; each of them has a session of its own
and shares the files and streams with the others. The fuel bounds how deep commands are nested and
how often loops go round.
-/

namespace KernelCatalog.Shell

/-! ## Builtins that need nothing but the session -/

/-- What a name stands for, for `type` and `command`: a word for it, and how it is written. -/
def describe? (session : Session) (name : String) : Option (String × String) :=
  let isRegular := ["alias", "bg", "cd", "chdir", "command", "echo", "false", "fg", "getopts",
    "hash", "jobs", "kill", "printf", "pwd", "read", "test", "[", "true", "type", "ulimit",
    "umask", "unalias", "wait"].contains name
  if keywords.contains name then some ("is a shell keyword", name)
  else if specialBuiltins.contains name then some ("is a special shell builtin", name)
  else if (session.functions.lookup name).isSome then some ("is a shell function", name)
  else if isRegular then some ("is a shell builtin", name)
  else if name.toList.contains '/' then
    if (session.files.stat ⟨name⟩).isOk || (Program.installed? name).isSome
    then some ("is " ++ name, name) else none
  else
    match Program.pathOf session.files ((session.value? "PATH").getD "") name with
    | .ok path => some ("is " ++ path, path)
    | .error _ => none

namespace Builtin

/-- Tells what names stand for. -/
def tell : Builtin := fun names session =>
  let told := names.map fun name => (name, describe? session name)
  let text := Text.join "" (told.map fun (name, description) =>
    name ++ (match description with
      | some (words, _) => " " ++ words
      | none => ": not found") ++ "\n")
  let code := if told.any fun entry => entry.2.isNone then 127 else 0
  printing "type" (Text.toBytes text) code session

/-- Looks for programs, so that they are found faster later. -/
def hash : Builtin :=
  withLetters "rv" "" fun _ names session =>
    names.foldl (fun session name =>
      if (describe? session name).isSome then session
      else session.complain (name ++ ": not found") 1) (session.ended 0)

/-- The builtins that may fail, by their names. -/
def regular? (name : String) : Option Builtin :=
  match name with
  | "cd" | "chdir" => some cd
  | "echo" => some echo
  | "printf" => some printf
  | "pwd" => some pwd
  | "test" | "[" => some (test name)
  | "true" => some fun _ session => session.ended 0
  | "false" => some fun _ session => session.ended 1
  | "read" => some read
  | "getopts" => some getopts
  | "kill" => some kill
  | "wait" => some wait
  | "umask" => some umask
  | "type" => some tell
  | "hash" => some hash
  | "jobs" | "alias" | "unalias" => some fun _ session => session.ended 0
  | "ulimit" => some fun args session =>
    if args.all (·.startsWith "-") then printingLines "ulimit" ["unlimited"] session
    else session.ended 0
  | "fg" | "bg" => some fun _ session => session.abort "No current job"
  | _ => none

/-- The builtins whose errors end the session, by their names, apart from those that run
commands. -/
def special? (name : String) : Option Builtin :=
  match name with
  | ":" => some fun _ session => session.ended 0
  | "exit" => some exit
  | "return" => some comeBack
  | "break" => some (leaveLoops false)
  | "continue" => some (leaveLoops true)
  | "shift" => some shift
  | "set" => some set
  | "unset" => some forget
  | "export" => some publish
  | "readonly" => some protect
  | "local" => some localize
  | "trap" => some trap
  | "times" => some fun _ =>
    printingLines "times" ["0m0.000000s 0m0.000000s", "0m0.000000s 0m0.000000s"]
  | _ => none

end Builtin

/-! ## Simple commands -/

/-- How a command is run. -/
structure Manner where
  /-- It may fail without ending the session. -/
  tested : Bool := false
  /-- Nothing comes behind it, so that a program may take the place of the shell. -/
  final : Bool := false

namespace Manner

/-- How a command is run that decides what comes behind it. -/
def deciding : Manner := { tested := true }

/-- How a command is run in front of others. -/
def inFront (manner : Manner) : Manner := { manner with final := false }

/-- How a command is run at the end of a shell of its own. -/
def atEnd (manner : Manner) : Manner := { manner with final := true }

end Manner

/-- Does something that may break off, and then something with its result. -/
def acting {α : Type} (action : Acting α) (session : Session) (next : α → Session → Session) :
    Session :=
  match action.run.run session with
  | (.ok value, session) => next value session
  | (.error (), session) => session

/-- The fields of words of which the first decides how the others are expanded: behind a builtin
that assigns, a word that is an assignment is one field. -/
def expandCommand (capture : Capture) : List (List Part) → Acting (List String)
  | [] => return []
  | parts :: rest => do
    match ← expandWord capture parts with
    | [] => expandCommand capture rest
    | name :: more =>
      let behind := if name == "command" then more.head?.getD "" else name
      let direct := ["export", "readonly", "local"].contains behind
      let viaCommand := name == "command" && (rest.head?.bind Part.literal?).any fun cs =>
        ["export", "readonly", "local"].contains (String.ofList cs)
      let fields ← rest.foldlM (fun (fields : List (List String)) parts => do
        match if direct || viaCommand then assignment? parts else none with
        | some (name, value) =>
          return fields ++ [[name ++ "=" ++ (← expandText capture value)]]
        | none => return fields ++ [← expandWord capture parts]) []
      return name :: more ++ fields.flatten

/-- The line that tells a command before it is run. -/
def traceLine (session : Session) (assigned : List (String × String)) (words : List String) :
    String :=
  ((session.value? "PS4").getD "")
    ++ Text.join " " (assigned.map (fun (name, value) => name ++ "=" ++ value) ++ words) ++ "\n"

namespace Session

/-- The session with settings as they were before. -/
def restore (session : Session) (settings : List (String × Option Setting)) : Session :=
  settings.foldl (fun session (name, old) =>
    if name == "-" then
      { session with options := ((old.bind (·.value)).getD "").toList }
    else
      match old with
      | some setting => session.put name setting
      | none => { session with settings := session.settings.filter fun entry => entry.1 != name })
    session

/-- The session after a failed command, which ends it if it is to end on failures. -/
def checked (manner : Manner) (session : Session) : Session :=
  if session.isOn && session.has 'e' && !manner.tested && session.last ≠ 0 then
    session.quit session.last
  else session

/-- Whether something is to be done on a signal or at the end. -/
def hasTraps (session : Session) : Bool := session.traps.any fun trap => trap.2 != ""

/-- The session with the exit code that stands for its opposite. -/
def negated (session : Session) : Session :=
  if session.isOn then session.ended (if session.last = 0 then 1 else 0) else session

/-- A session of a shell that starts: with the world and the descriptors of the one that starts
it, or that it takes the place of, with the given names and values, and without what only that one
knows. -/
def fresh (session : Session) (replaces : Bool) (name : String)
    (environment : List (String × String)) : Session :=
  let (number, parent) := if replaces then (session.number, session.parent)
    else (session.nextProgram, session.number)
  let given := environment.filter fun entry => isName entry.1.toList
  let current := (Files.pathOf session.files.current).text
  let defaults : List (String × Setting) :=
    [("IFS", { value := some " \t\n" }), ("OPTIND", { value := some "1" }),
      ("PPID", { value := some (toString parent) }), ("PS1", { value := some "# " }),
      ("PS2", { value := some "> " }), ("PS4", { value := some "+ " }),
      ("PWD", { value := some ((environment.lookup "PWD").getD current), exported := true })]
  let imported := given.map fun (name, value) =>
    (name, { value := some value, exported := true : Setting })
  { world := session.world
    descriptors := session.descriptors
    name
    arguments := []
    settings := defaults ++ imported.filter fun entry => (defaults.lookup entry.1).isNone
    traps := session.traps.filter fun trap => trap.2 == "" && trap.1 ≠ 0
    nextDocument := session.nextDocument
    self := number
    number
    parent
    nextProgram := if replaces then session.nextProgram else number + 1
    signals := session.signals }

end Session

/-- The script that a shell is to run. -/
inductive ScriptSource where
  /-- A text. -/
  | text (script : String)
  /-- What is at a path. -/
  | file (path : String)
  /-- The input. -/
  | input

/-- What the arguments of a shell say. -/
structure ShellCall where
  source : ScriptSource
  name : String
  arguments : List String
  session : Session

/-- Takes the options of a shell from the front of its arguments. The flags say whether a text and
whether the input is to be run. -/
def takeOptions : (fuel : Nat) → (isText isInput : Bool) → List String → Session →
    Except String (Bool × Bool × List String × Session)
  | 0, isText, isInput, args, session => .ok (isText, isInput, args, session)
  | _ + 1, isText, isInput, [], session => .ok (isText, isInput, [], session)
  | fuel + 1, isText, isInput, arg :: rest, session =>
    match arg.toList with
    | ['-'] | ['-', '-'] => .ok (isText, isInput, rest, session)
    | sign :: c :: cs =>
      if sign == '-' || sign == '+' then do
        let letters := (c :: cs).filter (· ≠ 'c')
        let (session, rest) ← session.setLetters (sign == '-') rest letters
        takeOptions fuel (isText || letters.length < cs.length + 1)
          (isInput || letters.contains 's') rest session
      else .ok (isText, isInput, arg :: rest, session)
    | _ => .ok (isText, isInput, arg :: rest, session)

/-- What the arguments of a shell say, or what is wrong with them. -/
def shellCall (name : String) (args : List String) (session : Session) :
    Except String ShellCall := do
  let (isText, isInput, rest, session) ← takeOptions (args.length + 1) false false args session
  match isText, rest with
  | true, [] => .error "-c requires an argument"
  | true, script :: [] => .ok ⟨.text script, name, [], session⟩
  | true, script :: name :: arguments => .ok ⟨.text script, name, arguments, session⟩
  | false, [] => .ok ⟨.input, name, [], session.setOption 's' true⟩
  | false, path :: arguments =>
    if isInput then .ok ⟨.input, name, path :: arguments, session⟩
    else .ok ⟨.file path, path, arguments, session⟩

/-- What the arguments of a program that starts another one say: the names and values for it, and
the program with its arguments. -/
def environmentCall : (fuel : Nat) → List String → List (String × String) →
    Except String (List (String × String) × List String)
  | 0, args, environment => .ok (environment, args)
  | _ + 1, [], environment => .ok (environment, [])
  | fuel + 1, arg :: rest, environment =>
    match arg.toList with
    | ['-', 'i'] | ['-'] => environmentCall fuel rest []
    | ['-', '-'] => environmentCall fuel rest environment
    | ['-', 'u'] =>
      match rest with
      | name :: rest => environmentCall fuel rest (environment.filter fun entry => entry.1 != name)
      | [] => .error "option requires an argument -- 'u'"
    | '-' :: c :: _ => .error ("invalid option -- '" ++ c.toString ++ "'")
    | cs =>
      if cs.contains '=' then
        let (name, value) := Session.splitAssignment arg
        environmentCall fuel rest
          (environment.filter (fun entry => entry.1 != name) ++ [(name, value.getD "")])
      else .ok (environment, arg :: rest)

def runUtility (run : Utility) (name : String) (args : List String)
    (environment : List (String × String)) (session : Session) : ExitStatus × Session :=
  let outlet : Outlet := match session.descriptors.lookup 1 with
    | none => .closed
    | some number =>
      match session.world.stream number with
      | .file location .. => .file location
      | _ => .other
  let call : Call :=
    { name, args, environment, input := session.input 0, files := session.files, outlet }
  let finish := run call
  let files := { finish.files with current := session.files.current }
  let world := { session.world with files }
  let changed := { session with world }
  let read := match finish.left with
    | some count => changed.leave 0 count
    | none => changed
  let slept := { read with asleep := read.asleep || name == "sleep" && args != ["0"] }
  let (failed, done) := finish.printed.foldl (fun (state : Bool × Session) (isError, bytes) =>
    let (failed, session) := state
    let (ok, session) := session.write (if isError then 2 else 1) bytes
    (failed || (!ok && !isError), session)) (false, slept)
  if failed then
    let cause := if (done.descriptors.lookup 1).isNone then "Bad file descriptor"
      else "No space left on device"
    (.code (max 1 finish.code), done.say 2 (name ++ ": write error: " ++ cause ++ "\n"))
  else (.code finish.code, done)

/-- The exit code and the words for a program that cannot be started. -/
def startFault (e : FileError) : Nat × String :=
  match e with
  | .notFound | .notDirectory => (127, "not found")
  | .nameTooLong | .tooManyLinks => (127, reason e)
  | e => (126, reason e)

/-- How deep functions may call functions. -/
def callLimit : Nat := 1000

mutual

def runCommand : (fuel : Nat) → (manner : Manner) → Command → Session → Session
  | 0, _, _, session => session.abort "out of memory"
  | fuel + 1, manner, command, session =>
    if session.has 'n' then session
    else
      let session := runTraps fuel (session.signals.length + 1) session
      if !session.isOn then session
      else
        let done := match command with
          | .nothing => session
          | .simple line assignments words redirects =>
            (runSimple fuel manner assignments words redirects { session with line }).checked manner
          | .negation command => (runCommand fuel .deciding command session).negated
          | .both first second =>
            let session := runCommand fuel .deciding first session
            if session.isOn && session.last = 0 then runCommand fuel manner second session
            else session
          | .either first second =>
            let session := runCommand fuel .deciding first session
            if session.isOn && session.last ≠ 0 then runCommand fuel manner second session
            else session
          | .sequence first second =>
            let session := runCommand fuel manner.inFront first session
            if session.isOn then runCommand fuel manner second session else session
          | .pipeline commands => (runPipeline fuel manner commands none session).checked manner
          | .background line command =>
            let session := { session with line }
            let inner := runInner fuel {} (some command) (session.inner.withStream 0 .void)
            { (session.resume inner).struck with
              last := 0
              background := some inner.number
              jobs := ⟨inner.number, inner.status, inner.asleep⟩ :: session.jobs }
          | .subshell line body redirects =>
            acting (expandRedirects (capture fuel) redirects) { session with line }
              fun openings session =>
                let inner := match session.inner.doOpenings (capture fuel) openings with
                  | (true, inner) => runInner fuel manner body inner
                  | (false, inner) => inner
                ((session.resume inner).waited inner.status).struck.checked manner
          | .redirected line command redirects =>
            acting (expandRedirects (capture fuel) redirects) { session with line }
              fun openings session =>
                let done := match session.doOpenings (capture fuel) openings with
                  | (true, session) => runCommand fuel manner.inFront command session
                  | (false, session) => session.checked manner
                done.undoOpenings session openings
          | .branch test yes no =>
            let session := runBody fuel .deciding test session
            if !session.isOn then session
            else if session.last = 0 then runBody fuel manner yes session
            else
              match no with
              | some _ => runBody fuel manner no session
              | none => session.ended 0
          | .repetition wanted test body =>
            let looped := runLoop fuel manner.inFront wanted test body 0
              { session with loops := session.loops + 1 }
            { looped with loops := session.loops }
          | .iteration line name words body =>
            acting (expandWords (capture fuel) words) { session with line }
              fun values session =>
                let looped := runEach fuel manner.inFront name body values 0
                  { session with loops := session.loops + 1 }
                { looped with loops := session.loops }
          | .selection line subject cases =>
            acting (expandText (capture fuel) subject) { session with line }
              fun text session => runCases fuel manner (Text.toBytes text) cases session
          | .definition name body =>
            { session.ended 0 with
              functions := (name, body) :: session.functions.filter fun entry => entry.1 != name }
        runTraps fuel (done.signals.length + 1) done

def runBody : (fuel : Nat) → (manner : Manner) → Option Command → Session → Session
  | 0, _, _, session => session
  | fuel + 1, manner, some command, session => runCommand fuel manner command session
  | _ + 1, _, none, session => session

/-- Runs commands as a shell of its own, up to its end. -/
def runInner : (fuel : Nat) → (manner : Manner) → Option Command → Session → Session
  | 0, _, _, session => session
  | fuel + 1, manner, body, session => runEnd fuel (runBody fuel manner.atEnd body session)

/-- What a substituted command prints, and the session afterwards. -/
def capture : (fuel : Nat) → Capture
  | 0, _, session => ([], session)
  | fuel + 1, body, session =>
    let inner := session.inner.withStream 1 (.sink [])
    let number := (inner.descriptors.lookup 1).getD 0
    let done := runInner fuel {} body inner
    let bytes := match done.world.stream number with
      | .sink bytes => bytes
      | _ => []
    let resumed := session.resume done
    let code := Session.codeOf done.status
    let told := resumed.waited done.status
    (bytes, { told.struck with last := session.last, substituted := some code })

/-- Runs what is to be done on the signals that have come. -/
def runTraps : (fuel : Nat) → (count : Nat) → Session → Session
  | 0, _, session => session
  | _ + 1, 0, session => session
  | fuel + 1, count + 1, session =>
    if !session.isOn then session
    else
      match session.signals.find? fun entry => entry.1 == session.number with
      | none => session
      | some entry =>
        let session := { session with signals := session.signals.erase entry }
        match session.action? entry.2 with
        | none => session.receive entry.2
        | some action =>
          if action.isEmpty then runTraps fuel count session
          else
            let started := { session with saved := some (session.saved.getD session.last) }
            let done := (runLines fuel {} false { rest := action.toList } started).2
            let after := { done with saved := session.saved }
            if after.isOn then runTraps fuel count (after.ended session.last) else after

/-- Runs what is to be done at the end of a shell. -/
def runEnd : (fuel : Nat) → Session → Session
  | 0, session => session
  | fuel + 1, session =>
    let status := session.status
    match status, session.action? 0 with
    | .code code, some action =>
      let started := { session with
        traps := session.traps.filter fun entry => entry.1 ≠ 0
        flow := .on
        last := code
        saved := some code
        loops := 0 }
      let done := (runLines fuel {} false { rest := action.toList } started).2
      match done.flow with
      | .quit _ => done
      | .broken => done.quit done.last
      | _ => { done with flow := .quit status }
    | _, _ => { session with flow := .quit status }

/-- Runs the lines of a script; tells whether there was a command. -/
def runLines : (fuel : Nat) → (manner : Manner) → (verbose : Bool) → Cursor → Session →
    Bool × Session
  | 0, _, _, _, session => (false, session)
  | fuel + 1, manner, verbose, cursor, session =>
    match readLine { cursor with nextDocument := session.nextDocument } with
    | .error e => (true, { session with line := e.line }.abort e.message)
    | .ok none => (false, session)
    | .ok (some line) =>
      let shown := if verbose && session.has 'v' then
          session.say 2 (String.ofList
            (cursor.rest.take (cursor.rest.length - line.cursor.rest.length)))
        else session
      let ready := { shown with
        documents := line.documents ++ shown.documents
        nextDocument := line.cursor.nextDocument }
      let done := runBody fuel manner line.command ready
      if done.isOn && !line.isLast then
        let (any, after) := runLines fuel manner verbose line.cursor done
        (any || line.command.isSome, after)
      else (line.command.isSome, done)

/-- Runs the commands of a pipeline, the first of which reads a stream, if one is given. -/
def runPipeline : (fuel : Nat) → (manner : Manner) → List Command → (input : Option Nat) → Session →
    Session
  | 0, _, _, _, session => session
  | _ + 1, _, [], _, session => session
  | fuel + 1, manner, command :: rest, input, session =>
    let start := match input with
      | some number => session.inner.withDescriptor 0 number
      | none => session.inner
    if rest.isEmpty then
      let inner := runInner fuel manner (some command) start
      ((session.resume inner).waited inner.status).struck
    else
      let start := start.withStream 1 (.sink [])
      let number := (start.descriptors.lookup 1).getD 0
      let inner := runInner fuel manner (some command) start
      let bytes := match inner.world.stream number with
        | .sink bytes => bytes
        | _ => []
      let world := inner.world.setStream number (.source bytes)
      let resumed := (session.resume { inner with world }).waited inner.status
      runPipeline fuel manner rest (some number) (resumed.ended session.last)

/-- Runs a loop; the number is the exit code of its latest round. -/
def runLoop : (fuel : Nat) → (manner : Manner) → (wanted : Bool) → (test body : Option Command) →
    (code : Nat) → Session → Session
  | 0, _, _, _, _, _, session => session
  | fuel + 1, manner, wanted, test, body, code, session =>
    let judged := runBody fuel .deciding test session
    match judged.flow with
    | .on =>
      if (judged.last = 0) = wanted then
        let done := runBody fuel manner body judged
        match done.flow with
        | .on => runLoop fuel manner wanted test body done.last done
        | .out 1 true => runLoop fuel manner wanted test body done.last { done with flow := .on }
        | .out 1 false | .out 0 _ => { done with flow := .on }
        | .out (n + 1) again => { done with flow := .out n again }
        | _ => done
      else judged.ended code
    | .out 1 true => runLoop fuel manner wanted test body code { judged with flow := .on }
    | .out 1 false | .out 0 _ => { judged with flow := .on }
    | .out (n + 1) again => { judged with flow := .out n again }
    | _ => judged

/-- Runs a body for each of some values; the number is the exit code of the latest round. -/
def runEach : (fuel : Nat) → (manner : Manner) → (name : String) → (body : Option Command) →
    List String → (code : Nat) → Session → Session
  | 0, _, _, _, _, _, session => session
  | _ + 1, _, _, _, [], code, session => session.ended code
  | fuel + 1, manner, name, body, value :: rest, _, session =>
    let assigned := session.assignChecked name value
    if !assigned.isOn then assigned
    else
      let done := runBody fuel manner body assigned
      match done.flow with
      | .on => runEach fuel manner name body rest done.last done
      | .out 1 true => runEach fuel manner name body rest done.last { done with flow := .on }
      | .out 1 false | .out 0 _ => { done with flow := .on }
      | .out (n + 1) again => { done with flow := .out n again }
      | _ => done

/-- Runs the body of the first case with a pattern that matches. -/
def runCases : (fuel : Nat) → (manner : Manner) → (subject : Bytes) →
    List (List (List Part) × Option Command) → Session → Session
  | 0, _, _, _, session => session
  | _ + 1, _, _, [], session => session.ended 0
  | fuel + 1, manner, subject, (patterns, body) :: rest, session =>
    let action : Acting Bool := patterns.foldlM (fun found parts => do
      if found then return true
      else return (← expandPattern (capture fuel) parts).matchesAll subject) false
    acting action session fun found session =>
      if !found then runCases fuel manner subject rest session
      else
        match body with
        | some _ => runBody fuel manner body session
        | none => session.ended 0

/-- Runs a simple command. -/
def runSimple : (fuel : Nat) → (manner : Manner) → List (String × List Part) → List (List Part) →
    List Redirect → Session → Session
  | 0, _, _, _, _, session => session
  | fuel + 1, manner, assignments, words, redirects, session =>
    acting (expandCommand (capture fuel) words) { session with substituted := none }
      fun fields session =>
        let name := fields.headD ""
        let isSpecial := specialBuiltins.contains name
        acting (expandRedirects (capture fuel) redirects) session fun openings session =>
          match session.doOpenings (capture fuel) openings with
          | (false, failed) =>
            let undone := failed.undoOpenings session openings
            if isSpecial then { undone with flow := .broken } else undone
          | (true, opened) =>
            let isLocal := !fields.isEmpty && !isSpecial
            let action : Acting (List (String × String)) :=
              assignments.foldlM (fun assigned (name, parts) => do
                let value ← expandText (capture fuel) parts
                attempt fun session =>
                  let done := session.assignChecked name value
                  if done.isOn && (isLocal || (fields.headD "" == "exec" && 1 < fields.length))
                  then done.put name { done.setting name with exported := true } else done
                return assigned ++ [(name, value)]) []
            let before := assignments.map fun (name, _) => (name, opened.settings.lookup name)
            let ran := acting action opened fun assigned ready =>
              let traced := if ready.has 'x' && !(assigned.isEmpty && fields.isEmpty) then
                  let telling := { ready with descriptors := session.descriptors }.say 2
                    (traceLine ready assigned fields)
                  { telling with descriptors := ready.descriptors }
                else ready
              runFields fuel manner false fields traced
            let restored := if isLocal then ran.restore before else ran
            if name == "exec" && fields.length == 1 then restored
            else restored.undoOpenings session openings

/-- Runs a command by its fields. Behind `command`, functions do not count and errors are mended. -/
def runFields : (fuel : Nat) → (manner : Manner) → (contained : Bool) → List String → Session →
    Session
  | 0, _, _, _, session => session
  | _ + 1, _, _, [], session => session.ended (session.substituted.getD 0)
  | fuel + 1, manner, contained, name :: args, session =>
    let spoken (run : Session → Session) : Session :=
      { run { session with speaker := some name } with speaker := session.speaker }
    let special (run : Session → Session) : Session :=
      if contained then (spoken run).mend else spoken run
    match name with
    | "eval" =>
      special fun session =>
        let script : Cursor := { rest := (Text.join " " args).toList }
        let (any, done) := runLines fuel manner.inFront false script session
        if any then done else done.ended 0
    | "." =>
      special fun session =>
        match args with
        | [] => session.ended 0
        | path :: _ => runSourced fuel path session
    | "exec" =>
      special fun session =>
        match args with
        | [] => session.ended 0
        | program :: rest =>
          match Program.pathOf session.files ((session.value? "PATH").getD "") program with
          | .error e =>
            (session.warn (program ++ ": " ++ (startFault e).2)).quit (startFault e).1
          | .ok path =>
            match runPath fuel true path program rest session.exports session with
            | (.error e, session) =>
              (session.warn (program ++ ": " ++ (startFault e).2)).quit (startFault e).1
            | (.ok status, session) => { session with traps := [], flow := .quit status }
    | _ =>
      match Builtin.special? name with
      | some run => special (run args)
      | none =>
        match if contained then none else session.functions.lookup name with
        | some body => runFunction fuel manner.inFront body args session
        | none =>
          if name == "command" then
            match args with
            | [] => session.ended 0
            | option :: rest =>
              if option == "-v" || option == "-V" then
                match rest with
                | [] => session.ended 0
                | target :: _ =>
                  match describe? session target, option with
                  | some (_, text), "-v" => spoken (Builtin.printingLines "command" [text])
                  | some (words, _), _ =>
                    spoken (Builtin.printingLines "command" [target ++ " " ++ words])
                  | none, "-v" => session.ended 127
                  | none, _ => (session.say 1 (target ++ ": not found\n")).ended 127
              else if option == "-p" || option == "--" then
                runFields fuel manner true rest session
              else if option.startsWith "-" && option != "-" then
                (spoken fun session => session.abort
                  ("Illegal option -" ++ ((option.toList.drop 1).take 1).foldl
                    (fun text c => text ++ c.toString) "")).mend
              else runFields fuel manner true args session
          else
            match Builtin.regular? name with
            | some run => (spoken (run args)).mend
            | none => runNamed fuel manner name args session

def runSourced : (fuel : Nat) → (path : String) → Session → Session
  | 0, _, session => session
  | fuel + 1, path, session =>
    let found : Except String String :=
      if path.toList.contains '/' then .ok path
      else
        let places := Program.candidates ((session.value? "PATH").getD "") path
        match places.find? fun place => session.files.isFile ⟨place⟩ with
        | some place => .ok place
        | none => .error (path ++ ": not found")
    match found with
    | .error message => session.abort message
    | .ok place =>
      let script : Except FileError String := match session.files.read ⟨place⟩ with
        | .ok bytes => .ok (Text.ofBytesLenient bytes)
        | .error .isDirectory => .ok ""
        | .error e => .error e
      match script with
      | .error e => session.abort (openingFault false place e)
      | .ok text =>
        let (any, done) := runLines fuel {} true { rest := text.toList }
          { session with speaker := some place }
        let done := if done.flow == .back then { done with flow := .on } else done
        if any then done else done.ended 0

def runFunction : (fuel : Nat) → (manner : Manner) → (body : Command) → (args : List String) →
    Session → Session
  | 0, _, _, _, session => session
  | fuel + 1, manner, body, args, session =>
    if callLimit ≤ session.scopes.length then
      session.abort
        ("Maximum function recursion depth (" ++ toString callLimit ++ ") reached")
    else
      let done := runCommand fuel manner body
        { session with arguments := args, scopes := [] :: session.scopes, loops := 0 }
      let restored := done.restore (done.scopes.headD [])
      { restored with
        arguments := session.arguments
        scopes := session.scopes
        loops := session.loops
        flow := if done.flow == .back then .on else done.flow }

/-- Runs a program that is looked for by its name, and waits for it. -/
def runNamed : (fuel : Nat) → Manner → (name : String) → (args : List String) → Session → Session
  | 0, _, _, _, session => session
  | fuel + 1, manner, name, args, session =>
    match Program.pathOf session.files ((session.value? "PATH").getD "") name with
    | .error e => session.complain (name ++ ": " ++ (startFault e).2) 127
    | .ok path =>
      let replaces := manner.final && !session.hasTraps
      match runPath fuel replaces path name args session.exports session with
      | (.error e, session) =>
        session.complain (name ++ ": " ++ (startFault e).2) (startFault e).1
      | (.ok status, session) =>
        if replaces then { session with flow := .quit status }
        else (session.waited status).struck

/-- Runs what is at a path. A file that names no interpreter is run as a script. -/
def runPath : (fuel : Nat) → (replaces : Bool) → (path name : String) → (args : List String) →
    (environment : List (String × String)) → Session → Except FileError ExitStatus × Session
  | 0, _, _, _, _, _, session => (.error .notFound, session)
  | fuel + 1, replaces, path, name, args, environment, session =>
    match Program.atPath session.files Program.interpreterLimit path name args with
    | .ok invocation =>
      let (status, session) := runProgram fuel replaces invocation environment session
      (.ok status, session)
    | .error .notExecutable =>
      let (status, session) :=
        runProgram fuel replaces ⟨.shell, "sh", path :: args⟩ environment session
      (.ok status, session)
    | .error e => (.error e, session)

def runProgram : (fuel : Nat) → (replaces : Bool) → Invocation →
    (environment : List (String × String)) → Session → ExitStatus × Session
  | 0, _, _, _, session => (.code 127, session)
  | fuel + 1, replaces, ⟨program, name, args⟩, environment, session =>
    match program with
    | .utility run => runUtility run name args environment session
    | .environment =>
      let failed (message : String) (code : Nat) : ExitStatus × Session :=
        (.code code, session.say 2 (name ++ ": " ++ message ++ "\n"))
      match environmentCall (args.length + 1) args environment with
      | .error message =>
        failed (message ++ "\nTry '" ++ name ++ " --help' for more information.") 125
      | .ok (given, []) => runUtility printenv name [] given session
      | .ok (given, target :: rest) =>
        match Program.pathOf session.files ((given.lookup "PATH").getD "/bin:/usr/bin") target with
        | .error e =>
          failed (quotedName target ++ ": " ++ reason e) (if e == .notFound then 127 else 126)
        | .ok path =>
          match runPath fuel replaces path target rest given session with
          | (.ok status, session) => (status, session)
          | (.error e, session) =>
            (.code (if e == .notFound then 127 else 126),
              session.say 2 (name ++ ": " ++ quotedName target ++ ": " ++ reason e ++ "\n"))
    | .shell =>
      let started := { session.fresh replaces name environment with line := 0 }
      let done := match shellCall name args started with
        | .error message => started.abort message
        | .ok call =>
          let ready :=
            { call.session with name := call.name, arguments := call.arguments, line := 1 }
          match call.source with
          | .text script => runEnd fuel (runLines fuel {} false { rest := script.toList } ready).2
          | .input =>
            let text := Text.ofBytesLenient (ready.input 0)
            runEnd fuel (runLines fuel {} true { rest := text.toList } (ready.leave 0 0)).2
          | .file path =>
            match session.files.read ⟨path⟩ with
            | .ok bytes =>
              runEnd fuel
                (runLines fuel {} true { rest := (Text.ofBytesLenient bytes).toList } ready).2
            | .error .isDirectory => ready
            | .error e => { started with name }.abort (openingFault false path e)
      (done.status, session.resume done)

end

/-! ## Starting programs from outside -/

/-- The greatest depth of nested commands and the greatest number of rounds of a loop. -/
def runLimit : Nat := 1000000

/-- Starts a program with arguments on a file tree, with nothing to read. -/
def launch : Launcher := fun program args files =>
  if (program :: args).any (·.toList.contains '\x00') then (.error .nulInCommand, files)
  else
    let furnished := furnish files
    let started : Except FileError Invocation := do
      if program.isEmpty then .error .notFound
      else
        let path ← Program.pathOf furnished searchPath program
        Program.atPath furnished Program.interpreterLimit path program args
    match started with
    | .error e => (.error e, files)
    | .ok invocation =>
      let session : Session :=
        { world := ⟨furnished, #[.void, .sink [], .sink []]⟩
          descriptors := [(0, 0), (1, 1), (2, 2)]
          name := ""
          arguments := []
          self := 999
          number := 999
          nextProgram := 1000 }
      let (status, done) := runProgram runLimit false invocation defaultEnvironment session
      let errors := match done.world.stream 2 with
        | .sink bytes => bytes
        | _ => []
      (.ok ⟨status, errors⟩, unfurnish files done.files)

end KernelCatalog.Shell
