import KernelCatalog.Shell.Session
import KernelCatalog.Shell.Utility.Condition
import KernelCatalog.Shell.Utility.Copy
import KernelCatalog.Shell.Utility.Printing

/-!
# Builtins

The commands that a shell does itself: those that steer where it goes next, those that print, and
those that move between directories. A builtin is a function on sessions; an error in it is a break
of the session, which the shell mends if the builtin may fail.
-/

namespace KernelCatalog.Shell

/-- A command that a shell does itself, with its arguments. -/
abbrev Builtin := List String → Session → Session

namespace Builtin

/-- A number that is not negative. -/
def number? (text : String) : Option Nat :=
  match Condition.number text with
  | .ok n => if 0 ≤ n && n ≤ 0x7fffffff then some n.toNat else none
  | .error _ => none

/-- Goes on with a number, or breaks off where there is none. -/
def withNumber (text : String) (session : Session) (next : Nat → Session) : Session :=
  match number? text with
  | some n => next n
  | none => session.abort ("Illegal number: " ++ text)

/-- The session after a builtin has printed bytes and ended with a code. -/
def printing (name : String) (bytes : Bytes) (code : Nat) (session : Session) : Session :=
  match session.write 1 bytes with
  | (true, session) => session.ended code
  | (false, session) => session.complain (name ++ ": I/O error") (max 1 code)

/-- The session after a builtin has printed lines. -/
def printingLines (name : String) (lines : List String) (session : Session) : Session :=
  printing name (lines.flatMap fun line => Text.toBytes (line ++ "\n")) 0 session

/-- A text in quotes, so that a shell would read it back. -/
def singleQuoted (text : String) : String :=
  let rec quotes : (fuel : Nat) → List Char → List Char
    | 0, _ => []
    | fuel + 1, cs =>
      let (plain, rest) := cs.span (· ≠ '\'')
      let (marks, rest) := rest.span (· == '\'')
      let first := '\'' :: plain ++ ['\'']
      if marks.isEmpty then first
      else first ++ '"' :: marks ++ ['"'] ++ (if rest.isEmpty then [] else quotes fuel rest)
  String.ofList (quotes (text.length + 1) text.toList)

/-- The letters of the options in front of other arguments, some of which have a value, and these
arguments; or what is said about a wrong one. -/
def letters (flags valued : List Char) :
    List String → Except String (List (Char × String) × List String)
  | [] => .ok ([], [])
  | arg :: rest =>
    match arg.toList with
    | ['-', '-'] => .ok ([], rest)
    | '-' :: c :: cs =>
      let rec cluster : List Char → Except String (List (Char × String) × Option Char)
        | [] => .ok ([], none)
        | c :: more =>
          if valued.contains c then
            if more.isEmpty then .ok ([], some c) else .ok ([(c, String.ofList more)], none)
          else if flags.contains c then do
            let (options, pending) ← cluster more
            .ok ((c, "") :: options, pending)
          else .error ("Illegal option -" ++ c.toString)
      match cluster (c :: cs) with
      | .error message => .error message
      | .ok (options, none) => do
        let (more, others) ← letters flags valued rest
        .ok (options ++ more, others)
      | .ok (options, some letter) =>
        match rest with
        | [] => .error ("No arg for -" ++ letter.toString ++ " option")
        | value :: rest => do
          let (more, others) ← letters flags valued rest
          .ok (options ++ (letter, value) :: more, others)
    | _ => .ok ([], arg :: rest)

/-- A builtin with options. -/
def withLetters (flags valued : String) (run : List (Char × String) → Builtin) : Builtin :=
  fun args session =>
    match letters flags.toList valued.toList args with
    | .error message => session.abort message
    | .ok (options, others) => run options others session

/-! ## Where a session goes next -/

/-- Ends the session. -/
def exit : Builtin := fun args session =>
  match args with
  | [] => session.quit (session.saved.getD session.last)
  | arg :: _ => withNumber arg session session.quit

/-- Ends a function or a script that was read in. -/
def comeBack : Builtin := fun args session =>
  match args with
  | [] => { session with flow := .back }
  | arg :: _ => withNumber arg session fun n => { session.ended n with flow := .back }

/-- Goes out of loops, the last of which goes on with its next round or not. -/
def leaveLoops (again : Bool) : Builtin := fun args session =>
  let leave (n : Nat) : Session :=
    let loops := min n session.loops
    if loops = 0 then session.ended 0 else { session.ended 0 with flow := .out loops again }
  match args with
  | [] => leave 1
  | arg :: _ =>
    withNumber arg session fun n =>
      if n = 0 then session.abort ("Illegal number: " ++ arg) else leave n

/-- Drops arguments. -/
def shift : Builtin := fun args session =>
  let drop (n : Nat) : Session :=
    if session.arguments.length < n then session.abort "can't shift that many"
    else { session.ended 0 with arguments := session.arguments.drop n }
  match args with
  | [] => drop 1
  | arg :: _ => withNumber arg session drop

/-! ## Printing and testing -/

/-- Prints its arguments. -/
def echo : Builtin := fun args => printing "echo" (Printing.echo args) 0

/-- Prints arguments by a format. -/
def printf : Builtin :=
  withLetters "" "" fun _ args session =>
    match args with
    | [] => session.abort "usage: printf format [arg ...]"
    | format :: rest =>
      let (bytes, warnings, code) := Printing.printf format rest
      let warned := warnings.foldl (fun session message => session.warn message) session
      printing "printf" bytes code warned

/-- Tests a condition. -/
def test (name : String) : Builtin := fun args session =>
  match Condition.outcome session.files name args with
  | (code, none) => session.ended code
  | (code, some message) => session.complain message code

/-! ## Directories -/

/-- A path without empty names, `.` and `..`. -/
def plainPath (path : String) : String :=
  let names := (Files.segments path).foldl (fun (names : List String) name =>
    if name = "" ∨ name = "." then names
    else if name = ".." then names.dropLast
    else names ++ [name]) []
  "/" ++ Text.join "/" names

/-- The path of the current directory as it was reached. -/
def currentPath (session : Session) : String :=
  (session.value? "PWD").getD (Files.pathOf session.files.current).text

/-- The session in the directory at a path, if there is one. -/
def enter? (physical : Bool) (path : String) (session : Session) : Option Session :=
  let whole := if path.startsWith "/" then path else currentPath session ++ "/" ++ path
  let logical := plainPath whole
  match session.files.locate ⟨if physical then whole else logical⟩ with
  | .error _ => none
  | .ok location =>
    if session.files.get? location != some .directory then none
    else
      let old := currentPath session
      let new := if physical then (Files.pathOf location).text else logical
      let world := { session.world with files := { session.world.files with current := location } }
      let moved := { session with world }
      let exported (name value : String) (session : Session) : Session :=
        session.put name { session.setting name with value := some value, exported := true }
      some (exported "PWD" new (exported "OLDPWD" old moved))

def cd : Builtin :=
  withLetters "LP" "" fun options args session =>
    let physical := (options.getLast?.map (·.1)) == some 'P'
    let target := match args with
      | [] => (session.value? "HOME").getD ""
      | "-" :: _ => (session.value? "OLDPWD").getD ""
      | path :: _ => path
    let places : List (String × Bool) :=
      if target.startsWith "/" || target.startsWith "." then [(target, false)]
      else
        ((session.value? "CDPATH").getD "").toList |> Text.pieces ':' |>.map fun directory =>
          let directory := String.ofList directory
          if directory.isEmpty then (target, false) else (pathIn directory target, true)
    let shown := args.head? == some "-"
    let attempt := (places ++ [(target, false)]).findSome? fun (path, told) =>
      (enter? physical path session).map fun session => (session, told)
    match attempt with
    | none => session.abort ("can't cd to " ++ target)
    | some (session, told) =>
      if told || shown then printingLines "cd" [currentPath session] session
      else session.ended 0

def pwd : Builtin :=
  withLetters "LP" "" fun options _ session =>
    let path := if (options.getLast?.map (·.1)) == some 'P'
      then (Files.pathOf session.files.current).text else currentPath session
    printingLines "pwd" [path] session

/-- Tells or sets what new files are not allowed; what it is set to is not kept. -/
def umask : Builtin :=
  withLetters "S" "" fun options args session =>
    match args with
    | [] =>
      printingLines "umask" [if options.isEmpty then "0022" else "u=rwx,g=rx,o=rx"] session
    | arg :: _ =>
      match arg.toList with
      | c :: cs =>
        if c.isDigit then
          if (c :: cs).all fun c => '0' ≤ c && c ≤ '7' then session.ended 0
          else session.abort ("Illegal number: " ++ arg)
        else if cs.any fun c => c == '=' || c == '+' || c == '-' then session.ended 0
        else session.abort ("Illegal mode: " ++ arg)
      | [] => session.ended 0

end Builtin

end KernelCatalog.Shell
