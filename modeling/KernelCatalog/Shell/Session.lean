import KernelCatalog.Build.Compiler
import KernelCatalog.Shell.Script.Reader
import KernelCatalog.Shell.Signal
import KernelCatalog.Shell.Stream

/-!
# Sessions

The state of a running shell: the files and streams, which it shares with the programs it starts,
and what is its own, such as its parameters, functions and options. A session says where it goes
next: on, out of a loop or a function, or to its end.
-/

namespace KernelCatalog.Shell

/-- The value of a name. -/
structure Setting where
  value : Option String := none
  /-- Whether programs are given the value. -/
  exported : Bool := false
  readOnly : Bool := false

/-- A program that was started and not waited for. -/
structure Job where
  number : Nat
  status : ExitStatus
  /-- Whether it has been waiting for some time to pass. -/
  asleep : Bool

/-- Where a session goes next. -/
inductive Flow where
  | on
  /-- Out of so many loops, the last of which goes on with its next round or not. -/
  | out (loops : Nat) (again : Bool)
  /-- Out of a function or a script that was read in. -/
  | back
  /-- To its end because of an error, unless a command that may fail contains it. -/
  | broken
  /-- To its end. -/
  | quit (status : ExitStatus)
  deriving DecidableEq, Repr

/-- The state of a running shell. -/
structure Session where
  world : World
  /-- The streams of the descriptors. -/
  descriptors : List (Nat × Nat)
  /-- The name of the shell or script, for messages. -/
  name : String
  arguments : List String
  settings : List (String × Setting) := []
  functions : List (String × Command) := []
  /-- The documents of all that has been read. -/
  documents : List (Nat × List Part) := []
  /-- The number of the next document. -/
  nextDocument : Nat := 0
  /-- What is done on signals, and at the end, which counts as signal 0. -/
  traps : List (Nat × String) := []
  /-- The letters of the options that are on. -/
  options : List Char := []
  /-- The exit code of the latest command. -/
  last : Nat := 0
  /-- The exit code of the latest substituted command, if there has been one. -/
  substituted : Option Nat := none
  /-- The line of the latest command. -/
  line : Nat := 1
  /-- The command of the shell itself that is running. -/
  speaker : Option String := none
  flow : Flow := .on
  /-- How many loops are running. -/
  loops : Nat := 0
  /-- What names were before they became local, for each running function. -/
  scopes : List (List (String × Option Setting)) := []
  /-- The number that scripts know this shell by. -/
  self : Nat := 1000
  /-- The number of the program that runs this shell, which may be only a part of it. -/
  number : Nat := 1000
  /-- The number of the program that started this one. -/
  parent : Nat := 999
  /-- The number of the next program that is started. -/
  nextProgram : Nat := 1001
  /-- The latest program that is not waited for. -/
  background : Option Nat := none
  /-- The programs that are not waited for yet. -/
  jobs : List Job := []
  /-- Whether this shell has waited for some time to pass. -/
  asleep : Bool := false
  /-- The signals that were sent to shells, by their numbers. -/
  signals : List (Nat × Nat) := []
  /-- The exit code from before what is being done on a signal or at the end. -/
  saved : Option Nat := none

namespace Session

/-- The files as they are now. -/
def files (session : Session) : Files := session.world.files

/-- Whether a session goes on. -/
def isOn (session : Session) : Bool := session.flow == .on

/-- Whether an option is on. -/
def has (session : Session) (option : Char) : Bool := session.options.contains option

/-- The session with the exit code of a command. -/
def ended (session : Session) (code : Nat) : Session := { session with last := code }

/-- Writes to a descriptor; `false` if that is not possible. -/
def write (session : Session) (descriptor : Nat) (bytes : Bytes) : Bool × Session :=
  match session.descriptors.lookup descriptor with
  | none => (bytes.isEmpty, session)
  | some number =>
    let (done, world) := session.world.write number bytes
    (done, { session with world })

/-- The session after a text has been written to a descriptor. -/
def say (session : Session) (descriptor : Nat) (text : String) : Session :=
  (session.write descriptor (Text.toBytes text)).2

/-- A message of the shell. -/
def warn (session : Session) (message : String) : Session :=
  let speaker := match session.speaker with
    | some name => name ++ ": "
    | none => ""
  session.say 2
    (session.name ++ ": " ++ toString session.line ++ ": " ++ speaker ++ message ++ "\n")

/-- The session at its end with an exit code. -/
def quit (session : Session) (code : Nat) : Session :=
  { session with last := code, flow := .quit (.code (code % 256)) }

/-- The session after an error that ends it, unless a command that may fail contains it. -/
def abort (session : Session) (message : String) (code : Nat := 2) : Session :=
  { session.warn message with last := code, flow := .broken }

/-- The session after an error of one of its own commands. -/
def complain (session : Session) (message : String) (code : Nat := 2) : Session :=
  (session.warn message).ended code

/-- What is left to be read from a descriptor. -/
def input (session : Session) (descriptor : Nat) : Bytes :=
  match session.descriptors.lookup descriptor with
  | none => []
  | some number => session.world.rest number

/-- The session after all but the given number of bytes of a descriptor have been read. -/
def leave (session : Session) (descriptor count : Nat) : Session :=
  match session.descriptors.lookup descriptor with
  | none => session
  | some number => { session with world := session.world.leave number count }

/-- The setting of a name. -/
def setting (session : Session) (name : String) : Setting :=
  (session.settings.lookup name).getD {}

/-- The value of a name. -/
def value? (session : Session) (name : String) : Option String := (session.setting name).value

/-- The session with another setting of a name. -/
def put (session : Session) (name : String) (setting : Setting) : Session :=
  { session with
    settings := (name, setting) :: session.settings.filter fun entry => entry.1 != name }

/-- The session with a value for a name. -/
def assign (session : Session) (name value : String) : Session :=
  let old := session.setting name
  session.put name { old with value := some value, exported := old.exported || session.has 'a' }

/-- The session with a value for a name that may be read only, which is an error. -/
def assignChecked (session : Session) (name value : String) : Session :=
  if (session.setting name).readOnly then session.abort (name ++ ": is read only")
  else session.assign name value

/-- The names and values that programs are given. -/
def exports (session : Session) : List (String × String) :=
  session.settings.filterMap fun (name, setting) =>
    if setting.exported then setting.value.map fun value => (name, value) else none

/-- The separators of fields. -/
def separators (session : Session) : List Char :=
  ((session.value? "IFS").getD " \t\n").toList

/-- The value of a parameter other than the list of all arguments. -/
def parameter? (session : Session) (name : String) : Option String :=
  match name.toList with
  | ['#'] => some (toString session.arguments.length)
  | ['?'] => some (toString session.last)
  | ['$'] => some (toString session.self)
  | ['!'] => session.background.map toString
  | ['-'] => some (String.ofList session.options)
  | ['0'] => some session.name
  | cs =>
    match Text.digits? 0 cs with
    | some n => if n = 0 then some session.name else session.arguments[n - 1]?
    | none => session.value? name

/-- The session of a shell that is started for a part of a script: all is as before, but what it
changes is its own, except the files and streams. -/
def inner (session : Session) : Session :=
  { session with
    traps := session.traps.filter fun trap => trap.2 == ""
    jobs := []
    asleep := false
    number := session.nextProgram
    parent := session.number
    nextProgram := session.nextProgram + 1 }

/-- The session after a shell that was started for a part of a script has ended. -/
def resume (session inner : Session) : Session :=
  { session with
    world := { inner.world with
      files := { inner.world.files with current := session.world.files.current } }
    nextDocument := inner.nextDocument
    nextProgram := inner.nextProgram
    signals := inner.signals }

/-- The exit code that stands for how a program ended. -/
def codeOf : ExitStatus → Nat
  | .code n => n
  | .signal n => 128 + n

/-- The session after a program that was waited for has ended. -/
def waited (session : Session) (status : ExitStatus) : Session :=
  let told := match status with
    | .signal n => if Signal.isQuiet n then session else session.say 2 (Signal.ending n ++ "\n")
    | .code _ => session
  told.ended (codeOf status)

/-- How a session ended. -/
def status (session : Session) : ExitStatus :=
  match session.flow with
  | .quit status => status
  | _ => .code (session.last % 256)

end Session

end KernelCatalog.Shell
