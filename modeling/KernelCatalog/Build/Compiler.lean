import KernelCatalog.Architecture
import KernelCatalog.Files.Access
import KernelCatalog.Project.Target
import KernelCatalog.Side

/-!
# Device compilers

A device compiler makes the object of a target. It runs an external program, whose arguments are
filled in from the request, or it takes an object that exists already. The object of an earlier
build is removed before a program runs, so that only what this run made counts.
-/

namespace KernelCatalog

/-- How a program ended. -/
inductive ExitStatus where
  | code (n : Nat)
  | signal (n : Nat)
  deriving DecidableEq, Repr

namespace ExitStatus

def signalNames : List String :=
  ["SIGHUP", "SIGINT", "SIGQUIT", "SIGILL", "SIGTRAP", "SIGABRT", "SIGBUS", "SIGFPE", "SIGKILL",
    "SIGUSR1", "SIGSEGV", "SIGUSR2", "SIGPIPE", "SIGALRM", "SIGTERM", "SIGSTKFLT", "SIGCHLD",
    "SIGCONT", "SIGSTOP", "SIGTSTP", "SIGTTIN", "SIGTTOU", "SIGURG", "SIGXCPU", "SIGXFSZ",
    "SIGVTALRM", "SIGPROF", "SIGWINCH", "SIGIO", "SIGPWR", "SIGSYS"]

/-- What is said about the end of a program. -/
def text : ExitStatus → String
  | .code n => "exit status: " ++ toString n
  | .signal n =>
    "signal: " ++ toString n ++
      match signalNames[n - 1]? with
      | some name => " (" ++ name ++ ")"
      | none => ""

end ExitStatus

/-- What a program that ran leaves behind, beside its files. -/
structure Exit where
  status : ExitStatus
  errors : Bytes
  deriving DecidableEq

/-- Starts a program with arguments on a file tree. -/
abbrev Launcher := String → List String → Files → Except FileError Exit × Files

/-- What a device compiler is asked for. -/
structure CompileRequest where
  source : Path
  architecture : Architecture
  processor : Option String
  output : Path
  side : Side
  deriving DecidableEq, Repr

namespace CompileRequest

def toJson (request : CompileRequest) : Json :=
  .obj [("source", .str request.source.text), ("architecture", request.architecture.toJson),
    ("processor", Json.strOrNull request.processor), ("output", .str request.output.text),
    ("side", request.side.toJson)]

def ofJson? (value : Json) : Option CompileRequest := do
  let fields ← value.record? ["source", "architecture", "processor", "output", "side"] 5
  let source ← Json.required? fields "source" Json.text?
  let architecture ← Json.required? fields "architecture" Architecture.ofJson?
  let processor ← Json.optional? fields "processor" Json.text?
  let output ← Json.required? fields "output" Json.text?
  let side ← Json.required? fields "side" Side.ofJson?
  some ⟨⟨source⟩, architecture, processor, ⟨output⟩, side⟩

end CompileRequest

/-- Why there is no device object. -/
inductive CompileError where
  /-- The program did not start. -/
  | spawn (program : String) (cause : FileError)
  /-- The program reported a failure. -/
  | failed (program status errors : String)
  /-- There is no file where one is expected. -/
  | missingOutput (path : Path)
  /-- A file could not be prepared. -/
  | io (path : Path) (cause : FileError)
  deriving DecidableEq, Repr

def CompileError.message : CompileError → String
  | .spawn program cause => "failed to spawn " ++ program ++ ": " ++ cause.message
  | .failed program status errors => program ++ " exited with " ++ status ++ ": " ++ errors
  | .missingOutput path => "compiler reported success but produced no output at " ++ path.text
  | .io path cause => "failed to prepare " ++ path.text ++ ": " ++ cause.message

/-- A program and its arguments, which may hold placeholders. -/
structure Command where
  program : String
  args : List String
  deriving DecidableEq, Repr

namespace Command

def toJson (command : Command) : Json :=
  .obj [("program", .str command.program), ("args", .arr (command.args.map .str))]

def ofJson? (value : Json) : Option Command := do
  let fields ← value.record? ["program", "args"] 2
  let program ← Json.required? fields "program" Json.text?
  let args ← Json.required? fields "args" (Json.list? Json.text?)
  some ⟨program, args⟩

/-- The clang that is used where no other is chosen. -/
def defaultClang : String := "clang"

/-- The command of clang for code objects of AMD processors. -/
def clang (program : String) : Command :=
  ⟨program, ["--target=amdgcn-amd-amdhsa", "-mcpu=\x7bprocessor\x7d", "-O3",
    "-DKERNEL_BRIDGE_SIDE=\x7bside\x7d", "-c", "\x7bsource\x7d", "-o", "\x7boutput\x7d"]⟩

/-- The placeholders with the values of a request, in the order in which they are filled in. -/
def placeholders (request : CompileRequest) : List (String × String) :=
  [("\x7bsource\x7d", request.source.text), ("\x7boutput\x7d", request.output.text),
    ("\x7barch\x7d", request.architecture.name),
    ("\x7bprocessor\x7d", request.processor.getD ""), ("\x7bside\x7d", request.side.name)]

/-- An argument with each kind of placeholder replaced, one kind after the other. -/
def expand (request : CompileRequest) (arg : String) : String :=
  (placeholders request).foldl (fun text (name, value) => Text.replace text name value) arg

/-- The arguments for a request. -/
def expandArgs (command : Command) (request : CompileRequest) : List String :=
  command.args.map (expand request)

/-- The tree without the object of an earlier build. -/
def removeStale (files : Files) (path : Path) : Except CompileError Files :=
  match files.remove path with
  | .ok files => .ok files
  | .error .notFound => .ok files
  | .error e => .error (.io path e)

/-- What the end of a program says about the object. -/
def judge (command : Command) (request : CompileRequest) (exit : Exit) (files : Files) :
    Except CompileError Unit :=
  if exit.status ≠ .code 0 then
    .error (.failed command.program exit.status.text
      (Text.trim (Text.ofBytesLenient exit.errors)))
  else if files.isFile request.output then .ok ()
  else .error (.missingOutput request.output)

/-- Makes the object of a request by running the command. -/
def compile (launch : Launcher) (command : Command) (request : CompileRequest) (files : Files) :
    Except CompileError Unit × Files :=
  match files.makeParent request.output with
  | (.error (path, e), files) => (.error (.io path e), files)
  | (.ok (), files) =>
    match removeStale files request.output with
    | .error e => (.error e, files)
    | .ok files =>
      match launch command.program (command.expandArgs request) files with
      | (.error e, files) => (.error (.spawn command.program e), files)
      | (.ok exit, files) => (command.judge request exit files, files)

end Command

/-- A way to make a device object. -/
inductive Compiler where
  /-- A program makes it. -/
  | external (command : Command)
  /-- The source is the object. -/
  | prebuilt
  deriving DecidableEq, Repr

namespace Compiler

def name : Compiler → String
  | .external command => command.program
  | .prebuilt => "prebuilt"

/-- Copies an object that exists into place. -/
def takePrebuilt (request : CompileRequest) (files : Files) : Except CompileError Unit × Files :=
  if !files.isFile request.source then (.error (.missingOutput request.source), files)
  else if request.source.same request.output then (.ok (), files)
  else
    match files.makeParent request.output with
    | (.error (path, e), files) => (.error (.io path e), files)
    | (.ok (), files) =>
      match files.copy request.source request.output with
      | (.error e, files) => (.error (.io request.output e), files)
      | (.ok (), files) => (.ok (), files)

/-- Makes the object of a request. -/
def compile (launch : Launcher) (compiler : Compiler) (request : CompileRequest) (files : Files) :
    Except CompileError Unit × Files :=
  match compiler with
  | .external command => command.compile launch request files
  | .prebuilt => takePrebuilt request files

end Compiler

/-- The compiler of a choice, with the program that is used for clang. -/
def CompilerChoice.compiler (clang : String) : CompilerChoice → Compiler
  | .clang => .external (.clang clang)
  | .command program args => .external ⟨program, args⟩
  | .prebuilt => .prebuilt

end KernelCatalog
