import KernelCatalog.CommandLine.Options
import KernelCatalog.Project.Target
import KernelCatalog.Text.Decimal

/-!
# What a command line asks for

The first argument is the name of a command; the others are its options and arguments. A command
line that fits no command is a usage error.
-/

namespace KernelCatalog.CommandLine

/-- A target as it is described by options. -/
structure TargetArgs where
  name : String
  source : String
  architecture : String
  processor : Option String
  compiler : Option String
  compilerArgs : List String
  prebuilt : Bool
  generated : Option String
  deriving DecidableEq, Repr

/-- The target that options describe; otherwise what is wrong with them. -/
def TargetArgs.target (args : TargetArgs) : Except String Target :=
  match Architecture.parse? args.architecture with
  | none => .error (Architecture.unknownMessage args.architecture)
  | some architecture =>
    let made (compiler : CompilerChoice) : Except String Target :=
      .ok ⟨args.name, args.source, architecture, args.processor, compiler, args.generated⟩
    match args.prebuilt, args.compiler with
    | true, some _ => .error "--prebuilt and --compiler are mutually exclusive"
    | true, none => made .prebuilt
    | false, some program => made (.command program args.compilerArgs)
    | false, none => made .clang

/-- What a command line asks for. -/
inductive Request where
  | version
  | initProject (root : String) (name : Option String)
  | projectInfo (root : String) (json : Bool)
  | addTarget (root : String) (args : TargetArgs)
  | importTargets (root file : String)
  | inspect (path : String) (json : Bool)
  | extract (path : String) (out typesPath : Option String) (verbose json : Bool)
  | build (root : String) (targets : List String) (verbose json : Bool)
  | history (root : String) (target : Option String) (limit : Option Nat) (json : Bool)
  | listBackends (json : Bool)
  deriving DecidableEq, Repr

namespace Request

def rootOption : OptionSpec := { name := "root", arity := .single }

/-- The option that asks for JSON. -/
def jsonOption : OptionSpec := { name := "json", arity := .flag }

/-- The option that asks for more words. -/
def verboseOption : OptionSpec := { name := "verbose", arity := .flag, short := some 'v' }

/-- An option with one value. -/
def valueOption (name : String) : OptionSpec := { name, arity := .single }

/-- The root of the project. -/
def root (given : Given) : String := (given.value? "root").getD "."

/-- The options of each command. -/
def options? : String → Option (List OptionSpec)
  | "init-project" => some [rootOption, valueOption "name"]
  | "project-info" => some [rootOption, jsonOption]
  | "add-target" =>
    some [rootOption, valueOption "from", valueOption "name", valueOption "source",
      valueOption "arch", valueOption "processor", valueOption "compiler",
      { name := "compiler-arg", arity := .many, dashes := true },
      { name := "prebuilt", arity := .flag }, valueOption "generated"]
  | "inspect" => some [jsonOption]
  | "extract" =>
    some [valueOption "out", valueOption "types-path", verboseOption, jsonOption]
  | "build" => some [rootOption, { name := "target", arity := .many }, verboseOption, jsonOption]
  | "history" => some [rootOption, valueOption "target", valueOption "limit", jsonOption]
  | "list-backends" => some [jsonOption]
  | _ => none

/-- What `add-target` asks for: a file excludes a name and a source, which are needed otherwise. -/
def ofTarget? (given : Given) : Option Request :=
  match given.value? "from", given.value? "name", given.value? "source" with
  | some file, none, none => some (.importTargets (root given) file)
  | none, some name, some source =>
    some (.addTarget (root given) {
      name, source
      architecture := (given.value? "arch").getD "amdgpu"
      processor := given.value? "processor"
      compiler := given.value? "compiler"
      compilerArgs := given.values "compiler-arg"
      prebuilt := given.has "prebuilt"
      generated := given.value? "generated" })
  | _, _, _ => none

/-- The greatest limit. -/
def limitMax : Nat := 0xffffffffffffffff

/-- What `history` asks for. -/
def ofHistory? (given : Given) : Option Request :=
  let made (limit : Option Nat) : Request :=
    .history (root given) (given.value? "target") limit (given.has "json")
  match given.value? "limit" with
  | none => some (made none)
  | some text => (Text.unsigned? limitMax text).map (made ∘ some)

/-- What a command asks for with what is given to it. -/
def ofGiven? (command : String) (given : Given) : Option Request :=
  let json := given.has "json"
  let verbose := given.has "verbose"
  match command, given.arguments with
  | "init-project", [] => some (.initProject (root given) (given.value? "name"))
  | "project-info", [] => some (.projectInfo (root given) json)
  | "add-target", [] => ofTarget? given
  | "inspect", [path] => some (.inspect path json)
  | "extract", [path] =>
    some (.extract path (given.value? "out") (given.value? "types-path") verbose json)
  | "build", [] => some (.build (root given) (given.values "target") verbose json)
  | "history", [] => ofHistory? given
  | "list-backends", [] => some (.listBackends json)
  | _, _ => none

/-- Whether an argument asks for the version, whatever letters stand behind the first one. -/
def isVersion (text : String) : Bool :=
  text == "--version" || (Text.after? "-V".toList text.toList).isSome

/-- What a command line asks for. -/
def parse? : List String → Option Request
  | [] => none
  | command :: rest =>
    if isVersion command then some .version
    else
      match options? command with
      | none => none
      | some table => (Given.read? table {} rest).bind (ofGiven? command)

/-- The root of the project that a request is about. -/
def project? : Request → Option String
  | .initProject root _ | .projectInfo root _ | .addTarget root _ | .importTargets root _
  | .build root .. | .history root .. => some root
  | .version | .inspect .. | .extract .. | .listBackends _ => none

/-- The files that a request names beside the root of a project. -/
def namedFiles : Request → List String
  | .importTargets _ file => [file]
  | .inspect path _ => [path]
  | .extract path out .. => path :: out.toList
  | _ => []

end Request

end KernelCatalog.CommandLine
