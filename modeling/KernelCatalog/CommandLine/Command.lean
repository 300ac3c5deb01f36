import KernelCatalog.Build.Summary
import KernelCatalog.CommandLine.Request
import KernelCatalog.Extraction.Descriptor
import KernelCatalog.Project.TargetList

/-!
# Commands

Each command takes the files as they are and gives what it prints, how it fails, and the files it
leaves. What a command has printed before it fails stays printed.
-/

namespace KernelCatalog.CommandLine

/-- What a command prints, and how it fails. -/
structure Answer where
  /-- The lines of its output. -/
  output : String := ""
  /-- What it prints beside its output. -/
  notes : String := ""
  failure : Option Failure := none

/-- What the commands use beside the files. -/
structure Surroundings where
  launch : Launcher
  /-- The program that is used for clang. -/
  clang : String
  /-- The times at which a build starts and ends, as they are recorded. -/
  startedAt : String
  finishedAt : String

/-- Lines, each with its line break. -/
def lines (texts : List String) : String := String.join (texts.map (· ++ "\n"))

namespace Answer

/-- An answer of lines. -/
def ofLines (texts : List String) : Answer := { output := lines texts }

/-- An answer of a JSON value. -/
def ofJson (value : Json) : Answer := { output := value.pretty ++ "\n" }

/-- A failure before anything is printed. -/
def failed (failure : Failure) : Answer := { failure := some failure }

end Answer

/-- The absolute path of a root. One that does not exist yet is put behind the current directory. -/
def canonicalRoot (files : Files) (root : String) : Path :=
  let current := Files.pathOf files.current
  if (Path.mk root).same ⟨"."⟩ then current
  else
    match files.canonical ⟨root⟩ with
    | .ok path => path
    | .error _ => current.join root

/-- The name of a project that is given none: the last name of its root. -/
def inferName (root : Path) : String := root.fileName?.getD "unnamed-project"

/-- A failed extraction as a failure. -/
def binaryFailure : BinaryError → Failure
  | .io path cause => ⟨(BinaryError.io path cause).message, [cause.message]⟩
  | e => ⟨e.message, []⟩

/-- What is listed about a backend. -/
structure BackendInfo where
  architecture : String
  name : String
  encoding : Option String
  description : String

namespace BackendInfo

def ofBackend (backend : Backend) : BackendInfo where
  architecture := backend.architecture.name
  name := backend.name
  encoding := backend.encoding
  description :=
    if backend.name = "amdgpu" then
      "AMDHSA code objects (.kd descriptors + mangled overload symbols)"
    else "Extractor '" ++ backend.name ++ "'"

/-- The backends of a registry. -/
def list (registry : Registry) : List BackendInfo := registry.backends.map ofBackend

def toJson (info : BackendInfo) : Json :=
  .obj [("architecture", .str info.architecture), ("name", .str info.name),
    ("encoding", Json.strOrNull info.encoding), ("description", .str info.description)]

/-- The line of a backend. -/
def line (info : BackendInfo) : String :=
  let encoding := match info.encoding with
    | some encoding => ", " ++ encoding
    | none => ""
  "- " ++ info.name ++ " (" ++ info.architecture ++ encoding ++ "): " ++ info.description

end BackendInfo

def listBackends (json : Bool) : Answer :=
  let infos := BackendInfo.list .standard
  if json then .ofJson (.arr (infos.map BackendInfo.toJson))
  else if infos.isEmpty then .ofLines ["Backends: (none)"]
  else .ofLines ("Backends:" :: infos.map BackendInfo.line)

/-- Makes the directories of a project, one after another. -/
def makeProjectDirectories : List (String × Path) → Files → Except Failure Unit × Files
  | [], files => (.ok (), files)
  | (label, path) :: rest, files =>
    match files.makeDirectories path with
    | (.error e, files) =>
      (.error (e.failure.context ("Failed to create " ++ label ++ " dir: " ++ path.text)), files)
    | (.ok (), files) => makeProjectDirectories rest files

def initProject (root : String) (name : Option String) (files : Files) : Answer × Files :=
  let path := canonicalRoot files root
  let layout : Layout := ⟨path⟩
  let projectName := name.getD (inferName path)
  let directories :=
    [("meta", layout.metaDir), ("build", layout.buildDir), ("generated", layout.generatedDir)]
  match makeProjectDirectories directories files with
  | (.error failure, files) => (.failed failure, files)
  | (.ok (), files) =>
    let config := Config.new projectName (layout.relative layout.ledgerPath)
    match Config.save files layout config with
    | (.error failure, files) => (.failed failure, files)
    | (.ok (), files) =>
      match Ledger.openFile files layout.ledgerPath with
      | (.error e, files) =>
        (.failed (e.failure.context
          ("Failed to initialize build ledger at " ++ layout.ledgerPath.text)), files)
      | (.ok _, files) =>
        (.ofLines ["Initialized kernel-bridge project:", "  Name: " ++ projectName,
          "  Root: " ++ layout.root.text, "  Config: " ++ layout.configPath.text,
          "  DB path (relative): " ++ config.ledger.path,
          "  Build dir: " ++ layout.buildDir.text,
          "  Generated dir: " ++ layout.generatedDir.text], files)

def infoJson (project : Project) : Json :=
  let layout := project.layout
  let config := project.config
  .obj [("name", .str config.name), ("description", Json.strOrNull config.description),
    ("root", .str layout.root.text), ("config_file", .str layout.configPath.text),
    ("config_version", .str config.configVersion), ("db_path", .str project.ledgerPath.text),
    ("types_path", .str config.typesPath),
    ("available_backends",
      .arr ((BackendInfo.list .standard).map fun info => .str info.name)),
    ("layout", .obj [("meta_dir", .str layout.metaDir.text),
      ("build_dir", .str layout.buildDir.text), ("generated_dir", .str layout.generatedDir.text)]),
    ("targets", .arr (config.targets.map Target.toJson))]

/-- The line that says whether a directory is there. -/
def directoryLine (files : Files) (label : String) (path : Path) : String :=
  "- " ++ label ++ ": " ++ (if files.isDirectory path then "OK" else "MISSING") ++ " (" ++ path.text
    ++ ")"

def infoLines (project : Project) (files : Files) : List String :=
  let layout := project.layout
  let config := project.config
  ["kernel-bridge Project Info", "==========================", "Name: " ++ config.name]
    ++ (match config.description with
      | some description => ["Description: " ++ description]
      | none => [])
    ++ ["Root: " ++ layout.root.text, "Config file: " ++ layout.configPath.text,
      "Config version: " ++ config.configVersion, "DB path (config): " ++ config.ledger.path,
      "Descriptor types: " ++ config.typesPath, "", "Directories:",
      directoryLine files "Meta dir (.kbridge)" layout.metaDir,
      directoryLine files "Build dir" layout.buildDir,
      directoryLine files "Generated dir" layout.generatedDir, ""]

/-- The line of a target with the status of its latest run. -/
def targetLine (target : Target) (last : Option Run) : String :=
  let processor := match target.processor with
    | some processor => " " ++ processor
    | none => ""
  let status := match last with
    | some run => run.status.name
    | none => "never"
  "- " ++ target.name ++ " [" ++ target.architecture.name ++ processor ++ "] " ++ target.source
    ++ " via " ++ target.compiler.label ++ " (last build: " ++ status ++ ")"

/-- The lines of the targets, up to the first whose runs cannot be read. -/
def targetLines (project : Project) (files : Files) :
    List Target → List String × Option Failure
  | [] => ([], none)
  | target :: rest =>
    match project.ledger.latest files target.name with
    | .error e => ([], some e.failure)
    | .ok last =>
      let (more, failure) := targetLines project files rest
      (targetLine target last :: more, failure)

def projectInfo (root : String) (json : Bool) (files : Files) : Answer × Files :=
  match Project.openAt files (canonicalRoot files root) with
  | (.error failure, files) => (.failed failure, files)
  | (.ok project, files) =>
    if json then (.ofJson (infoJson project), files)
    else if project.config.targets.isEmpty then
      (.ofLines (infoLines project files ++ ["Targets: (none)"]), files)
    else
      let (more, failure) := targetLines project files project.config.targets
      ({ output := lines (infoLines project files ++ "Targets:" :: more), failure }, files)

/-- Adds targets to a project. Nothing is saved unless all of them are accepted. -/
def addTargets (root : String) (targets : List Target) (files : Files) : Answer × Files :=
  match Project.openAt files (canonicalRoot files root) with
  | (.error failure, files) => (.failed failure, files)
  | (.ok project, files) =>
    match project.addTargets targets with
    | .error e => (.failed e.failure, files)
    | .ok (project, added) =>
      match project.save files with
      | (.error failure, files) => (.failed failure, files)
      | (.ok (), files) =>
        (.ofLines (added.map fun (name, generated) =>
          "Added target " ++ name ++ " (generates " ++ generated ++ ")"), files)

def addTarget (root : String) (args : TargetArgs) (files : Files) : Answer × Files :=
  match args.target with
  | .error message => (.failed { message }, files)
  | .ok target => addTargets root [target] files

def importTargets (root file : String) (files : Files) : Answer × Files :=
  match Target.loadList files ⟨file⟩ with
  | .error failure => (.failed failure, files)
  | .ok [] => (.failed { message := "No targets found in " ++ file }, files)
  | .ok targets => addTargets root targets files

def sectionLine (index : Nat) (sect : Section) : String :=
  "  [" ++ Text.padLeft ' ' 2 (toString index) ++ "] " ++ Text.padRight 24 sect.name ++ " addr=0x"
    ++ Text.hexPadded 8 sect.address.toNat ++ " size=0x" ++ Text.hex sect.size.toNat

/-- The word for the kind of a symbol. -/
def kindWord : SymbolKind → String
  | .function => "Function"
  | .object => "Object"
  | .other => "Other"

def symbolLine (object : Object) (symbol : Symbol) : String :=
  let place := match symbol.sectionIndex.bind (object.sections[·]?) with
    | some sect => sect.name
    | none => "-"
  "  0x" ++ Text.hexPadded 8 symbol.address.toNat ++ " "
    ++ Text.padLeft ' ' 6 (toString symbol.size.toNat) ++ " " ++ kindWord symbol.kind ++ " "
    ++ Text.padRight 10 place ++ " " ++ symbol.name

def objectLines (path : String) (object : Object) : List String :=
  ["Binary: " ++ path,
    "Architecture: " ++ object.architecture.name ++ " (e_flags 0x"
      ++ Text.hexPadded 8 object.machineFlags.toNat ++ ", "
      ++ (if object.byteOrder == .little then "little-endian" else "big-endian") ++ ", "
      ++ (if object.relocatable then "relocatable" else "linked") ++ ")",
    "Sections (" ++ toString object.sections.length ++ "):"]
    ++ (object.sections.zipIdx.map fun (sect, index) => sectionLine index sect)
    ++ ["Symbols (" ++ toString object.symbols.length ++ "):"]
    ++ object.symbols.map (symbolLine object)

def objectJson (path : String) (object : Object) : Json :=
  .obj [("path", .str path), ("architecture", .str object.architecture.name),
    ("machine_flags", .nat object.machineFlags.toNat),
    ("little_endian", .bool (object.byteOrder == .little)),
    ("relocatable", .bool object.relocatable),
    ("sections", .arr (object.sections.map Section.toJson)),
    ("symbols", .arr (object.symbols.map Symbol.toJson))]

/-- Describes an object file. -/
def inspect (path : String) (json : Bool) (files : Files) : Answer :=
  match Object.load files ⟨path⟩ with
  | .error e => .failed (binaryFailure e)
  | .ok object =>
    if json then .ofJson (objectJson path object) else .ofLines (objectLines path object)

/-- The source that is generated from the object of a file. -/
def generate (path : String) (typesPath : Option String) (files : Files) :
    Except Failure (Catalog × String) :=
  match Object.load files ⟨path⟩ with
  | .error e => .error (binaryFailure e)
  | .ok object =>
    match Registry.standard.extract object with
    | .error e =>
      .error ⟨"Failed to extract kernel configs from " ++ path, [e.message]⟩
    | .ok catalog =>
      .ok (catalog, HostSource.render catalog
        { typesPath := typesPath.getD HostSource.defaultTypesPath
          encoding := Registry.standard.encoding? object.architecture })

/-- Writes a generated source to a file. -/
def writeSource (out : String) (text : String) (files : Files) : Except Failure Unit × Files :=
  match files.makeParent ⟨out⟩ with
  | (.error (parent, e), files) =>
    (.error (e.failure.context ("Failed to create " ++ parent.text)), files)
  | (.ok (), files) =>
    match files.writeText ⟨out⟩ text with
    | .error e =>
      (.error (e.failure.context ("Failed to write generated source to " ++ out)), files)
    | .ok files => (.ok (), files)

/-- What an extraction prints once its source is written. -/
def extractAnswer (path : String) (out : Option String) (verbose json : Bool) (catalog : Catalog)
    (generated : String) : Answer :=
  if json then
    .ofJson (.obj [("binary", .str path), ("map", catalog.toJson),
      ("diagnostics", .arr (catalog.diagnostics.map .str)), ("generated", .str generated),
      ("written_to", Json.strOrNull out)])
  else
    { output := match out with
        | some out => lines ["Wrote " ++ out ++ " (" ++ toString catalog.size ++ " kernels)"]
        | none => generated
      notes :=
        if verbose then
          lines ((path ++ ": " ++ toString catalog.size ++ " kernels, "
            ++ toString catalog.overloadCount ++ " overloads ("
            ++ catalog.processor.getD "unknown processor" ++ ")")
            :: catalog.diagnostics.map ("  " ++ ·))
        else "" }

/-- Extracts the host source from an object file. -/
def extract (path : String) (out typesPath : Option String) (verbose json : Bool) (files : Files) :
    Answer × Files :=
  match generate path typesPath files with
  | .error failure => (.failed failure, files)
  | .ok (catalog, generated) =>
    let written := match out with
      | some out => writeSource out generated files
      | none => (.ok (), files)
    match written with
    | (.error failure, files) => (.failed failure, files)
    | (.ok (), files) => (extractAnswer path out verbose json catalog generated, files)

def outcomeLines (layout : Layout) (verbose : Bool) (outcome : TargetOutcome) : List String :=
  match outcome.status, outcome.output with
  | .succeeded, some output =>
    ("[ok] " ++ outcome.target ++ ": " ++ toString output.catalog.size ++ " kernels, "
      ++ toString output.catalog.overloadCount ++ " overloads -> "
      ++ layout.relative output.generatedPath ++ (if output.changed then "" else " (unchanged)"))
      :: (if verbose then output.catalog.diagnostics.map ("    " ++ ·) else [])
  | status, _ =>
    ["[" ++ status.name ++ "] " ++ outcome.target ++ ": "
      ++ outcome.error.getD "upstream stage did not run"]

/-- What a build prints about its summary. It fails when a target did not succeed. -/
def buildAnswer (layout : Layout) (verbose json : Bool) (summary : BuildSummary) : Answer :=
  let failed := summary.failed.length
  { output :=
      if json then summary.toJson.pretty ++ "\n"
      else lines (summary.outcomes.flatMap (outcomeLines layout verbose))
    failure :=
      if failed = 0 then none
      else some { message := toString failed ++ " of " ++ toString summary.outcomes.length
        ++ " targets failed" } }

/-- Builds targets of a project. -/
def build (surroundings : Surroundings) (root : String) (targets : List String)
    (verbose json : Bool) (files : Files) : Answer × Files :=
  match Project.openAt files (canonicalRoot files root) with
  | (.error failure, files) => (.failed failure, files)
  | (.ok project, files) =>
    if project.config.targets.isEmpty then
      (.failed
        { message := "No targets configured; add one with \x60kernel-bridge add-target\x60" },
        files)
    else
      let setup : BuildSetup := ⟨.standard, surroundings.launch, surroundings.clang,
        surroundings.startedAt, surroundings.finishedAt⟩
      match setup.build project targets files with
      | (.error e, _, files) => (.failed e.failure, files)
      | (.ok summary, project, files) => (buildAnswer project.layout verbose json summary, files)

/-- The line of a run. -/
def runLine (run : Run) : String :=
  let detail := match run.error with
    | some error => error
    | none =>
      toString run.kernelCount.toNat ++ " kernels, " ++ toString run.overloadCount.toNat
        ++ " overloads" ++ (if run.generatedChanged then "" else ", unchanged")
  "- " ++ run.finishedAt ++ " " ++ run.target ++ " [" ++ run.status.name ++ "] "
    ++ run.processor.getD run.architecture ++ " via " ++ run.compiler ++ ": " ++ detail

/-- What is printed about runs. -/
def historyAnswer (json : Bool) (runs : List Run) : Answer :=
  if json then .ofJson (.arr (runs.map Run.toJson))
  else if runs.isEmpty then .ofLines ["Build runs: (none)"]
  else .ofLines ("Build runs:" :: runs.map runLine)

/-- Lists the runs of a project, the newest first. -/
def history (root : String) (target : Option String) (limit : Option Nat) (json : Bool)
    (files : Files) : Answer × Files :=
  match Project.openAt files (canonicalRoot files root) with
  | (.error failure, files) => (.failed failure, files)
  | (.ok project, files) =>
    match project.ledger.runs files target with
    | .error e => (.failed e.failure, files)
    | .ok runs => (historyAnswer json (runs.take (limit.getD runs.length)), files)

/-- The version of this program. -/
def version : String := "0.1.0"

/-- Carries out what a command line asks for. -/
def perform (surroundings : Surroundings) (request : Request) (files : Files) : Answer × Files :=
  match request with
  | .version => (.ofLines ["kernel-bridge " ++ version], files)
  | .initProject root name => initProject root name files
  | .projectInfo root json => projectInfo root json files
  | .addTarget root args => addTarget root args files
  | .importTargets root file => importTargets root file files
  | .inspect path json => (inspect path json files, files)
  | .extract path out typesPath verbose json => extract path out typesPath verbose json files
  | .build root targets verbose json => build surroundings root targets verbose json files
  | .history root target limit json => history root target limit json files
  | .listBackends json => (listBackends json, files)

/-- How a command line ended. -/
structure Ending where
  code : Nat
  output : String
  errors : String

/-- What is said about a command line that fits no command. -/
def usage : String :=
  lines ["error: the arguments fit no command", "",
    "Commands: init-project, project-info, add-target, inspect, extract, build, history, "
      ++ "list-backends"]

/-- Carries out a command line. -/
def run (surroundings : Surroundings) (args : List String) (files : Files) : Ending × Files :=
  match Request.parse? args with
  | none => (⟨2, "", usage⟩, files)
  | some request =>
    let (answer, files) := perform surroundings request files
    match answer.failure with
    | none => (⟨0, answer.output, answer.notes⟩, files)
    | some failure => (⟨1, answer.output, answer.notes ++ failure.report⟩, files)

end KernelCatalog.CommandLine
