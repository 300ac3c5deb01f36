import KernelCatalog.Json.Parser
import KernelCatalog.Json.Printer
import KernelCatalog.Ledger.Handle
import KernelCatalog.Project.Config

/-!
# Open projects

The configuration of a project is a JSON file. It is checked when it is loaded and before it is
saved, so that a file that is refused is not replaced. An open project is its layout, its
configuration and its open ledger.
-/

namespace KernelCatalog

/-- A refused configuration as a failure. -/
def ConfigError.failure (e : ConfigError) : Failure := { message := e.message }

/-- A failed operation on files as a failure. -/
def FileError.failure (e : FileError) : Failure := { message := e.message }

namespace Config

/-- The configuration that a JSON text holds. What the JSON reader says in its own words is written
`<json>`. -/
def parse (text : String) : Except Failure Config :=
  match (Json.parse? text).bind ofJson? with
  | some config => .ok config
  | none => .error { message := "<json>" }

/-- The text of a configuration. -/
def render (config : Config) : String := config.toJson.pretty

/-- The valid configuration that a text holds. -/
def ofText (layout : Layout) (text : String) : Except Failure Config := do
  let config ← withContext "Failed to parse project config JSON" (parse text)
  match config.validate layout with
  | .ok () => .ok config
  | .error e => .error (e.failure.context "Invalid project config")

/-- Loads the configuration of a project. -/
def load (files : Files) (layout : Layout) : Except Failure Config :=
  match files.readText layout.configPath with
  | .error e => .error (e.failure.context
      ("Failed to read project config at " ++ layout.configPath.text))
  | .ok text => ofText layout text

/-- Saves a configuration, if it is valid. -/
def save (files : Files) (layout : Layout) (config : Config) : Except Failure Unit × Files :=
  match config.validate layout with
  | .error e => (.error (e.failure.context "Refusing to save invalid project config"), files)
  | .ok () =>
    match files.makeDirectories layout.metaDir with
    | (.error e, files) =>
      (.error (e.failure.context
        ("Failed to create metadata directory " ++ layout.metaDir.text)), files)
    | (.ok (), files) =>
      match files.writeText layout.configPath config.render with
      | .error e =>
        (.error (e.failure.context
          ("Failed to write project config to " ++ layout.configPath.text)), files)
      | .ok files => (.ok (), files)

end Config

/-- An open project. -/
structure Project where
  layout : Layout
  config : Config
  ledgerPath : Path
  ledger : Ledger.Handle

namespace Project

/-- Opens the project at a root. -/
def openAt (files : Files) (root : Path) : Except Failure Project × Files :=
  let layout : Layout := ⟨root⟩
  match Config.load files layout with
  | .error failure => (.error failure, files)
  | .ok config =>
    let path := layout.resolve config.ledger.path
    match Ledger.openFile files path with
    | (.error e, files) =>
      (.error (e.failure.context ("Failed to open project database at " ++ path.text)), files)
    | (.ok ledger, files) => (.ok ⟨layout, config, path, ledger⟩, files)

/-- Saves the configuration of an open project. -/
def save (project : Project) (files : Files) : Except Failure Unit × Files :=
  Config.save files project.layout project.config

/-- The project with targets added to its configuration, the first failing one excepted, and the
names of the added ones with the paths that they generate. -/
def addTargets : Project → List Target → Except ConfigError (Project × List (String × String))
  | project, [] => .ok (project, [])
  | project, target :: rest => do
    let generated := project.layout.relative (target.job project.layout).generated
    let config ← project.config.add target
    let (project, added) ← addTargets { project with config } rest
    .ok (project, (target.name, generated) :: added)

end Project

end KernelCatalog
