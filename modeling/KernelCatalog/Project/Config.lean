import KernelCatalog.HostSource.Render
import KernelCatalog.Project.Target

/-!
# The configuration of a project

A configuration names the project, its ledger and its targets. It is valid when no target has a
blank name and no two targets have a name, an object or a generated source in common.
-/

namespace KernelCatalog

/-- Why a configuration or a choice of targets is refused. -/
inductive ConfigError where
  | emptyTargetName
  | duplicateTarget (name : String)
  | duplicateGenerated (path : Path) (first second : String)
  | duplicateObject (path : Path) (first second : String)
  | unknownTarget (name : String)
  deriving DecidableEq, Repr

def ConfigError.message : ConfigError → String
  | .emptyTargetName => "target name must not be empty"
  | .duplicateTarget name => "target '" ++ name ++ "' is already defined"
  | .duplicateGenerated path first second =>
    "targets '" ++ first ++ "' and '" ++ second ++ "' both generate " ++ path.text
  | .duplicateObject path first second =>
    "targets '" ++ first ++ "' and '" ++ second ++ "' both build into " ++ path.text
  | .unknownTarget name => "unknown target '" ++ name ++ "'"

/-- Where the ledger of a project is. -/
structure LedgerSetting where
  /-- The path of the ledger, relative to the root of the project. -/
  path : String
  deriving DecidableEq, Repr

namespace LedgerSetting

def toJson (setting : LedgerSetting) : Json := .obj [("path", .str setting.path)]

def ofJson? (value : Json) : Option LedgerSetting := do
  let fields ← value.record? ["path"] 1
  let path ← Json.required? fields "path" Json.text?
  some ⟨path⟩

end LedgerSetting

/-- The configuration of a project. -/
structure Config where
  name : String
  description : Option String
  /-- The version of the configuration's own format. -/
  configVersion : String
  ledger : LedgerSetting
  /-- The module path of the descriptor types in the generated sources. -/
  typesPath : String
  targets : List Target
  deriving DecidableEq, Repr

namespace Config

/-- A configuration without targets. -/
def new (name ledgerPath : String) : Config :=
  ⟨name, none, "0.1.0", ⟨ledgerPath⟩, HostSource.defaultTypesPath, []⟩

/-- The target of the given name. -/
def target? (config : Config) (name : String) : Option Target :=
  config.targets.find? fun target => target.name == name

def isBlankName (name : String) : Bool := (Text.trim name).isEmpty

/-- The configuration with one more target, whose name must be new. -/
def add (config : Config) (target : Target) : Except ConfigError Config :=
  if isBlankName target.name then .error .emptyTargetName
  else if (config.target? target.name).isSome then .error (.duplicateTarget target.name)
  else .ok { config with targets := config.targets ++ [target] }

/-- The target of the given name, which must exist. -/
def find (config : Config) (name : String) : Except ConfigError Target :=
  match config.target? name with
  | some target => .ok target
  | none => .error (.unknownTarget name)

/-- The named targets in the order of the names, or all targets if there are no names. -/
def select (config : Config) (names : List String) : Except ConfigError (List Target) :=
  if names.isEmpty then .ok config.targets else names.mapM config.find

/-- What a target has against those before it. -/
def clash? (layout : Layout) (earlier : List Target) (target : Target) : Option ConfigError :=
  let job := target.job layout
  if isBlankName target.name then some .emptyTargetName
  else if earlier.any fun first => first.name == target.name then
    some (.duplicateTarget target.name)
  else
    match earlier.find? fun first => (first.job layout).object.same job.object with
    | some first => some (.duplicateObject job.object first.name target.name)
    | none =>
      match earlier.find? fun first => (first.job layout).generated.same job.generated with
      | some first => some (.duplicateGenerated job.generated first.name target.name)
      | none => none

/-- Whether targets are exclusive among each other and with those before them. -/
def validateFrom (layout : Layout) (earlier : List Target) :
    List Target → Except ConfigError Unit
  | [] => .ok ()
  | target :: rest =>
    match clash? layout earlier target with
    | some e => .error e
    | none => validateFrom layout (earlier ++ [target]) rest

/-- Whether the names, the objects and the generated sources of the targets are exclusive. -/
def validate (config : Config) (layout : Layout) : Except ConfigError Unit :=
  validateFrom layout [] config.targets

/-- The choices of the renderings of this project. -/
def options (config : Config) : HostSource.Options := { typesPath := config.typesPath }

def toJson (config : Config) : Json :=
  .obj [("name", .str config.name), ("description", Json.strOrNull config.description),
    ("config_version", .str config.configVersion), ("db", config.ledger.toJson),
    ("types_path", .str config.typesPath), ("targets", .arr (config.targets.map Target.toJson))]

def fieldNames : List String :=
  ["name", "description", "config_version", "db", "types_path", "targets"]

def ofJson? (value : Json) : Option Config := do
  let fields ← value.record? fieldNames 4
  let name ← Json.required? fields "name" Json.text?
  let description ← Json.optional? fields "description" Json.text?
  let configVersion ← Json.required? fields "config_version" Json.text?
  let ledger ← Json.required? fields "db" LedgerSetting.ofJson?
  let typesPath ← Json.preset? fields "types_path" HostSource.defaultTypesPath Json.text?
  let targets ← Json.preset? fields "targets" [] (Json.list? fun target => Target.ofJson? target 2)
  some ⟨name, description, configVersion, ledger, typesPath, targets⟩

end Config

end KernelCatalog
