import KernelCatalog.Architecture
import KernelCatalog.Project.Layout

/-!
# Targets

A target is a device source that is built for one architecture. It says how its object is made, and
may choose the path of its generated source. `Target.job` gives all its paths within a project.
-/

namespace KernelCatalog

/-- How the device object of a target is made. -/
inductive CompilerChoice where
  /-- By clang, for code objects of AMD processors. -/
  | clang
  /-- By any program, whose arguments may hold placeholders. -/
  | command (program : String) (args : List String)
  /-- The source is a device object already. -/
  | prebuilt
  deriving DecidableEq, Repr

namespace CompilerChoice

/-- The name of a choice in listings and in the ledger. -/
def label : CompilerChoice → String
  | .clang => "clang"
  | .command program _ => program
  | .prebuilt => "prebuilt"

def toJson : CompilerChoice → Json
  | .clang => .obj [("kind", .str "clang")]
  | .command program args =>
    .obj [("kind", .str "command"), ("program", .str program), ("args", .arr (args.map .str))]
  | .prebuilt => .obj [("kind", .str "prebuilt")]

/-- The kinds of choices, in order. -/
def kinds : List String := ["clang", "command", "prebuilt"]

/-- The choice of a given kind, whose further fields are the given value. -/
def ofKind? (kind : String) (rest : Datum) : Option CompilerChoice :=
  match kind, rest with
  | "clang", .table _ | "clang", .list [] => some .clang
  | "prebuilt", .table _ | "prebuilt", .list [] => some .prebuilt
  | "command", rest => do
    let fields ← rest.record? ["program", "args"] 1
    let program ← Datum.required? fields "program" Datum.text?
    let args ← Datum.preset? fields "args" [] (Datum.list? Datum.text?)
    some (.command program args)
  | _, _ => none

/-- The choice of a kept value, a table with one member `kind` or a list that starts with the kind;
`kind?` reads the kind. -/
def ofDatum? (kind? : Datum → Option String) : Datum → Option CompilerChoice
  | .table members =>
    match members.filter fun member => member.1.isText "kind" with
    | [(_, kind)] => do
      ofKind? (← kind? kind) (.table (members.filter fun member => !member.1.isText "kind"))
    | _ => none
  | .list (kind :: rest) => do ofKind? (← kind? kind) (.list rest)
  | _ => none

/-- The choice of a JSON value that has `around` arrays and objects around it. All of it is kept
before it is read, so its numbers must fit and its depth is limited, although none of that is used
but its fields. -/
def ofJson? (value : Json) (around : Nat := 0) : Option CompilerChoice :=
  (Datum.ofJson? (Json.depthLimit - around) value).bind (ofDatum? Datum.text?)

end CompilerChoice

/-- A target as it is configured. -/
structure Target where
  name : String
  /-- The device source, relative to the root of the project. -/
  source : String
  architecture : Architecture
  processor : Option String := none
  compiler : CompilerChoice := .clang
  /-- The path of the generated source, if it is not the usual one. -/
  generated : Option String := none
  deriving DecidableEq, Repr

/-- A target with all its paths. -/
structure Job where
  name : String
  source : Path
  architecture : Architecture
  processor : Option String
  object : Path
  generated : Path
  deriving DecidableEq, Repr

namespace Target

/-- The target with its paths in a project. -/
def job (target : Target) (layout : Layout) : Job where
  name := target.name
  source := layout.resolve target.source
  architecture := target.architecture
  processor := target.processor
  object := layout.objectPath target.name
  generated :=
    match target.generated with
    | some path => layout.resolve path
    | none => layout.generatedPath target.name

/-- The member of a text that may be absent. -/
def optionalMember (name : String) : Option String → List (String × Json)
  | some text => [(name, .str text)]
  | none => []

def toJson (target : Target) : Json :=
  .obj ([("name", .str target.name), ("source", .str target.source),
      ("architecture", target.architecture.toJson)]
    ++ optionalMember "processor" target.processor ++ [("compiler", target.compiler.toJson)]
    ++ optionalMember "generated" target.generated)

def fieldNames : List String :=
  ["name", "source", "architecture", "processor", "compiler", "generated"]

/-- The target of a JSON value that has `around` arrays and objects around it. -/
def ofJson? (value : Json) (around : Nat := 0) : Option Target := do
  let fields ← value.record? fieldNames 3
  let name ← Json.required? fields "name" Json.text?
  let source ← Json.required? fields "source" Json.text?
  let architecture ← Json.required? fields "architecture" Architecture.ofJson?
  let processor ← Json.optional? fields "processor" Json.text?
  let compiler ←
    Json.preset? fields "compiler" .clang fun choice => CompilerChoice.ofJson? choice (around + 1)
  let generated ← Json.optional? fields "generated" Json.text?
  some { name, source, architecture, processor, compiler, generated }

def ofDatum? (value : Datum) : Option Target := do
  let fields ← value.record? fieldNames 3
  let name ← Datum.required? fields "name" Datum.text?
  let source ← Datum.required? fields "source" Datum.text?
  let architecture ← Datum.required? fields "architecture" Architecture.ofDatum?
  let processor ← Datum.optional? fields "processor" Datum.text?
  let compiler ← Datum.preset? fields "compiler" .clang
    (CompilerChoice.ofDatum? (Datum.nameAmong? CompilerChoice.kinds))
  let generated ← Datum.optional? fields "generated" Datum.text?
  some { name, source, architecture, processor, compiler, generated }

/-- The targets of a list file: a list of targets, or a table with such a list as its member
`targets`. -/
def listOfDatum? : Datum → Option (List Target)
  | .table members => do
    let fields ← (Datum.table members).record? ["targets"] 1
    Datum.required? fields "targets" (Datum.list? ofDatum?)
  | value => value.list? ofDatum?

/-- The targets of a list file that is written in JSON. -/
def listOfJson? (value : Json) : Option (List Target) :=
  (Datum.ofJson? Json.depthLimit value).bind listOfDatum?

end Target

end KernelCatalog
