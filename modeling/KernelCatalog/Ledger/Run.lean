import KernelCatalog.Json.Decode
import KernelCatalog.Text.Blank

/-!
# Build runs

The record of one build of one target: what was built, how it ended, and what it made.
-/

namespace KernelCatalog

/-- How the build of a target ended. -/
inductive RunStatus where
  | succeeded
  | failed
  /-- The build was never attempted, because something before it failed. -/
  | skipped
  deriving DecidableEq, Repr

namespace RunStatus

/-- All statuses. -/
def all : List RunStatus := [.succeeded, .failed, .skipped]

def name : RunStatus → String
  | .succeeded => "succeeded"
  | .failed => "failed"
  | .skipped => "skipped"

/-- A status by its name, whatever its case. -/
def parse? (text : String) : Option RunStatus :=
  all.find? fun status => status.name == Text.lower text

/-- What is said about a text that names no status. -/
def unknownMessage (text : String) : String := "unknown run status '" ++ Text.lower text ++ "'"

theorem parse?_name (status : RunStatus) : parse? status.name = some status := by
  cases status <;> decide +kernel

def toJson (status : RunStatus) : Json := .str status.name

def ofJson? (value : Json) : Option RunStatus :=
  value.named? (all.map fun status => (status.name, status))

end RunStatus

/-- The record of the build of one target. -/
structure Run where
  target : String
  architecture : String
  processor : Option String
  compiler : String
  status : RunStatus
  error : Option String
  binaryPath : Option String
  binaryHash : Option String
  generatedPath : Option String
  kernelCount : UInt64
  overloadCount : UInt64
  /-- Whether the generated source was written anew. -/
  generatedChanged : Bool
  startedAt : String
  finishedAt : String
  deriving DecidableEq, Repr

namespace Run

def toJson (run : Run) : Json :=
  .obj [("target", .str run.target), ("architecture", .str run.architecture),
    ("processor", Json.strOrNull run.processor), ("compiler", .str run.compiler),
    ("status", run.status.toJson), ("error", Json.strOrNull run.error),
    ("binary_path", Json.strOrNull run.binaryPath), ("binary_hash", Json.strOrNull run.binaryHash),
    ("generated_path", Json.strOrNull run.generatedPath),
    ("kernel_count", .nat run.kernelCount.toNat),
    ("overload_count", .nat run.overloadCount.toNat),
    ("generated_changed", .bool run.generatedChanged),
    ("started_at", .str run.startedAt), ("finished_at", .str run.finishedAt)]

def fieldNames : List String :=
  ["target", "architecture", "processor", "compiler", "status", "error", "binary_path",
    "binary_hash", "generated_path", "kernel_count", "overload_count", "generated_changed",
    "started_at", "finished_at"]

def ofJson? (value : Json) : Option Run := do
  let fields ← value.record? fieldNames fieldNames.length
  let target ← Json.required? fields "target" Json.text?
  let architecture ← Json.required? fields "architecture" Json.text?
  let processor ← Json.optional? fields "processor" Json.text?
  let compiler ← Json.required? fields "compiler" Json.text?
  let status ← Json.required? fields "status" RunStatus.ofJson?
  let error ← Json.optional? fields "error" Json.text?
  let binaryPath ← Json.optional? fields "binary_path" Json.text?
  let binaryHash ← Json.optional? fields "binary_hash" Json.text?
  let generatedPath ← Json.optional? fields "generated_path" Json.text?
  let kernelCount ← Json.required? fields "kernel_count" Json.uint64?
  let overloadCount ← Json.required? fields "overload_count" Json.uint64?
  let generatedChanged ← Json.required? fields "generated_changed" Json.bool?
  let startedAt ← Json.required? fields "started_at" Json.text?
  let finishedAt ← Json.required? fields "finished_at" Json.text?
  some ⟨target, architecture, processor, compiler, status, error, binaryPath, binaryHash,
    generatedPath, kernelCount, overloadCount, generatedChanged, startedAt, finishedAt⟩

end Run

end KernelCatalog
