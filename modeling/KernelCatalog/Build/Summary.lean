import KernelCatalog.Build.Pipeline
import KernelCatalog.Project.Basic

/-!
# Building a project

A build runs the pipelines of the chosen targets in one graph and records the outcome of each target
in the ledger. A target that fails does not stop the others.
-/

namespace KernelCatalog

/-- Why a build gives no summary. -/
inductive BuildError where
  | config (cause : ConfigError)
  | graph (cause : GraphError)
  | ledger (cause : Ledger.StoreError)

namespace BuildError

/-- The failure of a build. -/
def failure : BuildError → Failure
  | .config cause => cause.failure
  | .graph cause => { message := cause.message }
  | .ledger cause => cause.failure.context ("failed to record build run: " ++ cause.message)

def message (e : BuildError) : String := e.failure.message

end BuildError

/-- What became of one target. -/
structure TargetOutcome where
  target : String
  status : RunStatus
  error : Option String
  output : Option Extracted
  /-- The number of the row in the ledger. -/
  runId : Nat
  deriving DecidableEq, Repr

/-- What became of the chosen targets. -/
structure BuildSummary where
  outcomes : List TargetOutcome
  report : Report
  deriving DecidableEq, Repr

def TargetOutcome.toJson (outcome : TargetOutcome) : Json :=
  .obj [("target", .str outcome.target), ("status", outcome.status.toJson),
    ("error", Json.strOrNull outcome.error),
    ("output", match outcome.output with
      | some output => output.toJson
      | none => .null),
    ("run_id", .nat outcome.runId)]

namespace BuildSummary

/-- Whether every target succeeded. -/
def isSuccess (summary : BuildSummary) : Bool :=
  summary.outcomes.all fun outcome => outcome.status == .succeeded

/-- The outcomes of the targets that did not succeed. -/
def failed (summary : BuildSummary) : List TargetOutcome :=
  summary.outcomes.filter fun outcome => outcome.status != .succeeded

def toJson (summary : BuildSummary) : Json :=
  .obj [("outcomes", .arr (summary.outcomes.map TargetOutcome.toJson)),
    ("report", summary.report.toJson)]

end BuildSummary

/-- What a build uses beside the project. -/
structure BuildSetup where
  registry : Registry
  launch : Launcher
  /-- The program that is used for clang. -/
  clang : String
  /-- The times at which the build starts and ends, as they are recorded. -/
  startedAt : String
  finishedAt : String

namespace BuildSetup

/-- The pipeline of a target. -/
def pipeline (setup : BuildSetup) (project : Project) (target : Target) : Pipeline :=
  ⟨target.job project.layout, target.compiler.compiler setup.clang, setup.registry,
    project.config.options⟩

/-- How a target ended, by how far its pipeline has come. -/
def verdict (state : PipelineState) : RunStatus × Option String :=
  match state.extract.result?, state.compile.failure?, state.extract.failure? with
  | some _, _, _ => (.succeeded, none)
  | none, some message, _ => (.failed, some message)
  | none, none, some message => (.failed, some message)
  | none, none, none => (.skipped, none)

/-- The record of a target's build. -/
def record (setup : BuildSetup) (layout : Layout) (target : Target) (state : PipelineState) :
    Run :=
  let output := state.extract.result?
  let (status, error) := verdict state
  { target := target.name
    architecture := target.architecture.name
    processor := (output.bind fun o => o.catalog.processor).or target.processor
    compiler := target.compiler.label
    status := status
    error := error
    binaryPath := state.compile.result?.map layout.relative
    binaryHash := output.map Extracted.binaryHash
    generatedPath := output.map fun o => layout.relative o.generatedPath
    kernelCount := .ofNat ((output.map fun o => o.catalog.size).getD 0)
    overloadCount := .ofNat ((output.map fun o => o.catalog.overloadCount).getD 0)
    generatedChanged := (output.map Extracted.changed).getD false
    startedAt := setup.startedAt
    finishedAt := setup.finishedAt }

/-- Records the targets one after another in the ledger. -/
def recordAll (setup : BuildSetup) (layout : Layout) :
    List (Target × PipelineState) → Ledger.Handle → Files →
      Except Ledger.StoreError (List TargetOutcome) × Ledger.Handle × Files
  | [], ledger, files => (.ok [], ledger, files)
  | (target, state) :: rest, ledger, files =>
    let run := setup.record layout target state
    match ledger.insert files run with
    | .error e => (.error e, ledger, files)
    | .ok (id, ledger, files) =>
      match setup.recordAll layout rest ledger files with
      | (.error e, left) => (.error e, left)
      | (.ok outcomes, left) =>
        (.ok (⟨target.name, run.status, run.error, state.extract.result?, id⟩ :: outcomes), left)

/-- Builds the named targets of a project, or all of them if there are no names. -/
def build (setup : BuildSetup) (project : Project) (names : List String) (files : Files) :
    Except BuildError BuildSummary × Project × Files :=
  match project.config.select names with
  | .error e => (.error (.config e), project, files)
  | .ok targets =>
    match Pipeline.graph setup.launch (targets.map (setup.pipeline project)) with
    | .error e => (.error (.graph e), project, files)
    | .ok graph =>
      match graph.run ⟨files, targets.map fun _ => {}⟩ with
      | (.error e, workspace) => (.error (.graph e), project, workspace.files)
      | (.ok report, workspace) =>
        match setup.recordAll project.layout (targets.zip workspace.states) project.ledger
            workspace.files with
        | (.error e, ledger, files) => (.error (.ledger e), { project with ledger }, files)
        | (.ok outcomes, ledger, files) => (.ok ⟨outcomes, report⟩, { project with ledger }, files)

end BuildSetup

end KernelCatalog
