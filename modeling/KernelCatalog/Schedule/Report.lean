import KernelCatalog.Schedule.Graph

/-!
# Running a graph

A graph runs in waves. Each wave holds the stages whose dependencies are all done, in the order of
the graph; a stage with a dependency that failed or was skipped is skipped itself. The report lists
what was completed, what failed and what was skipped, in the order in which it happened.
-/

namespace KernelCatalog

/-- A stage that failed and why. -/
structure StageFailure where
  stage : String
  error : String
  deriving DecidableEq, Repr

namespace StageFailure

def toJson (failure : StageFailure) : Json :=
  .obj [("stage", .str failure.stage), ("error", .str failure.error)]

def ofJson? (value : Json) : Option StageFailure := do
  let fields ← value.record? ["stage", "error"] 2
  let stage ← Json.required? fields "stage" Json.text?
  let error ← Json.required? fields "error" Json.text?
  some ⟨stage, error⟩

end StageFailure

/-- What became of the stages of a graph. -/
structure Report where
  completed : List String
  failed : List StageFailure
  skipped : List String
  deriving DecidableEq, Repr

namespace Report

/-- The report before anything has run. -/
def empty : Report := ⟨[], [], []⟩

/-- Whether every stage was completed. -/
def isSuccess (report : Report) : Bool := report.failed.isEmpty && report.skipped.isEmpty

/-- The names of the stages that failed or were skipped. -/
def dead (report : Report) : List String :=
  report.failed.map StageFailure.stage ++ report.skipped

/-- The report with the outcome of one stage. -/
def record (report : Report) (name : String) : Outcome → Report
  | .done => { report with completed := report.completed ++ [name] }
  | .failed message => { report with failed := report.failed ++ [⟨name, message⟩] }
  | .panicked => { report with failed := report.failed ++ [⟨name, "stage panicked"⟩] }

def toJson (report : Report) : Json :=
  .obj [("completed", .arr (report.completed.map .str)),
    ("failed", .arr (report.failed.map StageFailure.toJson)),
    ("skipped", .arr (report.skipped.map .str))]

def ofJson? (value : Json) : Option Report := do
  let fields ← value.record? ["completed", "failed", "skipped"] 3
  let completed ← Json.required? fields "completed" (Json.list? Json.text?)
  let failed ← Json.required? fields "failed" (Json.list? StageFailure.ofJson?)
  let skipped ← Json.required? fields "skipped" (Json.list? Json.text?)
  some ⟨completed, failed, skipped⟩

end Report

namespace Graph

variable {σ : Type}

/-- What one pass over the stages that are left decides. -/
structure Pass (σ : Type) where
  /-- The stages to run now. -/
  wave : List (Stage σ)
  /-- The stages that wait for others. -/
  waiting : List (Stage σ)
  /-- The names of the stages that will never run. -/
  skipped : List String

/-- Sorts the stages that are left; a stage that is skipped takes along those behind it that depend
on it. -/
def pass (done : List String) : List String → List (Stage σ) → Pass σ
  | _, [] => ⟨[], [], []⟩
  | dead, stage :: rest =>
    if stage.dependencies.any dead.contains then
      let sorted := pass done (stage.name :: dead) rest
      { sorted with skipped := stage.name :: sorted.skipped }
    else if isReady done stage then
      let sorted := pass done dead rest
      { sorted with wave := stage :: sorted.wave }
    else
      let sorted := pass done dead rest
      { sorted with waiting := stage :: sorted.waiting }

/-- Runs stages one after another and reports each. -/
def runWave : List (Stage σ) → Report → σ → Report × σ
  | [], report, state => (report, state)
  | stage :: rest, report, state =>
    let (outcome, next) := stage.run state
    runWave rest (report.record stage.name outcome) next

/-- Runs the stages that are left, wave after wave, until a pass decides nothing more. -/
def runStages (stages : List (Stage σ)) (report : Report) (state : σ) : Report × σ :=
  let sorted := pass report.completed report.dead stages
  let (ran, next) := runWave sorted.wave
    { report with skipped := report.skipped ++ sorted.skipped } state
  if sorted.waiting.length < stages.length then runStages sorted.waiting ran next
  else (ran, next)
termination_by stages.length

/-- Runs every stage of a valid graph in the order of the dependencies. -/
def run (graph : Graph σ) (state : σ) : Except GraphError Report × σ :=
  match graph.validate with
  | .error e => (.error e, state)
  | .ok () =>
    let (report, next) := runStages graph.stages .empty state
    (.ok report, next)

end Graph

end KernelCatalog
