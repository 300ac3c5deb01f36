import KernelCatalog.Schedule.Stage
import KernelCatalog.Text.Split

/-!
# Stage graphs

A graph holds stages in the order in which they were added. No two of them have a name in common,
and no path is an output of two of them. A graph is valid when every dependency is a stage of the
graph and the dependencies have no cycle.
-/

namespace KernelCatalog

/-- Why a stage or a graph is refused. -/
inductive GraphError where
  | duplicateStage (name : String)
  | outputConflict (path : Path) (first second : String)
  | unknownDependency (stage dependency : String)
  | dependencyCycle (names : List String)
  deriving DecidableEq, Repr

def GraphError.message : GraphError → String
  | .duplicateStage name => "duplicate stage name '" ++ name ++ "'"
  | .outputConflict path first second =>
    "stages '" ++ first ++ "' and '" ++ second ++ "' both write " ++ path.text
  | .unknownDependency stage dependency =>
    "stage '" ++ stage ++ "' depends on unknown stage '" ++ dependency ++ "'"
  | .dependencyCycle names => "dependency cycle between stages: " ++ Text.join ", " names

/-- The stages of a build, in the order in which they were added. -/
structure Graph (σ : Type) where
  stages : List (Stage σ)

namespace Graph

variable {σ : Type}

/-- A graph without stages. -/
def empty : Graph σ := ⟨[]⟩

/-- The names of the stages, in order. -/
def names (graph : Graph σ) : List String := graph.stages.map Stage.name

/-- The earliest stage that has a path among its outputs. -/
def owner? (graph : Graph σ) (path : Path) : Option (Stage σ) :=
  graph.stages.find? fun stage => stage.outputs.any path.same

/-- The first of the paths that is an output already, with its owner. -/
def conflict? (graph : Graph σ) (paths : List Path) : Option (Path × Stage σ) :=
  paths.findSome? fun path => (graph.owner? path).map fun owner => (path, owner)

/-- The graph with one more stage. -/
def add (graph : Graph σ) (stage : Stage σ) : Except GraphError (Graph σ) :=
  if graph.names.contains stage.name then .error (.duplicateStage stage.name)
  else
    match graph.conflict? stage.outputs with
    | some (path, owner) => .error (.outputConflict path owner.name stage.name)
    | none => .ok ⟨graph.stages ++ [stage]⟩

/-- The first dependency that is no stage of the graph, with the stage that has it. -/
def unknownDependency? (graph : Graph σ) : Option (String × String) :=
  graph.stages.findSome? fun stage =>
    (stage.dependencies.find? fun name => !graph.names.contains name).map fun name =>
      (stage.name, name)

/-- Whether everything that a stage depends on is settled. -/
def isReady (settled : List String) (stage : Stage σ) : Bool :=
  stage.dependencies.all settled.contains

/-- The stages whose dependencies are settled. -/
def ready (settled : List String) (stages : List (Stage σ)) : List (Stage σ) :=
  stages.filter (isReady settled)

/-- The stages with a dependency that is not settled. -/
def blocked (settled : List String) (stages : List (Stage σ)) : List (Stage σ) :=
  stages.filter fun stage => !isReady settled stage

theorem length_blocked_lt {settled : List String} {stages : List (Stage σ)}
    (h : (ready settled stages).isEmpty = false) :
    (blocked settled stages).length < stages.length := by
  obtain ⟨stage, hmem, hready⟩ : ∃ stage ∈ stages, isReady settled stage = true := by
    simpa [ready] using h
  exact List.length_filter_lt_length_iff_exists.2 ⟨stage, hmem, by simp [hready]⟩

/-- The stages that stay when those whose dependencies are settled are settled too, again and again
until nothing changes. -/
def unsettled (settled : List String) (stages : List (Stage σ)) : List (Stage σ) :=
  if (ready settled stages).isEmpty then stages
  else unsettled (settled ++ (ready settled stages).map Stage.name) (blocked settled stages)
termination_by stages.length
decreasing_by
  rename_i h
  exact length_blocked_lt (Bool.eq_false_iff.2 h)

/-- Whether every dependency is a stage of the graph and there are no cycles. -/
def validate (graph : Graph σ) : Except GraphError Unit :=
  match graph.unknownDependency? with
  | some (stage, dependency) => .error (.unknownDependency stage dependency)
  | none =>
    match unsettled [] graph.stages with
    | [] => .ok ()
    | rest => .error (.dependencyCycle (rest.map Stage.name).mergeSort)

end Graph

end KernelCatalog
