import KernelCatalog.Build.Extraction
import KernelCatalog.Schedule.Report

/-!
# The pipeline of a target

Each target has two stages: its device object is compiled, and then its host source is extracted
from that object. The stages of one build share a workspace, which holds the files and how far each
pipeline has come.
-/

namespace KernelCatalog

/-- How far the two stages of a target have come. -/
structure PipelineState where
  compile : Progress Path := .pending
  extract : Progress Extracted := .pending

/-- The files, and how far each pipeline of a build has come. -/
structure Workspace where
  files : Files
  states : List PipelineState

namespace Workspace

/-- How far a pipeline has come. -/
def state (workspace : Workspace) (index : Nat) : PipelineState := workspace.states.getD index {}

/-- The workspace with a pipeline come further. -/
def setState (workspace : Workspace) (index : Nat) (state : PipelineState) (files : Files) :
    Workspace :=
  ⟨files, workspace.states.set index state⟩

end Workspace

/-- The two stages of a target. -/
structure Pipeline where
  job : Job
  compiler : Compiler
  registry : Registry
  options : HostSource.Options

namespace Pipeline

def compileName (pipeline : Pipeline) : String := "device-compile:" ++ pipeline.job.name

def extractName (pipeline : Pipeline) : String := Extraction.stageName pipeline.job.name

/-- What the compiler is asked for. -/
def request (pipeline : Pipeline) : CompileRequest where
  source := pipeline.job.source
  architecture := pipeline.job.architecture
  processor := pipeline.job.processor
  output := pipeline.job.object
  side := .device

/-- What the extraction is set to do. -/
def extraction (pipeline : Pipeline) : Extraction :=
  ⟨pipeline.registry, pipeline.job.generated, pipeline.options⟩

/-- What the extraction knows of the compilation. -/
def objectSource (pipeline : Pipeline) (state : PipelineState) : ObjectSource where
  stage := pipeline.compileName
  target := pipeline.job.name
  side := .device
  status := state.compile.status
  binary := state.compile.result?

/-- Compiles the device object. -/
def compile (launch : Launcher) (pipeline : Pipeline) (files : Files) :
    Except StageError Path × Files :=
  match pipeline.compiler.compile launch pipeline.request files with
  | (.ok (), files) => (.ok pipeline.job.object, files)
  | (.error e, files) => (.error (.compile pipeline.job.name e), files)

def runCompile (launch : Launcher) (pipeline : Pipeline) (state : PipelineState) (files : Files) :
    Except StageError Path × PipelineState × Files :=
  let (result, files) := pipeline.compile launch files
  (result, { state with compile := .ofRun StageError.message result }, files)

def runExtract (pipeline : Pipeline) (state : PipelineState) (files : Files) :
    Except StageError Extracted × PipelineState × Files :=
  let (result, files) := pipeline.extraction.run (pipeline.objectSource state) files
  (result, { state with extract := .ofRun StageError.message result }, files)

/-- The stage that compiles, for the pipeline at a place of the workspace. -/
def compileStage (launch : Launcher) (pipeline : Pipeline) (index : Nat) : Stage Workspace where
  name := pipeline.compileName
  dependencies := []
  outputs := [pipeline.job.object]
  run workspace :=
    let (result, state, files) := pipeline.runCompile launch (workspace.state index) workspace.files
    (.ofRun StageError.message result, workspace.setState index state files)

/-- The stage that extracts, for the pipeline at a place of the workspace. -/
def extractStage (pipeline : Pipeline) (index : Nat) : Stage Workspace where
  name := pipeline.extractName
  dependencies := [pipeline.compileName]
  outputs := [pipeline.job.generated]
  run workspace :=
    let (result, state, files) := pipeline.runExtract (workspace.state index) workspace.files
    (.ofRun StageError.message result, workspace.setState index state files)

/-- The graph with the two stages of a pipeline, and why it took less than both. The stage that
compiles stays in the graph when the one that extracts is refused. -/
def addTo (launch : Launcher) (pipeline : Pipeline) (index : Nat) (graph : Graph Workspace) :
    Except GraphError Unit × Graph Workspace :=
  match graph.add (pipeline.compileStage launch index) with
  | .error e => (.error e, graph)
  | .ok graph =>
    match graph.add (pipeline.extractStage index) with
    | .error e => (.error e, graph)
    | .ok graph => (.ok (), graph)

/-- The graph with the stages of pipelines, the first of which is at the given place. -/
def addAll (launch : Launcher) : (index : Nat) → List Pipeline → Graph Workspace →
    Except GraphError (Graph Workspace)
  | _, [], graph => .ok graph
  | index, pipeline :: rest, graph =>
    match pipeline.addTo launch index graph with
    | (.error e, _) => .error e
    | (.ok (), graph) => addAll launch (index + 1) rest graph

/-- The graph of pipelines. -/
def graph (launch : Launcher) (pipelines : List Pipeline) : Except GraphError (Graph Workspace) :=
  addAll launch 0 pipelines .empty

end Pipeline

end KernelCatalog
