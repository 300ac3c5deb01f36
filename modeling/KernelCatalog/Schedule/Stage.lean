import KernelCatalog.Json.Decode
import KernelCatalog.Path

/-!
# Stages

A stage is a unit of work with a name, the names of the stages that must be done before it, and the
paths that it alone writes. It runs on a state, which the stages of one graph share. `Progress` is
what a stage remembers of its last run.
-/

namespace KernelCatalog

/-- How far a stage has come. -/
inductive StageStatus where
  | pending
  | running
  | done
  | failed
  deriving DecidableEq, Repr

namespace StageStatus

/-- All statuses. -/
def all : List StageStatus := [.pending, .running, .done, .failed]

def name : StageStatus → String
  | .pending => "pending"
  | .running => "running"
  | .done => "done"
  | .failed => "failed"

def toJson (status : StageStatus) : Json := .str status.name

def ofJson? (value : Json) : Option StageStatus :=
  value.named? (all.map fun status => (status.name, status))

end StageStatus

/-- How far a stage has come, with what it made or why it failed. -/
inductive Progress (α : Type) where
  | pending
  | running
  | done (result : α)
  | failed (message : String)
  deriving Repr

namespace Progress

variable {α : Type}

/-- The status of a stage. -/
def status : Progress α → StageStatus
  | .pending => .pending
  | .running => .running
  | .done _ => .done
  | .failed _ => .failed

/-- What a stage made, once it is done. -/
def result? : Progress α → Option α
  | .done result => some result
  | _ => none

/-- Why a stage failed. -/
def failure? : Progress α → Option String
  | .failed message => some message
  | _ => none

/-- How far a stage has come when its run ends in the given way. -/
def ofRun {ε : Type} (message : ε → String) : Except ε α → Progress α
  | .ok result => .done result
  | .error e => .failed (message e)

end Progress

/-- How a call of a stage ends. -/
inductive Outcome where
  | done
  | failed (message : String)
  /-- The stage gave up without an error of its own. -/
  | panicked
  deriving DecidableEq, Repr

/-- How a call ends that gives a result or an error. -/
def Outcome.ofRun {α ε : Type} (message : ε → String) : Except ε α → Outcome
  | .ok _ => .done
  | .error e => .failed (message e)

/-- A unit of work on the states `σ`. -/
structure Stage (σ : Type) where
  name : String
  /-- The names of the stages that must be done first. -/
  dependencies : List String
  /-- The paths that this stage alone writes. -/
  outputs : List Path
  run : σ → Outcome × σ

end KernelCatalog
