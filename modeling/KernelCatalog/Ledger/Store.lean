import KernelCatalog.Ledger.Run

/-!
# The ledger

A ledger is a store with a schema version and a table of build runs. A new ledger has version 0 and
no table; opening it makes the table and sets version 1. Row numbers count up and are never given
out twice. A row keeps the status of its run as text and its counts as signed numbers of sixty-four
bits; a listing fails at a row whose status is no status.

What a database would resolve is resolved here by hand. The columns of a row are named fields, so
that no statement reads them by position; the rows stand newest first, which is the order of a
listing by falling numbers; and row numbers have no limit, where a database refuses a row once the
number before it is the greatest of sixty-four bits.
-/

namespace KernelCatalog.Ledger

/-- Why a ledger gives no answer. -/
inductive StoreError where
  /-- The file cannot be opened. -/
  | cannotOpen
  /-- The file is no ledger. -/
  | notALedger
  /-- There is no table of runs. -/
  | noTable
  /-- The address of the ledger is wrong. -/
  | badAddress
  /-- The address asks for more than it grants. -/
  | notAllowed
  /-- The ledger may only be read. -/
  | readOnly
  /-- The ledger may only be read, but a journal beside it has to be dealt with. -/
  | journalLeft
  /-- The journal beside the file cannot be read. -/
  | journalUnreadable
  /-- The file is no longer at its place, so it cannot be written. -/
  | moved
  /-- The file is no longer at its place, but there is a journal. -/
  | noStatus
  /-- A row has a status that is none. -/
  | badStatus (text : String)
  /-- The schema is newer than this program. -/
  | unsupportedVersion (found : Int)
  deriving DecidableEq, Repr

def oldestVersion : Int := 0

/-- The version of the tables described here. -/
def currentVersion : Int := 1

/-- One row of the table. -/
structure Row where
  id : Nat
  target : String
  architecture : String
  processor : Option String
  compiler : String
  status : String
  error : Option String
  binaryPath : Option String
  binaryHash : Option String
  generatedPath : Option String
  kernelCount : Int64
  overloadCount : Int64
  generatedChanged : Bool
  startedAt : String
  finishedAt : String
  deriving DecidableEq, Repr

namespace Row

/-- The row that keeps a run. -/
def ofRun (id : Nat) (run : Run) : Row where
  id := id
  target := run.target
  architecture := run.architecture
  processor := run.processor
  compiler := run.compiler
  status := run.status.name
  error := run.error
  binaryPath := run.binaryPath
  binaryHash := run.binaryHash
  generatedPath := run.generatedPath
  kernelCount := run.kernelCount.toInt64
  overloadCount := run.overloadCount.toInt64
  generatedChanged := run.generatedChanged
  startedAt := run.startedAt
  finishedAt := run.finishedAt

/-- The run that a row keeps. -/
def run (row : Row) : Except StoreError Run :=
  match RunStatus.parse? row.status with
  | none => .error (.badStatus row.status)
  | some status => .ok {
      target := row.target
      architecture := row.architecture
      processor := row.processor
      compiler := row.compiler
      status := status
      error := row.error
      binaryPath := row.binaryPath
      binaryHash := row.binaryHash
      generatedPath := row.generatedPath
      kernelCount := row.kernelCount.toUInt64
      overloadCount := row.overloadCount.toUInt64
      generatedChanged := row.generatedChanged
      startedAt := row.startedAt
      finishedAt := row.finishedAt }

/-- A row keeps its run unchanged, counts above the signed range included. -/
theorem run_ofRun (id : Nat) (r : Run) : (ofRun id r).run = .ok r := by
  simp only [run, ofRun, RunStatus.parse?_name]
  rfl

end Row

/-- The table of runs. -/
structure Table where
  /-- The rows, the newest first. -/
  rows : List Row
  /-- The number of the latest row ever made. -/
  lastId : Nat
  deriving DecidableEq, Repr

/-- What a ledger file holds. -/
structure Store where
  version : Int
  table : Option Table
  deriving DecidableEq, Repr

namespace Store

/-- What an empty file holds. -/
def empty : Store := ⟨0, none⟩

/-- The store with the table and the version that this program needs, unless its version is newer.
Any other version than 0 is left alone. -/
def migrate (store : Store) : Except StoreError Store :=
  if currentVersion < store.version then .error (.unsupportedVersion store.version)
  else if store.version = 0 then .ok ⟨currentVersion, some (store.table.getD ⟨[], 0⟩)⟩
  else .ok store

/-- The store with one more run, and the number of its row. -/
def insert (store : Store) (run : Run) : Except StoreError (Nat × Store) :=
  match store.table with
  | none => .error .noTable
  | some table =>
    let id := table.lastId + 1
    .ok (id, { store with table := some ⟨Row.ofRun id run :: table.rows, id⟩ })

/-- The rows of a target, or all rows, the newest first. -/
def rows (store : Store) (target : Option String) : Except StoreError (List Row) :=
  match store.table, target with
  | none, _ => .error .noTable
  | some table, none => .ok table.rows
  | some table, some name => .ok (table.rows.filter fun row => row.target == name)

/-- The runs of a target, or all runs, the newest first. -/
def runs (store : Store) (target : Option String) : Except StoreError (List Run) := do
  (← store.rows target).mapM Row.run

/-- The newest run of a target. -/
def latest (store : Store) (target : String) : Except StoreError (Option Run) := do
  match ← store.rows (some target) with
  | [] => .ok none
  | row :: _ => some <$> row.run

/-- The store with another version. One that does not fit in thirty-two bits counts as 0. -/
def setVersion (store : Store) (version : Int) : Store :=
  { store with version := if version.bmod 0x100000000 = version then version else 0 }

/-- The store with another status in the rows of a target, and how many rows these are. -/
def setStatus (store : Store) (target status : String) : Except StoreError (Nat × Store) :=
  match store.table with
  | none => .error .noTable
  | some table =>
    let hits row := Row.target row == target
    .ok ((table.rows.filter hits).length, { store with table := some { table with
      rows := table.rows.map fun row => if hits row then { row with status } else row } })

/-- The store without the rows of a target, and how many rows these were. -/
def delete (store : Store) (target : String) : Except StoreError (Nat × Store) :=
  match store.table with
  | none => .error .noTable
  | some table =>
    let hits row := Row.target row == target
    .ok ((table.rows.filter hits).length, { store with table := some { table with
      rows := table.rows.filter fun row => !hits row } })

/-- The store without its table. -/
def drop (store : Store) : Store := { store with table := none }

end Store

end KernelCatalog.Ledger
