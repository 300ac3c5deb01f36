import KernelCatalog.Build.Compiler
import KernelCatalog.Extraction.Backend
import KernelCatalog.Object.File

/-!
# Why a stage of a build fails
-/

namespace KernelCatalog

/-- Why a stage of a build fails. -/
inductive StageError where
  | binary (cause : BinaryError)
  | extract (cause : ExtractError)
  | compile (target : String) (cause : CompileError)
  /-- The stage before it has not made its binary. -/
  | notReady (stage awaited : String)
  /-- The stage before it belongs to the other side. -/
  | sideMismatch (stage : String) (cause : SideMismatch)
  /-- The generated source cannot be written. -/
  | write (path : Path) (cause : FileError)

def StageError.message : StageError → String
  | .binary cause => cause.message
  | .extract cause => cause.message
  | .compile target cause =>
    "device compile for target '" ++ target ++ "' failed: " ++ cause.message
  | .notReady stage awaited =>
    "stage '" ++ stage ++ "' cannot run: upstream '" ++ awaited ++ "' has not completed"
  | .sideMismatch stage cause =>
    "stage '" ++ stage ++ "' is wired to the wrong side: " ++ cause.message
  | .write path cause => "failed to write " ++ path.text ++ ": " ++ cause.message

end KernelCatalog
