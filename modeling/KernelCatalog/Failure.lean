import KernelCatalog.Text.Decimal
import KernelCatalog.Text.Split

/-!
# Failures

A failure is what a command reports: a message, and the causes behind it from the nearest to the
root.
-/

namespace KernelCatalog

/-- A message and the causes behind it. -/
structure Failure where
  message : String
  causes : List String := []
  deriving DecidableEq, Repr

namespace Failure

/-- A failure as the cause of another message. -/
def context (failure : Failure) (message : String) : Failure :=
  ⟨message, failure.message :: failure.causes⟩

/-- The message and its causes, the outermost first. -/
def chain (failure : Failure) : List String := failure.message :: failure.causes

/-- A cause behind its margin, with its further lines below its first. -/
def indented (margin cause : String) : String :=
  let below := "\n" ++ String.ofList (List.replicate margin.length ' ')
  margin ++ Text.replace cause "\n" below

/-- The causes with their numbers, from the given one on. -/
def numbered : Nat → List String → List String
  | _, [] => []
  | n, cause :: rest =>
    indented (Text.padLeft ' ' 5 (toString n) ++ ": ") cause :: numbered (n + 1) rest

/-- The lines that list the causes; a single cause has no number. -/
def causeLines : List String → List String
  | [] => []
  | [cause] => ["", "Caused by:", indented "    " cause]
  | causes => "" :: "Caused by:" :: numbered 0 causes

/-- The report of a failed command. -/
def report (failure : Failure) : String :=
  String.join ((("Error: " ++ failure.message) :: causeLines failure.causes).map (· ++ "\n"))

end Failure

/-- A result whose failure gets a message around it. -/
def withContext {α : Type} (message : String) : Except Failure α → Except Failure α
  | .ok a => .ok a
  | .error failure => .error (failure.context message)

end KernelCatalog
