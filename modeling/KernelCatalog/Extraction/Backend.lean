import KernelCatalog.Kernel.Catalog
import KernelCatalog.Object.Basic

/-!
# Backends

A backend reads the kernel catalog out of the objects of one architecture. A registry holds one
backend for each architecture and hands an object to the backend of its own architecture.
-/

namespace KernelCatalog

/-- Why an object gives no catalog. -/
inductive ExtractError where
  /-- There is no backend for the architecture, only for the listed ones. -/
  | unsupportedPlatform (architecture : Architecture) (supported : List String)
  /-- The metadata of one symbol is malformed. -/
  | malformedMetadata (symbol reason : String)
  deriving DecidableEq, Repr

def ExtractError.message : ExtractError → String
  | .unsupportedPlatform architecture supported =>
    "unsupported platform: no kernel extractor for architecture '" ++ architecture.name
      ++ "' (supported: " ++ Text.join ", " supported ++ ")"
  | .malformedMetadata symbol reason =>
    "malformed kernel metadata in symbol '" ++ symbol ++ "': " ++ reason

/-- A reader of kernel metadata for one architecture. -/
structure Backend where
  architecture : Architecture
  name : String
  /-- The name of the metadata encoding, if it has one. -/
  encoding : Option String
  extract : Object → Except ExtractError Catalog

/-- The backends in use, at most one for each architecture. -/
structure Registry where
  /-- The backends, the latest registration first. -/
  entries : List Backend

namespace Registry

/-- A registry without backends. -/
def empty : Registry := ⟨[]⟩

/-- The registry with a backend, which replaces the one of its architecture. -/
def register (registry : Registry) (backend : Backend) : Registry :=
  ⟨backend :: registry.entries.filter fun b => b.architecture != backend.architecture⟩

/-- The backend of an architecture. -/
def get? (registry : Registry) (architecture : Architecture) : Option Backend :=
  registry.entries.find? fun b => b.architecture == architecture

/-- The names of the supported architectures, in the order of their text. -/
def architectures (registry : Registry) : List String :=
  (registry.entries.map fun b => b.architecture.name).mergeSort

/-- The backends in the order of their architectures. -/
def backends (registry : Registry) : List Backend :=
  registry.entries.mergeSort fun a b => a.architecture.rank ≤ b.architecture.rank

/-- The catalog of an object. -/
def extract (registry : Registry) (object : Object) : Except ExtractError Catalog :=
  match registry.get? object.architecture with
  | some backend => backend.extract object
  | none => .error (.unsupportedPlatform object.architecture registry.architectures)

/-- The name of the encoding that the backend of an architecture reads. -/
def encoding? (registry : Registry) (architecture : Architecture) : Option String :=
  (registry.get? architecture).bind Backend.encoding

end Registry

end KernelCatalog
