import KernelCatalog.Architecture
import KernelCatalog.Kernel.Overload

/-!
# The catalog of a device binary

A catalog lists the kernels of a binary in the order in which they were first met, each with its
overloads in the order in which they were added.
-/

namespace KernelCatalog

/-- A kernel and its overloads. -/
structure Kernel where
  name : String
  overloads : List Overload
  deriving DecidableEq, Repr

namespace Kernel

def toJson (kernel : Kernel) : Json :=
  .obj [("name", .str kernel.name), ("overloads", .arr (kernel.overloads.map Overload.toJson))]

def ofJson? (value : Json) : Option Kernel := do
  let fields ← value.record? ["name", "overloads"] 2
  let name ← Json.required? fields "name" Json.text?
  let overloads ← Json.required? fields "overloads" (Json.list? Overload.ofJson?)
  some ⟨name, overloads⟩

end Kernel

/-- The kernels of a device binary. -/
structure Catalog where
  architecture : Architecture
  /-- The processor that the binary is built for, such as `gfx90a`, if it is known. -/
  processor : Option String
  kernels : List Kernel
  deriving DecidableEq, Repr

namespace Catalog

/-- A catalog without kernels. -/
def empty (architecture : Architecture) (processor : Option String) : Catalog :=
  ⟨architecture, processor, []⟩

/-- The kernels with an overload added behind those of the kernel of the given name, which is put
at the end if it is new. -/
def insertInto (name : String) (overload : Overload) : List Kernel → List Kernel
  | [] => [⟨name, [overload]⟩]
  | kernel :: rest =>
    if kernel.name = name then { kernel with overloads := kernel.overloads ++ [overload] } :: rest
    else kernel :: insertInto name overload rest

/-- The catalog with an overload added to the kernel of the given name. -/
def insert (catalog : Catalog) (name : String) (overload : Overload) : Catalog :=
  { catalog with kernels := insertInto name overload catalog.kernels }

/-- The overloads of a kernel. -/
def get? (catalog : Catalog) (name : String) : Option (List Overload) :=
  (catalog.kernels.find? fun kernel => kernel.name == name).map Kernel.overloads

/-- The names of the kernels, in order. -/
def names (catalog : Catalog) : List String := catalog.kernels.map Kernel.name

/-- How many kernels there are. -/
def size (catalog : Catalog) : Nat := catalog.kernels.length

/-- How many overloads there are. -/
def overloadCount (catalog : Catalog) : Nat :=
  (catalog.kernels.flatMap Kernel.overloads).length

/-- One line for each overload, such as `add(i32, i32)`. -/
def diagnostics (catalog : Catalog) : List String :=
  catalog.kernels.flatMap fun kernel =>
    kernel.overloads.map fun overload => kernel.name ++ "(" ++ overload.description ++ ")"

def toJson (catalog : Catalog) : Json :=
  .obj [("architecture", catalog.architecture.toJson),
    ("processor", Json.strOrNull catalog.processor),
    ("kernels", .arr (catalog.kernels.map Kernel.toJson))]

def ofJson? (value : Json) : Option Catalog := do
  let fields ← value.record? ["architecture", "processor", "kernels"] 3
  let architecture ← Json.required? fields "architecture" Architecture.ofJson?
  let processor ← Json.optional? fields "processor" Json.text?
  let kernels ← Json.required? fields "kernels" (Json.list? Kernel.ofJson?)
  some ⟨architecture, processor, kernels⟩

end Catalog

end KernelCatalog
