import KernelCatalog.HostSource.Identifier
import KernelCatalog.Kernel.Catalog

/-!
# The generated host source

A catalog is rendered as source that host code includes: a header comment, the imports of the
descriptor types, one constant of descriptors for each kernel, and a table of all kernels by name.
-/

namespace KernelCatalog.HostSource

/-- The module path of the descriptor types, where none is chosen. -/
def defaultTypesPath : String := "bridge_core"

/-- The choices of a rendering. -/
structure Options where
  /-- The module path of the descriptor types. -/
  typesPath : String := defaultTypesPath
  /-- The metadata encoding that the header names. -/
  encoding : Option String := none
  deriving DecidableEq, Repr

/-- Characters, given in reverse, without the double colons they start with. -/
def dropColons : List Char → List Char
  | ':' :: ':' :: rest => dropColons rest
  | cs => cs

/-- A module path without the double colons at its end. -/
def trimColons (path : String) : String :=
  String.ofList (dropColons path.toList.reverse).reverse

/-- The lines of a comment that says what the source was made from. -/
def header (catalog : Catalog) (options : Options) : List String :=
  ["// @generated by kernel-bridge. Do not edit.",
    "// architecture: " ++ catalog.architecture.name ++ ", processor: "
      ++ catalog.processor.getD "unknown"]
    ++ (match options.encoding with
      | some encoding => ["// encoding: " ++ encoding]
      | none => [])
    ++ ["// kernels: " ++ toString catalog.size ++ ", overloads: "
      ++ toString catalog.overloadCount]

/-- The lines that import the descriptor types. -/
def imports (options : Options) : List String :=
  let types := trimColons options.typesPath
  ["#[allow(unused_imports)]",
    "use " ++ types
      ++ "::model::\x7bAddressSpace, LaunchAttributes, OverloadDescriptor, ParamType, "
      ++ "ScalarType\x7d;",
    "use " ++ types ++ "::side::CompilationSide;"]

/-- The lines of the constant of one kernel, with a blank line in front. -/
def kernelLines (kernel : Kernel) (ident : String) : List String :=
  ["", "/// Overloads of kernel " ++ Text.quote kernel.name ++ ".",
    "#[allow(non_upper_case_globals)]",
    "pub const " ++ ident ++ ": &[OverloadDescriptor] = &["]
    ++ (kernel.overloads.map fun overload => "    " ++ overload.initializer ++ ",")
    ++ ["];"]

/-- The lines of the table of all kernels, with a blank line in front. -/
def tableLines (entries : List (Kernel × String)) : List String :=
  ["", "pub const " ++ Identifier.tableConstant ++ ": &[(&str, &[OverloadDescriptor])] = &["]
    ++ (entries.map fun (kernel, ident) =>
      "    (" ++ Text.quote kernel.name ++ ", " ++ ident ++ "),")
    ++ ["];"]

/-- The lines of the source. -/
def sourceLines (catalog : Catalog) (options : Options) : List String :=
  let entries := catalog.kernels.zip (Identifier.assign catalog.names)
  header catalog options ++ [""] ++ imports options
    ++ ["", "pub const " ++ Identifier.sideConstant
      ++ ": CompilationSide = CompilationSide::Host;"]
    ++ entries.flatMap (fun (kernel, ident) => kernelLines kernel ident) ++ tableLines entries

/-- The source, each line with its line break. -/
def render (catalog : Catalog) (options : Options) : String :=
  String.join ((sourceLines catalog options).map fun line => line ++ "\n")

end KernelCatalog.HostSource
