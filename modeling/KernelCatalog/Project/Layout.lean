import KernelCatalog.HostSource.Identifier
import KernelCatalog.Path

/-!
# Where a project keeps its files

Everything lies below the root of the project: the configuration and the ledger in the metadata
directory, the device object of each target in a directory of its own, and the generated sources in
one directory. A target has one directory name, made of its name; the paths of a configuration are
relative to the root unless they are absolute.
-/

namespace KernelCatalog

/-- The places of a project, by its root. -/
structure Layout where
  root : Path
  deriving DecidableEq, Repr

namespace Layout

/-- The directory of the project's own data. -/
def metaDir (layout : Layout) : Path := layout.root.join ".kbridge"

def configPath (layout : Layout) : Path := layout.metaDir.join "project.json"

/-- The ledger of build runs, where the configuration names no other. -/
def ledgerPath (layout : Layout) : Path := layout.metaDir.join "builds.db"

/-- The directory of the device objects. -/
def buildDir (layout : Layout) : Path := layout.metaDir.join "build"

/-- The directory of the generated sources. -/
def generatedDir (layout : Layout) : Path := layout.root.join "generated"

/-- A path relative to the root if it lies below it, and otherwise as it is. -/
def relative (layout : Layout) (path : Path) : String :=
  match path.relativeTo? layout.root with
  | some rest => rest.text
  | none => path.text

/-- The path that a text of the configuration stands for. -/
def resolve (layout : Layout) (path : String) : Path := layout.root.join path

/-- The characters without the underscores at their end. -/
def trimUnderscores (cs : List Char) : List Char := (cs.reverse.dropWhile (· = '_')).reverse

/-- The name that the files of a target have in common. -/
def directoryName (target : String) : String :=
  Text.lower (String.ofList (trimUnderscores (Identifier.sanitize target).toList))

/-- The device object of a target. -/
def objectPath (layout : Layout) (target : String) : Path :=
  (layout.buildDir.join (directoryName target)).join "device.o"

/-- The generated source of a target that chooses no other. -/
def generatedPath (layout : Layout) (target : String) : Path :=
  layout.generatedDir.join (directoryName target ++ "_kernels.rs")

end Layout

end KernelCatalog
