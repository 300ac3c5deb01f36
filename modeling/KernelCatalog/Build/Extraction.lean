import KernelCatalog.Build.StageError
import KernelCatalog.Bytes.Digest
import KernelCatalog.HostSource.Render
import KernelCatalog.Schedule.Stage

/-!
# Extraction of host sources

An extraction takes the binary that the stage before it has made, reads the catalog of its kernels,
and writes the generated source, unless the file holds that very text already.
-/

namespace KernelCatalog

/-- What an extraction knows of the stage before it. -/
structure ObjectSource where
  stage : String
  target : String
  side : Side
  status : StageStatus
  /-- The binary, once the stage has made it. -/
  binary : Option Path
  deriving DecidableEq, Repr

/-- What an extraction makes. -/
structure Extracted where
  target : String
  catalog : Catalog
  /-- The generated source. -/
  generated : String
  generatedPath : Path
  binaryPath : Path
  /-- The SHA-256 of the binary. -/
  binaryHash : String
  /-- Whether the file of the generated source had to be written. -/
  changed : Bool
  deriving DecidableEq, Repr

def Extracted.toJson (extracted : Extracted) : Json :=
  .obj [("target", .str extracted.target), ("map", extracted.catalog.toJson),
    ("generated", .str extracted.generated), ("generated_path", .str extracted.generatedPath.text),
    ("binary_path", .str extracted.binaryPath.text), ("binary_hash", .str extracted.binaryHash),
    ("changed", .bool extracted.changed)]

/-- What an extraction is set to do. -/
structure Extraction where
  registry : Registry
  generatedPath : Path
  options : HostSource.Options

namespace Extraction

/-- The name of the stage that extracts the sources of a target. -/
def stageName (target : String) : String := "config-extract:" ++ target

/-- The binary that the stage before has made, if it is done and on the device side. -/
def binary (source : ObjectSource) : Except StageError Path :=
  let stage := stageName source.target
  match source.side.check .device with
  | .error mismatch => .error (.sideMismatch stage mismatch)
  | .ok () =>
    match source.status, source.binary with
    | .done, some path => .ok path
    | _, _ => .error (.notReady stage source.stage)

/-- The choices of a rendering: where they name no encoding, it is that of the backend. -/
def renderOptions (extraction : Extraction) (catalog : Catalog) : HostSource.Options :=
  { extraction.options with
    encoding := extraction.options.encoding.or
      (extraction.registry.encoding? catalog.architecture) }

/-- The catalog of the object that bytes hold, and its generated source. -/
def generate (extraction : Extraction) (path : Path) (bytes : Bytes) :
    Except StageError (Catalog × String) :=
  match Object.readFrom path.text bytes with
  | .error e => .error (.binary e)
  | .ok object =>
    match extraction.registry.extract object with
    | .error e => .error (.extract e)
    | .ok catalog => .ok (catalog, HostSource.render catalog (extraction.renderOptions catalog))

/-- Whether the file at a path holds exactly the text. -/
def holds (files : Files) (path : Path) (text : String) : Bool :=
  match files.read path with
  | .ok bytes => bytes == Text.toBytes text
  | .error _ => false

/-- Writes a text to a file, unless it holds that very text; says whether it was written. -/
def writeIfChanged (files : Files) (path : Path) (text : String) :
    Except StageError Bool × Files :=
  if holds files path text then (.ok false, files)
  else
    match files.makeParent path with
    | (.error (parent, e), files) => (.error (.write parent e), files)
    | (.ok (), files) =>
      match files.writeText path text with
      | .error e => (.error (.write path e), files)
      | .ok files => (.ok true, files)

/-- Reads the binary of the stage before, and writes the source that is generated from it. -/
def run (extraction : Extraction) (source : ObjectSource) (files : Files) :
    Except StageError Extracted × Files :=
  match binary source with
  | .error e => (.error e, files)
  | .ok path =>
    match Object.readBytes files path with
    | .error e => (.error (.binary e), files)
    | .ok bytes =>
      match extraction.generate path bytes with
      | .error e => (.error e, files)
      | .ok (catalog, generated) =>
        match writeIfChanged files extraction.generatedPath generated with
        | (.error e, files) => (.error e, files)
        | (.ok changed, files) =>
          (.ok ⟨source.target, catalog, generated, extraction.generatedPath, path,
            Digest.sha256Hex bytes, changed⟩, files)

end Extraction

end KernelCatalog
