import KernelCatalog.Files.Access
import KernelCatalog.Object.Reader

/-!
# Object files

An object is read from a file; a failure names the file.
-/

namespace KernelCatalog

/-- Why a file gives no object. -/
inductive BinaryError where
  /-- The file cannot be read. -/
  | io (path : Path) (cause : FileError)
  /-- The file holds no object. -/
  | malformed (origin : String) (fault : ObjectFault)

def BinaryError.message : BinaryError → String
  | .io path cause => "failed to read binary " ++ path.text ++ ": " ++ cause.message
  | .malformed origin fault => "malformed binary " ++ origin ++ ": " ++ fault.message

namespace Object

/-- The object that bytes from the given origin hold. -/
def readFrom (origin : String) (bytes : Bytes) : Except BinaryError Object :=
  match read bytes with
  | .ok object => .ok object
  | .error fault => .error (.malformed origin fault)

/-- The bytes of the file at a path. -/
def readBytes (files : Files) (path : Path) : Except BinaryError Bytes :=
  match files.read path with
  | .ok bytes => .ok bytes
  | .error e => .error (.io path e)

/-- The object in the file at a path. -/
def load (files : Files) (path : Path) : Except BinaryError Object := do
  readFrom path.text (← readBytes files path)

end Object

end KernelCatalog
