import KernelCatalog.Files.Basic

/-!
# Reading and changing files

The operations on a file tree. One that can fail halfway gives the tree it leaves behind beside its
result; one that changes nothing when it fails gives the new tree as its result.
-/

namespace KernelCatalog.Files

/-- The segments of a path in front of its last name, that name, and whether separators follow it.
The name is empty for a path of separators only. -/
def ending (path : String) : List String × String × Bool :=
  let back := (segments path).reverse
  match back.dropWhile (· = "") with
  | [] => ([], "", true)
  | last :: front => (front.reverse, last, back.head? == some "")

/-- Whether a last name stands for a directory that exists already. -/
def isDots (name : String) : Bool := name == "" || name == "." || name == ".."

/-- The directory around the last name of a path, that name, and whether separators follow it. -/
def around (files : Files) (path : Path) : Except FileError (Location × String × Bool) := do
  checkPath path.text
  let (front, last, slashed) := ending path.text
  let directory ← files.walk (files.start path.text) front
  files.enter directory
  .ok (directory, last, slashed)

/-- The file at a path. -/
def readContent (files : Files) (path : Path) : Except FileError Content := do
  match ← files.stat path with
  | .directory => .error .isDirectory
  | .file content _ => .ok content
  | .link _ => .error .tooManyLinks

/-- The bytes of the file at a path. -/
def read (files : Files) (path : Path) : Except FileError Bytes := do
  .ok (← files.readContent path).bytes

/-- The text of the file at a path, which must be UTF-8. -/
def readText (files : Files) (path : Path) : Except FileError String := do
  match Text.ofBytes? (← files.read path) with
  | some text => .ok text
  | none => .error .notUtf8

/-- The place of a file that is about to be written, and the permissions of one that is there. -/
def writable (files : Files) (path : Path) :
    Except FileError (Location × Option Permissions) := do
  let (directory, last, slashed) ← files.around path
  if slashed || isDots last then .error .isDirectory
  else
    let location ← files.follow (← files.step directory last)
    match files.get? location with
    | some .directory => .error .isDirectory
    | some (.file _ permissions) =>
      if files.allows permissions then .ok (location, some permissions)
      else .error .permissionDenied
    | some (.link _) => .error .tooManyLinks
    | none => .ok (location, none)

/-- The tree with the file at a path replaced or made. -/
def writeContent (files : Files) (path : Path) (content : Content) : Except FileError Files := do
  let (location, permissions) ← files.writable path
  .ok (files.put location (.file content (permissions.getD .plain)))

/-- The tree with the bytes written to the file at a path. -/
def write (files : Files) (path : Path) (bytes : Bytes) : Except FileError Files :=
  files.writeContent path (.plain bytes)

/-- The tree with the text written to the file at a path. -/
def writeText (files : Files) (path : Path) (text : String) : Except FileError Files :=
  files.write path (Text.toBytes text)

/-- The tree without the file or link at a path. -/
def remove (files : Files) (path : Path) : Except FileError Files := do
  let (directory, last, slashed) ← files.around path
  if isDots last then .error .isDirectory
  else
    let location ← files.step directory last
    match files.get? location with
    | none => .error .notFound
    | some .directory => .error .isDirectory
    | some _ => if slashed then .error .notDirectory else .ok (files.erase location)

/-- The tree with a new directory, in one that exists. -/
def makeDirectory (files : Files) (path : Path) : Except FileError Files := do
  let (directory, last, _) ← files.around path
  if isDots last then .error .alreadyExists
  else
    let location ← files.step directory last
    match files.get? location with
    | some _ => .error .alreadyExists
    | none => .ok (files.put location .directory)

/-- Makes a directory, where it is no failure that there is one already. -/
def ensureDirectory (files : Files) (path : Path) : Except FileError Files :=
  match files.makeDirectory path with
  | .ok files => .ok files
  | .error e => if files.isDirectory path then .ok files else .error e

/-- Makes a directory and, where one is missing, those around it. The fuel bounds how many. -/
def ensureTree : (fuel : Nat) → Files → Path → Except FileError Unit × Files
  | 0, files, _ => (.error .notFound, files)
  | fuel + 1, files, path =>
    if path.text.isEmpty then (.ok (), files)
    else
      match files.ensureDirectory path with
      | .ok files => (.ok (), files)
      | .error .notFound =>
        match path.parent? with
        | none => (.error .notFound, files)
        | some parent =>
          match ensureTree fuel files parent with
          | (.error e, files) => (.error e, files)
          | (.ok (), files) =>
            match files.ensureDirectory path with
            | .ok files => (.ok (), files)
            | .error e => (.error e, files)
      | .error e => (.error e, files)

/-- Makes a directory with all that are missing around it. -/
def makeDirectories (files : Files) (path : Path) : Except FileError Unit × Files :=
  ensureTree (path.components.length + 2) files path

/-- The directory around a path, unless it is the current one. -/
def parentDirectory? (path : Path) : Option Path := path.parent?.filter fun p => !p.text.isEmpty

/-- Makes the directory around a path; a failure names that directory. -/
def makeParent (files : Files) (path : Path) : Except (Path × FileError) Unit × Files :=
  match parentDirectory? path with
  | none => (.ok (), files)
  | some parent =>
    match files.makeDirectories parent with
    | (.ok (), files) => (.ok (), files)
    | (.error e, files) => (.error (parent, e), files)

/-- Copies a file with its permissions, which do not matter for this copy any more. The target is
emptied before the source is read, so a file that is copied onto itself ends up empty. -/
def copy (files : Files) (source target : Path) : Except FileError Unit × Files :=
  match files.stat source with
  | .error e => (.error e, files)
  | .ok .directory => (.error .isDirectory, files)
  | .ok (.link _) => (.error .tooManyLinks, files)
  | .ok (.file _ permissions) =>
    match files.writable target with
    | .error e => (.error e, files)
    | .ok (location, _) =>
      let emptied := files.put location (.file (.plain []) permissions)
      match emptied.readContent source with
      | .error e => (.error e, emptied)
      | .ok content => (.ok (), emptied.put location (.file content permissions))

/-- The path of a place. -/
def pathOf (location : Location) : Path := ⟨"/" ++ Text.join "/" location⟩

/-- The absolute path of what is at a path, without `.` and `..`. -/
def canonical (files : Files) (path : Path) : Except FileError Path := do
  let location ← files.locate path
  match files.get? location with
  | some _ => .ok (pathOf location)
  | none => .error .notFound

/-- The places below a place, with what is there. -/
def below (files : Files) (location : Location) : List (Location × Node) :=
  files.entries.filterMap fun (place, node) =>
    if location.isPrefixOf place && place != location then
      some (place.drop location.length, node)
    else none

/-- The tree with other permissions of the file at a path. -/
def setPermissions (files : Files) (path : Path) (permissions : Permissions) :
    Except FileError Files := do
  let location ← files.locate path
  match files.get? location with
  | none => .error .notFound
  | some (.file content _) => .ok (files.put location (.file content permissions))
  | some _ => .ok files

end KernelCatalog.Files
