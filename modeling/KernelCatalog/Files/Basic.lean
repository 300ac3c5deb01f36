import KernelCatalog.Ledger.Store
import KernelCatalog.Path
import KernelCatalog.Text.Utf8

/-!
# Files and directories

A file tree is a value: the directories, files and links with their places, and the current
directory that relative paths start from. A path is followed segment by segment; each segment needs
a directory to start from, `.` and empty segments stay there, `..` goes to the directory around it,
and a link leads to where its own path does. A file has permissions, which a superuser need not
mind. What is taken out of the tree is remembered, since someone may still have it open.
-/

namespace KernelCatalog

/-- Why an operation on files fails. -/
inductive FileError where
  | notFound
  | notDirectory
  | isDirectory
  | alreadyExists
  | permissionDenied
  | nameTooLong
  | notExecutable
  | notEmpty
  | tooManyLinks
  /-- A directory is in use. -/
  | busy
  /-- What is asked for makes no sense. -/
  | invalid
  /-- A path holds the character NUL. -/
  | nulInPath
  /-- A text file does not hold UTF-8. -/
  | notUtf8
  /-- A program or an argument of it holds the character NUL. -/
  | nulInCommand
  deriving DecidableEq, Repr

def FileError.message : FileError → String
  | .notFound => "No such file or directory (os error 2)"
  | .notDirectory => "Not a directory (os error 20)"
  | .isDirectory => "Is a directory (os error 21)"
  | .alreadyExists => "File exists (os error 17)"
  | .permissionDenied => "Permission denied (os error 13)"
  | .nameTooLong => "File name too long (os error 36)"
  | .notExecutable => "Exec format error (os error 8)"
  | .notEmpty => "Directory not empty (os error 39)"
  | .tooManyLinks => "Too many levels of symbolic links (os error 40)"
  | .busy => "Device or resource busy (os error 16)"
  | .invalid => "Invalid argument (os error 22)"
  | .nulInPath => "file name contained an unexpected NUL byte"
  | .notUtf8 => "stream did not contain valid UTF-8"
  | .nulInCommand => "nul byte found in provided data"

/-- What a file holds. -/
inductive Content where
  | plain (bytes : Bytes)
  /-- A ledger, which is read through its own operations. -/
  | ledger (store : Ledger.Store)
  deriving DecidableEq

/-- The bytes that every ledger file starts with. -/
def Content.ledgerMark : Bytes := Text.toBytes "SQLite format 3\x00"

/-- The bytes of a file; of a ledger, those by which it is known. -/
def Content.bytes : Content → Bytes
  | .plain bytes => bytes
  | .ledger _ => ledgerMark

/-- What the permissions of a file say to the user: whether it may be run as a program, and whether
it may be written. Every file may be read. -/
structure Permissions where
  executable : Bool
  writable : Bool
  deriving DecidableEq, Repr

/-- The permissions of a new file. -/
def Permissions.plain : Permissions := ⟨false, true⟩

/-- What is at a place. Pipes, sockets and devices are left out. -/
inductive Node where
  | directory
  | file (content : Content) (permissions : Permissions)
  /-- A link, which stands for what is at its path. -/
  | link (path : String)
  deriving DecidableEq

/-- A place in the tree: the names from the root inwards. -/
abbrev Location := List String

/-- The directories and files, and the current directory. -/
structure Files where
  /-- What is at each place, except the root, which is a directory. -/
  entries : List (Location × Node)
  current : Location
  /-- What has been taken away, the latest first. -/
  removed : List (Location × Node) := []
  /-- Whether the user may write every file, whatever its permissions say, as a superuser may. -/
  unrestricted : Bool

namespace Files

/-- A tree that holds nothing but the current directory and those around it, as a superuser sees
it. -/
def empty (current : Location) : Files :=
  { entries := (List.range current.length).map fun n => (current.take (n + 1), .directory)
    current
    unrestricted := true }

/-- The tree as a user sees it who needs permission to write a file. -/
def restricted (files : Files) : Files := { files with unrestricted := false }

/-- Whether a file with the given permissions may be written. -/
def allows (files : Files) (permissions : Permissions) : Bool :=
  files.unrestricted || permissions.writable

/-- What is at a place. -/
def get? (files : Files) (location : Location) : Option Node :=
  if location.isEmpty then some .directory else files.entries.lookup location

/-- Whether there is a file at a place that may not be written. -/
def isProtected (files : Files) (location : Location) : Bool :=
  match files.get? location with
  | some (.file _ permissions) => !files.allows permissions
  | _ => false

/-- The tree with a node put at a place. -/
def put (files : Files) (location : Location) (node : Node) : Files :=
  { files with
    entries := (location, node) :: files.entries.filter fun entry => entry.1 != location }

/-- The tree without a place and everything below it. -/
def erase (files : Files) (location : Location) : Files :=
  { files with
    entries := files.entries.filter fun entry => !location.isPrefixOf entry.1
    removed := (files.entries.filter fun entry => location.isPrefixOf entry.1) ++ files.removed }

/-- What was first taken from a place since a given number of things had been taken away. -/
def removedSince? (files : Files) (count : Nat) (location : Location) : Option Node :=
  (files.removed.reverse.drop count).lookup location

theorem lookup_filter_ne {location other : Location} (h : other ≠ location)
    (entries : List (Location × Node)) :
    (entries.filter fun entry => entry.1 != location).lookup other = entries.lookup other := by
  induction entries with
  | nil => rfl
  | cons entry rest ih =>
    obtain ⟨place, node⟩ := entry
    by_cases hp : place = location
    · subst hp
      have ho : (other == place) = false := by simpa using h
      simp [List.lookup_cons, ho, ih]
    · simp [hp, List.lookup_cons, ih]

theorem get?_put (files : Files) {location : Location} (h : location ≠ []) (node : Node)
    (other : Location) :
    (files.put location node).get? other =
      if other = location then some node else files.get? other := by
  unfold get? put
  by_cases ho : other = location
  · subst ho
    simp [h]
  · have hne : (other == location) = false := by simpa using ho
    simp [ho, List.lookup_cons, hne, lookup_filter_ne ho]

/-- The longest name of a file, in bytes. -/
def nameLimit : Nat := 255

/-- The shortest path that is too long, in bytes. -/
def pathLimit : Nat := 4096

/-- A directory to go on from: the place itself, if it is one. -/
def enter (files : Files) (location : Location) : Except FileError Unit :=
  match files.get? location with
  | none => .error .notFound
  | some .directory => .ok ()
  | some _ => .error .notDirectory

/-- The place of a name in a directory. -/
def step (files : Files) (location : Location) (segment : String) : Except FileError Location := do
  files.enter location
  if segment = "" ∨ segment = "." then .ok location
  else if segment = ".." then .ok location.dropLast
  else if nameLimit < segment.utf8ByteSize then .error .nameTooLong
  else .ok (location ++ [segment])

/-- The place that segments lead to one after the other, given where each place leads to. -/
def walkBy (files : Files) (follow : Location → Except FileError Location) :
    Location → List String → Except FileError Location
  | location, [] => .ok location
  | location, segment :: rest => do
    files.walkBy follow (← follow (← files.step location segment)) rest

/-- The segments of a path. -/
def segments (path : String) : List String := (Text.pieces '/' path.toList).map String.ofList

/-- The place that a path starts from, if relative paths start from the given one. -/
def startFrom (location : Location) (path : String) : Location :=
  if (Path.mk path).isAbsolute then [] else location

/-- The place that a path starts from. -/
def start (files : Files) (path : String) : Location := startFrom files.current path

/-- How deep links may lead to links. -/
def linkLimit : Nat := 40

/-- Where a place leads to through at most so many links, each to the next. -/
def followWithin (files : Files) : Nat → Location → Except FileError Location
  | limit, location =>
    match files.get? location, limit with
    | some (.link _), 0 => .error .tooManyLinks
    | some (.link path), limit + 1 =>
      files.walkBy (files.followWithin limit) (startFrom location.dropLast path) (segments path)
    | _, _ => .ok location

/-- Where a place leads to: itself, unless it is a link. -/
def follow (files : Files) (location : Location) : Except FileError Location :=
  files.followWithin linkLimit location

/-- The place that segments lead to one after the other. -/
def walk (files : Files) (location : Location) (segments : List String) :
    Except FileError Location :=
  files.walkBy files.follow location segments

/-- Refuses a path that no file can have. -/
def checkPath (path : String) : Except FileError Unit :=
  if path.toList.contains '\x00' then .error .nulInPath
  else if path.isEmpty then .error .notFound
  else if pathLimit ≤ path.utf8ByteSize then .error .nameTooLong
  else .ok ()

/-- The place of a path. Only its last name may be missing. -/
def locate (files : Files) (path : Path) : Except FileError Location := do
  checkPath path.text
  files.walk (files.start path.text) (segments path.text)

/-- What is at a path. -/
def stat (files : Files) (path : Path) : Except FileError Node := do
  match files.get? (← files.locate path) with
  | some node => .ok node
  | none => .error .notFound

def isFile (files : Files) (path : Path) : Bool :=
  match files.stat path with
  | .ok (.file ..) => true
  | _ => false

def isDirectory (files : Files) (path : Path) : Bool :=
  match files.stat path with
  | .ok .directory => true
  | _ => false

end Files

end KernelCatalog
