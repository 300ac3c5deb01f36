import KernelCatalog.CommandLine.Command
import KernelCatalog.Files.Change
import KernelCatalog.Ledger.Moment
import KernelCatalog.Ledger.Saved
import KernelCatalog.Shell.Run
import Std.Time.DateTime.Timestamp

/-!
# The command line

The program reads the part of the file system that its arguments name into a file tree, carries out
the command on that tree, and then makes the same changes to the file system. Device compilers are
run by the shell of this library and see the same tree.
-/

namespace KernelCatalog

namespace Snapshot

/-- Whether the file at a path may be written. -/
def mayWrite (path : String) : IO Bool :=
  try
    let _ ← IO.FS.Handle.mk path .readWrite
    return true
  catch _ => return false

/-- What is saved at a path. A file that starts like a script counts as executable. -/
def load (path : String) : IO Node := do
  let bytes := (← IO.FS.readBinFile path).toList
  return .file (.ofSaved bytes) ⟨(Text.toBytes "#!").isPrefixOf bytes, ← mayWrite path⟩

/-- The absolute path without links of what is at a path; the path itself if nothing is there. -/
def resolve (path : String) : IO String :=
  try return (← IO.FS.realPath path).toString
  catch _ => return path

/-- The place of a path, which is put behind the current directory. -/
def place (files : Files) (path : String) : IO Location := do
  let whole := (Files.pathOf files.current).join path
  return (Files.segments (← resolve whole.text)).filter (· ≠ "")

/-- Adds what is at a place and everything below it, except directories behind links. -/
partial def addTree (files : Files) (location : Location) : IO Files := do
  let path := (Files.pathOf location).text
  let real ← IO.FS.realPath path
  if ← real.isDir then
    if real.toString ≠ path then return files
    let entries ← real.readDir
    entries.foldlM (fun files entry => addTree files (location ++ [entry.fileName]))
      (if location.isEmpty then files else files.put location .directory)
  else if ← real.pathExists then return files.put location (← load path)
  else return files

/-- Adds the directories around a place. -/
def addAround (files : Files) (location : Location) : IO Files :=
  (List.range location.length).tail.foldlM (fun files n => do
    let outer := location.take n
    let real ← IO.FS.realPath (← resolve (Files.pathOf outer).text)
    if ← real.isDir then return files.put outer .directory
    else if ← real.pathExists then return files.put outer (← load real.toString)
    else return files) files

/-- Adds what is at a path, with all that is around and below it. -/
def add (files : Files) (path : String) : IO Files := do
  let location ← place files path
  try addTree (← addAround files location) location
  catch _ => addAround files location

/-- The files that the targets of a project use. -/
def targetFiles (files : Files) (root : String) : List String :=
  let layout : Layout := ⟨CommandLine.canonicalRoot files root⟩
  match Config.load files layout with
  | .error _ => []
  | .ok config =>
    (layout.resolve config.ledger.path).text
      :: config.targets.map fun target => (layout.resolve target.source).text

/-- The part of the file system that a request is about. -/
def take (request : CommandLine.Request) : IO Files := do
  let current := (Files.segments (← IO.currentDir).toString).filter (· ≠ "")
  let files ← request.namedFiles.foldlM add (Files.empty current).restricted
  match request.project? with
  | none => return files
  | some root =>
    let files ← add files root
    (targetFiles files root).foldlM add files

/-- Makes one change to the file system. -/
def apply : Change → IO Unit
  | .removeFile location => IO.FS.removeFile (Files.pathOf location).text
  | .removeDirectory location => IO.FS.removeDirAll (Files.pathOf location).text
  | .makeDirectory location => IO.FS.createDirAll (Files.pathOf location).text
  | .write location content permissions => do
    let path := (Files.pathOf location).text
    let rights (writes runs : Bool) : IO.FileRight :=
      ⟨⟨true, writes, runs⟩, ⟨true, false, runs⟩, ⟨true, false, runs⟩⟩
    -- what is there may have to be made writable first
    try IO.setAccessRights path (rights true permissions.executable) catch _ => pure ()
    IO.FS.writeBinFile path ⟨content.saved.toArray⟩
    if permissions != .plain then
      IO.setAccessRights path (rights permissions.writable permissions.executable)

end Snapshot

/-- The present moment. -/
def Moment.now : IO Moment := do
  let now := (← Std.Time.Timestamp.now).val
  return ⟨now.second.val.toNat, now.nano.val.toNat⟩

/-- The variable that names the program to use for clang. -/
def clangVariable : String := "KERNEL_BRIDGE_CLANG"

def runCommandLine (args : List String) : IO UInt32 := do
  let clang := (← IO.getEnv clangVariable).getD Command.defaultClang
  let moment := (← Moment.now).text
  let before ← match CommandLine.Request.parse? args with
    | some request => Snapshot.take request
    | none => pure (Files.empty [])
  let (ending, after) := CommandLine.run ⟨Shell.launch, clang, moment, moment⟩ args before
  (before.changes after).forM Snapshot.apply
  IO.print ending.output
  IO.eprint ending.errors
  return UInt32.ofNat ending.code

end KernelCatalog

/-- The command line of this program. -/
def main (args : List String) : IO UInt32 := KernelCatalog.runCommandLine args
