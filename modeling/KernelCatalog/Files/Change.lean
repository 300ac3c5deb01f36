import KernelCatalog.Files.Access

/-!
# Changes to files

What has to be done to turn one tree into another: places that are gone are removed, then new
directories are made from the outside inwards, then files are written.
-/

namespace KernelCatalog

/-- One step on the way from a tree to another. -/
inductive Change where
  | removeFile (location : Location)
  | removeDirectory (location : Location)
  | makeDirectory (location : Location)
  | write (location : Location) (content : Content) (permissions : Permissions)
  deriving DecidableEq

namespace Files

/-- The step that takes a node away. -/
def removal (location : Location) : Node → Change
  | .directory => .removeDirectory location
  | .file .. | .link _ => .removeFile location

/-- The places of the first tree at which the second holds nothing, except those inside others. -/
def removals (before after : Files) : List Change :=
  let gone := before.entries.filter fun entry =>
    (after.get? entry.1).isNone && (after.get? entry.1.dropLast).isSome
  gone.map fun entry => removal entry.1 entry.2

/-- The directories of the second tree that the first does not have, the outer ones first. -/
def newDirectories (before after : Files) : List Change :=
  let missing := after.entries.filter fun entry =>
    entry.2 == .directory && before.get? entry.1 != some .directory
  let sorted := missing.mergeSort fun a b => a.1.length ≤ b.1.length
  sorted.map fun entry => .makeDirectory entry.1

/-- The files of the second tree that are not the same in the first. A new link is written as the
file that it leads to. -/
def newFiles (before after : Files) : List Change :=
  after.entries.filterMap fun (location, node) =>
    if before.get? location == some node then none
    else
      match (after.follow location).toOption.bind after.get? with
      | some (.file content permissions) => some (.write location content permissions)
      | _ => none

/-- The steps from one tree to another. -/
def changes (before after : Files) : List Change :=
  removals before after ++ newDirectories before after ++ newFiles before after

end Files

end KernelCatalog
