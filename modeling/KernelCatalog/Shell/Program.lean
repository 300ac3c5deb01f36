import KernelCatalog.Shell.Utility.Table

/-!
# Programs

What is run under a name or a path: a shell, a utility, or a program that starts another one in
changed surroundings. A file that is executable and names its interpreter on its first line is run
by that one, with the path of the file among its arguments.
-/

namespace KernelCatalog.Shell

/-- Something that can be run. -/
inductive Program where
  /-- A shell. -/
  | shell
  /-- A program that starts another one with other names and values. -/
  | environment
  | utility (run : Utility)

/-- A program with what it is called with. -/
structure Invocation where
  program : Program
  /-- The name that it is called by. -/
  name : String
  args : List String

namespace Program

/-- The program of a name. -/
def named? (name : String) : Option Program :=
  if name == "sh" || name == "dash" || name == "bash" then some .shell
  else if name == "env" then some .environment
  else (utilities.lookup name).map .utility

/-- The directories that programs are in. -/
def homes : List String := ["/usr/bin/", "/bin/"]

/-- The program at a path. -/
def installed? (path : String) : Option Program :=
  homes.findSome? fun home =>
    (Text.after? home.toList path.toList).bind fun name =>
      if name.contains '/' then none else named? (String.ofList name)

/-- The interpreter that the first line of a file names, and the argument behind it. -/
def interpreter? (bytes : Bytes) : Option (String × Option String) :=
  match bytes with
  | 0x23 :: 0x21 :: rest =>
    let isBlank (c : Char) : Bool := c == ' ' || c == '\t'
    let line := (Text.ofBytesLenient (rest.takeWhile (· ≠ 10))).toList.dropWhile isBlank
    let line := (line.reverse.dropWhile isBlank).reverse
    let (path, behind) := line.span fun c => !isBlank c
    let argument := behind.dropWhile isBlank
    if path.isEmpty then none
    else some (String.ofList path, if argument.isEmpty then none else some (String.ofList argument))
  | _ => none

/-- How deep interpreters may be files with interpreters. -/
def interpreterLimit : Nat := 5

/-- The invocation of what is at a path, called by a name. -/
def atPath (files : Files) : (depth : Nat) → (path name : String) → (args : List String) →
    Except FileError Invocation
  | 0, _, _, _ => .error .tooManyLinks
  | depth + 1, path, name, args =>
    match installed? path with
    | some program => .ok ⟨program, name, args⟩
    | none => do
      match ← files.stat ⟨path⟩ with
      | .file content ⟨true, _⟩ =>
        match interpreter? content.bytes with
        | some (interpreter, argument) =>
          atPath files depth interpreter interpreter (argument.toList ++ path :: args)
        | none => .error .notExecutable
      | _ => .error .permissionDenied

/-- The paths that a name without separators stands for, one for each directory of a list. -/
def candidates (directories name : String) : List String :=
  (Text.pieces ':' directories.toList).map fun directory =>
    if directory.isEmpty then name else pathIn (String.ofList directory) name

def isRunnable (files : Files) (path : String) : Except FileError Unit := do
  if (installed? path).isSome then .ok ()
  else
    match ← files.stat ⟨path⟩ with
    | .file _ ⟨true, _⟩ => .ok ()
    | _ => .error .permissionDenied

/-- The first of some paths at which there is something to run. -/
def firstRunnable (files : Files) : (cause : FileError) → List String → Except FileError String
  | cause, [] => .error cause
  | cause, path :: rest =>
    match isRunnable files path with
    | .ok () => .ok path
    | .error .permissionDenied => firstRunnable files .permissionDenied rest
    | .error _ => firstRunnable files cause rest

/-- The path of a program: a text with a separator is one, and any other is looked for in the
directories of a list. -/
def pathOf (files : Files) (directories name : String) : Except FileError String :=
  if name.toList.contains '/' then .ok name
  else firstRunnable files .notFound (candidates directories name)

end Program

/-! ## Surroundings -/

/-- The directories in which programs are looked for. -/
def searchPath : String := "/usr/local/sbin:/usr/local/bin:/usr/sbin:/usr/bin:/sbin:/bin"

/-- The names and values that programs are given. -/
def defaultEnvironment : List (String × String) := [("HOME", "/root"), ("PATH", searchPath)]

/-- What every system has. -/
def furniture : List (Location × Node) :=
  [["bin"], ["dev"], ["etc"], ["home"], ["root"], ["sbin"], ["tmp"], ["usr"], ["usr", "bin"],
    ["usr", "local"], ["usr", "local", "bin"], ["usr", "local", "sbin"], ["usr", "sbin"],
    ["var"]].map (fun location => (location, Node.directory))
    ++ [(["dev", "null"], .file (.plain []) .plain)]

/-- The tree with what every system has. -/
def furnish (files : Files) : Files :=
  { files with
    entries := files.entries
      ++ furniture.filter fun entry => (files.entries.lookup entry.1).isNone }

/-- The tree without what had to be added to another one. -/
def unfurnish (before after : Files) : Files :=
  { after with
    entries := after.entries.filter fun entry =>
      !((furniture.lookup entry.1).isSome && (before.entries.lookup entry.1).isNone) }

end KernelCatalog.Shell
