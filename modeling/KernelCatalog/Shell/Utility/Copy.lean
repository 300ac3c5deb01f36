import KernelCatalog.Shell.Utility.Basic

/-!
# Copying and moving

The utilities that bring files to another place. Several files, or one file whose target is a
directory, go into that directory under their own names.
-/

namespace KernelCatalog.Shell

/-- A path without separators at its end, unless it is nothing else. -/
def stripSlashes (path : String) : String :=
  match path.toList.reverse.dropWhile (· == '/') with
  | [] => if path.isEmpty then "" else "/"
  | cs => String.ofList cs.reverse

/-- The last name of a path. -/
def lastName (path : String) : String :=
  let cs := (stripSlashes path).toList
  let name := (cs.reverse.takeWhile (· ≠ '/')).reverse
  if name.isEmpty then String.ofList cs else String.ofList name

/-- A path inside a directory. -/
def pathIn (directory name : String) : String :=
  if directory.isEmpty || directory.toList.getLast? == some '/' then directory ++ name
  else directory ++ "/" ++ name

/-- The place of what is at a path, where a link at its end is not followed; also that of a last
name that is missing. -/
def placeOf (files : Files) (path : String) : Except FileError Location := do
  let (directory, last, slashed) ← files.around ⟨path⟩
  let location ← files.step directory last
  if slashed then files.follow location else .ok location

/-- What is at a path, where a link at its end is not followed. -/
def nodeAt (files : Files) (path : String) : Except FileError (Location × Node) := do
  let (_, _, slashed) ← files.around ⟨path⟩
  let location ← placeOf files path
  match files.get? location with
  | none => .error .notFound
  | some node =>
    if slashed && node != .directory then .error .notDirectory else .ok (location, node)

/-- What is at the end of a path and of the links it leads to. -/
def targetAt (files : Files) (path : String) : Except FileError (Location × Node) := do
  let (_, _, slashed) ← files.around ⟨path⟩
  let location ← files.locate ⟨path⟩
  match files.get? location with
  | none => .error .notFound
  | some node =>
    if slashed && node != .directory then .error .notDirectory else .ok (location, node)

/-- Where a utility brings things. -/
inductive Goal where
  /-- Into a directory. -/
  | into (directory : String) (sources : List String)
  /-- From one path to another. -/
  | onto (source target : String)

/-- The goal of the operands of a utility, with the directory that an option gives and whether the
last operand may be a directory that things go into. -/
def goalOf (call : Call) (directory : Option String) (mayEnter : Bool) (others : List String) :
    Except Finish Goal :=
  let refused (target : String) (e : FileError) : Except Finish Goal :=
    .error (call.start.fail
      ("target " ++ quotedName target ++ ": " ++ reason e))
  match directory with
  | some target =>
    match call.files.stat ⟨target⟩ with
    | .ok .directory =>
      if others.isEmpty then .error (call.refuse "missing file operand")
      else .ok (.into target others)
    | .ok _ =>
      .error (call.start.fail
        ("target directory " ++ quotedName target ++ ": Not a directory"))
    | .error e =>
      .error (call.start.fail
        ("target directory " ++ quotedName target ++ ": " ++ reason e))
  | none =>
    match others with
    | [] => .error (call.refuse "missing file operand")
    | [only] =>
      .error (call.refuse ("missing destination file operand after " ++ quotedName only))
    | [source, target] =>
      if mayEnter && call.files.isDirectory ⟨target⟩ then .ok (.into target [source])
      else .ok (.onto source target)
    | _ :: _ :: extra :: _ =>
      let target := others.getLastD ""
      if !mayEnter then .error (call.refuse ("extra operand " ++ quotedName extra))
      else
        match call.files.stat ⟨target⟩ with
        | .ok .directory => .ok (.into target others.dropLast)
        | .ok _ => refused target .notDirectory
        | .error e => refused target e

/-- Does one thing after the other, each with its source and target. -/
def Goal.run (goal : Goal) (step : Finish → String → String → Finish) (start : Finish) : Finish :=
  match goal with
  | .onto source target => step start source target
  | .into directory sources =>
    sources.foldl (fun finish source =>
      let name := lastName source
      step finish source (if name == ".." then directory else pathIn directory name)) start

/-! ## Copying -/

/-- How files are copied. -/
structure CopyStyle where
  recursive : Bool
  /-- Links are followed. -/
  followed : Bool
  /-- Existing files are kept. -/
  kept : Bool
  /-- Existing files that cannot be written are replaced. -/
  forced : Bool
  verbose : Bool
  /-- Links are made in place of copies. -/
  linked : Bool

/-- Tells what is about to be copied. -/
def copyTold (style : CopyStyle) (source target : String) (finish : Finish) : Finish :=
  if style.verbose then finish.line (quotedName source ++ " -> " ++ quotedName target) else finish

/-- Copies what is at one place to where nothing is, without what is inside it. -/
def copyNew (style : CopyStyle) (finish : Finish) (source target : String) (node : Node) :
    Finish :=
  let files := finish.files
  let told := copyTold style source target finish
  let failed (finish : Finish) (kind : String) (e : FileError) : Finish :=
    finish.fail ("cannot create " ++ kind ++ " " ++ quotedName target ++ ": " ++ reason e)
  let slashed := target.toList.getLast? == some '/'
  match placeOf files target, node with
  | .ok location, .directory => { told with files := files.put location .directory }
  | .error e, .directory => failed finish "directory" e
  | .error e, .link _ => failed told "symbolic link" e
  | .error e, .file .. => failed told "regular file" e
  | .ok location, .link path =>
    if slashed then failed told "symbolic link" .notFound
    else { told with files := files.put location (.link path) }
  | .ok location, .file content permissions =>
    if slashed then failed told "regular file" .notDirectory
    else
      let node := if style.linked then .link source else .file content permissions
      { told with files := files.put location node }

/-- Copies what is at one place, without what is inside it. -/
def copyNode (style : CopyStyle) (finish : Finish) (source target : String) (origin : Location)
    (node : Node) : Finish :=
  let files := finish.files
  let told := copyTold style source target finish
  let same := finish.fail
    (quotedName source ++ " and " ++ quotedName target ++ " are the same file")
  let overFile := finish.fail
    ("cannot overwrite non-directory " ++ quotedName target ++ " with directory "
      ++ quotedName source)
  if node != .directory && (nodeAt files target).toOption.any (·.1 == origin) then same
  else
    match targetAt files target, nodeAt files target with
    | .error .notFound, .ok _ =>
      match node with
      | .file .. => told.fail ("not writing through dangling symlink " ++ quotedName target)
      | _ => overFile
    | .error .notFound, .error _ => copyNew style finish source target node
    | .error e, _ =>
      if target.isEmpty then
        finish.fail ("cannot create regular file " ++ quotedName target ++ ": " ++ reason e)
      else finish.fail ("cannot stat " ++ quotedName target ++ ": " ++ reason e)
    | .ok (location, present), _ =>
      if location == origin && node != .directory then same
      else
        match node, present with
        | .directory, .directory => finish
        | .directory, _ => overFile
        | _, .directory =>
          finish.fail ("cannot overwrite directory " ++ quotedName target ++ " with non-directory")
        | .file content permissions, present =>
          let known := match present with
            | .file _ known => known
            | _ => permissions
          if style.kept then finish
          else if files.allows known then
            { told with files := files.put location (.file content known) }
          else if style.forced then
            match placeOf files target with
            | .ok place => { told with
                files := (files.erase place).put place (.file content permissions) }
            | .error _ => finish
          else
            told.fail ("cannot create regular file " ++ quotedName target ++ ": "
              ++ reason .permissionDenied)
        | .link path, _ =>
          if style.kept then finish
          else
            match placeOf files target with
            | .ok place => { told with files := (files.erase place).put place (.link path) }
            | .error _ => finish

/-- Copies one directory with what is in it. -/
def copyTree (style : CopyStyle) (finish : Finish) (source target : String) (origin : Location) :
    Finish :=
  let entries := (finish.files.below origin).mergeSort fun a b =>
    a.1.length < b.1.length
      || (a.1.length == b.1.length && Text.join "/" a.1 ≤ Text.join "/" b.1)
  let first := copyNode style finish source target origin .directory
  if !first.files.isDirectory ⟨target⟩ then first
  else
    let goal := (placeOf first.files target).toOption.getD []
    let copied := entries.foldl (fun finish (place, node) =>
      let tail := Text.join "/" place
      if goal.isPrefixOf (origin ++ place) then finish
      else copyNode style finish (pathIn source tail) (pathIn target tail) (origin ++ place) node)
      first
    if origin.isPrefixOf goal then
      copied.fail ("cannot copy a directory, " ++ quotedName source ++ ", into itself, "
        ++ quotedName target)
    else copied

/-- Copies one file, or one directory with what is in it. -/
def copyOne (style : CopyStyle) (finish : Finish) (source target : String) : Finish :=
  let files := finish.files
  let looked := if style.followed then targetAt files source else nodeAt files source
  match looked with
  | .error e => finish.fail ("cannot stat " ++ quotedName source ++ ": " ++ reason e)
  | .ok (origin, .directory) =>
    if !style.recursive then
      finish.fail ("-r not specified; omitting directory " ++ quotedName source)
    else if (targetAt files target).toOption.any fun found => found.1 == origin then
      finish.fail (quotedName source ++ " and " ++ quotedName target ++ " are the same file")
    else copyTree style finish source target origin
  | .ok (origin, node) => copyNode style finish source target origin node

def cp : Utility :=
  withOptions
    { flags := "abdfiHlLnpPrRsTuvxZ", valued := "tS"
      words := [("recursive", 'r'), ("force", 'f'), ("no-clobber", 'n'), ("verbose", 'v'),
        ("archive", 'a'), ("no-target-directory", 'T'), ("target-directory", 't'),
        ("no-dereference", 'P'), ("dereference", 'L'), ("symbolic-link", 's'), ("link", 'l'),
        ("update", 'u'), ("preserve", 'p'), ("interactive", 'i')] }
    fun call arguments =>
      match goalOf call (arguments.value? 't') (!arguments.has 'T') arguments.others with
      | .error finish => finish
      | .ok goal =>
        let recursive := arguments.has 'r' || arguments.has 'R' || arguments.has 'a'
        let kept := arguments.has 'd' || arguments.has 'P' || recursive
        let style : CopyStyle :=
          { recursive
            followed := arguments.has 'L' || (!kept)
            kept := arguments.has 'n'
            forced := arguments.has 'f'
            verbose := arguments.has 'v'
            linked := arguments.has 's' }
        goal.run (copyOne style) call.start

/-! ## Moving -/

/-- The files with what is at one place brought to another. -/
def relocate (files : Files) (origin location : Location) : Files :=
  let entries := files.entries.filterMap fun (place, node) =>
    if origin.isPrefixOf place then some (location ++ place.drop origin.length, node) else none
  let cleared := if (files.get? location).isSome then files.erase location else files
  let cleared := cleared.erase origin
  { cleared with entries := entries ++ cleared.entries }

/-- Moves what is at one path to another. -/
def moveOne (keep verbose : Bool) (finish : Finish) (source target : String) : Finish :=
  let files := finish.files
  match nodeAt files source with
  | .error e => finish.fail ("cannot stat " ++ quotedName source ++ ": " ++ reason e)
  | .ok (origin, node) =>
    let isDirectory := node == .directory
    let failed (e : FileError) : Finish :=
      finish.fail
        ("cannot move " ++ quotedName source ++ " to " ++ quotedName target ++ ": " ++ reason e)
    let moved (location : Location) : Finish :=
      let done := { finish with files := relocate files origin location }
      if isDirectory && Files.isDots (lastName source) then failed .busy
      else if isDirectory && origin.isPrefixOf location then
        finish.fail
          ("cannot move " ++ quotedName source ++ " to a subdirectory of itself, "
            ++ quotedName target)
      else if verbose then
        done.line ("renamed " ++ quotedName source ++ " -> " ++ quotedName target)
      else done
    let overDirectory :=
      finish.fail ("cannot overwrite directory " ++ quotedName target ++ " with non-directory")
    match nodeAt files target with
    | .ok (location, present) =>
      if location == origin then
        finish.fail (quotedName source ++ " and " ++ quotedName target ++ " are the same file")
      else if keep then finish
      else if isDirectory && present != .directory then
        finish.fail
          ("cannot overwrite non-directory " ++ quotedName target ++ " with directory "
            ++ quotedName source)
      else if !isDirectory && present == .directory then overDirectory
      else if isDirectory && !origin.isPrefixOf location && !(files.below location).isEmpty then
        finish.fail ("cannot overwrite " ++ quotedName target ++ ": Directory not empty")
      else moved location
    | .error .notFound =>
      if target.isEmpty then if isDirectory then failed .notFound else overDirectory
      else
        match placeOf files target with
        | .error e => failed e
        | .ok location =>
          if !isDirectory && target.toList.getLast? == some '/' then failed .notDirectory
          else moved location
    | .error e => finish.fail ("cannot stat " ++ quotedName target ++ ": " ++ reason e)

def mv : Utility :=
  withOptions
    { flags := "bfinTuvZ", valued := "tS"
      words := [("force", 'f'), ("no-clobber", 'n'), ("verbose", 'v'), ("interactive", 'i'),
        ("no-target-directory", 'T'), ("target-directory", 't'), ("update", 'u')] }
    fun call arguments =>
      match goalOf call (arguments.value? 't') (!arguments.has 'T') arguments.others with
      | .error finish => finish
      | .ok goal => goal.run (moveOne (arguments.has 'n') (arguments.has 'v')) call.start

end KernelCatalog.Shell
