import KernelCatalog.Shell.Utility.Copy

/-!
# Making and removing

The utilities that make and remove directories, empty files and links, that change who may run a
file, and that list what a directory holds.
-/

namespace KernelCatalog.Shell

/-- Does one thing for each operand, of which there has to be one. -/
def forOperands (call : Call) (missing : String) (others : List String)
    (step : Finish → String → Finish) : Finish :=
  if others.isEmpty then call.refuse missing else others.foldl step call.start

/-! ## Removing -/

/-- How files are removed. -/
structure RemoveStyle where
  recursive : Bool
  /-- It is no failure that a file is missing. -/
  forced : Bool
  /-- Empty directories are removed, too. -/
  directories : Bool
  verbose : Bool

/-- Removes one file, or one directory with what is in it. -/
def removeOne (style : RemoveStyle) (finish : Finish) (path : String) : Finish :=
  let files := finish.files
  let failed (e : FileError) : Finish :=
    finish.fail ("cannot remove " ++ quotedName path ++ ": " ++ reason e)
  let last := lastName path
  match nodeAt files path with
  | .error e =>
    if style.forced && (e == .notFound || e == .notDirectory) then finish else failed e
  | .ok (location, .directory) =>
    let inside := files.below location
    if !style.recursive && !style.directories then failed .isDirectory
    else if style.recursive && (last == "." || last == "..") then
      finish.fail ("refusing to remove '.' or '..' directory: skipping " ++ quotedName path)
    else if style.recursive && location.isEmpty then
      (finish.fail ("it is dangerous to operate recursively on " ++ quotedName path
        ++ (if path == "/" then "" else " (same as '/')"))).fail
        "use --no-preserve-root to override this failsafe"
    else if !style.recursive && !inside.isEmpty then failed .notEmpty
    else
      let gone := { finish with files := files.erase location }
      if !style.verbose then gone
      else
        let deepest := inside.mergeSort fun a b => b.1.length ≤ a.1.length
        let told := deepest.foldl (fun finish (place, node) =>
          finish.line ((if node == .directory then "removed directory " else "removed ")
            ++ quotedName (pathIn path (Text.join "/" place)))) gone
        told.line ("removed directory " ++ quotedName path)
  | .ok (location, _) =>
    let gone := { finish with files := files.erase location }
    if style.verbose then gone.line ("removed " ++ quotedName path) else gone

def rm : Utility :=
  withOptions
    { flags := "dfiIrRv"
      words := [("recursive", 'r'), ("force", 'f'), ("verbose", 'v'), ("dir", 'd')] }
    fun call arguments =>
      let style : RemoveStyle :=
        { recursive := arguments.has 'r' || arguments.has 'R'
          forced := arguments.has 'f'
          directories := arguments.has 'd'
          verbose := arguments.has 'v' }
      if style.forced && arguments.others.isEmpty then call.start
      else forOperands call "missing operand" arguments.others (removeOne style)

def removeDirectory (files : Files) (path : String) : Except FileError Files := do
  match ← nodeAt files path with
  | (location, .directory) =>
    if location.isEmpty || lastName path == "." then .error .invalid
    else if !(files.below location).isEmpty then .error .notEmpty
    else .ok (files.erase location)
  | _ => .error .notDirectory

/-- The paths of the directories around a path, the inner ones first. -/
def directoriesAround : (fuel : Nat) → String → List String
  | 0, _ => []
  | fuel + 1, path =>
    let cs := (stripSlashes path).toList
    match cs.reverse.dropWhile (· ≠ '/') with
    | [] => []
    | behind =>
      let outer := stripSlashes (String.ofList behind.reverse)
      outer :: (if outer == "/" then [] else directoriesAround fuel outer)

/-- Removes one empty directory, and those around it if they are asked for. -/
def removeEmpty (around verbose ignored : Bool) (finish : Finish) (path : String) : Finish :=
  let step (word : String) (finish : Finish) (path : String) : Except Finish Finish :=
    let told := if verbose then
        finish.line (finish.name ++ ": removing directory, " ++ quotedName path)
      else finish
    match removeDirectory told.files path with
    | .ok files => .ok { told with files }
    | .error e =>
      if ignored && e == .notEmpty then .error told
      else .error (told.fail ("failed to remove " ++ word ++ quotedName path ++ ": " ++ reason e))
  match step "" finish path with
  | .error finish => finish
  | .ok finish =>
    if !around then finish
    else
      let rec outwards (finish : Finish) : List String → Finish
        | [] => finish
        | path :: rest =>
          match step "directory " finish path with
          | .error finish => finish
          | .ok finish => outwards finish rest
      outwards finish (directoriesAround (path.length + 1) path)

def rmdir : Utility :=
  withOptions
    { flags := "pvn"
      words := [("parents", 'p'), ("verbose", 'v'), ("ignore-fail-on-non-empty", 'n')] }
    fun call arguments =>
      forOperands call "missing operand" arguments.others
        (removeEmpty (arguments.has 'p') (arguments.has 'v') (arguments.has 'n'))

/-! ## Making -/

/-- Makes one directory. -/
def makeOne (verbose : Bool) (finish : Finish) (path : String) : Finish :=
  match finish.files.makeDirectory ⟨path⟩ with
  | .ok files =>
    let made := { finish with files }
    if verbose then made.line (made.name ++ ": created directory " ++ quotedName path) else made
  | .error e =>
    finish.fail ("cannot create directory " ++ quotedName path ++ ": " ++ reason e)

/-- Makes one directory, with those around it that are missing. -/
def makeTree (verbose : Bool) (finish : Finish) (path : String) : Finish :=
  let rec inwards (finish : Finish) : List String → Finish
    | [] => finish
    | path :: rest =>
      match finish.files.stat ⟨path⟩, rest with
      | .ok .directory, _ => inwards finish rest
      | .ok _, _ :: _ =>
        finish.fail
          ("cannot create directory " ++ quotedName path ++ ": Not a directory")
      | _, _ =>
        let made := makeOne verbose finish path
        if made.code == finish.code || finish.code ≠ 0 then inwards made rest else made
  if path.isEmpty then makeOne verbose finish path
  else inwards finish ((directoriesAround (path.length + 1) path).reverse ++ [path])

def mkdir : Utility :=
  withOptions
    { flags := "pvZ", valued := "m"
      words := [("parents", 'p'), ("verbose", 'v'), ("mode", 'm')] }
    fun call arguments =>
      let verbose := arguments.has 'v'
      forOperands call "missing operand" arguments.others
        (if arguments.has 'p' then makeTree verbose else makeOne verbose)

/-- Makes one empty file, if there is none. -/
def touchOne (make : Bool) (finish : Finish) (path : String) : Finish :=
  let slashed := path.toList.getLast? == some '/' && (finish.files.around ⟨path⟩).isOk
  let failed (e : FileError) : Finish :=
    finish.fail ((if make && !slashed then "cannot touch " else "setting times of ")
      ++ quotedName path ++ ": " ++ reason e)
  match finish.files.stat ⟨path⟩ with
  | .ok _ => finish
  | .error .notFound =>
    if !make then finish
    else if slashed then failed .notFound
    else
      match finish.files.write ⟨path⟩ [] with
      | .ok files => { finish with files }
      | .error e => failed e
  | .error e => failed e

def touch : Utility :=
  withOptions
    { flags := "acfhm", valued := "drt"
      words := [("no-create", 'c'), ("date", 'd'), ("reference", 'r'), ("no-dereference", 'h')] }
    fun call arguments =>
      forOperands call "missing file operand" arguments.others (touchOne (!arguments.has 'c'))

/-! ## Links -/

/-- How links are made. -/
structure LinkStyle where
  symbolic : Bool
  /-- What is in the way is removed. -/
  forced : Bool
  verbose : Bool

/-- Makes one link. A link that is not symbolic is a copy. -/
def linkOne (style : LinkStyle) (finish : Finish) (source target : String) : Finish :=
  let files := finish.files
  let told (finish : Finish) : Finish :=
    if style.verbose then
      finish.line (quotedName target ++ (if style.symbolic then " -> " else " => ")
        ++ quotedName source)
    else finish
  let failed (e : FileError) : Finish :=
    let words :=
      if style.symbolic then
        "symbolic link " ++ quotedName target
          ++ (if source.isEmpty then " -> " ++ quotedName source else "")
      else
        "hard link " ++ quotedName target
          ++ (if e == .alreadyExists then "" else " => " ++ quotedName source)
    finish.fail ("failed to create " ++ words ++ ": " ++ reason e)
  let node : Except Finish Node :=
    if style.symbolic then .ok (.link source)
    else
      match nodeAt files source with
      | .error e =>
        .error (finish.fail ("failed to access " ++ quotedName source ++ ": " ++ reason e))
      | .ok (_, .directory) =>
        .error (finish.fail ("" ++ maybeQuoted source ++ ": hard link not allowed for directory"))
      | .ok (_, node) => .ok node
  match node with
  | .error finish => finish
  | .ok node =>
    let unreachable (e : FileError) : Finish :=
      finish.fail ("failed to access " ++ quotedName target ++ ": " ++ reason e)
    if style.symbolic && source.isEmpty then failed .notFound
    else
      match placeOf files target, nodeAt files target with
      | .error e, _ => if style.forced && e != .notFound then unreachable e else failed e
      | .ok location, .error .notFound =>
        if target.toList.getLast? == some '/' then failed .notFound
        else told { finish with files := files.put location node }
      | .ok _, .error e => if style.forced then unreachable e else failed .alreadyExists
      | .ok location, .ok (_, present) =>
        if !style.forced then failed .alreadyExists
        else if present == .directory then
          finish.fail (maybeQuoted target ++ ": cannot overwrite directory")
        else if (targetAt files source).toOption.any fun found => found.1 == location then
          finish.fail (quotedName source ++ " and " ++ quotedName target ++ " are the same file")
        else told { finish with files := (files.erase location).put location node }

def ln : Utility :=
  withOptions
    { flags := "bdfFiLnPrsTv", valued := "tS"
      words := [("symbolic", 's'), ("force", 'f'), ("verbose", 'v'), ("no-dereference", 'n'),
        ("no-target-directory", 'T'), ("target-directory", 't')] }
    fun call arguments =>
      let style : LinkStyle :=
        { symbolic := arguments.has 's', forced := arguments.has 'f', verbose := arguments.has 'v' }
      let isLink (path : String) : Bool :=
        match nodeAt call.files path with
        | .ok (_, .link _) => true
        | _ => false
      match arguments.others, arguments.value? 't' with
      | [only], none =>
        if arguments.has 'T' then
          call.refuse ("missing destination file operand after " ++ quotedName only)
        else (Goal.into "." [only]).run (linkOne style) call.start
      | others, directory =>
        let enters := !arguments.has 'T'
          && !(arguments.has 'n' && isLink (others.getLastD ""))
        match goalOf call directory enters others with
        | .error finish => finish
        | .ok goal => goal.run (linkOne style) call.start

/-- The utility that tells where a link leads. -/
def readlink : Utility :=
  withOptions
    { flags := "efmnqsvz"
      words := [("canonicalize", 'f'), ("canonicalize-existing", 'e'), ("no-newline", 'n')] }
    fun call arguments =>
      forOperands call "missing operand" arguments.others fun finish path =>
        let found : Option String :=
          if arguments.has 'f' || arguments.has 'e' || arguments.has 'm' then
            match call.files.locate ⟨path⟩ with
            | .ok location =>
              if arguments.has 'e' && (call.files.get? location).isNone then none
              else some (Files.pathOf location).text
            | .error _ => none
          else
            match nodeAt call.files path with
            | .ok (_, .link target) => some target
            | _ => none
        match found with
        | some text =>
          if arguments.has 'n' then finish.print (Text.toBytes text) else finish.line text
        | none => { finish with code := 1 }

/-! ## Modes -/

/-- Who has a permission: the owner of a file, its group and all others. -/
structure Holders where
  owner : Bool
  group : Bool
  others : Bool

/-- Whether anyone has the permission. -/
def Holders.any (holders : Holders) : Bool := holders.owner || holders.group || holders.others

/-- Who may run a file and who may write it. -/
structure Mode where
  runners : Holders
  writers : Holders

namespace Mode

/-- The mode in which no one may do anything. -/
def none : Mode := ⟨⟨false, false, false⟩, ⟨false, false, false⟩⟩

/-- The mode of a file. What its group and all others may do is not known, and taken to be what they
may do with a new file. -/
def ofPermissions (permissions : Permissions) : Mode :=
  let runs := permissions.executable
  ⟨⟨runs, runs, runs⟩, ⟨permissions.writable, false, false⟩⟩

/-- What the mode says to the user, who owns the file. -/
def permissions (mode : Mode) : Permissions := ⟨mode.runners.any, mode.writers.owner⟩

/-- The mode of three octal digits. -/
def ofNumber (n : Nat) : Mode :=
  let holders (bit : Nat) : Holders :=
    ⟨n / 64 / bit % 2 == 1, n / 8 / bit % 2 == 1, n / bit % 2 == 1⟩
  ⟨holders 1, holders 2⟩

end Mode

/-- Sets, gives or takes what a clause of a mode says about one permission. Where the clause does
not say about whom it is, the mask of new files keeps group and others from getting a masked one. -/
def Holders.apply (holders : Holders) (masked : Bool) (who : List Char) (sign : Char)
    (has : Bool) : Holders :=
  let all := who.isEmpty || who.contains 'a'
  let one (letter : Char) (old : Bool) : Bool :=
    let has := has && !(masked && who.isEmpty && letter != 'u')
    if !(all || who.contains letter) then old
    else if sign == '=' then has
    else if has then sign == '+' else old
  ⟨one 'u' holders.owner, one 'g' holders.group, one 'o' holders.others⟩

/-- What the signs and letters behind whom a clause is about do, if they are well-formed. -/
def modeActions (isDirectory : Bool) (who : List Char) :
    (fuel : Nat) → List Char → Mode → Option Mode
  | 0, _, _ => .none
  | _, [], mode => some mode
  | fuel + 1, sign :: rest, mode =>
    if sign == '+' || sign == '-' || sign == '=' then
      let (letters, rest) := rest.span fun c => c ≠ '+' && c ≠ '-' && c ≠ '='
      let said : Option (Bool × Bool) :=
        match letters with
        | ['u'] => some (mode.runners.owner, mode.writers.owner)
        | ['g'] => some (mode.runners.group, mode.writers.group)
        | ['o'] => some (mode.runners.others, mode.writers.others)
        | letters =>
          if letters.all fun c => "rwxXst".toList.contains c then
            let runs := letters.contains 'x'
              || (letters.contains 'X' && (isDirectory || mode.runners.any))
            some (runs, letters.contains 'w')
          else .none
      match said with
      | some (runs, writes) =>
        modeActions isDirectory who fuel rest
          ⟨mode.runners.apply false who sign runs, mode.writers.apply true who sign writes⟩
      | .none => .none
    else .none

/-- The mode of a file after it has been changed, if the change is well-formed. -/
def changeMode (isDirectory : Bool) (change : String) (mode : Mode) : Option Mode :=
  let cs := change.toList
  if !cs.isEmpty && cs.all Char.isDigit then
    if cs.any (· ≥ '8') then .none
    else
      let n : Nat := cs.foldl (fun n c => n * 8 + (c.toNat - 48)) 0
      if 0o7777 < n then .none else some (.ofNumber n)
  else
    (Text.pieces ',' cs).foldl (fun mode? clause =>
      let (who, actions) := clause.span fun c => "ugoa".toList.contains c
      if actions.isEmpty then .none
      else mode?.bind (modeActions isDirectory who (actions.length + 1) actions))
      (some mode)

/-- Whether an argument that starts with a hyphen is a mode. -/
def isMode (arg : String) : Bool :=
  match arg.toList with
  | '-' :: c :: _ => "rwxXstugoa,+=01234567".toList.contains c
  | _ => false

/-- Changes the mode of what is at a path. -/
def changeOne (mode : String) (recursive silent : Bool) (finish : Finish) (path : String) :
    Finish :=
  let failed (message : String) : Finish :=
    if silent then { finish with code := 1 } else finish.fail ("" ++ message)
  let changed (files : Files) (location : Location) : Files :=
    match files.get? location with
    | some (.file content permissions) =>
      match changeMode false mode (.ofPermissions permissions) with
      | some mode => files.put location (.file content mode.permissions)
      | none => files
    | _ => files
  match finish.files.stat ⟨path⟩ with
  | .error e =>
    if e == .notFound && (nodeAt finish.files path).isOk then
      failed ("cannot operate on dangling symlink " ++ quotedName path)
    else failed ("cannot access " ++ quotedName path ++ ": " ++ reason e)
  | .ok _ =>
    match finish.files.locate ⟨path⟩ with
    | .error _ => finish
    | .ok location =>
      let inside := if recursive then finish.files.below location else []
      let files := inside.foldl (fun files (place, _) => changed files (location ++ place))
        (changed finish.files location)
      { finish with files }

/-- The utility that changes who may run and write files. -/
def chmod : Utility := fun call =>
  let modes := call.args.filter isMode
  let list : OptionList :=
    { flags := "Rvcf"
      words := [("recursive", 'R'), ("verbose", 'v'), ("changes", 'c'), ("quiet", 'f'),
        ("silent", 'f')] }
  match list.parse (if modes.isEmpty then call.args else call.args.filter fun a => !isMode a) with
  | .error message => call.refuse message
  | .ok arguments =>
    let operands := match modes with
      | [] => arguments.others
      | _ => Text.join "," modes :: arguments.others
    match operands with
    | [] => call.refuse "missing operand"
    | [only] => call.refuse ("missing operand after " ++ quotedName (modes.headD only))
    | mode :: paths =>
      if (changeMode false mode .none).isNone then
        call.refuse ("invalid mode: " ++ quotedName mode)
      else paths.foldl (changeOne mode (arguments.has 'R') (arguments.has 'f')) call.start

/-! ## Listing -/

/-- The names in a directory, in order. -/
def namesWithin (files : Files) (location : Location) : List String :=
  ((files.below location).filterMap fun (place, _) =>
    match place with
    | [name] => some name
    | _ => none).mergeSort

/-- The lines that list a directory. -/
def listed (arguments : Arguments) (files : Files) (location : Location) : List String :=
  let names := namesWithin files location
  if arguments.has 'a' then "." :: ".." :: names
  else if arguments.has 'A' then names
  else names.filter fun name => name.toList.head? != some '.'

/-- The utility that lists what directories hold. -/
def ls : Utility :=
  withOptions
    { flags := "1aAdRrlFhtSi"
      words := [("all", 'a'), ("almost-all", 'A'), ("directory", 'd'), ("recursive", 'R'),
        ("reverse", 'r')] }
    (fun call arguments =>
      let order (names : List String) : List String :=
        if arguments.has 'r' then names.reverse else names
      let paths := order (if arguments.others.isEmpty then ["."] else arguments.others.mergeSort)
      let isListed (path : String) : Bool :=
        call.files.isDirectory ⟨path⟩ && !arguments.has 'd'
      let missing := paths.foldl (fun finish path =>
        match nodeAt call.files path with
        | .ok _ => finish
        | .error e =>
          finish.fail ("cannot access " ++ quotedName path ++ ": " ++ reason e) 2) call.start
      let present := paths.filter fun path => (nodeAt call.files path).isOk
      let plain := present.filter fun path => !isListed path
      let withPlain := plain.foldl (fun finish path => finish.line path) missing
      let titled := 1 < paths.length || arguments.has 'R'
      let directories := (present.filter isListed).flatMap fun path =>
        match call.files.locate ⟨path⟩ with
        | .error _ => []
        | .ok location =>
          let inner := if arguments.has 'R' then
              ((call.files.below location).filter fun entry => entry.2 == .directory).mergeSort
                fun a b => Text.join "/" a.1 ≤ Text.join "/" b.1
            else []
          (path, location) :: inner.map fun (place, _) =>
            (pathIn path (Text.join "/" place), location ++ place)
      (directories.foldl (fun (state : Finish × Bool) (path, location) =>
        let (finish, isFirst) := state
        let spaced := if isFirst then finish else finish.line ""
        let headed := if titled then spaced.line (path ++ ":") else spaced
        ((order (listed arguments call.files location)).foldl
          (fun finish name => finish.line name) headed, false))
        (withPlain, plain.isEmpty)).1)
    2

end KernelCatalog.Shell
