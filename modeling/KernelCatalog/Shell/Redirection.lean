import KernelCatalog.Shell.Expansion
import KernelCatalog.Shell.Utility.Basic

/-!
# Redirections

A redirection makes a descriptor stand for another stream. Its target is expanded first; then files
are opened one after the other, and the first that cannot be opened ends this.
-/

namespace KernelCatalog.Shell

/-- A redirection with its target expanded; a document is expanded later. -/
inductive Opening where
  | file (descriptor : Nat) (mode : RedirectMode) (path : String)
  | document (descriptor : Nat) (parts : List Part)
  /-- A copy of another descriptor, or none if it is closed. -/
  | copy (descriptor : Nat) (other : Option Nat)

/-- The descriptor that an opening is about. -/
def Opening.descriptor : Opening → Nat
  | .file descriptor .. | .document descriptor _ | .copy descriptor _ => descriptor

def expandRedirect (capture : Capture) : Redirect → Acting Opening
  | .document descriptor number => do
    return .document descriptor (((← get).documents.lookup number).getD [])
  | .file descriptor .duplicate target => do
    let text ← expandText capture target
    match text.toList with
    | ['-'] => return .copy descriptor none
    | [c] =>
      match Text.digit? c with
      | some n => return .copy descriptor (some n)
      | none => breakOff "Syntax error: Bad fd number"
    | _ => breakOff "Syntax error: Bad fd number"
  | .file descriptor mode target => return .file descriptor mode (← expandText capture target)

def expandRedirects (capture : Capture) : List Redirect → Acting (List Opening)
  | [] => return []
  | redirect :: rest => do
    let first ← expandRedirect capture redirect
    return first :: (← expandRedirects capture rest)

/-- What is said about a file that cannot be opened. -/
def openingFault (isCreated : Bool) (path : String) (e : FileError) : String :=
  let words := match e with
    | .notFound | .notDirectory => if isCreated then "Directory nonexistent" else "No such file"
    | e => reason e
  (if isCreated then "cannot create " else "cannot open ") ++ path ++ ": " ++ words

/-- The descriptor that the path of a device stands for. -/
def deviceDescriptor? (path : String) : Option Nat :=
  match [("/dev/stdin", 0), ("/dev/stdout", 1), ("/dev/stderr", 2)].lookup path with
  | some n => some n
  | none =>
    ["/dev/fd/", "/proc/self/fd/"].findSome? fun front =>
      (Text.after? front.toList path.toList).bind fun cs =>
        if cs.isEmpty then none else Text.digits? 0 cs

namespace Session

def withDescriptor (session : Session) (descriptor stream : Nat) : Session :=
  { session with
    descriptors := (descriptor, stream) :: session.descriptors.filter fun d => d.1 != descriptor }

def withoutDescriptor (session : Session) (descriptor : Nat) : Session :=
  { session with descriptors := session.descriptors.filter fun d => d.1 != descriptor }

/-- The session with a descriptor for a new stream. -/
def withStream (session : Session) (descriptor : Nat) (stream : Stream) : Session :=
  let (number, world) := session.world.addStream stream
  { session with world }.withDescriptor descriptor number

/-- Opens the file at a place. -/
def openPlace (session : Session) (descriptor : Nat) (mode : RedirectMode) (location : Location)
    (permissions : Option Permissions) : Session :=
  let files := session.files
  let emptied := files.put location (.file (.plain []) (permissions.getD .plain))
  let (files, stream) : Files × Stream := match mode with
    | .append => (if permissions.isSome then files else emptied, .file location 0 true false true)
    | .readWrite =>
      (if permissions.isSome then files else emptied, .file location 0 false true true)
    | .read | .duplicate => (files, .file location 0 false true false)
    | .write | .overwrite => (emptied, .file location 0 false false true)
  { session with world := { session.world with files } }.withStream descriptor stream

/-- Opens a file for a descriptor. -/
def openFile (session : Session) (descriptor : Nat) (mode : RedirectMode) (path : String) :
    Except String Session :=
  let isCreated := mode != .read
  match deviceDescriptor? path with
  | some device =>
    match session.descriptors.lookup device with
    | none => .error (openingFault isCreated path .notFound)
    | some number =>
      match session.world.stream number with
      | .file location .. =>
        let permissions := match session.files.get? location with
          | some (.file _ permissions) => some permissions
          | _ => none
        if isCreated && permissions.any fun known => !session.files.allows known then
          .error (openingFault isCreated path .permissionDenied)
        else .ok (session.openPlace descriptor mode location permissions)
      | _ => .ok (session.withDescriptor descriptor number)
  | none =>
    if path == "/dev/null" then .ok (session.withStream descriptor .void)
    else if path == "/dev/full" then .ok (session.withStream descriptor .full)
    else if mode == .read then
      match session.files.stat ⟨path⟩ with
      | .error e => .error (openingFault false path e)
      | .ok (.file _ permissions) =>
        match session.files.locate ⟨path⟩ with
        | .ok location => .ok (session.openPlace descriptor mode location (some permissions))
        | .error e => .error (openingFault false path e)
      | .ok _ => .ok (session.withStream descriptor .void)
    else if mode == .write && session.has 'C' && (session.files.stat ⟨path⟩).isOk then
      .error (if session.files.isFile ⟨path⟩ then openingFault true path .alreadyExists
        else openingFault false path .isDirectory)
    else
      match session.files.writable ⟨path⟩ with
      | .error e => .error (openingFault true path e)
      | .ok (location, permissions) =>
        .ok (session.openPlace descriptor mode location permissions)

/-- The session with an error mended. -/
def mend (session : Session) : Session :=
  if session.flow == .broken then { session with flow := .on } else session

/-- Does one opening; `false` if it is not possible. -/
def doOpening (capture : Capture) (session : Session) : Opening → Bool × Session
  | .file descriptor mode path =>
    match session.openFile descriptor mode path with
    | .ok session => (true, session)
    | .error message => (false, session.complain message)
  | .document descriptor parts =>
    match (expandParts capture false parts).run.run session with
    | (.ok glyphs, session) =>
      let bytes := Text.toBytes (String.ofList (plainText glyphs))
      (true, session.withStream descriptor (.source bytes))
    | (.error (), session) => (false, session.mend)
  | .copy descriptor none => (true, session.withoutDescriptor descriptor)
  | .copy descriptor (some other) =>
    match session.descriptors.lookup other with
    | some number => (true, session.withDescriptor descriptor number)
    | none => (false, session.complain (toString other ++ ": Bad file descriptor"))

/-- Does openings one after the other; `false` if one of them is not possible. -/
def doOpenings (capture : Capture) (session : Session) : List Opening → Bool × Session
  | [] => (true, session)
  | opening :: rest =>
    match session.doOpening capture opening with
    | (true, session) => session.doOpenings capture rest
    | (false, session) => (false, session)

/-- The session with the descriptors of some openings as they were before. -/
def undoOpenings (session before : Session) (openings : List Opening) : Session :=
  openings.foldl (fun session opening =>
    match before.descriptors.lookup opening.descriptor with
    | some number => session.withDescriptor opening.descriptor number
    | none => session.withoutDescriptor opening.descriptor) session

end Session

end KernelCatalog.Shell
