import KernelCatalog.Files.Access

/-!
# Streams

What a descriptor of a running program stands for: a file with a position in it, what another
program prints, or nothing at all. Copies of a descriptor stand for the same stream, so they share
its position.
-/

namespace KernelCatalog.Shell

/-- Something that is read or written piece by piece. -/
inductive Stream where
  /-- Holds nothing, and takes everything. -/
  | void
  /-- Takes nothing, since it has no room. -/
  | full
  /-- What has been written so far. -/
  | sink (bytes : Bytes)
  /-- What is left to be read. -/
  | source (bytes : Bytes)
  /-- A file with a position in it, whether writing goes to its end, and what is allowed. -/
  | file (location : Location) (position : Nat) (append reads writes : Bool)

/-- The streams that running programs have open, by their numbers. -/
abbrev Streams := Array Stream

/-- The files, and what is open. -/
structure World where
  files : Files
  streams : Streams

namespace World

/-- The stream of a number. -/
def stream (world : World) (number : Nat) : Stream := world.streams.getD number .void

def setStream (world : World) (number : Nat) (stream : Stream) : World :=
  { world with streams := world.streams.setIfInBounds number stream }

/-- The world with a new stream, and its number. -/
def addStream (world : World) (stream : Stream) : Nat × World :=
  (world.streams.size, { world with streams := world.streams.push stream })

/-- The bytes of a file with others written at a position. A gap in front of it is filled with the
byte 0. -/
def overwrite (content : Bytes) (position : Nat) (bytes : Bytes) : Bytes :=
  let front := content.take position
  front ++ List.replicate (position - front.length) 0 ++ bytes
    ++ content.drop (position + bytes.length)

/-- Writes to a stream; `false` if that is not possible. -/
def write (world : World) (number : Nat) (bytes : Bytes) : Bool × World :=
  match world.stream number with
  | .void => (true, world)
  | .full => (bytes.isEmpty, world)
  | .source _ => (false, world)
  | .sink sofar => (true, world.setStream number (.sink (sofar ++ bytes)))
  | .file location position append reads writes =>
    if !writes then (false, world)
    else if bytes.isEmpty then (true, world)
    else
      match world.files.get? location with
      | some (.file content permissions) =>
        let old := content.bytes
        let start := if append then old.length else position
        let new := overwrite old start bytes
        let files := world.files.put location (.file (.plain new) permissions)
        (true, { world with files }.setStream number
          (.file location (start + bytes.length) append reads writes))
      | _ => (true, world)

/-- What is left to be read from a stream. -/
def rest (world : World) (number : Nat) : Bytes :=
  match world.stream number with
  | .source bytes => bytes
  | .file location position _ true _ =>
    match world.files.get? location with
    | some (.file content _) => content.bytes.drop position
    | _ => []
  | _ => []

/-- The world after all but the given number of bytes of a stream have been read. -/
def leave (world : World) (number : Nat) (count : Nat) : World :=
  let left := world.rest number
  match world.stream number with
  | .source bytes => world.setStream number (.source (bytes.drop (bytes.length - count)))
  | .file location position append reads writes =>
    world.setStream number
      (.file location (position + (left.length - count)) append reads writes)
  | _ => world

end World

end KernelCatalog.Shell
