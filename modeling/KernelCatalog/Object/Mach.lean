import KernelCatalog.Bytes.Word

/-!
# Mach files

A Mach file has a header and a list of commands, each with its kind and size. Only whether such a
file can be read matters here.
-/

namespace KernelCatalog.Mach

/-- The word size and byte order of a file. -/
structure Format where
  wide : Bool
  order : ByteOrder
  deriving DecidableEq, Repr

def Format.headerSize (format : Format) : Nat := if format.wide then 32 else 28

/-- How long a file must be at least, whatever its word size. -/
def leastLength : Nat := 32

/-- The sizes of the commands that have more than a kind and a size, by kind. -/
def commandSizes : List (Nat × Nat) :=
  [(0x1, 56), (0x2, 24), (0x3, 16), (0x4, 16), (0x5, 16), (0x6, 20), (0x7, 20), (0x9, 16),
    (0xb, 80), (0xc, 24), (0xd, 24), (0xe, 12), (0xf, 12), (0x10, 20), (0x11, 40), (0x12, 12),
    (0x13, 12), (0x14, 12), (0x15, 12), (0x16, 16), (0x17, 12), (0x80000018, 24), (0x19, 72),
    (0x1a, 72), (0x1b, 24), (0x8000001c, 12), (0x1d, 16), (0x1e, 16), (0x8000001f, 24), (0x20, 24),
    (0x21, 20), (0x22, 48), (0x80000022, 48), (0x80000023, 24), (0x24, 16), (0x25, 16), (0x26, 16),
    (0x27, 12), (0x80000028, 24), (0x29, 16), (0x2a, 16), (0x2b, 16), (0x2c, 24), (0x2d, 12),
    (0x2e, 16), (0x2f, 16), (0x30, 16), (0x32, 24), (0x80000033, 16), (0x80000034, 16)]

/-- The kinds of commands that name a library, or a path for libraries, by an offset. -/
def namingKinds : List Nat :=
  [0xc, 0xd, 0x80000018, 0x8000001c, 0x8000001f, 0x20, 0x80000023]

/-- Whether the contents of a segment are in the file. -/
def segmentFits (bytes : Bytes) (offset size : Nat) : Bool :=
  size == 0 || offset + size ≤ bytes.length

/-- Whether a text starts at an offset. -/
def textAt (bytes : Bytes) (offset : Nat) : Bool :=
  offset ≤ bytes.length && (Text.ofBytes? ((bytes.drop offset).takeWhile (· != 0))).isSome

/-- How many words the state of a thread may have. -/
def threadLimit : Nat := 70

/-- Whether the parts of the file that a command refers to are there. -/
def partsReadable (order : ByteOrder) (bytes : Bytes) (start kind size : Nat) : Bool :=
  let word (position : Nat) : Nat := (order.read? 4 bytes (start + position)).getD 0
  let wideWord (position : Nat) : Nat := (order.read? 8 bytes (start + position)).getD 0
  if kind = 0x1 then segmentFits bytes (word 32) (word 36)
  else if kind = 0x19 then segmentFits bytes (wideWord 40) (wideWord 48)
  else if kind = 0x2 then word 8 ≤ word 16 && word 8 ≤ bytes.length
  else if kind = 0x4 || kind = 0x5 then
    let length := 16 + 4 * word 12
    word 12 ≤ threadLimit && length ≤ size && start + length ≤ bytes.length
  else if namingKinds.contains kind then textAt bytes (start + word 8)
  else true

/-- Whether `count` commands from `start` on can be read. -/
def commandsReadable (order : ByteOrder) (bytes : Bytes) : (count start : Nat) → Bool
  | 0, _ => true
  | count + 1, start =>
    match order.read? 4 bytes start, order.read? 4 bytes (start + 4) with
    | some kind, some size =>
      (bytes.slice? start ((commandSizes.lookup kind).getD 8)).isSome &&
        partsReadable order bytes start kind size
          && commandsReadable order bytes count (start + size)
    | _, _ => false

/-- Whether a file can be read. -/
def readable (format : Format) (bytes : Bytes) : Bool :=
  match format.order.read? 4 bytes 16, format.order.read? 4 bytes 20 with
  | some count, some size =>
    leastLength ≤ bytes.length && count ≤ size / 8 && size ≤ bytes.length &&
      commandsReadable format.order bytes count format.headerSize
  | _, _ => false

end KernelCatalog.Mach
