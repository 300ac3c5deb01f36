import KernelCatalog.Bytes.Word
import KernelCatalog.Text.Blank
import KernelCatalog.Text.Split

/-!
# Archives

An archive is a sequence of members, each behind a header of sixty bytes. Special members hold a
directory of symbols or the long names of the others. Only whether an archive can be read matters
here: what is in its members does not.
-/

namespace KernelCatalog.Archive

/-- The bytes that start an archive. -/
def signature : Bytes := [0x21, 0x3c, 0x61, 0x72, 0x63, 0x68, 0x3e, 0x0a]

def headerSize : Nat := 60

/-- Whether bytes are text. -/
def isText (bytes : Bytes) : Bool := (Text.ofBytes? bytes).isSome

/-- The greatest size and offset. -/
def sizeLimit : Nat := 0xffffffffffffffff

/-- A member without its contents. -/
structure Member where
  /-- The sixteen bytes of the name in the header. -/
  name : String
  /-- The name in front of the contents, if it is there. -/
  longName : Option Bytes
  /-- Where the contents start. -/
  offset : Nat
  /-- How long the contents are. -/
  size : Nat
  deriving DecidableEq, Repr

/-- A text without the blanks at its end. -/
def trimEnd (isBlank : Char → Bool) (cs : List Char) : List Char :=
  (cs.reverse.dropWhile isBlank).reverse

/-- The size that a header gives: digits, with blanks behind them. -/
def sizeField? (header : Bytes) : Option Nat := do
  let field ← Text.ofBytes? ((header.drop 48).take 10)
  Text.unsigned? sizeLimit (String.ofList (trimEnd Text.isBlank field.toList))

/-- The length of a name in front of the contents, which the name in the header says. -/
def longNameLength? (name : String) : Option Nat := do
  let digits ← Text.after? "#1/".toList name.toList
  Text.unsigned? sizeLimit (String.ofList (trimEnd (· == ' ') digits))

/-- The member whose header is at `start`. -/
def readMember? (bytes : Bytes) (start : Nat) : Option Member := do
  let header ← bytes.slice? start headerSize
  let name ← Text.ofBytes? (header.take 16)
  let size ← sizeField? header
  let offset := start + headerSize
  match longNameLength? name with
  | none => some ⟨name, none, offset, size⟩
  | some length => do
    let longName ← bytes.slice? offset length
    let trimmed := (longName.reverse.dropWhile (· == 0)).reverse
    if isText longName && length ≤ size then
      some ⟨name, some trimmed, offset + length, size - length⟩
    else none

/-- The directories of symbols that have been met. -/
inductive Directories where
  | none
  /-- One in the usual form. -/
  | usual
  /-- One in the usual form and one that refers to members by number. -/
  | numbered
  /-- One with a name of its own. -/
  | named
  deriving DecidableEq, Repr

/-- The part of a file behind an offset, if it is all text. -/
def textFrom (data : Bytes) (offset : Nat) : Bool :=
  offset ≤ data.length && isText (data.drop offset)

/-- Whether a directory in the usual form can be read: a count, as many offsets and the names. -/
def usualReadable (data : Bytes) : Bool :=
  match ByteOrder.big.read? 4 data 0 with
  | some count => textFrom data (4 + 4 * count)
  | none => false

/-- Whether a directory with numbers can be read: the offsets of members, the numbers of the members
of symbols, counted from one, and the names. -/
def numberedReadable (data : Bytes) : Bool :=
  let read := ByteOrder.little.read?
  match read 4 data 0 with
  | none => false
  | some members =>
    match read 4 data (4 + 4 * members) with
    | none => false
    | some symbols =>
      let base := 8 + 4 * members
      symbols ≤ data.length && textFrom data (base + 2 * symbols) &&
        (List.range symbols).all fun i =>
          match read 2 data (base + 2 * i) with
          | some number => 1 ≤ number && number ≤ members
          | none => false

/-- Whether a text of a table starts at an offset or has it inside. -/
def hasOffset (table : Bytes) (offset : Nat) : Bool :=
  match table[offset]? with
  | some b => !Text.isTail b
  | none => offset == table.length && (table.getLast?.map (· != 0)).getD false

/-- Whether a directory with a name of its own can be read: pairs of numbers, the first of which is
an offset in the table of names behind them. -/
def namedReadable (data : Bytes) : Bool :=
  let read := ByteOrder.little.read?
  match read 4 data 0 with
  | none => false
  | some length =>
    match read 4 data (length + 4) with
    | none => false
    | some size =>
      match data.slice? (length + 8) size with
      | none => false
      | some table =>
        isText table && (List.range (length / 8)).all fun i =>
          ((read 4 data (8 * i + 4)).map (hasOffset table)).getD false

/-- The names of a directory that has one of its own. -/
def directoryNames : List Bytes := [Text.toBytes "__.SYMDEF", Text.toBytes "__.SYMDEF SORTED"]

/-- The directories that have been met behind a member, if it can be read behind those before it. -/
def Member.next? (member : Member) (bytes : Bytes) (before : Directories) : Option Directories :=
  let data? := bytes.slice? member.offset member.size
  let after (readable : Bytes → Bool) (next : Directories) : Option Directories :=
    if (data?.map readable).getD false then some next else none
  if member.name = "/               " then
    match before with
    | .none => after usualReadable .usual
    | .usual => after numberedReadable .numbered
    | .numbered | .named => none
  else if (member.longName.map directoryNames.contains).getD false then
    if before = .none then after namedReadable .named else none
  else if member.name = "//              " then
    match bytes.slice? (member.offset - 1) (member.size + 1) with
    | some names => if isText names then some before else none
    | none => none
  else some before

/-- Whether the members from `offset` on can be read; a member starts at an even offset. Every
member takes at least sixty bytes, so the length of the file is fuel enough. -/
def membersReadable (bytes : Bytes) : (fuel offset : Nat) → Directories → Bool
  | 0, _, _ => true
  | fuel + 1, offset, before =>
    if bytes.length ≤ offset + 1 then true
    else
      match readMember? bytes (offset + offset % 2) with
      | none => false
      | some member =>
        let behind := member.offset + member.size
        match member.next? bytes before with
        | some next => behind ≤ sizeLimit && membersReadable bytes fuel behind next
        | none => false

/-- Whether an archive can be read. -/
def readable (bytes : Bytes) : Bool :=
  membersReadable bytes bytes.length signature.length .none

end KernelCatalog.Archive
