import KernelCatalog.Bytes.Word

/-!
# The ELF format

`Image.read?` reads the tables of an ELF file: its section headers, its symbol tables, and the
string tables that hold their names. Every table is checked against the end of the file. The
dynamic symbols are found through the dynamic segment, which gives addresses: an address is mapped
to the file by the first loaded segment that contains it.
-/

namespace KernelCatalog.Elf

/-- The bytes that an ELF file starts with. -/
def signature : Bytes := [0x7f, 0x45, 0x4c, 0x46]

/-- The word size and the byte order of a file. -/
structure Format where
  wide : Bool
  order : ByteOrder
  deriving DecidableEq, Repr

namespace Format

/-- The number in the `width` bytes at `offset`. -/
def read? (format : Format) (width : Nat) (bytes : Bytes) (offset : Nat) : Option Nat :=
  format.order.read? width bytes offset

/-- The bytes of an address. -/
def addressWidth (format : Format) : Nat := if format.wide then 8 else 4

/-- One of two numbers, for the wide and for the narrow form. -/
def pick (format : Format) (wide narrow : Nat) : Nat := if format.wide then wide else narrow

end Format

/-- The parts of the file header that are used. -/
structure Header where
  type : UInt16
  machine : UInt16
  flags : UInt32
  segmentOffset : Nat
  segmentCount : Nat
  sectionOffset : Nat
  sectionCount : Nat
  /-- The section that holds the section names. -/
  namesIndex : Nat
  deriving DecidableEq, Repr

/-- The header of a file of the given format. -/
def Header.read? (format : Format) (bytes : Bytes) : Option Header := do
  let word := format.read?
  let _ ← bytes.slice? 0 (format.pick 64 52)
  let type ← word 2 bytes 16
  let machine ← word 2 bytes 18
  let segmentOffset ← word format.addressWidth bytes (format.pick 32 28)
  let sectionOffset ← word format.addressWidth bytes (format.pick 40 32)
  let flags ← word 4 bytes (format.pick 48 36)
  let segmentCount ← word 2 bytes (format.pick 56 44)
  let sectionCount ← word 2 bytes (format.pick 60 48)
  let namesIndex ← word 2 bytes (format.pick 62 50)
  some {
    type := UInt16.ofNat type, machine := UInt16.ofNat machine, flags := UInt32.ofNat flags,
    segmentOffset, segmentCount, sectionOffset, sectionCount, namesIndex }

/-- A segment: a piece of the file and where it is loaded. -/
structure Segment where
  kind : Nat
  offset : Nat
  address : Nat
  fileSize : Nat
  memorySize : Nat
  deriving DecidableEq, Repr

namespace Segment

/-- The type of a loaded segment. -/
def loadKind : Nat := 1

/-- The type of the dynamic segment. -/
def dynamicKind : Nat := 2

def headerSize (format : Format) : Nat := format.pick 56 32

/-- The segment header at `base`. -/
def read? (format : Format) (bytes : Bytes) (base : Nat) : Option Segment := do
  let address (position : Nat) := format.read? format.addressWidth bytes (base + position)
  let _ ← bytes.slice? base (headerSize format)
  let kind ← format.read? 4 bytes base
  let offset ← address (format.pick 8 4)
  let virtual ← address (format.pick 16 8)
  let fileSize ← address (format.pick 32 16)
  let memorySize ← address (format.pick 40 20)
  some ⟨kind, offset, virtual, fileSize, memorySize⟩

/-- Where the byte at an address stands in the file. -/
def fileOffset? (segments : List Segment) (address : Nat) : Option Nat :=
  match segments.find? fun s =>
      s.kind == loadKind && s.address ≤ address && address - s.address < s.memorySize with
  | some s =>
    let offset := s.offset + (address - s.address)
    if offset < UInt64.size then some offset else none
  | none => none

end Segment

/-- A section header. -/
structure SectionHeader where
  nameOffset : Nat
  kind : UInt32
  flags : UInt64
  address : UInt64
  offset : UInt64
  size : UInt64
  link : Nat
  entrySize : Nat
  deriving DecidableEq, Repr

namespace SectionHeader

/-- The type of the symbol table. -/
def symbolsKind : UInt32 := 2

/-- The type of a section that takes no space in the file. -/
def noBitsKind : UInt32 := 8

/-- The types of the relocation tables. -/
def relocationKinds : List UInt32 := [4, 9]

/-- The types of the version tables. -/
def versionKinds : List UInt32 := [0x6fffffff, 0x6ffffffd, 0x6ffffffe]

def headerSize (format : Format) : Nat := format.pick 64 40

/-- The section header at `base`. -/
def read? (format : Format) (bytes : Bytes) (base : Nat) : Option SectionHeader := do
  let address (position : Nat) := format.read? format.addressWidth bytes (base + position)
  let _ ← bytes.slice? base (headerSize format)
  let nameOffset ← format.read? 4 bytes base
  let kind ← format.read? 4 bytes (base + 4)
  let flags ← address 8
  let start ← address (format.pick 16 12)
  let offset ← address (format.pick 24 16)
  let size ← address (format.pick 32 20)
  let link ← format.read? 4 bytes (base + format.pick 40 24)
  let entrySize ← address (format.pick 56 36)
  some {
    nameOffset, kind := UInt32.ofNat kind, flags := UInt64.ofNat flags,
    address := UInt64.ofNat start, offset := UInt64.ofNat offset, size := UInt64.ofNat size,
    link, entrySize }

/-- Whether the section has contents in the file. -/
def hasContents (s : SectionHeader) : Bool := s.kind != noBitsKind && s.size != 0

/-- Whether the contents, if there are any, lie in a file of the given length and the section does
not wrap around the address space. -/
def fits (s : SectionHeader) (length : Nat) : Bool :=
  !s.hasContents ||
    (s.offset.toNat + s.size.toNat ≤ length && s.address.toNat + s.size.toNat < UInt64.size)

end SectionHeader

/-- `count` entries of the given size from `base` on. -/
def readTable? {α : Type} (item? : Nat → Option α) (size : Nat) : (count base : Nat) →
    Option (List α)
  | 0, _ => some []
  | count + 1, base =>
    match item? base with
    | none => none
    | some entry => (readTable? item? size count (base + size)).map (entry :: ·)

/-- The segments of a file. -/
def readSegments? (format : Format) (header : Header) (bytes : Bytes) : Option (List Segment) :=
  let size := Segment.headerSize format
  if bytes.length / size < header.segmentCount then none
  else readTable? (Segment.read? format bytes) size header.segmentCount header.segmentOffset

/-- The section headers of a file. A file whose header gives no count keeps it in the size of the
first section, which is always read. -/
def readSections? (format : Format) (header : Header) (bytes : Bytes) :
    Option (List SectionHeader) :=
  if header.sectionOffset = 0 then some []
  else
    match SectionHeader.read? format bytes header.sectionOffset with
    | none => none
    | some first =>
      let size := SectionHeader.headerSize format
      let count := if header.sectionCount = 0 then first.size.toNat else header.sectionCount
      if bytes.length / size < count then none
      else
        (readTable? (SectionHeader.read? format bytes) size (count - 1)
          (header.sectionOffset + size)).map (first :: ·)

/-- Texts that each end at a zero byte. -/
abbrev StringTable := Bytes

namespace StringTable

/-- The `size` bytes at `offset`, if they are there and are text. -/
def read? (bytes : Bytes) (offset size : Nat) : Option StringTable :=
  match bytes.slice? offset size with
  | none => none
  | some table => (Text.ofBytes? table).map fun _ => table

/-- The table in the section of the given number, where the largest number stands for the link of
the first section; a section that is not there holds no text. -/
def ofSection? (bytes : Bytes) (sections : List SectionHeader) (index : Nat) :
    Option StringTable :=
  let index? := if index = 0xffff then sections.head?.map (·.link) else some index
  match index?.bind (sections[·]?) with
  | none => some []
  | some s =>
    if s.fits bytes.length then read? bytes s.offset.toNat s.size.toNat else none

/-- The text at `offset`: empty past the end and inside a character. -/
def get (table : StringTable) (offset : Nat) : String :=
  (Text.ofBytes? ((table.drop offset).takeWhile (· ≠ 0))).getD ""

end StringTable

/-- An entry of a symbol table. -/
structure SymbolEntry where
  nameOffset : Nat
  /-- The kind in the low four bits, the binding above them. -/
  info : UInt8
  sectionNumber : UInt16
  value : UInt64
  size : UInt64
  deriving DecidableEq, Repr

namespace SymbolEntry

def entrySize (format : Format) : Nat := format.pick 24 16

/-- The entry at `base`. -/
def read? (format : Format) (bytes : Bytes) (base : Nat) : Option SymbolEntry := do
  let nameOffset ← format.read? 4 bytes base
  let value ← format.read? format.addressWidth bytes (base + format.pick 8 4)
  let size ← format.read? format.addressWidth bytes (base + format.pick 16 8)
  let info ← format.read? 1 bytes (base + format.pick 4 12)
  let number ← format.read? 2 bytes (base + format.pick 6 14)
  some ⟨nameOffset, UInt8.ofNat info, UInt16.ofNat number, UInt64.ofNat value, UInt64.ofNat size⟩

/-- `count` entries from `offset` on, all inside the file. -/
def readAll? (format : Format) (bytes : Bytes) (offset count : Nat) : Option (List SymbolEntry) :=
  match bytes.slice? offset (count * entrySize format) with
  | none => none
  | some table => readTable? (read? format table) (entrySize format) count 0

end SymbolEntry

/-- The entries of the dynamic segment: a tag and a value each, up to the tag zero. -/
def readDynamic? (format : Format) (bytes : Bytes) : (count base : Nat) → Option (List (Nat × Nat))
  | 0, _ => some []
  | count + 1, base =>
    let width := format.addressWidth
    match format.read? width bytes base, format.read? width bytes (base + width) with
    | some tag, some value =>
      if tag = 0 then some [(tag, value)]
      else (readDynamic? format bytes count (base + 2 * width)).map ((tag, value) :: ·)
    | _, _ => none

/-- The largest symbol number of a relocation table of `size` bytes at `offset`. -/
def largestRelocated? (format : Format) (bytes : Bytes) (offset size : Nat) (addends : Bool) :
    Option Nat :=
  if size = 0 then some 0
  else
    match bytes.slice? offset size with
    | none => none
    | some table =>
      let width := format.addressWidth
      let entry := if addends then 3 * width else 2 * width
      let number (base : Nat) : Option Nat :=
        (format.read? width table (base + width)).map fun info =>
          info >>> format.pick 32 8
      (readTable? number entry (size / entry) 0).map fun numbers => numbers.foldl max 0

/-- The number after the chain that starts with symbol `index`, whose hashes start at `base`: the
chain ends at the first odd hash. Each step reads four more bytes, so `fuel` of a quarter of the
file suffices. -/
def chainEnd? (format : Format) (bytes : Bytes) : (fuel base index : Nat) → Option Nat
  | 0, _, _ => none
  | fuel + 1, base, index =>
    match format.read? 4 bytes base with
    | none => none
    | some hash =>
      if hash % 2 = 1 then some (index + 1) else chainEnd? format bytes fuel (base + 4) (index + 1)

/-- The number of symbols of a hash table with buckets and chains at `offset`. -/
def bucketHashCount? (format : Format) (bytes : Bytes) (offset : Nat) : Option Nat := do
  let buckets ← format.read? 4 bytes offset
  let first ← format.read? 4 bytes (offset + 4)
  let filters ← format.read? 4 bytes (offset + 8)
  if buckets = 0 ∨ first = 0 ∨ filters = 0 then none
  else
    let base := offset + 16 + filters * format.addressWidth
    let table ← bytes.slice? base (buckets * 4)
    let starts ← readTable? (format.read? 4 table) 4 buckets 0
    let largest := starts.foldl max 0
    if largest < first then some 0
    else
      chainEnd? format bytes (bytes.length / 4 + 1)
        (base + buckets * 4 + (largest - first) * 4) largest

/-- The number of symbols of a plain hash table at `offset`; two machines store it in eight bytes
in their wide form. -/
def plainHashCount? (format : Format) (machine : UInt16) (bytes : Bytes) (offset : Nat) :
    Option Nat :=
  format.read? (if format.wide && (machine == 41 || machine == 22) then 8 else 4) bytes (offset + 4)

/-- The dynamic symbols and their names. -/
def readDynamicSymbols? (format : Format) (machine : UInt16) (bytes : Bytes)
    (segments : List Segment) : Option (List SymbolEntry × StringTable) :=
  match segments.find? fun s => s.kind == Segment.dynamicKind with
  | none => some ([], [])
  | some segment => do
    let contents ←
      if segment.fileSize = 0 then some [] else bytes.slice? segment.offset segment.fileSize
    let entries ← readDynamic? format contents (segment.fileSize / (2 * format.addressWidth)) 0
    let last? (tag : Nat) : Option Nat := (entries.reverse.find? fun e => e.1 == tag).map (·.2)
    let number (tag : Nat) : Nat := (last? tag).getD 0
    let place? (tag : Nat) : Option Nat := (last? tag).bind (Segment.fileOffset? segments)
    let place (tag : Nat) : Nat := (place? tag).getD 0
    let names ← StringTable.read? bytes (place 5) (number 10)
    let addends ← largestRelocated? format bytes (place 7) (number 8) true
    let plain ← largestRelocated? format bytes (place 17) (number 18) false
    let linked ← largestRelocated? format bytes (place 23) (number 2) (number 20 == 7)
    let hashed ← match place? 0x6ffffef5, place? 4 with
      | some offset, _ => bucketHashCount? format bytes offset
      | none, some offset => plainHashCount? format machine bytes offset
      | none, none => some 0
    let relocated := max addends (max plain linked)
    let count := if relocated = 0 then hashed else max hashed (relocated + 1)
    let symbols ← SymbolEntry.readAll? format bytes (place 6) count
    some (symbols, names)

/-- The symbols of the last symbol table section, and their names. -/
def readSymbols? (format : Format) (bytes : Bytes) (sections : List SectionHeader) :
    Option (List SymbolEntry × StringTable) :=
  match sections.reverse.find? fun s => s.kind == SectionHeader.symbolsKind with
  | none => some ([], [])
  | some s => do
    let count := if s.entrySize = 0 then 0 else s.size.toNat / s.entrySize
    let symbols ← SymbolEntry.readAll? format bytes s.offset.toNat count
    let names ← StringTable.ofSection? bytes sections s.link
    some (symbols, names)

/-- Whether the first section of a type, if there is one, lies in the file. -/
def firstFits (bytes : Bytes) (sections : List SectionHeader) (kind : UInt32) : Bool :=
  match sections.find? fun s => s.kind == kind with
  | none => true
  | some s => s.offset.toNat + s.size.toNat ≤ bytes.length

/-- The tables of an ELF file. -/
structure Image where
  type : UInt16
  machine : UInt16
  flags : UInt32
  order : ByteOrder
  sections : List SectionHeader
  sectionNames : StringTable
  symbols : List SymbolEntry
  symbolNames : StringTable
  dynamicSymbols : List SymbolEntry
  dynamicNames : StringTable
  deriving DecidableEq, Repr

namespace Image

/-- The type of a relocatable file. -/
def relocatableType : UInt16 := 1

/-- The word size and byte order that the identification bytes name. -/
def format? (bytes : Bytes) : Option Format :=
  match bytes.drop 4 with
  | 1 :: 1 :: _ => some ⟨false, .little⟩
  | 1 :: 2 :: _ => some ⟨false, .big⟩
  | 2 :: 1 :: _ => some ⟨true, .little⟩
  | 2 :: 2 :: _ => some ⟨true, .big⟩
  | _ => none

/-- The tables of a file that starts with the signature. -/
def read? (bytes : Bytes) : Option Image := do
  let format ← format? bytes
  let header ← Header.read? format bytes
  let segments ← readSegments? format header bytes
  let sections ← readSections? format header bytes
  let sectionNames ← StringTable.ofSection? bytes sections header.namesIndex
  let (symbols, symbolNames) ← readSymbols? format bytes sections
  let (dynamicSymbols, dynamicNames) ← readDynamicSymbols? format header.machine bytes segments
  let relocations := sections.filter fun s => SectionHeader.relocationKinds.contains s.kind
  if relocations.all (·.fits bytes.length) &&
      SectionHeader.versionKinds.all (firstFits bytes sections) then
    some {
      type := header.type, machine := header.machine, flags := header.flags, order := format.order,
      sections, sectionNames, symbols, symbolNames, dynamicSymbols, dynamicNames }
  else none

end Image

end KernelCatalog.Elf
