import KernelCatalog.Object.Basic
import KernelCatalog.Object.Container
import KernelCatalog.Object.Elf

/-!
# Reading object files

`Object.ofImage` makes an object of the tables of an ELF file and the file's bytes. It fails exactly
when the contents of a section or the section of a symbol are not there. `Object.read` reads a file
of any format and gives the reason why it is refused.
-/

namespace KernelCatalog

/-- Why a file is no object. -/
inductive ObjectFault where
  /-- The tables of the file cannot be read. -/
  | unreadable
  /-- The file has another known format. -/
  | otherFormat
  /-- The first eight bytes, the lowest first, name no known format. -/
  | unknownFormat (magic : Nat)
  /-- The contents of a section are not all in the file. -/
  | sectionPastEnd (index : Nat) (name : String) (offset size : UInt64) (length : Nat)
  /-- A symbol is defined in a section that is not there. -/
  | missingSection (symbol : String) (number : Nat) (count : Nat)
  deriving DecidableEq, Repr

def ObjectFault.message : ObjectFault → String
  | .unreadable => "<parser>"
  | .otherFormat => "only ELF objects are supported"
  | .unknownFormat magic => "unrecognized magic 0x" ++ Text.hexPadded 16 magic
  | .sectionPastEnd index name offset size length =>
    "section " ++ toString index ++ " (" ++ name ++ ") spans 0x" ++ Text.hex offset.toNat ++ "+0x"
      ++ Text.hex size.toNat ++ ", past end of file (0x" ++ Text.hex length ++ " bytes)"
  | .missingSection symbol number count =>
    "symbol '" ++ symbol ++ "' references section " ++ toString number ++ " but only "
      ++ toString count ++ " exist"

namespace Object

/-- The section of a header, with its contents. -/
def readSection (bytes : Bytes) (names : Elf.StringTable) (index : Nat)
    (header : Elf.SectionHeader) : Except ObjectFault Section :=
  let name := names.get header.nameOffset
  let build (data : Bytes) : Section :=
    ⟨name, header.kind, header.flags, header.address, header.offset, header.size, data⟩
  if header.hasContents then
    match bytes.slice? header.offset.toNat header.size.toNat with
    | some data => .ok (build data)
    | none => .error (.sectionPastEnd index name header.offset header.size bytes.length)
  else .ok (build [])

/-- The sections of a list of headers, numbered from `index` on. -/
def readSections (bytes : Bytes) (names : Elf.StringTable) :
    (index : Nat) → List Elf.SectionHeader → Except ObjectFault (List Section)
  | _, [] => .ok []
  | index, header :: rest =>
    match readSection bytes names index header with
    | .error fault => .error fault
    | .ok s =>
      match readSections bytes names (index + 1) rest with
      | .error fault => .error fault
      | .ok more => .ok (s :: more)

/-- What the low four bits of an entry say that the symbol stands for. -/
def symbolKind (info : UInt8) : SymbolKind :=
  if info % 16 = 2 then .function else if info % 16 = 1 then .object else .other

/-- What the high four bits of an entry say about where the symbol can be seen. -/
def symbolBinding (info : UInt8) : SymbolBinding :=
  if info / 16 = 0 then .internal else if info / 16 = 2 then .weak else .global

/-- The symbol of an entry, in a file with the given number of sections. The number zero and the
numbers from 0xff00 on stand for no section. -/
def readSymbol (names : Elf.StringTable) (sectionCount : Nat) (entry : Elf.SymbolEntry) :
    Except ObjectFault Symbol :=
  let name := names.get entry.nameOffset
  let number := entry.sectionNumber.toNat
  let build (index : Option Nat) : Symbol :=
    ⟨name, entry.value, entry.size, symbolKind entry.info, symbolBinding entry.info, index⟩
  if number = 0 ∨ 0xff00 ≤ number then .ok (build none)
  else if number < sectionCount then .ok (build (some number))
  else .error (.missingSection name number sectionCount)

/-- The symbols of a list of entries. -/
def readSymbols (names : Elf.StringTable) (sectionCount : Nat) :
    List Elf.SymbolEntry → Except ObjectFault (List Symbol)
  | [] => .ok []
  | entry :: rest =>
    match readSymbol names sectionCount entry with
    | .error fault => .error fault
    | .ok s =>
      match readSymbols names sectionCount rest with
      | .error fault => .error fault
      | .ok more => .ok (s :: more)

/-- The object of the tables of a file. The dynamic symbols count only where the symbol table is
empty, and the first entry of a table stands for no symbol. -/
def ofImage (image : Elf.Image) (bytes : Bytes) : Except ObjectFault Object :=
  let (entries, names) :=
    if image.symbols.isEmpty then (image.dynamicSymbols, image.dynamicNames)
    else (image.symbols, image.symbolNames)
  match readSections bytes image.sectionNames 0 image.sections with
  | .error fault => .error fault
  | .ok sections =>
    match readSymbols names sections.length (entries.drop 1) with
    | .error fault => .error fault
    | .ok symbols =>
      .ok {
        architecture := .ofMachine image.machine, machineFlags := image.flags,
        byteOrder := image.order, relocatable := image.type == Elf.Image.relocatableType,
        sections, symbols }

/-- The object in a file. -/
def read (bytes : Bytes) : Except ObjectFault Object :=
  if bytes.length < 16 then .error .unreadable
  else if bytes.take 4 = Elf.signature then
    match Elf.Image.read? bytes with
    | some image => ofImage image bytes
    | none => .error .unreadable
  else
    match Container.kind bytes with
    | .unknown => .error (.unknownFormat (Bytes.littleValue (bytes.take 8)))
    | kind => if Container.readable bytes kind then .error .otherFormat else .error .unreadable

end Object

end KernelCatalog
