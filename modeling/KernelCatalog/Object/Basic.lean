import KernelCatalog.Architecture
import KernelCatalog.Bytes.Word

/-!
# Object files

An object file is read into its sections, with their contents, and its symbols. In a relocatable
object the value of a symbol counts from the start of its section, and otherwise it is an address.
-/

namespace KernelCatalog

/-- A section and its contents. -/
structure Section where
  name : String
  /-- The type number of the section. -/
  kind : UInt32
  flags : UInt64
  address : UInt64
  /-- Where the contents start in the file. -/
  offset : UInt64
  size : UInt64
  /-- The contents; empty for a section that takes no space in the file. -/
  data : Bytes
  deriving DecidableEq, Repr

namespace Section

def fieldNames : List String := ["name", "kind", "flags", "address", "offset", "size"]

def toJson (s : Section) : Json :=
  .obj [("name", .str s.name), ("kind", .nat s.kind.toNat), ("flags", .nat s.flags.toNat),
    ("address", .nat s.address.toNat), ("offset", .nat s.offset.toNat), ("size", .nat s.size.toNat)]

def ofJson? (value : Json) : Option Section := do
  let fields ← value.record? fieldNames 6
  let name ← Json.required? fields "name" Json.text?
  let kind ← Json.required? fields "kind" Json.uint32?
  let flags ← Json.required? fields "flags" Json.uint64?
  let address ← Json.required? fields "address" Json.uint64?
  let offset ← Json.required? fields "offset" Json.uint64?
  let size ← Json.required? fields "size" Json.uint64?
  some ⟨name, kind, flags, address, offset, size, []⟩

end Section

/-- What a symbol stands for. -/
inductive SymbolKind where
  | function
  | object
  | other
  deriving DecidableEq, Repr

namespace SymbolKind

def name : SymbolKind → String
  | .function => "function"
  | .object => "object"
  | .other => "other"

/-- The name of a kind in listings. -/
def title : SymbolKind → String
  | .function => "Function"
  | .object => "Object"
  | .other => "Other"

def ofJson? (value : Json) : Option SymbolKind :=
  value.named? [("function", .function), ("object", .object), ("other", .other)]

end SymbolKind

/-- Where a symbol can be seen. -/
inductive SymbolBinding where
  | internal
  | global
  | weak
  deriving DecidableEq, Repr

namespace SymbolBinding

def name : SymbolBinding → String
  | .internal => "local"
  | .global => "global"
  | .weak => "weak"

def ofJson? (value : Json) : Option SymbolBinding :=
  value.named? [("local", .internal), ("global", .global), ("weak", .weak)]

end SymbolBinding

/-- An entry of the symbol table. -/
structure Symbol where
  name : String
  address : UInt64
  size : UInt64
  kind : SymbolKind
  binding : SymbolBinding
  /-- The number of the section that defines the symbol, if one does. -/
  sectionIndex : Option Nat
  deriving DecidableEq, Repr

namespace Symbol

def toJson (s : Symbol) : Json :=
  .obj [("name", .str s.name), ("address", .nat s.address.toNat), ("size", .nat s.size.toNat),
    ("kind", .str s.kind.name), ("binding", .str s.binding.name),
    ("section", match s.sectionIndex with | some index => .nat index | none => .null)]

def ofJson? (value : Json) : Option Symbol := do
  let fields ← value.record? ["name", "address", "size", "kind", "binding", "section"] 6
  let name ← Json.required? fields "name" Json.text?
  let address ← Json.required? fields "address" Json.uint64?
  let size ← Json.required? fields "size" Json.uint64?
  let kind ← Json.required? fields "kind" SymbolKind.ofJson?
  let binding ← Json.required? fields "binding" SymbolBinding.ofJson?
  let index ← Json.optional? fields "section" (Json.natUpTo? 0xffffffffffffffff)
  some ⟨name, address, size, kind, binding, index⟩

end Symbol

/-- An object file. -/
structure Object where
  architecture : Architecture
  /-- The flags of the header, which name the processor of an accelerator. -/
  machineFlags : UInt32
  byteOrder : ByteOrder
  relocatable : Bool
  sections : List Section
  symbols : List Symbol
  deriving DecidableEq, Repr

namespace Object

/-- The first symbol of a name. -/
def symbolNamed? (object : Object) (name : String) : Option Symbol :=
  object.symbols.find? fun s => s.name == name

/-- Where a symbol starts in its section, if it does not lie in front of it. -/
def symbolStart? (object : Object) (s : Section) (symbol : Symbol) : Option Nat :=
  if object.relocatable then some symbol.address.toNat
  else if s.address ≤ symbol.address then some (symbol.address.toNat - s.address.toNat)
  else none

/-- The bytes that a symbol covers in its section, if they are all present. -/
def symbolBytes? (object : Object) (symbol : Symbol) : Option Bytes :=
  match symbol.sectionIndex with
  | none => none
  | some index =>
    match object.sections[index]? with
    | none => none
    | some s =>
      match object.symbolStart? s symbol with
      | none => none
      | some start => s.data.slice? start symbol.size.toNat

/-- The object as JSON, without the contents of its sections. -/
def toJson (object : Object) : Json :=
  .obj [("architecture", object.architecture.toJson),
    ("machine_flags", .nat object.machineFlags.toNat),
    ("little_endian", .bool (object.byteOrder == .little)),
    ("relocatable", .bool object.relocatable),
    ("sections", .arr (object.sections.map Section.toJson)),
    ("symbols", .arr (object.symbols.map Symbol.toJson))]

/-- The object of a JSON value, without the contents of its sections. -/
def ofJson? (value : Json) : Option Object := do
  let fields ← value.record?
    ["architecture", "machine_flags", "little_endian", "relocatable", "sections", "symbols"] 6
  let architecture ← Json.required? fields "architecture" Architecture.ofJson?
  let machineFlags ← Json.required? fields "machine_flags" Json.uint32?
  let little ← Json.required? fields "little_endian" Json.bool?
  let relocatable ← Json.required? fields "relocatable" Json.bool?
  let sections ← Json.required? fields "sections" (Json.list? Section.ofJson?)
  let symbols ← Json.required? fields "symbols" (Json.list? Symbol.ofJson?)
  some ⟨architecture, machineFlags, if little then .little else .big, relocatable, sections,
    symbols⟩

end Object

end KernelCatalog
