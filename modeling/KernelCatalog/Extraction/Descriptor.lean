import KernelCatalog.Extraction.Backend
import KernelCatalog.Kernel.Signature

/-!
# Kernel descriptors

In the encoding `kcfg-v1` every overload has a code symbol `<kernel>__<signature>` and a descriptor:
a data symbol of the same name with `.kd` behind it. The descriptor has sixty-four bytes and starts
with the launch resources as three words. An object may state the version of its encoding as the
address of a symbol. One malformed descriptor makes the whole object malformed, and the first one in
the order of the symbol table is reported.
-/

namespace KernelCatalog.Descriptor

def encodingName : String := "kcfg-v1"

/-- The version of the encoding. -/
def encodingVersion : UInt64 := 1

/-- The symbol whose address states the version. -/
def versionSymbol : String := "__kcfg_encoding_version"

/-- What the name of a descriptor ends with. -/
def suffix : String := ".kd"

/-- The size of a descriptor in bytes. -/
def size : UInt64 := 64

/-- What is wrong with a descriptor. -/
inductive Fault where
  | version (address : UInt64)
  | duplicate
  | notData
  | signature (error : SignatureError)
  | wrongSize (size : UInt64)
  | outside
  | smallBlock (given needed : UInt32)
  | noCode (base : String)
  deriving DecidableEq, Repr

def Fault.message : Fault → String
  | .version address =>
    "unsupported encoding version " ++ toString address.toNat ++ " (expected "
      ++ toString encodingVersion.toNat ++ ")"
  | .duplicate => "duplicate kernel descriptor"
  | .notData => "kernel descriptor must be a data object symbol"
  | .signature error => error.message
  | .wrongSize given =>
    "descriptor is " ++ toString given.toNat ++ " bytes, expected " ++ toString size.toNat
  | .outside => "descriptor bytes lie outside its section"
  | .smallBlock given needed =>
    "kernarg_size " ++ toString given.toNat ++ " is smaller than the " ++ toString needed.toNat
      ++ " bytes the signature needs"
  | .noCode base => "no code symbol '" ++ base ++ "' for descriptor"

/-- The name of the code symbol that belongs to a descriptor's name. -/
def baseName? (name : String) : Option String :=
  (Text.before? suffix.toList name.toList).map String.ofList

/-- The first symbol of a name that is code defined in a section. -/
def codeSymbol? (object : Object) (name : String) : Option Symbol :=
  object.symbols.find? fun s => s.name == name && s.kind == .function && s.sectionIndex.isSome

/-- The word at `offset` of a descriptor. -/
def word (order : ByteOrder) (bytes : Bytes) (offset : Nat) : UInt32 :=
  UInt32.ofNat (order.value ((bytes.drop offset).take 4))

/-- The launch resources that a descriptor starts with. -/
def launchOf (order : ByteOrder) (bytes : Bytes) : Launch :=
  ⟨word order bytes 0, word order bytes 4, word order bytes 8⟩

/-- The launch resources of a descriptor symbol, which must be enough for the parameters. -/
def readLaunch (object : Object) (symbol : Symbol) (params : List Param) : Except Fault Launch :=
  if symbol.size ≠ size then .error (.wrongSize symbol.size)
  else
    match object.symbolBytes? symbol with
    | none => .error .outside
    | some bytes =>
      let launch := launchOf object.byteOrder bytes
      let needed := Param.blockSize params
      if launch.kernargSize < needed then .error (.smallBlock launch.kernargSize needed)
      else .ok launch

/-- An overload that was found, with its kernel and the section of its code. -/
structure Found where
  kernel : String
  codeSection : Option Nat
  overload : Overload
  deriving DecidableEq, Repr

/-- The overload of a descriptor symbol that belongs to the code called `base`. -/
def readOverload (object : Object) (symbol : Symbol) (base : String) : Except Fault Found :=
  if symbol.kind ≠ .object then .error .notData
  else
    match Signature.split base with
    | .error e => .error (.signature e)
    | .ok (kernel, signature) =>
      match Signature.parse signature with
      | .error e => .error (.signature e)
      | .ok params =>
        match readLaunch object symbol params with
        | .error fault => .error fault
        | .ok launch =>
          match codeSymbol? object base with
          | none => .error (.noCode base)
          | some code => .ok ⟨kernel, code.sectionIndex, ⟨base, code.address, params, launch⟩⟩

/-- The overloads of the descriptors among the symbols, in order; otherwise the name of the first
malformed one and what is wrong with it. The names of the descriptors before are `seen`. -/
def collect (object : Object) (seen : List String) :
    List Symbol → Except (String × Fault) (List Found)
  | [] => .ok []
  | symbol :: rest =>
    match baseName? symbol.name with
    | none => collect object seen rest
    | some base =>
      if seen.contains symbol.name then .error (symbol.name, .duplicate)
      else
        match readOverload object symbol base with
        | .error fault => .error (symbol.name, fault)
        | .ok found =>
          match collect object (symbol.name :: seen) rest with
          | .error e => .error e
          | .ok more => .ok (found :: more)

/-- Whether the object states no version or the one that is read. -/
def checkVersion (object : Object) : Except (String × Fault) Unit :=
  match object.symbolNamed? versionSymbol with
  | some symbol =>
    if symbol.address = encodingVersion then .ok ()
    else .error (versionSymbol, .version symbol.address)
  | none => .ok ()

/-- The place of a section in the order of overloads: no section comes first. -/
def sectionRank : Option Nat → Nat
  | none => 0
  | some index => index + 1

/-- Overloads are ordered by the address of their code, then by its section, then by its name. -/
def Found.le (a b : Found) : Bool :=
  if a.overload.address ≠ b.overload.address then a.overload.address < b.overload.address
  else if sectionRank a.codeSection ≠ sectionRank b.codeSection then
    sectionRank a.codeSection < sectionRank b.codeSection
  else a.overload.symbol ≤ b.overload.symbol

/-- The processor that the flags of an object name. -/
def processorName (flags : UInt32) : String :=
  let machine := flags % 256
  if machine = 0x2c then "gfx900"
  else if machine = 0x2f then "gfx906"
  else if machine = 0x30 then "gfx908"
  else if machine = 0x36 then "gfx1030"
  else if machine = 0x3f then "gfx90a"
  else if machine = 0x41 then "gfx1100"
  else if machine = 0x4c then "gfx942"
  else "gfx-0x" ++ Text.hexPadded 2 machine.toNat

/-- The catalog of the overloads found in an object, in their order. -/
def catalogOf (object : Object) (found : List Found) : Catalog :=
  (found.mergeSort Found.le).foldl (fun catalog f => catalog.insert f.kernel f.overload)
    (Catalog.empty .amdgpu (some (processorName object.machineFlags)))

/-- The catalog of an object, or the name of the first malformed symbol and its fault. -/
def readCatalog (object : Object) : Except (String × Fault) Catalog :=
  match checkVersion object with
  | .error e => .error e
  | .ok () =>
    match collect object [] object.symbols with
    | .error e => .error e
    | .ok found => .ok (catalogOf object found)

/-- The backend that reads the encoding. -/
def backend : Backend where
  architecture := .amdgpu
  name := "amdgpu"
  encoding := some encodingName
  extract object :=
    match readCatalog object with
    | .ok catalog => .ok catalog
    | .error (symbol, fault) => .error (.malformedMetadata symbol fault.message)

end KernelCatalog.Descriptor

namespace KernelCatalog.Registry

/-- The registry of the backends that this program has. -/
def standard : Registry := Registry.empty.register Descriptor.backend

end KernelCatalog.Registry
