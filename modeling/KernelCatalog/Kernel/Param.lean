import KernelCatalog.Json.Decode

/-!
# Kernel parameters

A kernel takes scalars and pointers to scalars. Parameters are laid out in order, each aligned to
its own size, in one argument block.
-/

namespace KernelCatalog

/-- The element type of a parameter. -/
inductive Scalar where
  | i8
  | i16
  | i32
  | i64
  | u8
  | u16
  | u32
  | u64
  | f16
  | f32
  | f64
  | bool
  deriving DecidableEq, Repr

namespace Scalar

/-- Every scalar, in the order of listings. -/
def all : List Scalar := [.i8, .i16, .i32, .i64, .u8, .u16, .u32, .u64, .f16, .f32, .f64, .bool]

/-- The short name that signatures and listings use. -/
def name : Scalar → String
  | .i8 => "i8"
  | .i16 => "i16"
  | .i32 => "i32"
  | .i64 => "i64"
  | .u8 => "u8"
  | .u16 => "u16"
  | .u32 => "u32"
  | .u64 => "u64"
  | .f16 => "f16"
  | .f32 => "f32"
  | .f64 => "f64"
  | .bool => "bool"

/-- The name that generated source uses. -/
def variant : Scalar → String
  | .i8 => "I8"
  | .i16 => "I16"
  | .i32 => "I32"
  | .i64 => "I64"
  | .u8 => "U8"
  | .u16 => "U16"
  | .u32 => "U32"
  | .u64 => "U64"
  | .f16 => "F16"
  | .f32 => "F32"
  | .f64 => "F64"
  | .bool => "Bool"

/-- The scalar of a short name. -/
def ofName? (text : String) : Option Scalar := all.find? fun s => s.name == text

/-- The size of a scalar in bytes. -/
def size : Scalar → UInt32
  | .i8 | .u8 | .bool => 1
  | .i16 | .u16 | .f16 => 2
  | .i32 | .u32 | .f32 => 4
  | .i64 | .u64 | .f64 => 8

@[simp] theorem ofName?_name (s : Scalar) : ofName? s.name = some s := by cases s <;> decide

def toJson (s : Scalar) : Json := .str s.name

def ofJson? (value : Json) : Option Scalar := value.named? (all.map fun s => (s.name, s))

end Scalar

/-- The memory that a pointer refers to. -/
inductive AddressSpace where
  /-- Memory of the whole device. -/
  | global
  /-- Memory shared by one work group. -/
  | workgroup
  deriving DecidableEq, Repr

namespace AddressSpace

def name : AddressSpace → String
  | .global => "global"
  | .workgroup => "local"

/-- The name that generated source uses. -/
def variant : AddressSpace → String
  | .global => "Global"
  | .workgroup => "Local"

def toJson (space : AddressSpace) : Json := .str space.name

def ofJson? (value : Json) : Option AddressSpace :=
  value.named? [("global", .global), ("local", .workgroup)]

end AddressSpace

/-- One kernel parameter. -/
inductive Param where
  | scalar (type : Scalar)
  | pointer (space : AddressSpace) (elem : Scalar) (mutable : Bool)
  deriving DecidableEq, Repr

namespace Param

/-- The size of a device pointer in bytes. -/
def pointerSize : UInt32 := 8

/-- The size of a parameter in bytes. -/
def size : Param → UInt32
  | .scalar type => type.size
  | .pointer .. => pointerSize

/-- A parameter starts at a multiple of its size. -/
def align (p : Param) : UInt32 := p.size

/-- A parameter in listings, such as `*const f32`. -/
def display : Param → String
  | .scalar type => type.name
  | .pointer space elem mutable =>
    "*" ++ (match space with | .global => "" | .workgroup => "local ")
      ++ (if mutable then "mut " else "const ") ++ elem.name

/-- The expression of generated source that builds the parameter. -/
def initializer : Param → String
  | .scalar type => "ParamType::Scalar(ScalarType::" ++ type.variant ++ ")"
  | .pointer space elem mutable =>
    "ParamType::Pointer \x7b space: AddressSpace::" ++ space.variant ++ ", elem: ScalarType::"
      ++ elem.variant ++ ", mutable: " ++ (if mutable then "true" else "false") ++ " \x7d"

/-- The end of a parameter placed at the first fitting offset from `offset` on. -/
def place (offset : UInt32) (p : Param) : UInt32 :=
  (if offset % p.align = 0 then offset / p.align else offset / p.align + 1) * p.align + p.size

/-- The size of the argument block of a parameter list. -/
def blockSize (params : List Param) : UInt32 := params.foldl place 0

def toJson : Param → Json
  | .scalar type => .obj [("scalar", type.toJson)]
  | .pointer space elem mutable =>
    .obj [("pointer", .obj
      [("space", space.toJson), ("elem", elem.toJson), ("mutable", .bool mutable)])]

def ofJson? (value : Json) : Option Param :=
  match value.alternative? with
  | some ("scalar", some contents) => (Scalar.ofJson? contents).map .scalar
  | some ("pointer", some contents) => do
    let fields ← contents.record? ["space", "elem", "mutable"] 3
    let space ← Json.required? fields "space" AddressSpace.ofJson?
    let elem ← Json.required? fields "elem" Scalar.ofJson?
    let mutable ← Json.required? fields "mutable" Json.bool?
    some (.pointer space elem mutable)
  | _ => none

end Param

end KernelCatalog
