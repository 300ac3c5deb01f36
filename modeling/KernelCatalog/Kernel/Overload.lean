import KernelCatalog.Kernel.Param
import KernelCatalog.Text.Quoted
import KernelCatalog.Text.Split

/-!
# Kernel overloads

An overload is one compiled form of a kernel: its code symbol and address, its parameters, and the
resources a launch of it needs. Host code picks the overload whose parameter list equals the types
of the arguments.
-/

namespace KernelCatalog

/-- The resources that a launch needs, in bytes. -/
structure Launch where
  /-- Memory of the work group. -/
  groupSegmentSize : UInt32
  /-- Scratch memory of each work item. -/
  privateSegmentSize : UInt32
  /-- The argument block. -/
  kernargSize : UInt32
  deriving DecidableEq, Repr

namespace Launch

/-- The expression of generated source that builds the launch resources. -/
def initializer (launch : Launch) : String :=
  "LaunchAttributes \x7b group_segment_size: " ++ toString launch.groupSegmentSize.toNat
    ++ ", private_segment_size: " ++ toString launch.privateSegmentSize.toNat
    ++ ", kernarg_size: " ++ toString launch.kernargSize.toNat ++ " \x7d"

def toJson (launch : Launch) : Json :=
  .obj [("group_segment_size", .nat launch.groupSegmentSize.toNat),
    ("private_segment_size", .nat launch.privateSegmentSize.toNat),
    ("kernarg_size", .nat launch.kernargSize.toNat)]

def ofJson? (value : Json) : Option Launch := do
  let fields ← value.record? ["group_segment_size", "private_segment_size", "kernarg_size"] 3
  let group ← Json.required? fields "group_segment_size" Json.uint32?
  let scratch ← Json.required? fields "private_segment_size" Json.uint32?
  let kernarg ← Json.required? fields "kernarg_size" Json.uint32?
  some ⟨group, scratch, kernarg⟩

end Launch

/-- One compiled form of a kernel. -/
structure Overload where
  /-- The symbol of the code. -/
  symbol : String
  /-- The address of the code. -/
  address : UInt64
  params : List Param
  launch : Launch
  deriving DecidableEq, Repr

namespace Overload

/-- The parameter list as listings write it, such as `i32, *mut f32`. -/
def description (overload : Overload) : String :=
  Text.join ", " (overload.params.map Param.display)

/-- The expression of generated source that builds the overload's descriptor. -/
def initializer (overload : Overload) : String :=
  "OverloadDescriptor \x7b symbol: " ++ Text.quote overload.symbol ++ ", params: &["
    ++ Text.join ", " (overload.params.map Param.initializer) ++ "], launch: "
    ++ overload.launch.initializer ++ " \x7d"

/-- Whether arguments of the given types fit the overload. -/
def accepts (overload : Overload) (args : List Param) : Bool := overload.params == args

/-- The first overload that arguments of the given types fit. -/
def select? (overloads : List Overload) (args : List Param) : Option Overload :=
  overloads.find? fun overload => overload.accepts args

def toJson (overload : Overload) : Json :=
  .obj [("symbol", .str overload.symbol), ("address", .nat overload.address.toNat),
    ("params", .arr (overload.params.map Param.toJson)), ("launch", overload.launch.toJson)]

def ofJson? (value : Json) : Option Overload := do
  let fields ← value.record? ["symbol", "address", "params", "launch"] 4
  let symbol ← Json.required? fields "symbol" Json.text?
  let address ← Json.required? fields "address" Json.uint64?
  let params ← Json.required? fields "params" (Json.list? Param.ofJson?)
  let launch ← Json.required? fields "launch" Launch.ofJson?
  some ⟨symbol, address, params, launch⟩

end Overload

end KernelCatalog
