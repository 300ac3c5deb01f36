import KernelCatalog.Datum.Decode
import KernelCatalog.Json.Decode
import KernelCatalog.Text.Blank
import KernelCatalog.Text.Decimal
import KernelCatalog.Text.Split

/-!
# Processor architectures

The architecture of an object file is a sixteen-bit machine number. Four of them have names; every
other one is written by its number. Names are ordered with the four known ones first.
-/

namespace KernelCatalog

/-- The architecture that an object file is built for. -/
inductive Architecture where
  | amdgpu
  | cuda
  | x86_64
  | aarch64
  | other (machine : UInt16)
  deriving DecidableEq, Repr

namespace Architecture

/-- The architecture of a machine number. -/
def ofMachine (machine : UInt16) : Architecture :=
  if machine = 224 then .amdgpu
  else if machine = 190 then .cuda
  else if machine = 62 then .x86_64
  else if machine = 183 then .aarch64
  else .other machine

/-- The machine number of an architecture. -/
def machine : Architecture → UInt16
  | .amdgpu => 224
  | .cuda => 190
  | .x86_64 => 62
  | .aarch64 => 183
  | .other machine => machine

def name : Architecture → String
  | .amdgpu => "amdgpu"
  | .cuda => "cuda"
  | .x86_64 => "x86_64"
  | .aarch64 => "aarch64"
  | .other machine => "machine-" ++ toString machine.toNat

/-- An architecture by one of its names, whatever its case and the blanks around it. -/
def parse? (text : String) : Option Architecture :=
  let name := Text.lower (Text.trim text)
  if name = "amdgpu" ∨ name = "amdgcn" then some .amdgpu
  else if name = "cuda" ∨ name = "nvptx" ∨ name = "nvptx64" then some .cuda
  else if name = "x86_64" ∨ name = "amd64" then some .x86_64
  else if name = "aarch64" ∨ name = "arm64" then some .aarch64
  else
    match Text.after? "machine-".toList name.toList with
    | some digits => (Text.unsigned? 0xffff (String.ofList digits)).map (.other ∘ UInt16.ofNat)
    | none => none

/-- What is said about a text that names no architecture. -/
def unknownMessage (text : String) : String := "unknown architecture '" ++ text ++ "'"

/-- The place of an architecture in the order of listings. -/
def rank : Architecture → Nat
  | .amdgpu => 0
  | .cuda => 1
  | .x86_64 => 2
  | .aarch64 => 3
  | .other machine => 4 + machine.toNat

theorem rank_injective {a b : Architecture} (h : a.rank = b.rank) : a = b := by
  cases a <;> cases b <;> simp_all [rank, UInt16.toNat_inj] <;> omega

/-- The architecture as JSON: its name, or the number of one without a name. -/
def toJson : Architecture → Json
  | .other machine => .obj [("other", .nat machine.toNat)]
  | known => .str known.name

/-- The architectures that have a name, with it. -/
def named : List (String × Architecture) :=
  [("amdgpu", .amdgpu), ("cuda", .cuda), ("x86_64", .x86_64), ("aarch64", .aarch64)]

def ofJson? (value : Json) : Option Architecture :=
  match value.alternative? with
  | some ("other", some contents) => contents.uint16?.map .other
  | _ => value.named? named

def ofDatum? (value : Datum) : Option Architecture :=
  match value.alternative? (named.map (·.1) ++ ["other"]) with
  | some ("other", some contents) => contents.uint16?.map .other
  | some (name, none) | some (name, some .null) => named.lookup name
  | _ => none

end Architecture

end KernelCatalog
