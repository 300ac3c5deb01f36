import KernelCatalog.Json.Decode
import KernelCatalog.Text.Blank

/-!
# The two sides of a split compilation

Code is compiled either for the host or for the device. A unit of work is configured for one side;
`Side.check` refuses work that needs the other one.
-/

namespace KernelCatalog

/-- Which half of a split compilation is built. -/
inductive Side where
  | host
  | device
  deriving DecidableEq, Repr

/-- A unit configured for one side was asked for work of the other. -/
structure SideMismatch where
  configured : Side
  required : Side
  deriving DecidableEq, Repr

namespace Side

/-- The side this program runs on. -/
def configured : Side := .host

def name : Side → String
  | .host => "host"
  | .device => "device"

/-- A side by its name, whatever its case and the blanks around it; otherwise the name that was
looked for. -/
def parse (text : String) : Except String Side :=
  let name := Text.lower (Text.trim text)
  if name = "host" then .ok .host
  else if name = "device" then .ok .device
  else .error name

/-- What is said about a name that is no side. -/
def unknownMessage (name : String) : String :=
  "unknown compilation side '" ++ name ++ "' (expected host or device)"

/-- Whether a unit configured for `side` may do work of the required side. -/
def check (side required : Side) : Except SideMismatch Unit :=
  if side = required then .ok () else .error ⟨side, required⟩

/-- What is said when code of one side is reached while compiling for the other. -/
def reachedMessage (required : Side) : String :=
  match required with
  | .device => "device-only code reached while compiling for the host side"
  | .host => "host-only code reached while compiling for the device side"

def toJson (side : Side) : Json := .str side.name

def ofJson? (value : Json) : Option Side := value.named? [("host", .host), ("device", .device)]

end Side

def SideMismatch.message (mismatch : SideMismatch) : String :=
  "expected " ++ mismatch.required.name ++ " side, but this unit is configured for the "
    ++ mismatch.configured.name ++ " side"

end KernelCatalog
