import KernelCatalog.Ledger.Store
import KernelCatalog.Text.Split
import KernelCatalog.Text.Utf8

/-!
# Addresses of ledgers

A ledger is found by the path of its file, or by an address: `file:`, a host that may only be the
local one, the path with bytes written as `%` and two digits, options behind `?`, and a remark
behind `#` that does not count. The options say how the file may be used.
-/

namespace KernelCatalog.Ledger

/-- How a ledger may be used. -/
inductive AccessMode where
  | readOnly
  /-- Read and written, if the file is there. -/
  | existing
  /-- Read and written; a missing file is made. -/
  | create
  /-- Kept in memory. -/
  | memory
  deriving DecidableEq, Repr

namespace AccessMode

/-- A way of use by its name. -/
def ofName? : String → Option AccessMode
  | "ro" => some .readOnly
  | "rw" => some .existing
  | "rwc" => some .create
  | "memory" => some .memory
  | _ => none

/-- How much a way of use asks for. -/
def demand : AccessMode → Nat
  | .memory => 0
  | .readOnly => 1
  | .existing => 2
  | .create => 6

/-- How much may be asked for behind a way of use. -/
def allowance : AccessMode → Nat
  | .memory => 128
  | mode => mode.demand

end AccessMode

/-- Where a ledger is kept and how it may be used. -/
structure Address where
  /-- The path of the file. -/
  name : String
  mode : AccessMode := .create
  /-- Whether the file counts as one that nobody changes. -/
  fixed : Bool := false
  /-- A file that a new one takes its permissions from. -/
  pattern : Option String := none
  deriving DecidableEq, Repr

namespace Address

/-- The bytes that a part of an address stands for. The byte 0 ends the part. -/
def unescape : List Char → Bytes
  | [] => []
  | '%' :: high :: low :: rest =>
    match Text.hexDigit? high, Text.hexDigit? low with
    | some h, some l =>
      if h = 0 ∧ l = 0 then [] else UInt8.ofNat (16 * h + l) :: unescape rest
    | _, _ => Text.toBytes "%" ++ unescape (high :: low :: rest)
  | c :: rest => Text.toBytes c.toString ++ unescape rest

/-- The text that a part of an address stands for. -/
def part (cs : List Char) : String := Text.ofBytesLenient (unescape cs)

/-- The name and the value of an option. -/
def option (cs : List Char) : String × String :=
  (part (cs.takeWhile (· ≠ '=')), part ((cs.dropWhile (· ≠ '=')).drop 1))

/-- The options of an address; one without a name does not count. -/
def options (cs : List Char) : List (String × String) :=
  ((Text.pieces '&' cs).map option).filter fun (name, _) => name != ""

/-- Whether the value of an option says yes. -/
def isYes (value : String) : Bool :=
  match value.toList.takeWhile Char.isDigit with
  | [] => ["on", "yes", "true"].contains (Text.lower value)
  | digits =>
    let n := (Text.digits? 0 digits).getD 0
    n ≤ 0x7fffffff && n % 256 != 0

/-- The ways of sharing a cache. -/
def caches : List String := ["shared", "private"]

/-- The storages on disk. -/
def storages : List String := ["unix", "unix-none", "unix-dotfile", "unix-excl"]

/-- The way of use that the options ask for, beginning with the given one. A later option may not
ask for more than an earlier one grants. -/
def modeOf : AccessMode → List (String × String) → Except StoreError AccessMode
  | mode, [] => .ok mode
  | mode, ("mode", value) :: rest =>
    match AccessMode.ofName? value with
    | none => .error .badAddress
    | some next =>
      if mode.allowance < next.demand then .error .notAllowed else modeOf next rest
  | mode, ("cache", value) :: rest =>
    if caches.contains value then modeOf mode rest else .error .badAddress
  | mode, _ :: rest => modeOf mode rest

/-- The address without its host, which may be left out or be the local one. -/
def withoutHost : List Char → Except StoreError (List Char)
  | '/' :: '/' :: rest =>
    let host := String.ofList (rest.takeWhile (· ≠ '/'))
    if host = "" ∨ host = "localhost" then .ok (rest.dropWhile (· ≠ '/'))
    else .error .badAddress
  | cs => .ok cs

/-- The address that stands behind `file:`. -/
def ofBody (cs : List Char) : Except StoreError Address := do
  let body := (← withoutHost cs).takeWhile (· ≠ '#')
  let name := part (body.takeWhile (· ≠ '?'))
  let options := options ((body.dropWhile (· ≠ '?')).drop 1)
  let mode ← modeOf .create options
  let first key := options.lookup key
  let address : Address :=
    { name, mode, fixed := ((first "immutable").map isYes).getD false, pattern := first "modeof" }
  match options.reverse.lookup "vfs" with
  | none => .ok address
  | some storage =>
    if storages.contains storage then .ok address
    else if storage = "memdb" then .ok { address with name := ":memory:" }
    else .error .badAddress

/-- The address that a text is. -/
def parse (text : String) : Except StoreError Address :=
  match Text.after? "file:".toList text.toList with
  | some body => ofBody body
  | none => .ok { name := text }

/-- Whether an address stands for a ledger that is kept in no file. -/
def isTransient (address : Address) : Bool :=
  address.name == "" || address.name == ":memory:" || address.mode == .memory

end Address

end KernelCatalog.Ledger
