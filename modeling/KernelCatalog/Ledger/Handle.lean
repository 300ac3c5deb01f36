import KernelCatalog.Failure
import KernelCatalog.Files.Access
import KernelCatalog.Ledger.Address

/-!
# Open ledgers

A ledger is kept in a file or in memory. An open ledger in a file has no copy of it: each operation
takes the store as it is then, so changes made to the file by others are seen. If the file is taken
away, the ledger still holds what the file held, but can no longer be written.

While a ledger is written there is a journal beside its file. One that is left over there is dealt
with at the next access.
-/

namespace KernelCatalog.Ledger

namespace StoreError

/-- A failure of the storage, with its number and what that number stands for. What the storage says
in its own words is written `<sqlite>`. -/
def storageFailure (code : Nat) (meaning : String) : Failure :=
  ⟨"SQLite error: <sqlite>", ["<sqlite>", "Error code " ++ toString code ++ ": " ++ meaning]⟩

/-- The failure that a ledger reports. -/
def failure : StoreError → Failure
  | .cannotOpen => storageFailure 14 "Unable to open the database file"
  | .notALedger => storageFailure 26 "File opened that is not a database file"
  | .noTable | .badAddress => storageFailure 1 "SQL logic error"
  | .notAllowed => storageFailure 3 "Access permission denied"
  | .readOnly => storageFailure 8 "Attempt to write a readonly database"
  | .journalLeft =>
    storageFailure 776 "Database has hot journal that must be rolled back but file is read-only"
  | .journalUnreadable => storageFailure 266 "Error reading from disk"
  | .moved =>
    storageFailure 1032 "Database cannot be modified because database file has moved"
  | .noStatus => storageFailure 1802 "Error invoking fstat to get file metadata"
  | .badStatus text =>
    let unknown := RunStatus.unknownMessage text
    let conversion := "Conversion error from type Text at index: 4, " ++ unknown
    ⟨"SQLite error: " ++ conversion, [conversion, unknown]⟩
  | .unsupportedVersion found =>
    ⟨"Unsupported schema version " ++ toString found ++ "; supported range is "
      ++ toString oldestVersion ++ "..=" ++ toString currentVersion, []⟩

def message (e : StoreError) : String := e.failure.message

end StoreError

/-- A ledger that is open. -/
inductive Handle where
  | memory (store : Store)
  /-- A ledger that cannot be written, as it was when it was opened. -/
  | fixed (store : Store)
  /-- A file, with how many things had been taken out of the tree when it was opened. -/
  | file (location : Location) (removals : Nat) (readOnly : Bool)

/-! ## Ledger files -/

/-- The store in a file, where an empty file holds an empty store. -/
def contentStore : Content → Except StoreError Store
  | .ledger store => .ok store
  | .plain [] => .ok .empty
  | .plain _ => .error .notALedger

/-- The store of what is at a place. -/
def nodeStore : Option Node → Except StoreError Store
  | some (.file content _) => contentStore content
  | _ => .error .cannotOpen

/-- The tree with a store in the file at a place, whose permissions stay as they are. -/
def putStore (files : Files) (location : Location) (store : Store) : Files :=
  let permissions := match files.get? location with
    | some (.file _ permissions) => permissions
    | _ => .plain
  files.put location (.file (.ledger store) permissions)

/-- Whether the file at a place holds a store. -/
def holdsStore (files : Files) (location : Location) (store : Store) : Bool :=
  match files.get? location with
  | some (.file content _) => content = .ledger store
  | _ => false

/-- The place of a ledger file. Unlike other paths, it is taken apart by its text alone: `..` takes
back the segment in front of it, whether or not there is such a directory. -/
def place (files : Files) (location : Location) : List String → Except FileError Location
  | [] => .ok location
  | segment :: rest =>
    if segment = "" ∨ segment = "." then place files location rest
    else if segment = ".." then place files location.dropLast rest
    else do place files (← files.follow (location ++ [segment])) rest

/-- What is written behind the name of a ledger file to name its journal. -/
def journalEnding : String := "-journal"

/-- The longest absolute path of a journal, in bytes. -/
def pathLimit : Nat := 512

/-- Whether an address lets the ledger be kept at a place. -/
def admits (address : Address) (files : Files) (location : Location) : Bool :=
  (Files.pathOf location).text.utf8ByteSize + journalEnding.utf8ByteSize ≤ pathLimit
    && (files.enter location.dropLast).toOption.isSome
    && (location.getLast?.getD "").utf8ByteSize ≤ Files.nameLimit
    && match files.get? location with
      | some (.file ..) => true
      | some _ => false
      | none => address.mode == .create

/-- The place of the file that an address names. -/
def locate (files : Files) (address : Address) : Except StoreError Location :=
  match place files (files.start address.name) (Files.segments address.name) with
  | .error _ => .error .cannotOpen
  | .ok location =>
    if !admits address files location then .error .cannotOpen
    else
      match address.pattern.map fun path => files.stat ⟨path⟩ with
      | some (.error _) => .error .noStatus
      | _ => .ok location

/-! ## Journals -/

/-- The place of the journal beside a ledger file. -/
def journalAt (location : Location) : Location :=
  location.dropLast ++ [location.getLast?.getD "" ++ journalEnding]

/-- Whether the file at a place is empty. -/
def isEmptyFile (files : Files) (location : Location) : Bool :=
  match files.get? location with
  | some (.file (.plain []) _) => true
  | _ => false

/-- Whether something is at the place of the journal, an empty file excepted. -/
def hasJournal (files : Files) (location : Location) : Bool :=
  (files.get? (journalAt location)).isSome && !isEmptyFile files (journalAt location)

/-- Deals with a journal that is left over beside a ledger file. An empty one, or one that starts
with the byte 0, stays for the next write; any other is taken away. -/
def settle (files : Files) (location : Location) (readOnly : Bool) : Except StoreError Files :=
  let journal := journalAt location
  match files.get? journal, isEmptyFile files location with
  | some .directory, false => .error .journalUnreadable
  | some (.file content _), empty =>
    match content.bytes with
    | [] => .ok files
    | first :: _ =>
      if empty then .ok (if readOnly then files else files.erase journal)
      else if first = 0 then .ok files
      else if readOnly then .error .journalLeft
      else .ok (files.erase journal)
  | _, _ => .ok files

/-- The tree after the journal of a write has come and gone. -/
def journaled (files : Files) (location : Location) : Except StoreError Files :=
  let journal := journalAt location
  if Files.nameLimit < (journal.getLast?.getD "").utf8ByteSize then .error .cannotOpen
  else
    match files.get? journal with
    | some .directory => .error .cannotOpen
    | some _ => .ok (files.erase journal)
    | none => .ok files

/-! ## Operations -/

namespace Handle

/-- The store of an open ledger, as it is now. -/
def store (handle : Handle) (files : Files) : Except StoreError Store :=
  match handle with
  | .memory store | .fixed store => .ok store
  | .file location removals readOnly =>
    match files.removedSince? removals location with
    | some node =>
      if hasJournal files location then .error .noStatus else nodeStore (some node)
    | none => do nodeStore ((← settle files location readOnly).get? location)

/-- The tree after an open ledger has been looked at. -/
def settled (handle : Handle) (files : Files) : Files :=
  match handle with
  | .memory _ | .fixed _ => files
  | .file location removals readOnly =>
    match files.removedSince? removals location with
    | some _ => files
    | none => (settle files location readOnly).toOption.getD files

/-- The open ledger with another store. A file that holds it already is not written. -/
def setStore (handle : Handle) (files : Files) (store : Store) :
    Except StoreError (Handle × Files) :=
  match handle with
  | .memory _ => .ok (.memory store, files)
  | .fixed _ => .error .readOnly
  | .file location removals readOnly =>
    if (files.removedSince? removals location).isSome then .error .moved
    else if readOnly then .error .readOnly
    else do
      let files ← settle files location readOnly
      if holdsStore files location store then .ok (handle, files)
      else .ok (handle, putStore (← journaled files location) location store)

/-- Changes the store of an open ledger and gives what the change gives. -/
def update {α : Type} (handle : Handle) (files : Files)
    (change : Store → Except StoreError (α × Store)) : Except StoreError (α × Handle × Files) := do
  let (result, store) ← change (← handle.store files)
  .ok (result, ← handle.setStore files store)

/-- The version of the ledger. -/
def version (handle : Handle) (files : Files) : Except StoreError Int := do
  .ok (← handle.store files).version

/-- Adds a run to the ledger and gives the number of its row. -/
def insert (handle : Handle) (files : Files) (run : Run) :
    Except StoreError (Nat × Handle × Files) :=
  handle.update files fun store => store.insert run

/-- The runs of a target, or all runs, the newest first. -/
def runs (handle : Handle) (files : Files) (target : Option String) :
    Except StoreError (List Run) := do
  (← handle.store files).runs target

/-- The newest run of a target. -/
def latest (handle : Handle) (files : Files) (target : String) :
    Except StoreError (Option Run) := do
  (← handle.store files).latest target

/-- Brings an open ledger to the version that this program needs. -/
def migrate (handle : Handle) (files : Files) : Except StoreError (Handle × Files) := do
  let store ← handle.store files
  let current ← store.migrate
  if current = store then .ok (handle, files) else handle.setStore files current

end Handle

/-! ## Opening -/

/-- Connects to the ledger at a path or an address as it is; a missing file is made empty, and one
that may not be written is opened to be read only. -/
def connect (files : Files) (path : Path) : Except StoreError Handle × Files :=
  if path.text.toList.contains '\x00' then (.error .cannotOpen, files)
  else
    match Address.parse path.text with
    | .error e => (.error e, files)
    | .ok address =>
      let readOnly := address.mode == .readOnly
      if address.isTransient then
        (.ok (if readOnly then .fixed .empty else .memory .empty), files)
      else
        match locate files address with
        | .error e => (.error e, files)
        | .ok location =>
          let files := if (files.get? location).isSome then files
            else files.put location (.file (.plain []) .plain)
          if address.fixed then ((nodeStore (files.get? location)).map .fixed, files)
          else
            let readOnly := readOnly || files.isProtected location
            (.ok (.file location files.removed.length readOnly), files)

/-- Opens a ledger in memory. -/
def openMemory : Except StoreError Handle := do .ok (.memory (← Store.empty.migrate))

/-- Opens the ledger at a path or an address. -/
def openFile (files : Files) (path : Path) : Except StoreError Handle × Files :=
  match connect files path with
  | (.error e, files) => (.error e, files)
  | (.ok handle, files) =>
    match handle.migrate files with
    | .error e => (.error e, handle.settled files)
    | .ok (handle, files) => (.ok handle, handle.settled files)

/-- Changes the ledger at a path or an address, whatever its version, and gives what the change
gives. -/
def edit {α : Type} (files : Files) (path : Path)
    (change : Store → Except StoreError (α × Store)) : Except StoreError α × Files :=
  match connect files path with
  | (.error e, files) => (.error e, files)
  | (.ok handle, files) =>
    match handle.update files change with
    | .error e => (.error e, handle.settled files)
    | .ok (result, _, files) => (.ok result, files)

end KernelCatalog.Ledger
