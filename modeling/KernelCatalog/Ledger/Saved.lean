import KernelCatalog.Files.Basic
import KernelCatalog.Json.Parser
import KernelCatalog.Json.Printer

/-!
# Ledgers as bytes

A ledger is saved as the mark by which it is known, followed by its version and its rows as JSON.
-/

namespace KernelCatalog

namespace Ledger

namespace Row

/-- The greatest number of a row. -/
def idLimit : Nat := 0x7fffffffffffffff

def fieldNames : List String :=
  ["id", "target", "architecture", "processor", "compiler", "status", "error", "binary_path",
    "binary_hash", "generated_path", "kernel_count", "overload_count", "generated_changed",
    "started_at", "finished_at"]

def toJson (row : Row) : Json :=
  .obj [("id", .nat row.id), ("target", .str row.target), ("architecture", .str row.architecture),
    ("processor", Json.strOrNull row.processor), ("compiler", .str row.compiler),
    ("status", .str row.status), ("error", Json.strOrNull row.error),
    ("binary_path", Json.strOrNull row.binaryPath), ("binary_hash", Json.strOrNull row.binaryHash),
    ("generated_path", Json.strOrNull row.generatedPath),
    ("kernel_count", .nat row.kernelCount.toUInt64.toNat),
    ("overload_count", .nat row.overloadCount.toUInt64.toNat),
    ("generated_changed", .bool row.generatedChanged), ("started_at", .str row.startedAt),
    ("finished_at", .str row.finishedAt)]

def ofJson? (value : Json) : Option Row := do
  let fields ← value.record? fieldNames 15
  some {
    id := ← Json.required? fields "id" (Json.natUpTo? idLimit)
    target := ← Json.required? fields "target" Json.text?
    architecture := ← Json.required? fields "architecture" Json.text?
    processor := ← Json.optional? fields "processor" Json.text?
    compiler := ← Json.required? fields "compiler" Json.text?
    status := ← Json.required? fields "status" Json.text?
    error := ← Json.optional? fields "error" Json.text?
    binaryPath := ← Json.optional? fields "binary_path" Json.text?
    binaryHash := ← Json.optional? fields "binary_hash" Json.text?
    generatedPath := ← Json.optional? fields "generated_path" Json.text?
    kernelCount := (← Json.required? fields "kernel_count" Json.uint64?).toInt64
    overloadCount := (← Json.required? fields "overload_count" Json.uint64?).toInt64
    generatedChanged := ← Json.required? fields "generated_changed" Json.bool?
    startedAt := ← Json.required? fields "started_at" Json.text?
    finishedAt := ← Json.required? fields "finished_at" Json.text? }

end Row

namespace Table

def toJson (table : Table) : Json :=
  .obj [("rows", .arr (table.rows.map Row.toJson)), ("last_id", .nat table.lastId)]

def ofJson? (value : Json) : Option Table := do
  let fields ← value.record? ["rows", "last_id"] 2
  some ⟨← Json.required? fields "rows" (Json.list? Row.ofJson?),
    ← Json.required? fields "last_id" (Json.natUpTo? Row.idLimit)⟩

end Table

namespace Store

def toJson (store : Store) : Json :=
  .obj [("version", .int store.version),
    ("table", (store.table.map Table.toJson).getD .null)]

/-- A version. -/
def versionOfJson? : Json → Option Int
  | .num (.whole n) => some n
  | .num (.negative n) => some (-n)
  | _ => none

def ofJson? (value : Json) : Option Store := do
  let fields ← value.record? ["version", "table"] 2
  some ⟨← Json.required? fields "version" versionOfJson?,
    ← Json.optional? fields "table" Table.ofJson?⟩

end Store

end Ledger

namespace Content

/-- The bytes that a file is saved as. -/
def saved : Content → Bytes
  | .plain bytes => bytes
  | .ledger store => ledgerMark ++ Text.toBytes store.toJson.compact

/-- The store that saved bytes hold. -/
def store? (bytes : Bytes) : Option Ledger.Store := do
  if !ledgerMark.isPrefixOf bytes then none
  else
    let text ← Text.ofBytes? (bytes.drop ledgerMark.length)
    Ledger.Store.ofJson? (← Json.parse? text)

/-- What a file holds, by its saved bytes. -/
def ofSaved (bytes : Bytes) : Content :=
  match store? bytes with
  | some store => .ledger store
  | none => .plain bytes

end Content

end KernelCatalog
