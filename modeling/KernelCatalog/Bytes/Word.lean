import KernelCatalog.Text.Decimal
import KernelCatalog.Text.Utf8

/-!
# Words in byte strings

Numbers are stored with their least or their most significant byte first. Every read is checked
against the end of the bytes: `slice?` gives the bytes asked for or nothing.
-/

namespace KernelCatalog

/-- Which end of a number is stored first. -/
inductive ByteOrder where
  | little
  | big
  deriving DecidableEq, Repr

namespace Bytes

/-- The number whose bytes are given from the least significant one on. -/
def littleValue : Bytes → Nat
  | [] => 0
  | b :: rest => b.toNat + 256 * littleValue rest

/-- The `size` bytes from `start` on, if they are all present. -/
def slice? (bytes : Bytes) (start size : Nat) : Option Bytes :=
  if start + size ≤ bytes.length then some ((bytes.drop start).take size) else none

theorem slice?_eq_some {bytes out : Bytes} {start size : Nat} :
    slice? bytes start size = some out ↔
      start + size ≤ bytes.length ∧ out = (bytes.drop start).take size := by
  unfold slice?
  split
  · next h => simp [h, eq_comm]
  · next h => simp [h]

theorem length_of_slice? {bytes out : Bytes} {start size : Nat}
    (h : slice? bytes start size = some out) : out.length = size := by
  obtain ⟨hle, rfl⟩ := slice?_eq_some.mp h
  simp; omega

/-- The bytes in lower-case hexadecimal, two digits each. -/
def toHex (bytes : Bytes) : String :=
  String.ofList (bytes.flatMap fun b =>
    [Nat.digitChar (b.toNat / 16), Nat.digitChar (b.toNat % 16)])

/-- The bytes written by pairs of hexadecimal digits. -/
def ofHexChars? : List Char → Option Bytes
  | [] => some []
  | [_] => none
  | h :: l :: rest =>
    match Text.hexDigit? h, Text.hexDigit? l, ofHexChars? rest with
    | some a, some b, some more => some (UInt8.ofNat (a * 16 + b) :: more)
    | _, _, _ => none

/-- The bytes written by a text of pairs of hexadecimal digits. -/
def ofHex? (text : String) : Option Bytes := ofHexChars? text.toList

end Bytes

namespace ByteOrder

/-- The number stored by the given bytes. -/
def value : ByteOrder → Bytes → Nat
  | .little, bytes => bytes.littleValue
  | .big, bytes => Bytes.littleValue bytes.reverse

/-- The number stored in the `width` bytes at `offset`. -/
def read? (order : ByteOrder) (width : Nat) (bytes : Bytes) (offset : Nat) : Option Nat :=
  (bytes.slice? offset width).map order.value

end ByteOrder

end KernelCatalog
