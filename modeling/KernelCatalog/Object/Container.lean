import KernelCatalog.Object.Archive
import KernelCatalog.Object.Coff
import KernelCatalog.Object.Mach

/-!
# Files of other formats

A file that is not in ELF format is refused in one of three ways: as a container of another known
format, as a damaged one, or as unknown. The formats are told apart by their first bytes.
-/

namespace KernelCatalog.Container

/-- A format other than ELF, by its first bytes. -/
inductive Kind where
  | archive
  | program
  | coff
  | mach (format : Mach.Format)
  | fatMach
  | unknown
  deriving DecidableEq, Repr

/-- The format that the first bytes name. -/
def kind (bytes : Bytes) : Kind :=
  if bytes.take 8 = Archive.signature then .archive
  else if bytes.take 2 = [0x4d, 0x5a] then .program
  else if [[0x4c, 0x01], [0x64, 0x86], [0x64, 0xaa]].contains (bytes.take 2) then .coff
  else if bytes.take 4 = [0xfe, 0xed, 0xfa, 0xce] then .mach ⟨false, .big⟩
  else if bytes.take 4 = [0xce, 0xfa, 0xed, 0xfe] then .mach ⟨false, .little⟩
  else if bytes.take 4 = [0xfe, 0xed, 0xfa, 0xcf] then .mach ⟨true, .big⟩
  else if bytes.take 4 = [0xcf, 0xfa, 0xed, 0xfe] then .mach ⟨true, .little⟩
  else if bytes.take 4 = [0xca, 0xfe, 0xba, 0xbe] then .fatMach
  else .unknown

/-- Whether a file of a known format can be read. -/
def readable (bytes : Bytes) : Kind → Bool
  | .archive => Archive.readable bytes
  | .program => Coff.programReadable bytes
  | .coff => Coff.readable bytes
  | .mach format => Mach.readable format bytes
  | .fatMach => true
  | .unknown => false

end KernelCatalog.Container
