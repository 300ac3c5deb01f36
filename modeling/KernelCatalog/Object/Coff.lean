import KernelCatalog.Bytes.Word

/-!
# COFF files and the programs around them

A COFF file has a header, a table of sections, and a table of symbols with the long names behind it.
A program file has a COFF header behind a small program of another kind. Only whether such a file
can be read matters here.
-/

namespace KernelCatalog.Coff

/-- The number in `width` bytes, the lowest first. -/
def word? (width : Nat) (bytes : Bytes) (offset : Nat) : Option Nat :=
  ByteOrder.little.read? width bytes offset

/-- The header of a COFF file. -/
structure Header where
  sectionCount : Nat
  /-- Where the symbols are, or zero. -/
  symbolOffset : Nat
  symbolCount : Nat
  /-- The size of the header that may follow. -/
  optionalSize : Nat
  deriving DecidableEq, Repr

namespace Header

/-- The size of a header. -/
def size : Nat := 20

def symbolSize : Nat := 18

def sectionSize : Nat := 40

/-- The header at `base`. -/
def read? (bytes : Bytes) (base : Nat) : Option Header := do
  let _ ← bytes.slice? base size
  some ⟨← word? 2 bytes (base + 2), ← word? 4 bytes (base + 8), ← word? 4 bytes (base + 12),
    ← word? 2 bytes (base + 16)⟩

/-- Where the long names start. -/
def namesOffset (header : Header) : Nat := header.symbolOffset + header.symbolCount * symbolSize

end Header

/-- The text in front of the first zero byte, or all of it. -/
def textUpToZero? (bytes : Bytes) : Option String := Text.ofBytes? (bytes.takeWhile (· != 0))

/-- The value of a digit in base 64. -/
def digit64? (c : Char) : Option Nat :=
  let n := c.toNat
  if 'A' ≤ c ∧ c ≤ 'Z' then some (n - 'A'.toNat)
  else if 'a' ≤ c ∧ c ≤ 'z' then some (n - 'a'.toNat + 26)
  else if c.isDigit then some (n - '0'.toNat + 52)
  else if c = '+' then some 62
  else if c = '/' then some 63
  else none

/-- The offset of a long name, which a name with a slash in front gives in decimal, and one with two
slashes in base 64. -/
def longNameOffset? (name : Bytes) : Option Nat :=
  match name with
  | 0x2f :: 0x2f :: rest => do
    let digits ← (← textUpToZero? rest).toList.mapM digit64?
    if digits.length ≤ 6 then some (digits.foldl (fun n d => n * 64 + d) 0) else none
  | 0x2f :: rest => do Text.unsigned? 0xffffffffffffffff (← textUpToZero? rest)
  | _ => none

/-- Whether the name of a section is there: in its entry, or among the long names. -/
def nameReadable (bytes : Bytes) (names : Nat) (entry : Bytes) : Bool :=
  if entry.head? == some 0x2f then
    match longNameOffset? (entry.take 8) with
    | some offset =>
      names + offset ≤ bytes.length && (textUpToZero? (bytes.drop (names + offset))).isSome
    | none => false
  else true

/-- Whether the table of sections at `base` can be read. -/
def sectionsReadable (bytes : Bytes) (header : Header) (base : Nat) : Bool :=
  header.sectionCount ≤ bytes.length / Header.sectionSize &&
    (List.range header.sectionCount).all fun i =>
      match bytes.slice? (base + i * Header.sectionSize) Header.sectionSize with
      | some entry => nameReadable bytes header.namesOffset entry
      | none => false

/-- Whether the symbols and the long names behind them, whose length is in front of them and counts
itself, are there. -/
def symbolsReadable (bytes : Bytes) (header : Header) : Bool :=
  header.symbolOffset == 0 ||
    match word? 4 bytes header.namesOffset with
    | none => false
    | some length =>
      4 ≤ length &&
        match bytes.slice? (header.namesOffset + 4) (length - 4) with
        | some names => (Text.ofBytes? names).isSome
        | none => false

/-- Whether a COFF file can be read. -/
def readable (bytes : Bytes) : Bool :=
  match Header.read? bytes 0 with
  | none => false
  | some header =>
    sectionsReadable bytes header (Header.size + header.optionalSize) &&
      symbolsReadable bytes header

/-- How many directories a program may have. -/
def directoryLimit : Nat := 16

/-- Whether the optional header of a program can be read. It has one of two sizes, by the number at
its start, and all its directories must be empty. -/
def optionalReadable (bytes : Bytes) (base : Nat) : Bool :=
  let sizes : List (Nat × Nat) := [(0x10b, 96), (0x20b, 112)]
  match (word? 2 bytes base).bind fun magic => sizes.lookup magic with
  | none => false
  | some size =>
    match word? 4 bytes (base + size - 4) with
    | none => false
    | some count =>
      count ≤ directoryLimit &&
        ((bytes.slice? (base + size) (8 * count)).map (·.all (· == 0))).getD false

/-- Whether a program file can be read: its first bytes say where its COFF header is, behind a
signature. -/
def programReadable (bytes : Bytes) : Bool :=
  match word? 4 bytes 0x3c with
  | none => false
  | some start =>
    match word? 4 bytes start, bytes.slice? 0x40 0x40, Header.read? bytes (start + 4) with
    | some 0x4550, some _, some header =>
      let behind := start + 4 + Header.size
      (header.optionalSize == 0 || optionalReadable bytes behind) &&
        sectionsReadable bytes header (behind + header.optionalSize)
    | _, _, _ => false

end KernelCatalog.Coff
