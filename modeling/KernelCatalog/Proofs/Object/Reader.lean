import KernelCatalog.Object.Reader
import KernelCatalog.Proofs.Object.Content
import KernelCatalog.Proofs.Pairing

/-!
# Objects and the tables that they are read from

No number of a file's tables is trusted. A file is refused exactly when the contents of a section do
not all lie in it, or an entry of the symbol table is of a section that is not there. Otherwise the
object represents the tables: it has a section for each header, with exactly the bytes that the
header tells, and a symbol for each entry but the first, of no section or of one that is there.

Offsets and sizes are words, and the sum of two words may be none. `accessSections` takes the steps
that a machine takes, in words and with slices that have to lie in the file, and ends as
`readSections` does.

* `ofImage_eq_ok_iff`: the objects that are read represent the tables.
* `ofImage_eq_error_iff`: the first section or entry that offends is reported.
* `accessSections_eq`: no slice is out of range.
-/

namespace KernelCatalog

namespace Elf

namespace SectionHeader

/-- The contents of the section do not all lie in a file of the given length. -/
structure PastEnd (header : SectionHeader) (length : Nat) : Prop where
  kind_ne : header.kind ≠ noBitsKind
  size_ne : header.size ≠ 0
  lt_end : length < header.offset.toNat + header.size.toNat

/-- A section has contents in the file by its type and its size. -/
theorem hasContents_iff {header : SectionHeader} :
    header.hasContents = true ↔ header.kind ≠ noBitsKind ∧ header.size ≠ 0 := by
  simp [hasContents]

end SectionHeader

/-- The entry is of a section, and a file with the given number of sections does not have it. -/
structure SymbolEntry.Dangling (entry : SymbolEntry) (sectionCount : Nat) : Prop where
  ne_zero : 0 < entry.sectionNumber.toNat
  lt_reserved : entry.sectionNumber.toNat < 0xff00
  count_le : sectionCount ≤ entry.sectionNumber.toNat

/-- The entries that count and their names: the dynamic ones only where the symbol table is empty. -/
def Image.table (image : Image) : List SymbolEntry × StringTable :=
  if image.symbols = [] then (image.dynamicSymbols, image.dynamicNames)
  else (image.symbols, image.symbolNames)

end Elf

namespace Object

/-- What fails for one reason alone succeeds without it. -/
theorem exists_eq_ok_iff_not {ε α : Type} {result : Except ε α} {reason : Prop} {error : ε}
    (h : ∀ e, result = .error e ↔ reason ∧ e = error) : (∃ a, result = .ok a) ↔ ¬ reason := by
  cases result with
  | ok a =>
    have hnone : ¬ reason := fun hreason => absurd ((h error).mpr ⟨hreason, rfl⟩) (by simp)
    exact ⟨fun _ => hnone, fun _ => ⟨a, rfl⟩⟩
  | error e =>
    have hreason := ((h e).mp rfl).1
    simp [hreason]

/-! ## Sections -/

/-- `s` is the section that a header tells. -/
structure IsSection (bytes : Bytes) (names : Elf.StringTable) (header : Elf.SectionHeader)
    (s : Section) : Prop where
  name_eq : s.name = names.get header.nameOffset
  kind_eq : s.kind = header.kind
  flags_eq : s.flags = header.flags
  address_eq : s.address = header.address
  offset_eq : s.offset = header.offset
  size_eq : s.size = header.size
  /-- The data are the bytes of the file from the offset on, as many as the size says. -/
  data_eq : header.kind ≠ Elf.SectionHeader.noBitsKind → header.size ≠ 0 →
    ∃ before after, bytes = before ++ s.data ++ after ∧ before.length = header.offset.toNat ∧
      s.data.length = header.size.toNat
  data_empty : header.kind = Elf.SectionHeader.noBitsKind ∨ header.size = 0 → s.data = []

variable {bytes : Bytes} {names : Elf.StringTable} {index : Nat}

/-- What is read for a header is the section that it tells. -/
theorem readSection_eq_ok_iff {header : Elf.SectionHeader} {s : Section} :
    readSection bytes names index header = .ok s ↔ IsSection bytes names header s := by
  rcases s with ⟨name, kind, flags, address, offset, size, data⟩
  unfold readSection
  by_cases hcontents : header.hasContents = true
  · rw [if_pos hcontents]
    obtain ⟨hkind, hsize⟩ := Elf.SectionHeader.hasContents_iff.mp hcontents
    constructor
    · intro h
      split at h
      · next hslice =>
        cases h
        exact ⟨rfl, rfl, rfl, rfl, rfl, rfl,
          fun _ _ => Bytes.slice?_eq_some_iff_append.mp hslice, by simp [hkind, hsize]⟩
      · exact absurd h (by simp)
    · rintro ⟨rfl, rfl, rfl, rfl, rfl, rfl, hdata, -⟩
      rw [Bytes.slice?_eq_some_iff_append.mpr (hdata hkind hsize)]
  · rw [if_neg hcontents]
    have hnone : header.kind = Elf.SectionHeader.noBitsKind ∨ header.size = 0 := by
      rw [Elf.SectionHeader.hasContents_iff] at hcontents
      tauto
    constructor
    · intro h
      cases h
      exact ⟨rfl, rfl, rfl, rfl, rfl, rfl, by tauto, fun _ => rfl⟩
    · rintro ⟨rfl, rfl, rfl, rfl, rfl, rfl, -, hdata⟩
      obtain rfl := hdata hnone
      rfl

/-- A section is refused when its contents do not all lie in the file. -/
theorem readSection_eq_error_iff {header : Elf.SectionHeader} {fault : ObjectFault} :
    readSection bytes names index header = .error fault ↔
      header.PastEnd bytes.length ∧
        fault = .sectionPastEnd index (names.get header.nameOffset) header.offset header.size
          bytes.length := by
  unfold readSection Bytes.slice?
  by_cases hcontents : header.hasContents = true
  · rw [if_pos hcontents]
    obtain ⟨hkind, hsize⟩ := Elf.SectionHeader.hasContents_iff.mp hcontents
    by_cases hle : header.offset.toNat + header.size.toNat ≤ bytes.length
    · rw [if_pos hle]
      constructor
      · intro h
        exact absurd h (by simp)
      · rintro ⟨hpast, -⟩
        exact absurd hpast.lt_end (by omega)
    · rw [if_neg hle]
      have hpast : header.PastEnd bytes.length := ⟨hkind, hsize, by omega⟩
      simp [hpast, eq_comm]
  · rw [if_neg hcontents]
    constructor
    · intro h
      exact absurd h (by simp)
    · rintro ⟨hpast, -⟩
      exact absurd (Elf.SectionHeader.hasContents_iff.mpr ⟨hpast.kind_ne, hpast.size_ne⟩) hcontents

/-- A section whose contents all lie in the file is read. -/
theorem exists_readSection_eq_ok_iff {header : Elf.SectionHeader} :
    (∃ s, readSection bytes names index header = .ok s) ↔ ¬ header.PastEnd bytes.length :=
  exists_eq_ok_iff_not fun _ => readSection_eq_error_iff

/-- The contents of a section that is told lie in the file. -/
theorem IsSection.not_pastEnd {header : Elf.SectionHeader} {s : Section}
    (h : IsSection bytes names header s) : ¬ header.PastEnd bytes.length := by
  have hread : readSection bytes names 0 header = .ok s := readSection_eq_ok_iff.mpr h
  exact exists_readSection_eq_ok_iff.mp ⟨s, hread⟩

/-- Sections are read one by one, each with its number. -/
theorem readSections_eq_mapM (headers : List Elf.SectionHeader) :
    readSections bytes names index headers =
      (headers.zipIdx index).mapM fun entry => readSection bytes names entry.2 entry.1 := by
  induction headers generalizing index with
  | nil => rfl
  | cons header rest ih =>
    rw [List.zipIdx_cons, Pairing.mapM_cons, ← ih, readSections]
    cases readSection bytes names index header with
    | error fault => rfl
    | ok s =>
      cases readSections bytes names (index + 1) rest with
      | error fault => rfl
      | ok more => rfl

/-- The sections that are read are those that the headers tell, in order. -/
theorem readSections_eq_ok_iff {headers : List Elf.SectionHeader} {sections : List Section} :
    readSections bytes names index headers = .ok sections ↔
      List.Forall₂ (IsSection bytes names) headers sections := by
  rw [readSections_eq_mapM, Pairing.mapM_eq_ok_iff]
  simp only [readSection_eq_ok_iff]
  rw [← List.forall₂_map_left_iff (f := Prod.fst), List.zipIdx_map_fst]

/-- Sections are refused when the contents of one of them do not all lie in the file, and the first
such section is reported. -/
theorem readSections_eq_error_iff {headers : List Elf.SectionHeader} {fault : ObjectFault} :
    readSections bytes names index headers = .error fault ↔
      ∃ before header after, headers = before ++ header :: after ∧
        (∀ h ∈ before, ¬ h.PastEnd bytes.length) ∧ header.PastEnd bytes.length ∧
        fault = .sectionPastEnd (index + before.length) (names.get header.nameOffset) header.offset
          header.size bytes.length := by
  rw [readSections_eq_mapM, Pairing.mapM_eq_error_iff]
  simp only [readSection_eq_error_iff, exists_readSection_eq_ok_iff]
  constructor
  · rintro ⟨_, ⟨header, number⟩, _, hsplit, hbefore, hpast, rfl⟩
    obtain ⟨before, rest, rfl, rfl, hrest⟩ := List.zipIdx_eq_append_iff.mp hsplit
    obtain ⟨_, after, rfl, hheader, -⟩ := List.zipIdx_eq_cons_iff.mp hrest.symm
    cases hheader
    refine ⟨before, header, after, rfl, ?_, hpast, rfl⟩
    rw [← List.zipIdx_map_fst index before, List.forall_mem_map]
    exact hbefore
  · rintro ⟨before, header, after, rfl, hbefore, hpast, rfl⟩
    refine ⟨before.zipIdx index, (header, index + before.length), _,
      List.zipIdx_append, ?_, hpast, rfl⟩
    rwa [← List.zipIdx_map_fst index before, List.forall_mem_map] at hbefore

/-! ## Symbols -/

/-- `symbol` is the symbol that an entry tells, in a file with the given number of sections. -/
structure IsSymbol (names : Elf.StringTable) (sectionCount : Nat) (entry : Elf.SymbolEntry)
    (symbol : Symbol) : Prop where
  name_eq : symbol.name = names.get entry.nameOffset
  address_eq : symbol.address = entry.value
  size_eq : symbol.size = entry.size
  kind_eq : symbol.kind = symbolKind entry.info
  binding_eq : symbol.binding = symbolBinding entry.info
  /-- The numbers that are kept for other uses stand for no section. -/
  section_eq : symbol.sectionIndex =
    if 0 < entry.sectionNumber.toNat ∧ entry.sectionNumber.toNat < 0xff00 then
      some entry.sectionNumber.toNat
    else none
  /-- The section of the symbol is there. -/
  section_lt : ∀ index, symbol.sectionIndex = some index → 0 < index ∧ index < sectionCount

variable {sectionCount : Nat}

/-- What is read for an entry is the symbol that it tells. -/
theorem readSymbol_eq_ok_iff {entry : Elf.SymbolEntry} {symbol : Symbol} :
    readSymbol names sectionCount entry = .ok symbol ↔
      IsSymbol names sectionCount entry symbol := by
  rcases symbol with ⟨name, address, size, kind, binding, section?⟩
  unfold readSymbol
  dsimp only
  by_cases hnone : entry.sectionNumber.toNat = 0 ∨ 0xff00 ≤ entry.sectionNumber.toNat
  · have hnumber : ¬ (0 < entry.sectionNumber.toNat ∧ entry.sectionNumber.toNat < 0xff00) := by omega
    rw [if_pos hnone]
    constructor
    · intro h
      cases h
      exact ⟨rfl, rfl, rfl, rfl, rfl, by rw [if_neg hnumber], by simp⟩
    · rintro ⟨rfl, rfl, rfl, rfl, rfl, hsection, -⟩
      rw [if_neg hnumber] at hsection
      obtain rfl := hsection
      rfl
  · have hnumber : 0 < entry.sectionNumber.toNat ∧ entry.sectionNumber.toNat < 0xff00 := by omega
    rw [if_neg hnone]
    constructor
    · intro h
      split at h
      · next hlt =>
        cases h
        refine ⟨rfl, rfl, rfl, rfl, rfl, by rw [if_pos hnumber], ?_⟩
        rintro index ⟨⟩
        exact ⟨hnumber.1, hlt⟩
      · exact absurd h (by simp)
    · rintro ⟨rfl, rfl, rfl, rfl, rfl, hsection, hlt⟩
      rw [if_pos hnumber] at hsection
      obtain rfl := hsection
      rw [if_pos (hlt _ rfl).2]

/-- A symbol is refused when its section is not there. -/
theorem readSymbol_eq_error_iff {entry : Elf.SymbolEntry} {fault : ObjectFault} :
    readSymbol names sectionCount entry = .error fault ↔
      entry.Dangling sectionCount ∧
        fault = .missingSection (names.get entry.nameOffset) entry.sectionNumber.toNat
          sectionCount := by
  unfold readSymbol
  dsimp only
  split
  · next hnone =>
    constructor
    · intro h
      exact absurd h (by simp)
    · rintro ⟨⟨hzero, hreserved, -⟩, -⟩
      omega
  · next hsome =>
    split
    · next hlt =>
      constructor
      · intro h
        exact absurd h (by simp)
      · rintro ⟨hdangling, -⟩
        exact absurd hdangling.count_le (by omega)
    · next hlt =>
      have hdangling : entry.Dangling sectionCount := ⟨by omega, by omega, by omega⟩
      simp [hdangling, eq_comm]

/-- A symbol of no section, or of one that is there, is read. -/
theorem exists_readSymbol_eq_ok_iff {entry : Elf.SymbolEntry} :
    (∃ symbol, readSymbol names sectionCount entry = .ok symbol) ↔
      ¬ entry.Dangling sectionCount :=
  exists_eq_ok_iff_not fun _ => readSymbol_eq_error_iff

/-- The section of a symbol that is told is there. -/
theorem IsSymbol.not_dangling {entry : Elf.SymbolEntry} {symbol : Symbol}
    (h : IsSymbol names sectionCount entry symbol) : ¬ entry.Dangling sectionCount :=
  exists_readSymbol_eq_ok_iff.mp ⟨symbol, readSymbol_eq_ok_iff.mpr h⟩

theorem readSymbols_eq_mapM (entries : List Elf.SymbolEntry) :
    readSymbols names sectionCount entries = entries.mapM (readSymbol names sectionCount) := by
  induction entries with
  | nil => rfl
  | cons entry rest ih =>
    rw [Pairing.mapM_cons, ← ih, readSymbols]
    cases readSymbol names sectionCount entry with
    | error fault => rfl
    | ok s =>
      cases readSymbols names sectionCount rest with
      | error fault => rfl
      | ok more => rfl

/-- The symbols that are read are those that the entries tell, in order. -/
theorem readSymbols_eq_ok_iff {entries : List Elf.SymbolEntry} {symbols : List Symbol} :
    readSymbols names sectionCount entries = .ok symbols ↔
      List.Forall₂ (IsSymbol names sectionCount) entries symbols := by
  simp only [readSymbols_eq_mapM, Pairing.mapM_eq_ok_iff, readSymbol_eq_ok_iff]

/-- Symbols are refused when the section of one of them is not there, and the first such symbol is
reported. -/
theorem readSymbols_eq_error_iff {entries : List Elf.SymbolEntry} {fault : ObjectFault} :
    readSymbols names sectionCount entries = .error fault ↔
      ∃ before entry after, entries = before ++ entry :: after ∧
        (∀ e ∈ before, ¬ e.Dangling sectionCount) ∧ entry.Dangling sectionCount ∧
        fault = .missingSection (names.get entry.nameOffset) entry.sectionNumber.toNat
          sectionCount := by
  rw [readSymbols_eq_mapM, Pairing.mapM_eq_error_iff]
  simp only [readSymbol_eq_error_iff, exists_readSymbol_eq_ok_iff]

/-! ## Objects -/

/-- `object` is what the tables of a file say. -/
structure Represents (image : Elf.Image) (bytes : Bytes) (object : Object) : Prop where
  architecture_eq : object.architecture = .ofMachine image.machine
  machineFlags_eq : object.machineFlags = image.flags
  byteOrder_eq : object.byteOrder = image.order
  relocatable_eq : object.relocatable = (image.type == Elf.Image.relocatableType)
  /-- There is a section for each header, in order. -/
  sections : List.Forall₂ (IsSection bytes image.sectionNames) image.sections object.sections
  /-- There is a symbol for each entry behind the first, in order. -/
  symbols : List.Forall₂ (IsSymbol image.table.2 object.sections.length) image.table.1.tail
    object.symbols

/-- Reading tables reads the sections, and then the symbols of the table that counts. -/
theorem ofImage_eq (image : Elf.Image) (bytes : Bytes) :
    ofImage image bytes =
      (readSections bytes image.sectionNames 0 image.sections).bind fun sections =>
        (readSymbols image.table.2 sections.length image.table.1.tail).map fun symbols =>
          { architecture := .ofMachine image.machine, machineFlags := image.flags,
            byteOrder := image.order, relocatable := image.type == Elf.Image.relocatableType,
            sections, symbols } := by
  unfold ofImage Elf.Image.table
  simp only [List.isEmpty_iff, List.drop_one]
  cases readSections bytes image.sectionNames 0 image.sections with
  | error fault => split_ifs <;> rfl
  | ok sections => split_ifs <;> dsimp only [Except.bind] <;> split <;> simp [*, Except.map]

/-- The objects that are read represent the tables. -/
theorem ofImage_eq_ok_iff {image : Elf.Image} {bytes : Bytes} {object : Object} :
    ofImage image bytes = .ok object ↔ Represents image bytes object := by
  rcases object with ⟨architecture, machineFlags, byteOrder, relocatable, sections, symbols⟩
  rw [ofImage_eq]
  constructor
  · intro h
    cases hsections : readSections bytes image.sectionNames 0 image.sections with
    | error fault => exact absurd (hsections ▸ h) (by simp [Except.bind])
    | ok sections' =>
      rw [hsections, Except.bind] at h
      cases hsymbols : readSymbols image.table.2 sections'.length image.table.1.tail with
      | error fault => exact absurd (hsymbols ▸ h) (by simp [Except.map])
      | ok symbols' =>
        rw [hsymbols] at h
        cases h
        exact ⟨rfl, rfl, rfl, rfl, readSections_eq_ok_iff.mp hsections,
          readSymbols_eq_ok_iff.mp hsymbols⟩
  · rintro ⟨rfl, rfl, rfl, rfl, hsections, hsymbols⟩
    rw [readSections_eq_ok_iff.mpr hsections, Except.bind, readSymbols_eq_ok_iff.mpr hsymbols]
    rfl

/-- Tables are refused for the first section whose contents do not all lie in the file, or else for
the first entry whose section is not there. -/
theorem ofImage_eq_error_iff {image : Elf.Image} {bytes : Bytes} {fault : ObjectFault} :
    ofImage image bytes = .error fault ↔
      (∃ before header after, image.sections = before ++ header :: after ∧
        (∀ h ∈ before, ¬ h.PastEnd bytes.length) ∧ header.PastEnd bytes.length ∧
        fault = .sectionPastEnd before.length (image.sectionNames.get header.nameOffset)
          header.offset header.size bytes.length) ∨
      (∀ header ∈ image.sections, ¬ header.PastEnd bytes.length) ∧
        ∃ before entry after, image.table.1.tail = before ++ entry :: after ∧
          (∀ e ∈ before, ¬ e.Dangling image.sections.length) ∧
          entry.Dangling image.sections.length ∧
          fault = .missingSection (image.table.2.get entry.nameOffset) entry.sectionNumber.toNat
            image.sections.length := by
  have hfirst :=
    @readSections_eq_error_iff bytes image.sectionNames 0 image.sections fault
  simp only [Nat.zero_add] at hfirst
  rw [← hfirst, ← readSymbols_eq_error_iff, ofImage_eq]
  cases hsections : readSections bytes image.sectionNames 0 image.sections with
  | error fault' =>
    obtain ⟨before, header, after, himage, -, hpast, -⟩ := readSections_eq_error_iff.mp hsections
    have hsome : ¬ ∀ header ∈ image.sections, ¬ header.PastEnd bytes.length :=
      fun hall => hall header (by simp [himage]) hpast
    simp only [Except.bind, hsome, false_and, or_false]
    exact ⟨fun h => congrArg Except.error (Except.error.inj h),
      fun h => congrArg Except.error (Except.error.inj h)⟩
  | ok sections =>
    have hpaired := readSections_eq_ok_iff.mp hsections
    have hall : ∀ header ∈ image.sections, ¬ header.PastEnd bytes.length := by
      intro header hheader
      obtain ⟨s, -, hs⟩ := Pairing.exists_right hpaired hheader
      exact hs.not_pastEnd
    rw [and_iff_right hall, hpaired.length_eq, Except.bind]
    cases readSymbols image.table.2 sections.length image.table.1.tail with
    | error fault' => simp [Except.map]
    | ok symbols => simp [Except.map]

/-! ## Slices -/

/-- Why a walk in words breaks off: a fault is found, or a slice is not in the file. -/
inductive Stop where
  | fault (fault : ObjectFault)
  | outOfRange

/-- The sum of two words, if it is one: a sum that wraps is smaller than its parts. -/
def checkedAdd? (a b : UInt64) : Option UInt64 := if a + b < a then none else some (a + b)

/-- The slice from `start` up to `stop`, which has to lie in the bytes. -/
def slice (bytes : Bytes) (start stop : UInt64) : Except Stop Bytes :=
  if start ≤ stop ∧ stop.toNat ≤ bytes.length then
    .ok ((bytes.drop start.toNat).take (stop.toNat - start.toNat))
  else .error .outOfRange

/-- The end of the contents of a section: a checked sum that does not exceed the length of the
file. -/
def contentsEnd? (header : Elf.SectionHeader) (length : UInt64) : Option UInt64 :=
  (checkedAdd? header.offset header.size).filter (· ≤ length)

/-- The section of a header, in words: the end of its contents is checked before the slice is
taken. -/
def accessSection (bytes : Bytes) (names : Elf.StringTable) (index : Nat)
    (header : Elf.SectionHeader) : Except Stop Section :=
  let name := names.get header.nameOffset
  let build (data : Bytes) : Section :=
    ⟨name, header.kind, header.flags, header.address, header.offset, header.size, data⟩
  if header.hasContents then
    match contentsEnd? header (UInt64.ofNat bytes.length) with
    | some stop => (slice bytes header.offset stop).map build
    | none =>
      .error (.fault (.sectionPastEnd index name header.offset header.size bytes.length))
  else .ok (build [])

/-- The sections of a list of headers, in words. -/
def accessSections (bytes : Bytes) (names : Elf.StringTable) (headers : List Elf.SectionHeader) :
    Except Stop (List Section) :=
  headers.zipIdx.mapM fun entry => accessSection bytes names entry.2 entry.1

theorem checkedAdd?_eq_some_iff {a b c : UInt64} :
    checkedAdd? a b = some c ↔ c.toNat = a.toNat + b.toNat := by
  unfold checkedAdd?
  have ha := a.toNat_lt
  have hb := b.toNat_lt
  have hc := c.toNat_lt
  split
  · next hwraps =>
    rw [UInt64.lt_iff_toNat_lt, UInt64.toNat_add] at hwraps
    simp only [reduceCtorEq, false_iff]
    omega
  · next hfits =>
    rw [UInt64.lt_iff_toNat_lt, UInt64.toNat_add] at hfits
    rw [Option.some.injEq, ← UInt64.toNat_inj, UInt64.toNat_add]
    omega

/-- Contents end where offset and size add up to, if that is in the file. -/
theorem contentsEnd?_eq_some_iff {header : Elf.SectionHeader} {length stop : UInt64} :
    contentsEnd? header length = some stop ↔
      stop.toNat = header.offset.toNat + header.size.toNat ∧ stop.toNat ≤ length.toNat := by
  rw [contentsEnd?, Option.filter_eq_some_iff, checkedAdd?_eq_some_iff, decide_eq_true_iff,
    UInt64.le_iff_toNat_le]

/-- In words a section is read in the same way, and its slice lies in the file. -/
theorem accessSection_eq (header : Elf.SectionHeader) (hlength : bytes.length < UInt64.size) :
    accessSection bytes names index header =
      (readSection bytes names index header).mapError .fault := by
  unfold accessSection readSection Bytes.slice?
  by_cases hcontents : header.hasContents = true
  · rw [if_pos hcontents, if_pos hcontents]
    have hword : (UInt64.ofNat bytes.length).toNat = bytes.length := UInt64.toNat_ofNat_of_lt' hlength
    cases hend : contentsEnd? header (UInt64.ofNat bytes.length) with
    | some stop =>
      obtain ⟨hsum, hin⟩ := contentsEnd?_eq_some_iff.mp hend
      have hrange : header.offset ≤ stop ∧ stop.toNat ≤ bytes.length := by
        rw [UInt64.le_iff_toNat_le]
        omega
      dsimp only
      rw [slice, if_pos hrange, if_pos (by omega), hsum, Nat.add_sub_cancel_left]
      rfl
    | none =>
      -- a sum that is in the file is a word, so it would have been found
      have hpast : ¬ header.offset.toNat + header.size.toNat ≤ bytes.length := by
        intro hle
        have hsum : (header.offset + header.size).toNat =
            header.offset.toNat + header.size.toNat := by
          rw [UInt64.toNat_add]
          exact Nat.mod_eq_of_lt (Nat.lt_of_le_of_lt hle hlength)
        have hsome : contentsEnd? header (UInt64.ofNat bytes.length) =
            some (header.offset + header.size) :=
          contentsEnd?_eq_some_iff.mpr ⟨hsum, by omega⟩
        exact absurd (hend.symm.trans hsome) (by simp)
      rw [if_neg hpast]
      rfl
  · rw [if_neg hcontents, if_neg hcontents]
    rfl

/-- **No slice is out of range**: in words the sections are read in the same way. -/
theorem accessSections_eq (headers : List Elf.SectionHeader) (hlength : bytes.length < UInt64.size) :
    accessSections bytes names headers = (readSections bytes names 0 headers).mapError .fault := by
  rw [accessSections, readSections_eq_mapM]
  exact Pairing.mapM_mapError fun entry => accessSection_eq entry.1 hlength

/-- **Tables are checked before they are trusted.** They are refused exactly when the contents of a
section do not all lie in the file or an entry behind the first is of a section that is not there;
the objects that are read represent the tables; and as the length of a file is a word, no slice that
is taken on the way is out of range. -/
theorem ofImage_checks_tables (image : Elf.Image) (bytes : Bytes) :
    ((∃ fault, ofImage image bytes = .error fault) ↔
      (∃ header ∈ image.sections, header.PastEnd bytes.length) ∨
        ∃ entry ∈ image.table.1.tail, entry.Dangling image.sections.length) ∧
    (∀ object, ofImage image bytes = .ok object ↔ Represents image bytes object) ∧
    (bytes.length < UInt64.size → accessSections bytes image.sectionNames image.sections =
      (readSections bytes image.sectionNames 0 image.sections).mapError .fault) := by
  refine ⟨⟨?_, ?_⟩, fun _ => ofImage_eq_ok_iff, accessSections_eq image.sections⟩
  · rintro ⟨fault, h⟩
    rcases ofImage_eq_error_iff.mp h with ⟨before, header, after, himage, -, hpast, -⟩ |
      ⟨-, before, entry, after, htable, -, hdangling, -⟩
    · exact Or.inl ⟨header, by simp [himage], hpast⟩
    · exact Or.inr ⟨entry, by simp [htable], hdangling⟩
  · intro h
    cases hread : ofImage image bytes with
    | error fault => exact ⟨fault, rfl⟩
    | ok object =>
      have hobject := ofImage_eq_ok_iff.mp hread
      rcases h with ⟨header, hheader, hpast⟩ | ⟨entry, hentry, hdangling⟩
      · obtain ⟨s, -, hs⟩ := Pairing.exists_right hobject.sections hheader
        exact absurd hpast hs.not_pastEnd
      · obtain ⟨symbol, -, hsymbol⟩ := Pairing.exists_right hobject.symbols hentry
        rw [hobject.sections.length_eq] at hdangling
        exact absurd hdangling hsymbol.not_dangling

/-- Tables of an empty file, with one section whose offset and size add up to no word. -/
def wrappingImage : Elf.Image where
  type := Elf.Image.relocatableType
  machine := 0xe0
  flags := 0x4c
  order := .little
  sections := [⟨0, 1, 6, 0, 0xffffffffffffffff, 1, 0, 0⟩]
  sectionNames := []
  symbols := []
  symbolNames := []
  dynamicSymbols := []
  dynamicNames := []

/-- The section is refused, as its sum is not the zero that it wraps to, and no slice is taken. -/
theorem ofImage_checks_tables_wrapping :
    (∃ fault, ofImage wrappingImage [] = .error fault) ∧
      accessSections [] [] wrappingImage.sections =
        .error (.fault (.sectionPastEnd 0 "" 0xffffffffffffffff 1 0)) := by
  obtain ⟨hrefused, -, haccess⟩ := ofImage_checks_tables wrappingImage []
  constructor
  · exact hrefused.mpr (Or.inl ⟨_, List.mem_singleton_self _, by decide, by decide, by decide⟩)
  · have hread : readSections [] wrappingImage.sectionNames 0 wrappingImage.sections =
        .error (.sectionPastEnd 0 "" 0xffffffffffffffff 1 0) := by decide +kernel
    exact (haccess (by decide)).trans (by rw [hread, Except.mapError])

end Object

end KernelCatalog
