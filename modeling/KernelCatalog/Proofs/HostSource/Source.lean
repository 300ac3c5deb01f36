import KernelCatalog.Proofs.HostSource.Reader
import KernelCatalog.Proofs.Kernel.Signature

/-!
# Reading generated source

A generated source is read line by line. Blank lines, comments, attributes and imports are passed
over; the others open a constant, add to the constant that is open, or close it. Every identifier
must be declared once. The table of kernels gives, for each kernel, its name and the identifier of
the constant with its descriptors.

* `advanceAll_sourceLines`: the constants that a generated source declares.
-/

namespace KernelCatalog.HostSource

/-! ## The reader -/

/-- What a line of a source is for. -/
inductive Line where
  /-- Declares the side of the source. -/
  | side (ident : String)
  /-- Opens a constant of descriptors. -/
  | kernel (ident : String)
  /-- Opens the table of kernels. -/
  | table (ident : String)
  | descriptor (value : OverloadDescriptor)
  | entry (name ident : String)
  | closing
  deriving DecidableEq, Repr

namespace Line

/-- What follows the identifier of a constant, by what the constant is for. -/
def types : List (String × (String → Line)) :=
  [(": CompilationSide = CompilationSide::Host;", side), (": &[OverloadDescriptor] = &[", kernel),
    (": &[(&str, &[OverloadDescriptor])] = &[", table)]

/-- Reads a line that declares or opens a constant. -/
def constant : Reader Line := do
  Reader.expect "pub const "
  let ident ← Reader.identifier
  let type ← Reader.rest
  let line ← Reader.given (types.lookup type)
  pure (line ident)

/-- Reads a line of the table. -/
def tableEntry : Reader Line := do
  Reader.expect "    ("
  let name ← Reader.literal
  Reader.expect ", "
  let ident ← Reader.identifier
  Reader.expect "),"
  pure (entry name ident)

/-- Reads a line with a descriptor. -/
def listed : Reader Line := do
  Reader.expect "    "
  let value ← Reader.descriptor
  Reader.expect ","
  pure (descriptor value)

/-- Reads a line that closes a constant. -/
def close : Reader Line := do
  Reader.expect "];"
  pure closing

/-- What a line is for, if it is read to its end. -/
def read? (cs : List Char) : Option Line :=
  match (constant <|> tableEntry <|> listed <|> close) cs with
  | some (line, []) => some line
  | _ => none

end Line

/-- Whether a line is a comment, an attribute or an import. -/
def isRemark (cs : List Char) : Bool :=
  ["//", "#", "use "].any fun start => start.toList.isPrefixOf cs

/-- Whether a line declares nothing. -/
def isPassed (cs : List Char) : Bool := cs.isEmpty || isRemark cs

/-- What a constant holds. -/
inductive Body where
  | side
  | descriptors (values : List OverloadDescriptor)
  | table (entries : List (String × String))
  deriving DecidableEq, Repr

/-- A constant of a source. -/
structure Constant where
  ident : String
  body : Body
  deriving DecidableEq, Repr

/-- The constants that are read, and the one that is open. -/
structure Reading where
  constants : List Constant
  current : Option Constant
  deriving DecidableEq, Repr

namespace Reading

/-- Takes one more line, if it fits. -/
def take (reading : Reading) (line : Line) : Option Reading :=
  match line, reading.current with
  | .side ident, none => some ⟨reading.constants ++ [⟨ident, .side⟩], none⟩
  | .kernel ident, none => some ⟨reading.constants, some ⟨ident, .descriptors []⟩⟩
  | .table ident, none => some ⟨reading.constants, some ⟨ident, .table []⟩⟩
  | .descriptor value, some ⟨ident, .descriptors values⟩ =>
    some ⟨reading.constants, some ⟨ident, .descriptors (values ++ [value])⟩⟩
  | .entry name target, some ⟨ident, .table entries⟩ =>
    some ⟨reading.constants, some ⟨ident, .table (entries ++ [(name, target)])⟩⟩
  | .closing, some constant => some ⟨reading.constants ++ [constant], none⟩
  | _, _ => none

/-- Passes over a line or takes it. -/
def advance (reading : Reading) (cs : List Char) : Option Reading :=
  if isPassed cs then some reading else (Line.read? cs).bind reading.take

end Reading

/-- The constants of a source, each of which is declared once. -/
def constants? (text : String) : Option (List Constant) := do
  let reading ← (Text.pieces '\n' text.toList).foldlM Reading.advance ⟨[], none⟩
  if reading.current.isNone ∧ (reading.constants.map Constant.ident).Nodup then
    some reading.constants
  else none

/-- The constant of the given identifier. -/
def body? (constants : List Constant) (ident : String) : Option Body :=
  (constants.find? fun constant => constant.ident == ident).map Constant.body

/-- The kernel of an entry of the table, with the descriptors under its identifier. -/
def resolve? (constants : List Constant) (entry : String × String) :
    Option (String × List OverloadDescriptor) :=
  match body? constants entry.2 with
  | some (.descriptors values) => some (entry.1, values)
  | _ => none

/-- The kernels that a source lists, with their descriptors. -/
def read? (text : String) : Option (List (String × List OverloadDescriptor)) := do
  let constants ← constants? text
  match body? constants Identifier.tableConstant with
  | some (.table entries) => entries.mapM (resolve? constants)
  | _ => none

/-! ## One line -/

namespace Line

theorem read?_eq {cs : List Char} {line : Line}
    (h : (constant <|> tableEntry <|> listed <|> close) cs = some (line, [])) :
    read? cs = some line := by
  rw [read?, h]

/-- A line that opens a constant is read. -/
theorem read?_constant {ident type : String} {line : String → Line}
    (hident : Identifier.Legal ident) (hhead : type.toList.head? = some ':')
    (htype : types.lookup type = some line) :
    read? ("pub const " ++ ident ++ type).toList = some (line ident) := by
  have hstops : Reader.Stops Identifier.isWord type.toList := by
    intro c hc
    obtain rfl := Option.some.inj (hhead.symm.trans hc)
    rfl
  refine read?_eq (Reader.orElse_eq ?_)
  rw [String.toList_append, String.toList_append, List.append_assoc, constant,
    Reader.bind_eq (Reader.expect_append _ _),
    Reader.bind_eq (Reader.identifier_append hident hstops),
    Reader.bind_eq (Reader.rest_toList type), htype]
  rfl

theorem read?_entry (name : String) {ident : String} (hident : Identifier.Legal ident) :
    read? ("    (" ++ Text.quote name ++ ", " ++ ident ++ "),").toList =
      some (entry name ident) := by
  refine read?_eq ?_
  rw [← List.append_nil (String.toList _)]
  repeat rw [String.toList_append]
  repeat rw [List.append_assoc]
  refine (Reader.orElse_eq_second (Reader.bind_eq_none rfl)).trans (Reader.orElse_eq ?_)
  rw [tableEntry, Reader.bind_eq (Reader.expect_append _ _),
    Reader.bind_eq (Reader.literal_append _ _), Reader.bind_eq (Reader.expect_append _ _),
    Reader.bind_eq (Reader.identifier_append hident (Reader.stops_append ")," rfl rfl _)),
    Reader.bind_eq (Reader.expect_append _ _)]
  rfl

theorem read?_descriptor (overload : Overload) :
    read? ("    " ++ overload.initializer ++ ",").toList =
      some (descriptor overload.descriptor) := by
  have hentry : ∀ rest,
      tableEntry ("    ".toList ++ (overload.initializer.toList ++ rest)) = none := by
    intro rest
    refine Reader.bind_eq_none ?_
    unfold Overload.initializer
    repeat rw [String.toList_append]
    repeat rw [List.append_assoc]
    rfl
  refine read?_eq ?_
  rw [← List.append_nil (String.toList _), String.toList_append, String.toList_append,
    List.append_assoc, List.append_assoc]
  refine (Reader.orElse_eq_second (Reader.bind_eq_none rfl)).trans ?_
  refine (Reader.orElse_eq_second (hentry _)).trans (Reader.orElse_eq ?_)
  rw [listed, Reader.bind_eq (Reader.expect_append _ _),
    Reader.bind_eq (Reader.descriptor_append _ _), Reader.bind_eq (Reader.expect_append _ _)]
  rfl

end Line

/-! ## Many lines -/

/-- A remark is passed over. -/
theorem isPassed_of_isRemark {cs : List Char} (h : isRemark cs = true) : isPassed cs = true := by
  rw [isPassed, h, Bool.or_true]

theorem isRemark_append (text : String) (h : isRemark text.toList = true) (more : String) :
    isRemark (text ++ more).toList = true := by
  obtain ⟨start, hstart, hprefix⟩ := List.any_eq_true.mp h
  refine List.any_eq_true.mpr ⟨start, hstart, ?_⟩
  rw [List.isPrefixOf_iff_prefix] at hprefix ⊢
  rw [String.toList_append]
  exact hprefix.trans (List.prefix_append _ _)

namespace Reading

/-- Advances over lines one after another. -/
def advanceAll (reading : Reading) (lines : List String) : Option Reading :=
  (lines.map String.toList).foldlM advance reading

@[simp] theorem advanceAll_nil (reading : Reading) : reading.advanceAll [] = some reading := rfl

theorem advanceAll_cons {reading next : Reading} {line : String} (lines : List String)
    (h : reading.advance line.toList = some next) :
    reading.advanceAll (line :: lines) = next.advanceAll lines := by
  rw [advanceAll, List.map_cons, List.foldlM_cons, h]
  rfl

theorem advanceAll_append {reading next : Reading} {first : List String} (second : List String)
    (h : reading.advanceAll first = some next) :
    reading.advanceAll (first ++ second) = next.advanceAll second := by
  rw [advanceAll] at h
  rw [advanceAll, List.map_append, List.foldlM_append, h]
  rfl

theorem advance_eq {cs : List Char} {line : Line} (hpassed : isPassed cs = false)
    (hread : Line.read? cs = some line) (reading : Reading) :
    reading.advance cs = reading.take line := by
  rw [advance, if_neg (by simp [hpassed]), hread]
  rfl

/-- A line that declares nothing is passed over. -/
theorem advanceAll_pass (line : String) (h : isPassed line.toList = true) (lines : List String)
    (reading : Reading) : reading.advanceAll (line :: lines) = reading.advanceAll lines :=
  advanceAll_cons lines (if_pos h)

/-- Lines that declare nothing are all passed over. -/
theorem advanceAll_passed {lines : List String} (h : ∀ line ∈ lines, isPassed line.toList = true)
    (reading : Reading) : reading.advanceAll lines = some reading := by
  induction lines with
  | nil => rfl
  | cons line lines ih =>
    obtain ⟨hline, hlines⟩ := List.forall_mem_cons.mp h
    rw [advanceAll_pass line hline, ih hlines]

/-- A line that opens a constant is taken. -/
theorem advance_constant {ident type : String} (line : String → Line)
    (hident : Identifier.Legal ident) (hhead : type.toList.head? = some ':')
    (htype : Line.types.lookup type = some line) (reading : Reading) :
    reading.advance ("pub const " ++ ident ++ type).toList = reading.take (line ident) := by
  refine advance_eq ?_ (Line.read?_constant hident hhead htype) reading
  rw [String.toList_append, String.toList_append, List.append_assoc]
  rfl

/-- The descriptors of a constant are taken in order. -/
theorem advanceAll_descriptors (constants : List Constant) (ident : String)
    (values : List OverloadDescriptor) (overloads : List Overload) :
    advanceAll ⟨constants, some ⟨ident, .descriptors values⟩⟩
        (overloads.map fun overload => "    " ++ overload.initializer ++ ",") =
      some ⟨constants, some
        ⟨ident, .descriptors (values ++ overloads.map Overload.descriptor)⟩⟩ := by
  induction overloads generalizing values with
  | nil => rw [List.map_nil, List.map_nil, List.append_nil, advanceAll_nil]
  | cons overload more ih =>
    have hpassed : isPassed ("    " ++ overload.initializer ++ ",").toList = false := by
      rw [String.toList_append, String.toList_append, List.append_assoc]
      rfl
    rw [List.map_cons, advanceAll_cons _ (advance_eq hpassed (Line.read?_descriptor overload) _),
      ih, List.map_cons, List.append_assoc, List.singleton_append]

/-- The entries of the table are taken in order. -/
theorem advanceAll_entries (constants : List Constant) (ident : String)
    (taken : List (String × String)) {entries : List (Kernel × String)}
    (hlegal : ∀ entry ∈ entries, Identifier.Legal entry.2) :
    advanceAll ⟨constants, some ⟨ident, .table taken⟩⟩
        (entries.map fun (kernel, ident) =>
          "    (" ++ Text.quote kernel.name ++ ", " ++ ident ++ "),") =
      some ⟨constants, some
        ⟨ident, .table (taken ++ entries.map fun (kernel, ident) => (kernel.name, ident))⟩⟩ := by
  induction entries generalizing taken with
  | nil => rw [List.map_nil, List.map_nil, List.append_nil, advanceAll_nil]
  | cons entry more ih =>
    obtain ⟨hentry, hmore⟩ := List.forall_mem_cons.mp hlegal
    have hpassed : isPassed
        ("    (" ++ Text.quote entry.1.name ++ ", " ++ entry.2 ++ "),").toList = false := by
      repeat rw [String.toList_append]
      repeat rw [List.append_assoc]
      rfl
    rw [List.map_cons, advanceAll_cons _ (advance_eq hpassed (Line.read?_entry _ hentry) _),
      ih _ hmore, List.map_cons, List.append_assoc, List.singleton_append]

/-- The lines of a kernel declare its constant. -/
theorem advanceAll_kernelLines (constants : List Constant) (kernel : Kernel) {ident : String}
    (hident : Identifier.Legal ident) :
    advanceAll ⟨constants, none⟩ (kernelLines kernel ident) =
      some ⟨constants ++ [⟨ident, .descriptors (kernel.overloads.map Overload.descriptor)⟩],
        none⟩ := by
  have hcomment := isPassed_of_isRemark
    (isRemark_append _
      (isRemark_append "/// Overloads of kernel " rfl (Text.quote kernel.name)) ".")
  have hopen : advanceAll ⟨constants, none⟩
      ["", "/// Overloads of kernel " ++ Text.quote kernel.name ++ ".",
        "#[allow(non_upper_case_globals)]",
        "pub const " ++ ident ++ ": &[OverloadDescriptor] = &["] =
      some ⟨constants, some ⟨ident, .descriptors []⟩⟩ := by
    rw [advanceAll_pass "" rfl, advanceAll_pass _ hcomment,
      advanceAll_pass "#[allow(non_upper_case_globals)]" rfl,
      advanceAll_cons _ (advance_constant .kernel hident rfl rfl _)]
    rfl
  rw [kernelLines, List.append_assoc, advanceAll_append _ hopen,
    advanceAll_append _ (advanceAll_descriptors _ _ _ _), List.nil_append]
  rfl

/-- The lines of kernels declare their constants in order. -/
theorem advanceAll_kernels (constants : List Constant) {entries : List (Kernel × String)}
    (hlegal : ∀ entry ∈ entries, Identifier.Legal entry.2) :
    advanceAll ⟨constants, none⟩
        (entries.flatMap fun (kernel, ident) => kernelLines kernel ident) =
      some ⟨constants ++ entries.map fun (kernel, ident) =>
        ⟨ident, .descriptors (kernel.overloads.map Overload.descriptor)⟩, none⟩ := by
  induction entries generalizing constants with
  | nil => rw [List.flatMap_nil, List.map_nil, List.append_nil, advanceAll_nil]
  | cons entry more ih =>
    obtain ⟨hentry, hmore⟩ := List.forall_mem_cons.mp hlegal
    rw [List.flatMap_cons, advanceAll_append _ (advanceAll_kernelLines _ _ hentry), ih _ hmore,
      List.map_cons, List.append_assoc, List.singleton_append]

/-- The lines of the table declare it. -/
theorem advanceAll_tableLines (constants : List Constant) {entries : List (Kernel × String)}
    (hlegal : ∀ entry ∈ entries, Identifier.Legal entry.2) :
    advanceAll ⟨constants, none⟩ (tableLines entries) =
      some ⟨constants ++ [⟨Identifier.tableConstant,
        .table (entries.map fun (kernel, ident) => (kernel.name, ident))⟩], none⟩ := by
  have hopen : advanceAll ⟨constants, none⟩
      ["", "pub const " ++ Identifier.tableConstant ++ ": &[(&str, &[OverloadDescriptor])] = &["] =
      some ⟨constants, some ⟨Identifier.tableConstant, .table []⟩⟩ := by
    rw [advanceAll_pass "" rfl,
      advanceAll_cons _ (advance_constant .table Identifier.legal_tableConstant rfl rfl _)]
    rfl
  rw [tableLines, List.append_assoc, advanceAll_append _ hopen,
    advanceAll_append _ (advanceAll_entries _ _ _ hlegal), List.nil_append]
  rfl

end Reading

/-- The constants that a source declares for kernels and their identifiers. -/
def declared (entries : List (Kernel × String)) : List Constant :=
  ⟨Identifier.sideConstant, .side⟩ ::
    ((entries.map fun (kernel, ident) =>
        ⟨ident, .descriptors (kernel.overloads.map Overload.descriptor)⟩) ++
      [⟨Identifier.tableConstant,
        .table (entries.map fun (kernel, ident) => (kernel.name, ident))⟩])

theorem isPassed_of_mem_header (catalog : Catalog) (options : Options) :
    ∀ line ∈ header catalog options, isPassed line.toList = true := by
  intro line hline
  refine isPassed_of_isRemark ?_
  rw [header, List.mem_append, List.mem_append, List.mem_pair, List.mem_singleton] at hline
  rcases hline with ((rfl | rfl) | hline) | rfl
  · rfl
  · exact isRemark_append _ (isRemark_append _ (isRemark_append "// architecture: " rfl _) _) _
  · cases hencoding : options.encoding with
    | none => exact absurd (hencoding ▸ hline) List.not_mem_nil
    | some encoding =>
      obtain rfl := List.mem_singleton.mp (hencoding ▸ hline)
      exact isRemark_append "// encoding: " rfl _
  · exact isRemark_append _ (isRemark_append _ (isRemark_append "// kernels: " rfl _) _) _

theorem isPassed_of_mem_imports (options : Options) :
    ∀ line ∈ imports options, isPassed line.toList = true := by
  intro line hline
  refine isPassed_of_isRemark ?_
  simp only [imports, List.mem_cons, List.not_mem_nil, or_false] at hline
  rcases hline with rfl | rfl | rfl
  · rfl
  · exact isRemark_append _ (isRemark_append _ (isRemark_append "use " rfl _) _) _
  · exact isRemark_append _ (isRemark_append "use " rfl _) _

theorem legal_of_mem_zip {catalog : Catalog} {entry : Kernel × String}
    (h : entry ∈ catalog.kernels.zip (Identifier.assign catalog.names)) :
    Identifier.Legal entry.2 :=
  Identifier.legal_of_mem_assignFrom (List.of_mem_zip h).2

/-- **The lines of a source** declare the constants of its kernels and the table. -/
theorem advanceAll_sourceLines (catalog : Catalog) (options : Options) :
    Reading.advanceAll ⟨[], none⟩ (sourceLines catalog options) =
      some ⟨declared (catalog.kernels.zip (Identifier.assign catalog.names)), none⟩ := by
  have hlegal : ∀ entry ∈ catalog.kernels.zip (Identifier.assign catalog.names),
      Identifier.Legal entry.2 := fun entry hentry => legal_of_mem_zip hentry
  have hside : Reading.advanceAll ⟨[], none⟩ ["", "pub const " ++ Identifier.sideConstant
      ++ ": CompilationSide = CompilationSide::Host;"] =
      some ⟨[⟨Identifier.sideConstant, .side⟩], none⟩ := by
    rw [Reading.advanceAll_pass "" rfl,
      Reading.advanceAll_cons _
        (Reading.advance_constant .side Identifier.legal_sideConstant rfl rfl _)]
    rfl
  rw [sourceLines]
  dsimp only
  rw [List.append_assoc, List.append_assoc, List.append_assoc, List.append_assoc,
    Reading.advanceAll_append _ (Reading.advanceAll_passed (isPassed_of_mem_header _ _) _),
    List.singleton_append, Reading.advanceAll_pass "" rfl,
    Reading.advanceAll_append _ (Reading.advanceAll_passed (isPassed_of_mem_imports _) _),
    Reading.advanceAll_append _ hside,
    Reading.advanceAll_append _ (Reading.advanceAll_kernels _ hlegal),
    Reading.advanceAll_tableLines _ hlegal]
  rfl

end KernelCatalog.HostSource
