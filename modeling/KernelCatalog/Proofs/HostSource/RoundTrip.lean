import KernelCatalog.Proofs.Architecture
import KernelCatalog.Proofs.HostSource.Source

/-!
# Generated source says what the catalog says

No line of a generated source holds a line break, whatever the kernels and their symbols are called,
as long as the texts that are written as they are hold none. So the source falls apart into the
lines that it was put together from, and it is read as the kernels that it was made from.

* `read?_render`: a generated source is read as the kernels that it was made from.
* `render_tells_catalog`: reading gives the kernels back, and equal sources come from catalogs that
  differ in the addresses of their overloads at most.
-/

namespace KernelCatalog

/-- What generated source tells of a kernel. -/
def Kernel.listing (kernel : Kernel) : String × List OverloadDescriptor :=
  (kernel.name, kernel.overloads.map Overload.descriptor)

/-! ## Lines -/

/-- A text without a line break. -/
def OneLine (text : String) : Prop := '\n' ∉ text.toList

/-- Whether a text has a line break can be decided. -/
instance (text : String) : Decidable (OneLine text) := inferInstanceAs (Decidable (_ ∉ _))

namespace OneLine

theorem append {first second : String} (hfirst : OneLine first) (hsecond : OneLine second) :
    OneLine (first ++ second) := by
  rw [OneLine, String.toList_append, List.mem_append, not_or]
  exact ⟨hfirst, hsecond⟩

theorem nat (n : Nat) : OneLine (toString n) :=
  fun h => absurd (Text.isDigit_of_mem_toString h) (by decide)

theorem quote (text : String) : OneLine (Text.quote text) := Text.newline_not_mem_quote text

theorem of_legal {ident : String} (h : Identifier.Legal ident) : OneLine ident :=
  fun hmem => absurd (h.word _ hmem) (by decide)

theorem join {sep : String} (hsep : OneLine sep) {texts : List String}
    (h : ∀ text ∈ texts, OneLine text) : OneLine (Text.join sep texts) := by
  induction texts with
  | nil => exact List.not_mem_nil
  | cons text more ih =>
    obtain ⟨htext, hmore⟩ := List.forall_mem_cons.mp h
    cases more with
    | nil => exact htext
    | cons next more => exact (htext.append hsep).append (ih hmore)

end OneLine

theorem Param.oneLine_initializer (p : Param) : OneLine p.initializer := by
  have hscalar : ∀ type : Scalar, OneLine type.variant := fun type => by cases type <;> decide
  cases p with
  | scalar type => exact (OneLine.append (by decide) (hscalar type)).append (by decide)
  | pointer space elem mutable =>
    have hspace : OneLine space.variant := by cases space <;> decide
    have hmutable : OneLine (if mutable then "true" else "false") := by cases mutable <;> decide
    exact (((((OneLine.append (by decide) hspace).append (by decide)).append (hscalar elem)).append
      (by decide)).append hmutable).append (by decide)

theorem Launch.oneLine_initializer (launch : Launch) : OneLine launch.initializer :=
  (((((OneLine.append (by decide) (.nat _)).append (by decide)).append (.nat _)).append
    (by decide)).append (.nat _)).append (by decide)

theorem Overload.oneLine_initializer (overload : Overload) : OneLine overload.initializer := by
  have hcomma : OneLine ", " := by decide
  have hparams : OneLine (Text.join ", " (overload.params.map Param.initializer)) :=
    hcomma.join (List.forall_mem_map.mpr fun p _ => p.oneLine_initializer)
  exact (((((OneLine.append (by decide) (.quote _)).append (by decide)).append hparams).append
    (by decide)).append overload.launch.oneLine_initializer).append (by decide)

namespace HostSource

/-- The texts that are written as they are hold no line break. -/
structure OnOneLine (catalog : Catalog) (options : Options) : Prop where
  processor : ∀ processor, catalog.processor = some processor → OneLine processor
  typesPath : OneLine options.typesPath
  encoding : ∀ encoding, options.encoding = some encoding → OneLine encoding

/-- Lines are found again by cutting the text at its line breaks. -/
theorem pieces_lines {lines : List String} (h : ∀ line ∈ lines, OneLine line) :
    Text.pieces '\n' (String.join (lines.map fun line => line ++ "\n")).toList =
      lines.map String.toList ++ [[]] := by
  induction lines with
  | nil => rfl
  | cons line lines ih =>
    obtain ⟨hline, hlines⟩ := List.forall_mem_cons.mp h
    have htext : (String.join ((line :: lines).map fun line => line ++ "\n")).toList =
        line.toList ++ '\n' :: (String.join (lines.map fun line => line ++ "\n")).toList := by
      rw [List.map_cons, String.join_cons, String.toList_append, String.toList_append,
        List.append_assoc]
      rfl
    rw [htext, Text.pieces_append_cons, Text.pieces_of_not_mem hline, ih hlines, List.map_cons]
    rfl

theorem mem_of_mem_dropColons {cs : List Char} {c : Char} (h : c ∈ dropColons cs) : c ∈ cs := by
  fun_induction dropColons cs with
  | case1 rest ih => exact List.mem_cons_of_mem _ (List.mem_cons_of_mem _ (ih h))
  | case2 cs => exact h

theorem oneLine_trimColons {path : String} (h : OneLine path) : OneLine (trimColons path) := by
  rw [OneLine, trimColons, String.toList_ofList, List.mem_reverse]
  exact fun hmem => h (List.mem_reverse.mp (mem_of_mem_dropColons hmem))

theorem oneLine_of_mem_header {catalog : Catalog} {options : Options}
    (h : OnOneLine catalog options) : ∀ line ∈ header catalog options, OneLine line := by
  have hname : OneLine catalog.architecture.name := catalog.architecture.not_mem_name rfl
  have hprocessor : OneLine (catalog.processor.getD "unknown") := by
    cases hprocessor : catalog.processor with
    | none => decide
    | some processor => exact h.processor processor hprocessor
  intro line hline
  rw [header, List.mem_append, List.mem_append, List.mem_pair, List.mem_singleton] at hline
  rcases hline with ((rfl | rfl) | hline) | rfl
  · decide
  · exact ((OneLine.append (by decide) hname).append (by decide)).append hprocessor
  · cases hencoding : options.encoding with
    | none => exact absurd (hencoding ▸ hline) List.not_mem_nil
    | some encoding =>
      obtain rfl := List.mem_singleton.mp (hencoding ▸ hline)
      exact OneLine.append (by decide) (h.encoding encoding hencoding)
  · exact ((OneLine.append (by decide) (.nat _)).append (by decide)).append (.nat _)

theorem oneLine_of_mem_imports {options : Options} (h : OneLine options.typesPath) :
    ∀ line ∈ imports options, OneLine line := by
  intro line hline
  have htypes := oneLine_trimColons h
  simp only [imports, List.mem_cons, List.not_mem_nil, or_false] at hline
  rcases hline with rfl | rfl | rfl
  · decide
  · exact ((OneLine.append (by decide) htypes).append (by decide)).append (by decide)
  · exact (OneLine.append (by decide) htypes).append (by decide)

theorem oneLine_of_mem_kernelLines (kernel : Kernel) {ident : String}
    (hident : Identifier.Legal ident) : ∀ line ∈ kernelLines kernel ident, OneLine line := by
  intro line hline
  simp only [kernelLines, List.mem_append, List.mem_cons, List.not_mem_nil, or_false,
    List.mem_map] at hline
  rcases hline with ((rfl | rfl | rfl | rfl) | ⟨overload, -, rfl⟩) | rfl
  · decide
  · exact (OneLine.append (by decide) (.quote _)).append (by decide)
  · decide
  · exact (OneLine.append (by decide) (.of_legal hident)).append (by decide)
  · exact (OneLine.append (by decide) overload.oneLine_initializer).append (by decide)
  · decide

theorem oneLine_of_mem_tableLines {entries : List (Kernel × String)}
    (hlegal : ∀ entry ∈ entries, Identifier.Legal entry.2) :
    ∀ line ∈ tableLines entries, OneLine line := by
  intro line hline
  simp only [tableLines, List.mem_append, List.mem_cons, List.not_mem_nil, or_false,
    List.mem_map] at hline
  rcases hline with ((rfl | rfl) | ⟨entry, hentry, rfl⟩) | rfl
  · decide
  · decide
  · exact (((OneLine.append (by decide) (.quote _)).append (by decide)).append
      (.of_legal (hlegal entry hentry))).append (by decide)
  · decide

/-- **No line of a source holds a line break.** -/
theorem oneLine_of_mem_sourceLines {catalog : Catalog} {options : Options}
    (h : OnOneLine catalog options) : ∀ line ∈ sourceLines catalog options, OneLine line := by
  have hlegal : ∀ entry ∈ catalog.kernels.zip (Identifier.assign catalog.names),
      Identifier.Legal entry.2 := fun entry hentry => legal_of_mem_zip hentry
  intro line hline
  rw [sourceLines] at hline
  simp only [List.mem_append, List.mem_cons, List.not_mem_nil, or_false, List.mem_flatMap] at hline
  rcases hline with
    ((((hline | rfl) | hline) | rfl | rfl) | ⟨entry, hentry, hline⟩) | hline
  · exact oneLine_of_mem_header h line hline
  · decide
  · exact oneLine_of_mem_imports h.typesPath line hline
  · decide
  · decide
  · exact oneLine_of_mem_kernelLines entry.1 (hlegal entry hentry) line hline
  · exact oneLine_of_mem_tableLines hlegal line hline

/-! ## Reading a source -/

/-- A constant is found by its identifier. -/
theorem body?_of_mem {constants : List Constant} (hnodup : (constants.map Constant.ident).Nodup)
    {constant : Constant} (h : constant ∈ constants) :
    body? constants constant.ident = some constant.body := by
  have hsome : (constants.find? fun other => other.ident == constant.ident).isSome :=
    List.find?_isSome.mpr ⟨constant, h, beq_self_eq_true _⟩
  obtain ⟨found, hfound⟩ := Option.isSome_iff_exists.mp hsome
  have hident := List.find?_some hfound
  rw [beq_iff_eq] at hident
  obtain rfl := List.inj_on_of_nodup_map hnodup (List.mem_of_find?_eq_some hfound) h hident
  rw [body?, hfound]
  rfl

theorem length_assign (catalog : Catalog) :
    (Identifier.assign catalog.names).length = catalog.kernels.length := by
  rw [Identifier.assign, Identifier.length_assignFrom, Catalog.names, List.length_map]

theorem nodup_declared (catalog : Catalog) :
    ((declared (catalog.kernels.zip (Identifier.assign catalog.names))).map
      Constant.ident).Nodup := by
  have hidents : (declared (catalog.kernels.zip (Identifier.assign catalog.names))).map
      Constant.ident =
        Identifier.sideConstant ::
          (Identifier.assign catalog.names ++ [Identifier.tableConstant]) := by
    rw [declared, List.map_cons, List.map_append, List.map_map, List.map_singleton]
    conv_rhs => rw [← List.map_snd_zip (length_assign catalog).le]
    rfl
  rw [hidents]
  exact Identifier.nodup_assign catalog.names

/-- The constants that are read from a source. -/
theorem constants?_render {catalog : Catalog} {options : Options} (h : OnOneLine catalog options) :
    constants? (render catalog options) =
      some (declared (catalog.kernels.zip (Identifier.assign catalog.names))) := by
  have hread := advanceAll_sourceLines catalog options
  rw [Reading.advanceAll] at hread
  -- behind the last line break there is an empty piece, which is passed over
  have hfold : (Text.pieces '\n' (render catalog options).toList).foldlM Reading.advance
      ⟨[], none⟩ =
        some ⟨declared (catalog.kernels.zip (Identifier.assign catalog.names)), none⟩ := by
    rw [render, pieces_lines (oneLine_of_mem_sourceLines h), List.foldlM_append, hread]
    rfl
  rw [constants?, hfold]
  exact if_pos ⟨rfl, nodup_declared catalog⟩

/-- An entry of the table leads to the descriptors of its kernel. -/
theorem resolve?_declared {entries : List (Kernel × String)}
    (hnodup : ((declared entries).map Constant.ident).Nodup) {entry : Kernel × String}
    (h : entry ∈ entries) :
    resolve? (declared entries) (entry.1.name, entry.2) = some entry.1.listing := by
  have hmem : ⟨entry.2, .descriptors (entry.1.overloads.map Overload.descriptor)⟩ ∈
      declared entries := by
    refine List.mem_cons_of_mem _ (List.mem_append_left _ ?_)
    exact List.mem_map.mpr ⟨entry, h, rfl⟩
  have hbody := body?_of_mem hnodup hmem
  rw [resolve?, hbody]
  rfl

/-- The entries of a table are resolved in order. -/
theorem mapM_resolve? {constants : List Constant} {entries : List (Kernel × String)}
    (h : ∀ entry ∈ entries, resolve? constants (entry.1.name, entry.2) = some entry.1.listing) :
    (entries.map fun (kernel, ident) => (kernel.name, ident)).mapM (resolve? constants) =
      some (entries.map fun entry => entry.1.listing) := by
  induction entries with
  | nil => rfl
  | cons entry more ih =>
    obtain ⟨hentry, hmore⟩ := List.forall_mem_cons.mp h
    rw [List.map_cons, List.mapM_cons, hentry, ih hmore]
    rfl

/-- **A generated source is read as the kernels that it was made from.** -/
theorem read?_render {catalog : Catalog} {options : Options} (h : OnOneLine catalog options) :
    read? (render catalog options) = some (catalog.kernels.map Kernel.listing) := by
  have hnodup := nodup_declared catalog
  have hkernels : (catalog.kernels.zip (Identifier.assign catalog.names)).map
      (fun entry => entry.1.listing) = catalog.kernels.map Kernel.listing := by
    conv_rhs => rw [← List.map_fst_zip (length_assign catalog).ge, List.map_map]
    rfl
  have htable := body?_of_mem hnodup
    (List.mem_cons_of_mem _ (List.mem_append_right _ (List.mem_singleton_self _)))
  rw [read?, constants?_render h]
  dsimp only [Option.bind_eq_bind, Option.bind_some]
  rw [htable]
  dsimp only
  rw [mapM_resolve? fun entry hentry => resolve?_declared hnodup hentry, hkernels]

/-! ## Equal sources -/

/-- Equal sources have equal lines. -/
theorem sourceLines_eq_of_render_eq {first second : Catalog} {options : Options}
    (hfirst : OnOneLine first options) (hsecond : OnOneLine second options)
    (h : render first options = render second options) :
    sourceLines first options = sourceLines second options := by
  have hpieces := congrArg (fun text => Text.pieces '\n' text.toList) h
  simp only [render, pieces_lines (oneLine_of_mem_sourceLines hfirst),
    pieces_lines (oneLine_of_mem_sourceLines hsecond), List.append_cancel_right_eq] at hpieces
  exact List.map_injective_iff.mpr (fun _ _ => String.toList_injective) hpieces

/-- The name of an architecture is read up to the comma that follows it. -/
theorem span_architecture (architecture : Architecture) (rest : List Char) :
    Reader.span (· != ',') (architecture.name.toList ++ (", processor: ".toList ++ rest)) =
      some (architecture.name, ", processor: ".toList ++ rest) := by
  refine Reader.span_append (fun c hc => ?_) (Reader.stops_append ", processor: " rfl rfl rest)
  rw [bne_iff_ne]
  rintro rfl
  exact architecture.not_mem_name rfl hc

/-- Equal sources name the same architecture and the same processor. -/
theorem header_of_render_eq {first second : Catalog} {options : Options}
    (hfirst : OnOneLine first options) (hsecond : OnOneLine second options)
    (h : render first options = render second options) :
    first.architecture = second.architecture ∧
      first.processor.getD "unknown" = second.processor.getD "unknown" := by
  have hline : ∀ catalog, (sourceLines catalog options)[1]? =
      some ("// architecture: " ++ catalog.architecture.name ++ ", processor: "
        ++ catalog.processor.getD "unknown") := fun _ => rfl
  have hlines := congrArg (·[1]?) (sourceLines_eq_of_render_eq hfirst hsecond h)
  simp only [hline, Option.some.injEq] at hlines
  have hchars := congrArg String.toList hlines
  repeat rw [String.toList_append] at hchars
  repeat rw [List.append_assoc] at hchars
  have hnames := congrArg (Reader.span (· != ',')) (List.append_cancel_left hchars)
  rw [span_architecture, span_architecture] at hnames
  obtain ⟨hname, hrest⟩ := Prod.mk.inj (Option.some.inj hnames)
  exact ⟨Architecture.name_injective hname,
    String.toList_injective (List.append_cancel_left hrest)⟩

/-- **A generated source tells what the catalog tells.** It is read as the names of the kernels, in
order, with the symbols, parameters and launch resources of their overloads, where each identifier
of the table is declared once and stands for the descriptors under it. So catalogs with the same
source differ in the addresses of their overloads at most, and in whether a processor called
`unknown` is given. -/
theorem render_tells_catalog {catalog : Catalog} {options : Options}
    (h : OnOneLine catalog options) :
    read? (render catalog options) = some (catalog.kernels.map Kernel.listing) ∧
      ∀ other, OnOneLine other options → render other options = render catalog options →
        other.architecture = catalog.architecture ∧
        other.processor.getD "unknown" = catalog.processor.getD "unknown" ∧
        other.kernels.map Kernel.listing = catalog.kernels.map Kernel.listing := by
  refine ⟨read?_render h, fun other hother heq => ?_⟩
  obtain ⟨harchitecture, hprocessor⟩ := header_of_render_eq hother h heq
  have hkernels := read?_render hother
  rw [heq, read?_render h] at hkernels
  exact ⟨harchitecture, hprocessor, (Option.some.inj hkernels).symm⟩

/-- Kernels whose names give the same identifier, or one of the source's own, with symbols that have
to be escaped. -/
def sampleCatalog (processor : Option String) (address : UInt64) : Catalog :=
  ⟨.other 7, processor,
    [⟨"a b", [⟨"a \"b\"\\\n];", address, [.scalar .f32, .pointer .workgroup .i8 true], ⟨1, 2, 3⟩⟩,
        ⟨"e\u0301", address, [], ⟨0, 0, 0xffffffff⟩⟩]⟩,
      ⟨"a_b", []⟩, ⟨"SIDE", [⟨"", address, [.pointer .global .bool false], ⟨0, 0, 8⟩⟩]⟩,
      ⟨"const", []⟩]⟩

/-- The sample and one with other addresses, in which the processor is left open, have the same
source, which is read as their kernels. -/
theorem render_tells_catalog_sample :
    OnOneLine (sampleCatalog (some "unknown") 16) {} ∧
      read? (render (sampleCatalog (some "unknown") 16) {}) =
        some ((sampleCatalog none 32).kernels.map Kernel.listing) ∧
      (sampleCatalog none 32).processor.getD "unknown" = "unknown" := by
  have hopen : OnOneLine (sampleCatalog none 32) {} := ⟨by simp [sampleCatalog], by decide, by simp⟩
  have hgiven : OnOneLine (sampleCatalog (some "unknown") 16) {} :=
    ⟨fun processor hprocessor => by
      obtain rfl := Option.some.inj hprocessor
      decide, by decide, by simp⟩
  have heq : render (sampleCatalog none 32) {} =
      render (sampleCatalog (some "unknown") 16) {} := rfl
  obtain ⟨hread, hsame⟩ := render_tells_catalog hgiven
  obtain ⟨-, hprocessor, hkernels⟩ := hsame _ hopen heq
  exact ⟨hgiven, hkernels ▸ hread, hprocessor⟩

end HostSource

end KernelCatalog
