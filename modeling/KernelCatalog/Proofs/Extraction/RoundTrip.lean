import KernelCatalog.Proofs.Extraction.Catalog

/-!
# Encoding and reading back

An `Entry` is an overload as it is to be encoded. `Encodes` says that an object holds the code and
the descriptor of each entry, in any order and among further symbols that do not interfere. Such an
object is read, and its catalog holds exactly the entries, those of each kernel in the order of
address, section and name.
-/

namespace KernelCatalog.Descriptor

/-- An overload as it is to be encoded. -/
structure Entry where
  kernel : String
  params : List Param
  launch : Launch
  /-- The address of the code. -/
  address : UInt64
  /-- The number of the section that defines the code. -/
  codeSection : Nat
  kernel_ne : kernel ≠ ""
  /-- A constant pointer to local memory has no token. -/
  expressible : ∀ elem, .pointer .workgroup elem false ∉ params
  /-- So few parameters leave the size of their block a word. -/
  length_lt : params.length < 2 ^ 29
  block_le : Param.blockSize params ≤ launch.kernargSize

namespace Entry

/-- The signature of the parameters. -/
def signature (e : Entry) : String :=
  (Signature.signature? e.params).get (Signature.isSome_signature?_iff.mpr e.expressible)

/-- The name of the code. -/
def symbol (e : Entry) : String := e.kernel ++ "__" ++ e.signature

/-- The overload that is to be read back. -/
def overload (e : Entry) : Overload := ⟨e.symbol, e.address, e.params, e.launch⟩

/-- The overload with its kernel and the section of its code. -/
def found (e : Entry) : Found := ⟨e.kernel, some e.codeSection, e.overload⟩

/-- Kernel and parameters. -/
def key (e : Entry) : String × List Param := (e.kernel, e.params)

/-- Entries are ordered by address, then by section, then by name. -/
def Before (a b : Entry) : Prop :=
  a.address < b.address ∨ a.address = b.address ∧
    (a.codeSection < b.codeSection ∨ a.codeSection = b.codeSection ∧ a.symbol < b.symbol)

/-- What is found is ordered like the entries. -/
theorem before_of_found {a b : Entry} (h : a.found.Before b.found) : a.Before b := by
  refine h.imp_right fun ⟨haddress, hrest⟩ => ⟨haddress, ?_⟩
  exact hrest.imp Nat.lt_of_succ_lt_succ fun ⟨hsection, hsymbol⟩ => ⟨Nat.succ.inj hsection, hsymbol⟩

/-- `s` is the code of an entry. -/
structure HasCode (e : Entry) (s : Symbol) : Prop where
  name_eq : s.name = e.symbol
  kind_eq : s.kind = .function
  address_eq : s.address = e.address
  section_eq : s.sectionIndex = some e.codeSection

/-- `s` is the descriptor of an entry: data of sixty-four bytes that hold its launch resources. -/
structure HasDescriptor (object : Object) (e : Entry) (s : Symbol) : Prop where
  name_eq : s.name = e.symbol ++ ".kd"
  kind_eq : s.kind = .object
  size_eq : s.size = 64
  holds : ∃ bytes, object.Covers s bytes ∧ Stores object.byteOrder bytes e.launch

/-- The name of the code is read as kernel and parameters. -/
theorem names (e : Entry) : Signature.Names e.symbol e.kernel e.params :=
  Signature.names_iff.mpr ⟨e.kernel_ne, e.signature, (Option.some_get _).symm, rfl⟩

/-- Kernel and parameters are told by the name of the code. -/
theorem key_eq_of_symbol_eq {a b : Entry} (h : a.symbol = b.symbol) : a.key = b.key := by
  have hnames := a.names
  rw [h] at hnames
  obtain ⟨hkernel, hparams⟩ := hnames.unique b.names
  exact Prod.ext hkernel hparams

/-- The name of code is not that of a descriptor. -/
theorem symbol_ne_append (e : Entry) (base : String) : e.symbol ≠ base ++ ".kd" := by
  intro h
  obtain ⟨-, signature, hsignature, hsymbol⟩ := Signature.names_iff.mp e.names
  have hne : signature.toList ≠ [] := by
    simpa using Signature.signature?_ne_nil hsignature
  -- the last letter of a symbol is that of its signature
  have hlast := congrArg (fun text : String => text.toList.getLast?) (hsymbol.symm.trans h)
  simp only [String.toList_append, List.getLast?_append_of_ne_nil _ hne] at hlast
  rw [List.getLast?_append_of_ne_nil base.toList (by decide : ".kd".toList ≠ [])] at hlast
  exact Signature.not_mem_signature hsignature (List.mem_of_getLast? hlast)

/-- The name of code does not state a version. -/
theorem symbol_ne_version (e : Entry) : e.symbol ≠ "__kcfg_encoding_version" := by
  intro h
  obtain ⟨signature, hsplit, -⟩ := e.names
  have herror : Signature.split "__kcfg_encoding_version" = .error .emptyKernel := by rfl
  rw [h, herror] at hsplit
  exact absurd hsplit (by simp)

/-- Nor does the name of a descriptor. -/
theorem descriptor_ne_version (e : Entry) : e.symbol ++ ".kd" ≠ "__kcfg_encoding_version" := by
  intro h
  have hnone : baseName? "__kcfg_encoding_version" = none := by decide
  rw [baseName?_eq_some_iff.mpr h.symm] at hnone
  exact absurd hnone (by simp)

end Entry

/-- The object holds the code and the descriptors of the entries, which differ in kernel or
parameters, and further symbols that are no descriptors, no code called like an entry's, and state no
other version of the encoding. -/
structure Encodes (object : Object) (entries : List Entry)
    (code described further : List Symbol) : Prop where
  keys_nodup : (entries.map Entry.key).Nodup
  symbols_perm : object.symbols.Perm (code ++ described ++ further)
  code : List.Forall₂ Entry.HasCode entries code
  described : List.Forall₂ (Entry.HasDescriptor object) entries described
  further_descriptor : ∀ s ∈ further, ¬ IsDescriptor s
  further_code : ∀ s ∈ further, ∀ e ∈ entries, ¬ s.IsCode e.symbol
  further_version : ∀ s ∈ further, s.name = "__kcfg_encoding_version" → s.address = 1

namespace Encodes

variable {object : Object} {entries : List Entry} {code described further : List Symbol}

theorem mem_symbols_iff (h : Encodes object entries code described further) {s : Symbol} :
    s ∈ object.symbols ↔ s ∈ code ∨ s ∈ described ∨ s ∈ further := by
  rw [h.symbols_perm.mem_iff, List.mem_append, List.mem_append, or_assoc]

theorem versionAccepted (h : Encodes object entries code described further) :
    VersionAccepted object := by
  -- only a further symbol can have the name
  have hversion : ∀ s ∈ object.symbols, s.name = "__kcfg_encoding_version" → s.address = 1 := by
    intro s hs hname
    rcases h.mem_symbols_iff.mp hs with hs | hs | hs
    · obtain ⟨e, -, he⟩ := Pairing.exists_left h.code hs
      exact absurd (he.name_eq.symm.trans hname) e.symbol_ne_version
    · obtain ⟨e, -, he⟩ := Pairing.exists_left h.described hs
      exact absurd (he.name_eq.symm.trans hname) e.descriptor_ne_version
    · exact h.further_version s hs hname
  by_cases hsome : ∃ s ∈ object.symbols, s.name = "__kcfg_encoding_version"
  · obtain ⟨s, hs, hname⟩ := hsome
    obtain ⟨first, hfirst⟩ := Object.exists_first (·.name = "__kcfg_encoding_version") hs hname
    exact Or.inr ⟨first, hfirst, hversion first hfirst.mem hfirst.1⟩
  · exact Or.inl fun s hs hname => hsome ⟨s, hs, hname⟩

/-- Code called like an entry's is that entry's. -/
theorem hasCode_of_isCode (h : Encodes object entries code described further) {e : Entry}
    (he : e ∈ entries) {s : Symbol} (hs : s ∈ object.symbols) (hcode : s.IsCode e.symbol) :
    e.HasCode s := by
  rcases h.mem_symbols_iff.mp hs with hs | hs | hs
  · obtain ⟨e', he', hcode'⟩ := Pairing.exists_left h.code hs
    have hkey := Entry.key_eq_of_symbol_eq (hcode'.name_eq.symm.trans hcode.name_eq)
    rwa [List.inj_on_of_nodup_map h.keys_nodup he' he hkey] at hcode'
  · obtain ⟨e', -, hdescriptor⟩ := Pairing.exists_left h.described hs
    have hkind := hdescriptor.kind_eq
    rw [hcode.isFunction] at hkind
    exact absurd hkind (by simp)
  · exact absurd hcode (h.further_code s hs e he)

/-- The descriptor of an entry tells about it. -/
theorem decodes (h : Encodes object entries code described further) {e : Entry}
    (he : e ∈ entries) {s : Symbol} (hs : e.HasDescriptor object s) : Decodes object s e.found := by
  obtain ⟨c, hc, hcode⟩ := Pairing.exists_right h.code he
  have hisCode : c.IsCode e.symbol :=
    ⟨hcode.name_eq, hcode.kind_eq, by rw [hcode.section_eq]; simp⟩
  obtain ⟨first, hfirst⟩ := Object.exists_first (·.IsCode e.symbol)
    (h.mem_symbols_iff.mpr (Or.inl hc)) hisCode
  -- the first symbol of the name need not be `c`, but it says the same of the entry
  have hfirstCode := h.hasCode_of_isCode he hfirst.mem hfirst.1
  exact ⟨hs.name_eq, hs.kind_eq, hs.size_eq, e.names, hs.holds, e.block_le,
    first, hfirst, hfirstCode.address_eq.symm, hfirstCode.section_eq.symm⟩

theorem descriptors_perm (h : Encodes object entries code described further) :
    (descriptors object.symbols).Perm described := by
  have hcode : code.filter IsDescriptor = [] := by
    rw [List.filter_eq_nil_iff]
    intro s hs hdescriptor
    obtain ⟨base, hbase⟩ := of_decide_eq_true hdescriptor
    obtain ⟨e, -, he⟩ := Pairing.exists_left h.code hs
    exact e.symbol_ne_append base (he.name_eq.symm.trans hbase)
  have hdescribed : described.filter IsDescriptor = described := by
    rw [List.filter_eq_self]
    intro s hs
    obtain ⟨e, -, he⟩ := Pairing.exists_left h.described hs
    exact decide_eq_true ⟨e.symbol, he.name_eq⟩
  have hfurther : further.filter IsDescriptor = [] := by
    rw [List.filter_eq_nil_iff]
    intro s hs hdescriptor
    exact h.further_descriptor s hs (of_decide_eq_true hdescriptor)
  have hperm := h.symbols_perm.filter (IsDescriptor ·)
  rwa [List.filter_append, List.filter_append, hcode, hdescribed, hfurther, List.nil_append,
    List.append_nil] at hperm

theorem symbols_nodup (h : Encodes object entries code described further) :
    (entries.map Entry.symbol).Nodup := by
  refine (List.Nodup.of_map Entry.key h.keys_nodup).map_on ?_
  intro a ha b hb hsymbol
  exact List.inj_on_of_nodup_map h.keys_nodup ha hb (Entry.key_eq_of_symbol_eq hsymbol)

theorem names_nodup (h : Encodes object entries code described further) :
    ((descriptors object.symbols).map Symbol.name).Nodup := by
  have hnames : (entries.map Entry.symbol).map (· ++ ".kd") = described.map Symbol.name := by
    rw [List.map_map]
    exact Pairing.map_eq_map h.described fun _ _ hs => hs.name_eq.symm
  rw [(h.descriptors_perm.map Symbol.name).nodup_iff, ← hnames]
  exact h.symbols_nodup.map fun _ _ => base_injective

/-- The walk over the symbol table finds the entries. -/
theorem exists_collect (h : Encodes object entries code described further) :
    ∃ found, collect object [] object.symbols = .ok found ∧
      found.Perm (entries.map Entry.found) := by
  have hmem := (List.forall₂_and_left entries described).mpr ⟨fun e he => he, h.described⟩
  have hpaired : List.Forall₂ (Decodes object) described (entries.map Entry.found) := by
    rw [List.forall₂_map_right_iff]
    exact List.Forall₂.flip (hmem.imp fun e s ⟨he, hs⟩ => h.decodes he hs)
  -- the pairing is in the order of the entries, and the walk in that of the table
  obtain ⟨found, hdecodes, hperm⟩ := List.perm_comp_forall₂ h.descriptors_perm hpaired
  exact ⟨found, collect_eq_ok_iff.mpr ⟨hdecodes, h.names_nodup, by simp⟩, hperm⟩

/-- Sorting what was found sorts the entries. -/
theorem exists_sorted (h : Encodes object entries code described further) {found : List Found}
    (hfound : found.Perm (entries.map Entry.found)) :
    ∃ sorted : List Entry, found.mergeSort Found.le = sorted.map Entry.found ∧ sorted.Perm entries ∧
      sorted.Pairwise Entry.Before := by
  have hsymbols : (found.map fun f => f.overload.symbol).Nodup := by
    rw [(hfound.map fun f => f.overload.symbol).nodup_iff, List.map_map]
    exact h.symbols_nodup
  have hsorted := (List.mergeSort_perm found Found.le).trans hfound
  obtain ⟨sorted, heq, hperm⟩ := (congrFun₂ (List.eq_map_comp_perm Entry.found) _ _).mpr hsorted
  refine ⟨sorted, heq, hperm, ?_⟩
  have hpairwise := pairwise_before_mergeSort hsymbols
  rw [heq] at hpairwise
  exact (List.pairwise_map.mp hpairwise).imp Entry.before_of_found

end Encodes

/-- **What is encoded is read back**: an object that encodes entries is read, in whatever order its
symbols stand and whatever other symbols are among them. The catalog holds each entry under its
kernel, and nothing else. Kernels are listed once, and the overloads of each are in the order of
address, section and name. -/
theorem extract_of_encodes {object : Object} {entries : List Entry}
    {code described further : List Symbol} (h : Encodes object entries code described further) :
    ∃ (catalog : Catalog) (sorted : List Entry), backend.extract object = .ok catalog ∧
      sorted.Perm entries ∧ sorted.Pairwise Entry.Before ∧
      catalog.kernels = (sorted.map Entry.kernel).eraseDups.map (fun name =>
        ⟨name, (sorted.filter fun e => e.kernel = name).map Entry.overload⟩) ∧
      catalog.names.Nodup ∧
      catalog.entries.Perm (entries.map fun e => (e.kernel, e.overload)) := by
  obtain ⟨found, hcollect, hfound⟩ := h.exists_collect
  obtain ⟨sorted, heq, hperm, hsorted⟩ := h.exists_sorted hfound
  have hrecords := records_catalogOf object found
  rw [heq, List.map_map] at hrecords
  refine ⟨catalogOf object found, sorted,
    extract_eq_ok_iff.mpr ⟨h.versionAccepted, found, hcollect, rfl⟩, hperm, hsorted, ?_,
    hrecords.names_nodup, hrecords.entries_perm.trans (hperm.map _)⟩
  rw [hrecords.kernels_eq, List.map_map]
  simp only [List.filter_map, List.map_map]
  rfl

/-- The overload of the sample that takes a pointer and a number. -/
def sampleFloats : Entry where
  kernel := "vec__add"
  params := [.pointer .global .f32 false, .scalar .f32]
  launch := ⟨256, 0, 16⟩
  address := 0x1010
  codeSection := 0
  kernel_ne := by decide
  expressible := by simp
  length_lt := by decide
  block_le := by decide

/-- The overload of the sample that takes two integers. -/
def sampleInts : Entry where
  kernel := "vec__add"
  params := [.scalar .i32, .scalar .i32]
  launch := ⟨0, 4, 8⟩
  address := 0x1000
  codeSection := 0
  kernel_ne := by decide
  expressible := by simp
  length_lt := by decide
  block_le := by decide

/-- The sample encodes its two overloads. -/
theorem encodes_sampleObject :
    Encodes sampleObject [sampleFloats, sampleInts]
      [⟨"vec__add__cf32_f32", 0x1010, 16, .function, .global, some 0⟩,
        ⟨"vec__add__i32_i32", 0x1000, 8, .function, .global, some 0⟩]
      [⟨"vec__add__cf32_f32.kd", 0x2000, 64, .object, .global, some 1⟩,
        ⟨"vec__add__i32_i32.kd", 0x2040, 64, .object, .global, some 1⟩]
      [⟨"vec__add__i32_i32", 0, 0, .function, .global, none⟩,
        ⟨"helper", 0x1008, 8, .function, .internal, some 0⟩] where
  keys_nodup := by decide
  symbols_perm := by decide
  code := .cons ⟨by decide, rfl, rfl, rfl⟩ (.cons ⟨by decide, rfl, rfl, rfl⟩ .nil)
  described := by
    refine .cons ⟨by decide, rfl, rfl, ?_⟩ (.cons ⟨by decide, rfl, rfl, ?_⟩ .nil)
    · exact ⟨_, ⟨1, _, [], _, rfl, rfl, rfl, rfl, rfl⟩, rfl, rfl, rfl⟩
    · exact ⟨_, ⟨1, _, _, [], rfl, rfl, (List.append_nil _).symm, rfl, rfl⟩, rfl, rfl, rfl⟩
  further_descriptor := by decide
  further_code := by decide
  further_version := by decide

/-- What the sample encodes is read back. -/
theorem extract_of_encodes_sampleObject :
    ∃ catalog, backend.extract sampleObject = .ok catalog ∧ catalog.entries.Perm
      [("vec__add", sampleFloats.overload), ("vec__add", sampleInts.overload)] := by
  obtain ⟨catalog, -, hextract, -, -, -, -, hperm⟩ := extract_of_encodes encodes_sampleObject
  exact ⟨catalog, hextract, hperm⟩

end KernelCatalog.Descriptor
