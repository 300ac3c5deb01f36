import KernelCatalog.Proofs.Extraction.Descriptor
import KernelCatalog.Proofs.Kernel.Catalog
import Mathlib.Data.List.Nodup

/-!
# The catalog of an object

A catalog that is read holds one overload for each descriptor of the symbol table and no others,
each filed under the kernel that its name tells. Two overloads of one kernel differ in their
parameters, because a name is determined by kernel and parameters and descriptors have names of
their own, so a launch by the types of its arguments is never ambiguous.
-/

namespace KernelCatalog

namespace Descriptor

/-- An overload that was found, as an entry of the catalog. -/
def Found.entry (found : Found) : String × Overload := (found.kernel, found.overload)

/-! ## The order of overloads -/

/-- An overload comes before another by the address of its code, then by its section, then by its
name. -/
def Found.Before (a b : Found) : Prop :=
  a.overload.address < b.overload.address ∨ a.overload.address = b.overload.address ∧
    (sectionRank a.codeSection < sectionRank b.codeSection ∨
      sectionRank a.codeSection = sectionRank b.codeSection ∧ a.overload.symbol < b.overload.symbol)

/-- Overloads are sorted by three keys, the last of which may be equal. -/
theorem Found.le_iff {a b : Found} :
    Found.le a b = true ↔
      a.overload.address < b.overload.address ∨ a.overload.address = b.overload.address ∧
        (sectionRank a.codeSection < sectionRank b.codeSection ∨
          sectionRank a.codeSection = sectionRank b.codeSection ∧
            a.overload.symbol ≤ b.overload.symbol) := by
  unfold Found.le
  split
  · next haddress => simp [haddress]
  · next haddress =>
    split
    · next hsection => simp [not_not.mp haddress, hsection]
    · next hsection => simp [not_not.mp haddress, not_not.mp hsection]

theorem Found.le_trans {a b c : Found} (hab : Found.le a b = true) (hbc : Found.le b c = true) :
    Found.le a c = true := by
  rw [Found.le_iff] at hab hbc ⊢
  rcases hab with hab | ⟨hab, hab'⟩
  · rcases hbc with hbc | ⟨hbc, -⟩
    · exact Or.inl (UInt64.lt_trans hab hbc)
    · exact Or.inl (hbc ▸ hab)
  · rw [hab]
    refine hbc.imp_right fun ⟨hbc, hbc'⟩ => ⟨hbc, ?_⟩
    rcases hab' with hab' | ⟨hab', hsymbol⟩
    · rcases hbc' with hbc' | ⟨hbc', -⟩
      · exact Or.inl (Nat.lt_trans hab' hbc')
      · exact Or.inl (hbc' ▸ hab')
    · rw [hab']
      exact hbc'.imp_right fun ⟨hbc', hsymbol'⟩ => ⟨hbc', String.le_trans hsymbol hsymbol'⟩

theorem Found.le_total (a b : Found) : (Found.le a b || Found.le b a) = true := by
  rw [Bool.or_eq_true, Found.le_iff, Found.le_iff, UInt64.lt_iff_toNat_lt, UInt64.lt_iff_toNat_lt,
    ← UInt64.toNat_inj, ← UInt64.toNat_inj]
  rcases Nat.lt_trichotomy a.overload.address.toNat b.overload.address.toNat with h | h | h
  · exact Or.inl (Or.inl h)
  · rcases Nat.lt_trichotomy (sectionRank a.codeSection) (sectionRank b.codeSection) with
      h' | h' | h'
    · exact Or.inl (Or.inr ⟨h, Or.inl h'⟩)
    · rcases String.le_total a.overload.symbol b.overload.symbol with h'' | h''
      · exact Or.inl (Or.inr ⟨h, Or.inr ⟨h', h''⟩⟩)
      · exact Or.inr (Or.inr ⟨h.symm, Or.inr ⟨h'.symm, h''⟩⟩)
    · exact Or.inr (Or.inr ⟨h.symm, Or.inl h'⟩)
  · exact Or.inr (Or.inl h)

/-- Overloads in order whose code has different names come one before the other. -/
theorem Found.before_of_le {a b : Found} (h : Found.le a b = true)
    (hne : a.overload.symbol ≠ b.overload.symbol) : a.Before b := by
  refine (Found.le_iff.mp h).imp_right fun ⟨haddress, hrest⟩ => ⟨haddress, ?_⟩
  refine hrest.imp_right fun ⟨hsection, hsymbol⟩ => ⟨hsection, ?_⟩
  rw [← String.not_le]
  exact fun hge => hne (String.le_antisymm hsymbol hge)

theorem pairwise_before_mergeSort {found : List Found}
    (h : (found.map fun f => f.overload.symbol).Nodup) :
    (found.mergeSort Found.le).Pairwise Found.Before := by
  have hsorted : (found.mergeSort Found.le).Pairwise fun a b => Found.le a b = true :=
    List.pairwise_mergeSort (fun a b c => @Found.le_trans a b c) Found.le_total found
  have hdistinct : (found.mergeSort Found.le).Pairwise
      fun a b => a.overload.symbol ≠ b.overload.symbol := by
    have hperm := (List.mergeSort_perm found Found.le).map fun f => f.overload.symbol
    exact List.pairwise_map.mp (hperm.nodup_iff.mpr h)
  -- without equal names the sort leaves no ties
  exact (hsorted.and hdistinct).imp fun ⟨hle, hne⟩ => Found.before_of_le hle hne

/-! ## What is recovered -/

/-- What is known of a catalog that was read: what was found in the object, one by one, and that it
was inserted in order. -/
structure Recovered (object : Object) (found : List Found) (catalog : Catalog) : Prop where
  decodes : List.Forall₂ (Decodes object) (descriptors object.symbols) found
  symbols_nodup : (found.map fun f => f.overload.symbol).Nodup
  records : Catalog.Records ((found.mergeSort Found.le).map Found.entry) catalog.kernels

/-- The catalog of what was found records it in order. -/
theorem records_catalogOf (object : Object) (found : List Found) :
    Catalog.Records ((found.mergeSort Found.le).map Found.entry) (catalogOf object found).kernels := by
  have hempty : Catalog.Records []
      (Catalog.empty .amdgpu (some (processorName object.machineFlags))).kernels := Catalog.Records.nil
  have hrun := hempty.foldl ((found.mergeSort Found.le).map Found.entry)
  rwa [List.nil_append, List.foldl_map] at hrun

/-- Descriptors with names of their own tell about code with names of its own. -/
theorem symbols_nodup_of_decodes {object : Object} {symbols : List Symbol} {found : List Found}
    (hdecodes : List.Forall₂ (Decodes object) symbols found)
    (hnodup : (symbols.map Symbol.name).Nodup) : (found.map fun f => f.overload.symbol).Nodup := by
  have hnames : symbols.map Symbol.name = found.map fun f => f.overload.symbol ++ ".kd" :=
    Pairing.map_eq_map hdecodes fun _ _ h => h.name_eq
  rw [hnames] at hnodup
  refine List.Nodup.of_map (· ++ ".kd") ?_
  rwa [List.map_map]

/-- Whatever catalog is read is recovered from the descriptors. -/
theorem exists_recovered {object : Object} {catalog : Catalog}
    (h : backend.extract object = .ok catalog) : ∃ found, Recovered object found catalog := by
  obtain ⟨-, found, hcollect, rfl⟩ := extract_eq_ok_iff.mp h
  obtain ⟨hdecodes, hnodup, -⟩ := collect_eq_ok_iff.mp hcollect
  exact ⟨found, hdecodes, symbols_nodup_of_decodes hdecodes hnodup, records_catalogOf object found⟩

theorem Recovered.entries_perm {object : Object} {found : List Found} {catalog : Catalog}
    (h : Recovered object found catalog) : catalog.entries.Perm (found.map Found.entry) :=
  h.records.entries_perm.trans ((List.mergeSort_perm found Found.le).map Found.entry)

/-- Entries of a catalog have code of their own. -/
theorem Recovered.entries_nodup {object : Object} {found : List Found} {catalog : Catalog}
    (h : Recovered object found catalog) :
    (catalog.entries.map fun entry => entry.2.symbol).Nodup := by
  have hperm := h.entries_perm.map fun entry => entry.2.symbol
  rw [List.map_map] at hperm
  exact hperm.nodup_iff.mpr h.symbols_nodup

theorem Recovered.mem_entries_iff {object : Object} {found : List Found} {catalog : Catalog}
    (h : Recovered object found catalog) {entry : String × Overload} :
    entry ∈ catalog.entries ↔ ∃ f ∈ found, f.entry = entry := by
  rw [h.entries_perm.mem_iff, List.mem_map]

/-! ## Descriptors and overloads -/

/-- What the descriptor `symbol` says of an overload of the kernel called `kernel`. -/
structure Describes (object : Object) (symbol : Symbol) (kernel : String) (overload : Overload) :
    Prop where
  /-- The descriptor is called like the code, with `.kd` behind it. -/
  name_eq : symbol.name = overload.symbol ++ ".kd"
  /-- The name of the code is cut at its last `__` into the kernel and the signature of the
  parameters. -/
  signature : ∃ signature, Signature.CutAtLast overload.symbol kernel signature ∧
    Signature.parse signature = .ok overload.params
  /-- The address is that of the first symbol of the table that is code of this name. -/
  address : ∃ code, object.First (·.IsCode overload.symbol) code ∧
    overload.address = code.address
  /-- The launch resources are the first three words of the descriptor. -/
  launch : ∃ bytes, object.Covers symbol bytes ∧ Stores object.byteOrder bytes overload.launch
  block_le : Param.blockSize overload.params ≤ overload.launch.kernargSize

/-- What a descriptor tells it says of the entry. -/
theorem Decodes.describes {object : Object} {symbol : Symbol} {found : Found}
    (h : Decodes object symbol found) :
    Describes object symbol found.kernel found.overload := by
  obtain ⟨signature, hsplit, hparse⟩ := h.names
  obtain ⟨-, -, hcut⟩ := Signature.split_eq_ok_iff.mp hsplit
  obtain ⟨code, hcode, haddress, -⟩ := h.code
  exact ⟨h.name_eq, ⟨signature, hcut, hparse⟩, ⟨code, hcode, haddress⟩, h.launch, h.block_le⟩

/-- The kernel names of a catalog are those that the descriptors' names tell. -/
theorem Recovered.mem_names_iff {object : Object} {found : List Found} {catalog : Catalog}
    (h : Recovered object found catalog) {kernel : String} :
    kernel ∈ catalog.names ↔ ∃ symbol ∈ object.symbols, ∃ base signature,
      symbol.name = base ++ ".kd" ∧ Signature.CutAtLast base kernel signature := by
  have hnames : kernel ∈ catalog.names ↔ ∃ f ∈ found, f.kernel = kernel := by
    rw [Catalog.names, h.records.mem_names_iff]
    constructor
    · rintro ⟨overload, hmem⟩
      obtain ⟨f, hf, hentry⟩ := List.mem_map.mp hmem
      exact ⟨f, List.mem_mergeSort.mp hf, congrArg Prod.fst hentry⟩
    · rintro ⟨f, hf, rfl⟩
      exact ⟨f.overload, List.mem_map.mpr ⟨f, List.mem_mergeSort.mpr hf, rfl⟩⟩
  rw [hnames]
  constructor
  · rintro ⟨f, hf, rfl⟩
    obtain ⟨symbol, hsymbol, hdecodes⟩ := Pairing.exists_left h.decodes hf
    obtain ⟨signature, hcut, -⟩ := hdecodes.describes.signature
    exact ⟨symbol, (mem_descriptors.mp hsymbol).1, _, signature, hdecodes.name_eq, hcut⟩
  · rintro ⟨symbol, hsymbol, base, signature, hbase, hcut⟩
    have hmem := mem_descriptors.mpr ⟨hsymbol, base, hbase⟩
    obtain ⟨f, hf, hdecodes⟩ := Pairing.exists_right h.decodes hmem
    obtain rfl := base_injective (hbase.symm.trans hdecodes.name_eq)
    obtain ⟨signature', hcut', -⟩ := hdecodes.describes.signature
    exact ⟨f, hf, (hcut'.unique hcut).1⟩

/-- **Nothing is lost and nothing is invented**: the entries of a catalog that is read correspond to
the descriptors of the symbol table one by one, as each of them says. Each descriptor has exactly
one entry, and the kernels are those that the names of the descriptors tell, each listed once. -/
theorem entries_correspond_to_descriptors {object : Object} {catalog : Catalog}
    (h : backend.extract object = .ok catalog) :
    (∃ entries, entries.Perm catalog.entries ∧
        List.Forall₂ (fun symbol entry => Describes object symbol entry.1 entry.2)
          (descriptors object.symbols) entries) ∧
      catalog.entries.Nodup ∧
      (∀ symbol ∈ object.symbols, IsDescriptor symbol →
        ∃! entry, entry ∈ catalog.entries ∧ Describes object symbol entry.1 entry.2) ∧
      catalog.names.Nodup ∧
      ∀ kernel, kernel ∈ catalog.names ↔ ∃ symbol ∈ object.symbols, ∃ base signature,
        symbol.name = base ++ ".kd" ∧ Signature.CutAtLast base kernel signature := by
  obtain ⟨found, hfound⟩ := exists_recovered h
  refine ⟨⟨found.map Found.entry, hfound.entries_perm.symm, ?_⟩,
    List.Nodup.of_map _ hfound.entries_nodup, ?_, hfound.records.names_nodup,
    fun _ => hfound.mem_names_iff⟩
  · rw [List.forall₂_map_right_iff]
    exact hfound.decodes.imp fun _ _ hdecodes => hdecodes.describes
  · intro symbol hsymbol hdescriptor
    have hmem := mem_descriptors.mpr ⟨hsymbol, hdescriptor⟩
    obtain ⟨f, hf, hdecodes⟩ := Pairing.exists_right hfound.decodes hmem
    have hentry : f.entry ∈ catalog.entries := hfound.mem_entries_iff.mpr ⟨f, hf, rfl⟩
    refine ⟨f.entry, ⟨hentry, hdecodes.describes⟩, ?_⟩
    rintro entry ⟨hmem', hdescribes⟩
    -- an entry that fits the descriptor has the same code, and no two entries do
    have hsame := base_injective (hdescribes.name_eq.symm.trans hdecodes.name_eq)
    exact List.inj_on_of_nodup_map hfound.entries_nodup hmem' hentry hsame

/-- Two overloads of a kernel whose name holds the separator, with a declaration of one of them and a
helper among the symbols, and with the table not in the order of addresses. -/
def sampleObject : Object where
  architecture := .amdgpu
  machineFlags := 0x3f
  byteOrder := .big
  relocatable := false
  sections := [
    ⟨".text", 1, 6, 0x1000, 0x100, 32, List.replicate 32 0⟩,
    ⟨".rodata", 1, 2, 0x2000, 0x200, 128,
      [0, 0, 1, 0, 0, 0, 0, 0, 0, 0, 0, 16] ++ List.replicate 52 0 ++
        ([0, 0, 0, 0, 0, 0, 0, 4, 0, 0, 0, 8] ++ List.replicate 52 0)⟩]
  symbols := [
    ⟨"vec__add__i32_i32", 0, 0, .function, .global, none⟩,
    ⟨"vec__add__cf32_f32.kd", 0x2000, 64, .object, .global, some 1⟩,
    ⟨"vec__add__cf32_f32", 0x1010, 16, .function, .global, some 0⟩,
    ⟨"vec__add__i32_i32.kd", 0x2040, 64, .object, .global, some 1⟩,
    ⟨"helper", 0x1008, 8, .function, .internal, some 0⟩,
    ⟨"vec__add__i32_i32", 0x1000, 8, .function, .global, some 0⟩]

/-- The overloads of the sample, in the order of its descriptors. -/
def sampleFound : List Found := [
  ⟨"vec__add", some 0, "vec__add__cf32_f32", 0x1010, [.pointer .global .f32 false, .scalar .f32],
    ⟨256, 0, 16⟩⟩,
  ⟨"vec__add", some 0, "vec__add__i32_i32", 0x1000, [.scalar .i32, .scalar .i32], ⟨0, 4, 8⟩⟩]

/-- The kernel of the sample, its overloads in the order of addresses. -/
def sampleKernel : Kernel :=
  ⟨"vec__add", sampleFound.reverse.map Found.overload⟩

theorem extract_sampleObject :
    backend.extract sampleObject = .ok ⟨.amdgpu, some "gfx90a", [sampleKernel]⟩ := by
  have hsort : sampleFound.mergeSort Found.le = sampleFound.reverse := by
    simp [sampleFound, List.mergeSort, Found.le]
  rw [extract_eq_ok_iff, ← checkVersion_eq_ok_iff]
  refine ⟨by decide +kernel, sampleFound, by decide +kernel, ?_⟩
  rw [catalogOf, hsort]
  decide +kernel

/-- Each of the two descriptors of the sample has its entry. -/
theorem entries_correspond_to_descriptors_sampleObject :
    ∃ catalog, backend.extract sampleObject = .ok catalog ∧
      (∀ symbol ∈ sampleObject.symbols, IsDescriptor symbol →
        ∃! entry, entry ∈ catalog.entries ∧ Describes sampleObject symbol entry.1 entry.2) ∧
      catalog.names.Nodup := by
  obtain ⟨-, -, hunique, hnodup, -⟩ := entries_correspond_to_descriptors extract_sampleObject
  exact ⟨_, extract_sampleObject, hunique, hnodup⟩

/-! ## Selection by argument types -/

/-- The overloads of a kernel are entries under its name. -/
theorem Recovered.names_of_mem {object : Object} {found : List Found} {catalog : Catalog}
    (h : Recovered object found catalog) {kernel : Kernel} (hkernel : kernel ∈ catalog.kernels)
    {overload : Overload} (hmem : overload ∈ kernel.overloads) :
    Signature.Names overload.symbol kernel.name overload.params := by
  have hentry : (kernel.name, overload) ∈ catalog.entries :=
    Catalog.mem_entries.mpr ⟨kernel, hkernel, rfl, hmem⟩
  obtain ⟨f, hf, heq⟩ := h.mem_entries_iff.mp hentry
  obtain ⟨hname, hoverload⟩ := Prod.mk.inj heq
  obtain ⟨symbol, -, hdecodes⟩ := Pairing.exists_left h.decodes hf
  rw [← hname, ← hoverload]
  exact hdecodes.names

/-- The overloads of a kernel have code of their own. -/
theorem Recovered.symbols_nodup_of_mem {object : Object} {found : List Found} {catalog : Catalog}
    (h : Recovered object found catalog) {kernel : Kernel} (hkernel : kernel ∈ catalog.kernels) :
    (kernel.overloads.map Overload.symbol).Nodup := by
  have hsublist : (kernel.overloads.map fun overload => (kernel.name, overload)).Sublist
      catalog.entries := by
    rw [Catalog.entries, Catalog.entriesOf, List.flatMap_def]
    exact List.sublist_flatten_of_mem (List.mem_map.mpr ⟨kernel, hkernel, rfl⟩)
  have hnodup := h.entries_nodup.sublist (hsublist.map _)
  rwa [List.map_map] at hnodup

/-- The overloads of a kernel differ in their parameters. -/
theorem Recovered.params_nodup {object : Object} {found : List Found} {catalog : Catalog}
    (h : Recovered object found catalog) {kernel : Kernel} (hkernel : kernel ∈ catalog.kernels) :
    (kernel.overloads.map Overload.params).Nodup := by
  have hsymbols := h.symbols_nodup_of_mem hkernel
  refine (List.Nodup.of_map Overload.symbol hsymbols).map_on ?_
  intro a ha b hb hparams
  -- kernel and parameters determine the name of the code
  have hname := h.names_of_mem hkernel ha
  rw [hparams] at hname
  exact List.inj_on_of_nodup_map hsymbols ha hb (hname.base_unique (h.names_of_mem hkernel hb))

end Descriptor

/-- Among overloads that differ in their parameters, those of an overload select it. -/
theorem Overload.select?_eq_some_of_nodup {overloads : List Overload}
    (h : (overloads.map Overload.params).Nodup) {overload : Overload} (hmem : overload ∈ overloads) :
    select? overloads overload.params = some overload := by
  cases hselect : select? overloads overload.params with
  | none =>
    have hnone := List.find?_eq_none.mp hselect overload hmem
    exact absurd (beq_iff_eq.mpr rfl) hnone
  | some other =>
    have haccepts := List.find?_some hselect
    have hparams : other.params = overload.params := beq_iff_eq.mp haccepts
    rw [List.inj_on_of_nodup_map h (List.mem_of_find?_eq_some hselect) hmem hparams]

theorem Overload.select?_eq_none_of_forall_ne {overloads : List Overload} {args : List Param}
    (h : ∀ overload ∈ overloads, overload.params ≠ args) : select? overloads args = none := by
  rw [select?, List.find?_eq_none]
  intro overload hmem haccepts
  exact h overload hmem (beq_iff_eq.mp haccepts)

namespace Descriptor

/-- **A launch is never ambiguous**: the overloads of each kernel of a catalog that is read differ in
their parameters, so the types of the arguments select the one overload that takes them, with its
code and launch resources, and select nothing when there is none. -/
theorem overload_selected_iff_params {object : Object} {catalog : Catalog}
    (h : backend.extract object = .ok catalog) {kernel : Kernel}
    (hkernel : kernel ∈ catalog.kernels) :
    (kernel.overloads.map Overload.params).Nodup ∧
      (∀ overload ∈ kernel.overloads,
        Overload.select? kernel.overloads overload.params = some overload) ∧
      ∀ args, (∀ overload ∈ kernel.overloads, overload.params ≠ args) →
        Overload.select? kernel.overloads args = none := by
  obtain ⟨found, hfound⟩ := exists_recovered h
  have hnodup := hfound.params_nodup hkernel
  refine ⟨hnodup, ?_, ?_⟩
  · intro overload hmem
    exact Overload.select?_eq_some_of_nodup hnodup hmem
  · intro args hargs
    exact Overload.select?_eq_none_of_forall_ne hargs

/-- Two integers select an overload of the sample, and no arguments select none. -/
theorem overload_selected_iff_params_sampleObject :
    Overload.select? sampleKernel.overloads [.scalar .i32, .scalar .i32] =
        some ⟨"vec__add__i32_i32", 0x1000, [.scalar .i32, .scalar .i32], ⟨0, 4, 8⟩⟩ ∧
      Overload.select? sampleKernel.overloads [] = none := by
  obtain ⟨-, hsome, hnone⟩ :=
    overload_selected_iff_params extract_sampleObject (List.mem_singleton.mpr rfl)
  have hmem : ⟨"vec__add__i32_i32", 0x1000, [.scalar .i32, .scalar .i32], ⟨0, 4, 8⟩⟩ ∈
      sampleKernel.overloads := by decide
  exact ⟨hsome _ hmem, hnone [] (by decide)⟩

end Descriptor

end KernelCatalog
