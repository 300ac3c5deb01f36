import KernelCatalog.Proofs.Extraction.Catalog
import KernelCatalog.Proofs.Text.Utf8

/-!
# Catalogs are in the order of the code

What is found in an object is sorted by the place of its code before it is grouped by kernel, and
the grouping keeps the order inside each kernel. A kernel is listed where its first overload stands,
so kernels are in order too, by the least of their overloads. There are no ties, because no two
overloads have code of one name.
-/

namespace KernelCatalog.Descriptor

/-- The code of an overload is at an address of a section: so says the first symbol of the table that
is code of this name. -/
def CodeAt (object : Object) (overload : Overload) (address : UInt64) (index : Nat) : Prop :=
  ∃ code, object.First (·.IsCode overload.symbol) code ∧ code.address = address ∧
    code.sectionIndex = some index

/-- The code of an overload comes before that of another: by its address, then by the number of its
section, then by the bytes of its name. -/
def CodeBefore (object : Object) (a b : Overload) : Prop :=
  ∃ address index address' index', CodeAt object a address index ∧
    CodeAt object b address' index' ∧
      (address < address' ∨ address = address' ∧
        (index < index' ∨ index = index' ∧ Text.toBytes a.symbol < Text.toBytes b.symbol))

/-- What is told of an overload includes the place of its code. -/
theorem Decodes.codeAt {object : Object} {symbol : Symbol} {found : Found}
    (h : Decodes object symbol found) :
    ∃ index, found.codeSection = some index ∧
      CodeAt object found.overload found.overload.address index := by
  obtain ⟨code, hcode, haddress, hsection⟩ := h.code
  obtain ⟨index, hindex⟩ := Option.ne_none_iff_exists'.mp hcode.1.isDefined
  exact ⟨index, hsection.trans hindex, code, hcode, haddress.symm, hindex⟩

/-- Overloads that come one before the other have code that does. -/
theorem codeBefore_of_before {object : Object} {a b : Found} {symbol symbol' : Symbol}
    (ha : Decodes object symbol a) (hb : Decodes object symbol' b) (h : a.Before b) :
    CodeBefore object a.overload b.overload := by
  obtain ⟨index, hindex, hcode⟩ := ha.codeAt
  obtain ⟨index', hindex', hcode'⟩ := hb.codeAt
  refine ⟨_, index, _, index', hcode, hcode', ?_⟩
  rw [Text.toBytes_lt_toBytes_iff]
  simpa [Found.Before, hindex, hindex', sectionRank] using h

theorem Recovered.pairwise_codeBefore {object : Object} {found : List Found} {catalog : Catalog}
    (h : Recovered object found catalog) :
    (((found.mergeSort Found.le).map Found.entry).map Prod.snd).Pairwise (CodeBefore object) := by
  rw [List.map_map, List.pairwise_map]
  refine (pairwise_before_mergeSort h.symbols_nodup).imp_of_mem fun ha hb hbefore => ?_
  obtain ⟨_, -, ha⟩ := Pairing.exists_left h.decodes (List.mem_mergeSort.mp ha)
  obtain ⟨_, -, hb⟩ := Pairing.exists_left h.decodes (List.mem_mergeSort.mp hb)
  exact codeBefore_of_before ha hb hbefore

/-- **A catalog is in the order of the code**: the overloads of each kernel are, and so are the first
overloads of the kernels, with no ties. -/
theorem catalog_sorted_by_code {object : Object} {catalog : Catalog}
    (h : backend.extract object = .ok catalog) :
    (∀ kernel ∈ catalog.kernels, kernel.overloads.Pairwise (CodeBefore object)) ∧
      catalog.kernels.Pairwise fun kernel other => ∃ first second,
        kernel.overloads.head? = some first ∧ other.overloads.head? = some second ∧
          CodeBefore object first second := by
  obtain ⟨found, hfound⟩ := exists_recovered h
  have hsorted := hfound.pairwise_codeBefore
  refine ⟨fun kernel hkernel => ?_, hfound.records.pairwise_heads hsorted⟩
  exact hsorted.sublist (hfound.records.overloads_sublist hkernel)

/-- A relocatable object with code at one address of two sections, where the kernel that is last in
the alphabet and in the table has the first code, and the last. -/
def interleavedObject : Object where
  architecture := .amdgpu
  machineFlags := 0x4c
  byteOrder := .little
  relocatable := true
  sections := [
    ⟨".text.a", 1, 6, 0, 0x100, 32, List.replicate 32 0⟩,
    ⟨".text.b", 1, 6, 0, 0x200, 16, List.replicate 16 0⟩,
    ⟨".rodata", 1, 2, 0, 0x300, 64, [0, 0, 0, 0, 0, 0, 0, 0, 4, 0, 0, 0] ++ List.replicate 52 0⟩]
  symbols := [
    ⟨"scale__i32.kd", 0, 64, .object, .global, some 2⟩,
    ⟨"copy__v.kd", 0, 64, .object, .global, some 2⟩,
    ⟨"scale__v.kd", 0, 64, .object, .global, some 2⟩,
    ⟨"copy__v", 0, 16, .function, .global, some 1⟩,
    ⟨"scale__i32", 16, 16, .function, .global, some 0⟩,
    ⟨"scale__v", 0, 16, .function, .global, some 0⟩]

/-- The overloads of the interleaved object, in the order of its descriptors. -/
def interleavedFound : List Found := [
  ⟨"scale", some 0, "scale__i32", 16, [.scalar .i32], ⟨0, 0, 4⟩⟩,
  ⟨"copy", some 1, "copy__v", 0, [], ⟨0, 0, 4⟩⟩,
  ⟨"scale", some 0, "scale__v", 0, [], ⟨0, 0, 4⟩⟩]

/-- The kernels of the interleaved object. -/
def interleavedKernels : List Kernel := [
  ⟨"scale", [⟨"scale__v", 0, [], ⟨0, 0, 4⟩⟩, ⟨"scale__i32", 16, [.scalar .i32], ⟨0, 0, 4⟩⟩]⟩,
  ⟨"copy", [⟨"copy__v", 0, [], ⟨0, 0, 4⟩⟩]⟩]

theorem extract_interleavedObject :
    backend.extract interleavedObject = .ok ⟨.amdgpu, some "gfx942", interleavedKernels⟩ := by
  have hsort : interleavedFound.mergeSort Found.le = interleavedFound.reverse := by
    simp [interleavedFound, List.mergeSort, Found.le, sectionRank]
  rw [extract_eq_ok_iff, ← checkVersion_eq_ok_iff]
  refine ⟨by decide +kernel, interleavedFound, by decide +kernel, ?_⟩
  rw [catalogOf, hsort]
  decide +kernel

/-- The overloads of the first kernel of the interleaved object are in the order of their code, and
its first overload comes before that of the second kernel, which has the same address. -/
theorem catalog_sorted_by_code_interleaved :
    CodeBefore interleavedObject ⟨"scale__v", 0, [], ⟨0, 0, 4⟩⟩
        ⟨"scale__i32", 16, [.scalar .i32], ⟨0, 0, 4⟩⟩ ∧
      CodeBefore interleavedObject ⟨"scale__v", 0, [], ⟨0, 0, 4⟩⟩
        ⟨"copy__v", 0, [], ⟨0, 0, 4⟩⟩ := by
  obtain ⟨hoverloads, hkernels⟩ := catalog_sorted_by_code extract_interleavedObject
  have hscale := hoverloads _ List.mem_cons_self
  obtain ⟨_, _, hfirst, hsecond, hbefore⟩ := List.rel_of_pairwise_cons hkernels List.mem_cons_self
  obtain rfl := Option.some.inj hfirst
  obtain rfl := Option.some.inj hsecond
  exact ⟨List.rel_of_pairwise_cons hscale List.mem_cons_self, hbefore⟩

end KernelCatalog.Descriptor
