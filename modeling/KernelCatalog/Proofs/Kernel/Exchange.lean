import KernelCatalog.Kernel.Catalog
import KernelCatalog.Proofs.Json.Exchange

/-!
# Catalogs as JSON

A catalog is exchanged as the JSON of its fields. Kinds are written by their names, the contents of
a parameter as the one member of an object, words in decimal and texts in quotes; the reader of each
part finds exactly what was written, whatever the names, the numbers and the order of the kernels
are. Kernels of one name and kernels without overloads are exchanged like all others.

* `Param.exchanges`, `Overload.exchanges`, `Kernel.exchanges`: the parts of a catalog.
* `Catalog.read_back_from_text`: catalogs and their texts.
-/

namespace KernelCatalog

open Json

/-! ## Parameters -/

theorem Scalar.exchanges : Exchanges ofJson? toJson where
  isPlain _ := rfl
  read_write s := by cases s <;> rfl

theorem AddressSpace.exchanges : Exchanges ofJson? toJson where
  isPlain _ := rfl
  read_write space := by cases space <;> rfl

theorem Param.isPlain_toJson (p : Param) : p.toJson.isPlain = true := by
  cases p <;> rfl

theorem Param.ofJson?_toJson (p : Param) : ofJson? p.toJson = some p := by
  cases p with
  | scalar type =>
    simp only [ofJson?, toJson, alternative?, Scalar.exchanges.read_write, Option.map_some]
  | pointer space elem mutable =>
    simp [ofJson?, toJson, alternative?, record?_obj, required?, List.lookup_cons, bool?,
      AddressSpace.exchanges.read_write, Scalar.exchanges.read_write]

/-- **Parameters of every kind are exchanged.** -/
theorem Param.exchanges : Exchanges ofJson? toJson := ⟨Param.isPlain_toJson, Param.ofJson?_toJson⟩

/-! ## Overloads and kernels -/

/-- Launch resources are exchanged with every word that they hold. -/
theorem Launch.exchanges : Exchanges ofJson? toJson where
  isPlain _ := rfl
  read_write launch := by
    simp [ofJson?, toJson, record?_obj, required?, List.lookup_cons, uint32?_nat]

/-- **Overloads are exchanged**, whatever their symbols and addresses are. -/
theorem Overload.exchanges : Exchanges ofJson? toJson where
  isPlain overload := by
    have hparams := Param.exchanges.list.isPlain overload.params
    have hlaunch := Launch.exchanges.isPlain overload.launch
    rw [toJson, isPlain_obj_cons, isPlain_obj_cons, isPlain_obj_cons, isPlain_obj_cons]
    exact ⟨rfl, rfl, hparams, hlaunch, rfl⟩
  read_write overload := by
    have hparams := Param.exchanges.list.read_write overload.params
    have hlaunch := Launch.exchanges.read_write overload.launch
    simp [ofJson?, toJson, record?_obj, required?, List.lookup_cons, text?, uint64?_nat, hparams,
      hlaunch]

/-- **Kernels are exchanged**, whatever their names are. -/
theorem Kernel.exchanges : Exchanges ofJson? toJson where
  isPlain kernel := by
    rw [toJson, isPlain_obj_cons, isPlain_obj_cons]
    exact ⟨rfl, Overload.exchanges.list.isPlain kernel.overloads, rfl⟩
  read_write kernel := by
    have hoverloads := Overload.exchanges.list.read_write kernel.overloads
    simp [ofJson?, toJson, record?_obj, required?, List.lookup_cons, text?, hoverloads]

/-! ## Catalogs -/

namespace Catalog

theorem isPlain_toJson (catalog : Catalog) : catalog.toJson.isPlain = true := by
  have hkernels := Kernel.exchanges.list.isPlain catalog.kernels
  have harchitecture := catalog.architecture.isPlain_toJson
  rw [toJson, isPlain_obj_cons, isPlain_obj_cons, isPlain_obj_cons]
  exact ⟨harchitecture, isPlain_strOrNull _, hkernels, rfl⟩

theorem ofJson?_toJson (catalog : Catalog) : ofJson? catalog.toJson = some catalog := by
  have hkernels := Kernel.exchanges.list.read_write catalog.kernels
  have harchitecture := catalog.architecture.ofJson?_toJson
  obtain ⟨architecture, processor, kernels⟩ := catalog
  cases processor with
  | none =>
    simp [ofJson?, toJson, strOrNull, record?_obj, required?, optional?, List.lookup_cons,
      harchitecture, hkernels]
  | some processor =>
    simp [ofJson?, toJson, strOrNull, record?_obj, required?, optional?, List.lookup_cons, text?,
      harchitecture, hkernels]

theorem exchanges : Exchanges ofJson? toJson := ⟨isPlain_toJson, ofJson?_toJson⟩

/-- **Catalogs are read back from their texts**, from those without blanks and from those over
lines, and two catalogs have the same text of either layout exactly if they are equal. -/
theorem read_back_from_text (catalog : Catalog) :
    (parse? catalog.toJson.compact).bind ofJson? = some catalog ∧
      (parse? catalog.toJson.pretty).bind ofJson? = some catalog ∧
      ∀ other : Catalog, (catalog.toJson.compact = other.toJson.compact ↔ catalog = other) ∧
        (catalog.toJson.pretty = other.toJson.pretty ↔ catalog = other) :=
  ⟨exchanges.parse?_compact catalog, exchanges.parse?_pretty catalog,
    fun _ => ⟨exchanges.compact_inj, exchanges.pretty_inj⟩⟩

end Catalog

end KernelCatalog
