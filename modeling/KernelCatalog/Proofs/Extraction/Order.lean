import KernelCatalog.HostSource.Render
import KernelCatalog.Proofs.Extraction.Catalog
import Mathlib.Data.List.Forall2

/-!
# The order of the symbol table

Symbols are looked up by name and descriptors are walked in the order of the table, but where the
names that are looked up belong to one symbol each, that order cannot be told from the catalog. The
walk finds the same overloads in another order, and sorting leaves no ties between them.

* `collect_of_perm`: a reordered table tells about the same overloads.
* `catalogOf_perm`: the catalog of overloads does not depend on the order they were found in.
* `extract_of_reordered`: reordered tables give the same catalog, or both give none.
-/

namespace KernelCatalog

/-- The object with another symbol table. -/
def Object.withSymbols (object : Object) (symbols : List Symbol) : Object := { object with symbols }

/-- Where at most one symbol has a property, the first of a table is the first of any reordering. -/
theorem Object.First.of_perm {object : Object} {symbols : List Symbol}
    (hperm : object.symbols.Perm symbols) {property : Symbol → Prop}
    (hunique : ∀ a ∈ object.symbols, ∀ b ∈ object.symbols, property a → property b → a = b)
    {symbol : Symbol} (h : object.First property symbol) :
    (object.withSymbols symbols).First property symbol := by
  have hmem : symbol ∈ (object.withSymbols symbols).symbols := hperm.mem_iff.mp h.mem
  obtain ⟨first, hfirst⟩ := Object.exists_first property hmem h.1
  have hback : first ∈ object.symbols := hperm.mem_iff.mpr hfirst.mem
  rwa [hunique symbol h.mem first hback h.1 hfirst.1]

namespace Descriptor

/-- The names that are looked up belong to one symbol each: no two functions that a section defines
are called the same, and the version is stated at most once. -/
structure Unambiguous (object : Object) : Prop where
  code : ((object.symbols.filter fun s =>
    s.kind = .function ∧ s.sectionIndex ≠ none).map Symbol.name).Nodup
  version : (object.symbols.filter fun s => s.name = "__kcfg_encoding_version").length ≤ 1

namespace Unambiguous

variable {object : Object} {symbols : List Symbol}

/-- Reordering makes no name ambiguous. -/
theorem of_perm (h : Unambiguous object) (hperm : object.symbols.Perm symbols) :
    Unambiguous (object.withSymbols symbols) where
  code := ((hperm.filter _).map Symbol.name).nodup_iff.mp h.code
  version := (hperm.filter _).length_eq ▸ h.version

theorem code_unique (h : Unambiguous object) (name : String) :
    ∀ a ∈ object.symbols, ∀ b ∈ object.symbols, a.IsCode name → b.IsCode name → a = b := by
  intro a ha b hb hcode hcode'
  have hmem : ∀ s ∈ object.symbols, s.IsCode name →
      s ∈ object.symbols.filter fun s => s.kind = .function ∧ s.sectionIndex ≠ none := by
    intro s hs hscode
    exact List.mem_filter.mpr ⟨hs, decide_eq_true ⟨hscode.isFunction, hscode.isDefined⟩⟩
  exact List.inj_on_of_nodup_map h.code (hmem a ha hcode) (hmem b hb hcode')
    (hcode.name_eq.trans hcode'.name_eq.symm)

theorem version_unique (h : Unambiguous object) :
    ∀ a ∈ object.symbols, ∀ b ∈ object.symbols, a.name = "__kcfg_encoding_version" →
      b.name = "__kcfg_encoding_version" → a = b := by
  intro a ha b hb hname hname'
  have hmem : ∀ s ∈ object.symbols, s.name = "__kcfg_encoding_version" →
      s ∈ object.symbols.filter fun s => s.name = "__kcfg_encoding_version" := by
    intro s hs hsname
    exact List.mem_filter.mpr ⟨hs, decide_eq_true hsname⟩
  have hversion := h.version
  have hleft := hmem a ha hname
  have hright := hmem b hb hname'
  match hstated : object.symbols.filter fun s => s.name = "__kcfg_encoding_version" with
  | [] =>
    rw [hstated] at hleft
    exact absurd hleft List.not_mem_nil
  | [only] =>
    rw [hstated] at hleft hright
    exact (List.mem_singleton.mp hleft).trans (List.mem_singleton.mp hright).symm
  | first :: second :: rest =>
    rw [hstated, List.length_cons, List.length_cons] at hversion
    omega

end Unambiguous

section Reordered

variable {object : Object} {symbols : List Symbol}

theorem versionAccepted_of_perm (h : Unambiguous object) (hperm : object.symbols.Perm symbols)
    (hversion : VersionAccepted object) : VersionAccepted (object.withSymbols symbols) := by
  rcases hversion with hnone | ⟨symbol, hfirst, haddress⟩
  · exact Or.inl fun s hs => hnone s (hperm.mem_iff.mpr hs)
  · exact Or.inr ⟨symbol, hfirst.of_perm hperm h.version_unique, haddress⟩

/-- A descriptor tells the same in a reordered table: of all that is read only the code is looked up
among the symbols. -/
theorem decodes_of_perm (h : Unambiguous object) (hperm : object.symbols.Perm symbols)
    {symbol : Symbol} {found : Found} (hdecodes : Decodes object symbol found) :
    Decodes (object.withSymbols symbols) symbol found := by
  obtain ⟨code, hfirst, haddress, hsection⟩ := hdecodes.code
  exact { hdecodes with
    launch := hdecodes.launch
    code := ⟨code, hfirst.of_perm hperm (h.code_unique _), haddress, hsection⟩ }

/-- The walk over a reordered table finds the same overloads in another order. -/
theorem collect_of_perm (h : Unambiguous object) (hperm : object.symbols.Perm symbols)
    {found : List Found} (hcollect : collect object [] object.symbols = .ok found) :
    ∃ reordered, collect (object.withSymbols symbols) [] symbols = .ok reordered ∧
      reordered.Perm found := by
  obtain ⟨hdecodes, hnodup, -⟩ := collect_eq_ok_iff.mp hcollect
  have hdescriptors : (descriptors symbols).Perm (descriptors object.symbols) := hperm.symm.filter _
  obtain ⟨reordered, hpaired, hreordered⟩ := List.perm_comp_forall₂ hdescriptors hdecodes
  refine ⟨reordered, collect_eq_ok_iff.mpr ⟨?_, ?_, by simp⟩, hreordered⟩
  · exact hpaired.imp fun _ _ => decodes_of_perm h hperm
  · exact (hdescriptors.map Symbol.name).nodup_iff.mpr hnodup

end Reordered

theorem Found.Before.asymm {a b : Found} (hab : a.Before b) (hba : b.Before a) : False := by
  rcases hab with hab | ⟨haddress, hab⟩
  · rcases hba with hba | ⟨haddress, -⟩
    · exact UInt64.lt_irrefl _ (UInt64.lt_trans hab hba)
    · exact UInt64.lt_irrefl _ (haddress ▸ hab)
  · rcases hba with hba | ⟨-, hba⟩
    · exact UInt64.lt_irrefl _ (haddress ▸ hba)
    · rcases hab with hab | ⟨hsection, hab⟩
      · rcases hba with hba | ⟨hsection, -⟩
        · exact Nat.lt_asymm hab hba
        · exact Nat.lt_irrefl _ (hsection ▸ hab)
      · rcases hba with hba | ⟨-, hba⟩
        · exact Nat.lt_irrefl _ (hsection ▸ hba)
        · exact String.lt_asymm hab hba

/-- The catalog of overloads whose code has names of its own does not depend on the order in which
they were found. -/
theorem catalogOf_perm {object : Object} {symbols : List Symbol} {found reordered : List Found}
    (hnodup : (found.map fun f => f.overload.symbol).Nodup) (hperm : reordered.Perm found) :
    catalogOf (object.withSymbols symbols) reordered = catalogOf object found := by
  have hsorted : reordered.mergeSort Found.le = found.mergeSort Found.le := by
    have hnodup' : (reordered.map fun f => f.overload.symbol).Nodup :=
      (hperm.map fun f => f.overload.symbol).nodup_iff.mpr hnodup
    have hboth : (reordered.mergeSort Found.le).Perm (found.mergeSort Found.le) :=
      (List.mergeSort_perm reordered Found.le).trans
        (hperm.trans (List.mergeSort_perm found Found.le).symm)
    exact hboth.eq_of_pairwise (fun _ _ _ _ hab hba => (Found.Before.asymm hab hba).elim)
      (pairwise_before_mergeSort hnodup') (pairwise_before_mergeSort hnodup)
  rw [catalogOf, catalogOf, hsorted]
  rfl

/-- A catalog that is read is read from every reordering of the table too. -/
theorem extract_of_perm {object : Object} {symbols : List Symbol} (h : Unambiguous object)
    (hperm : object.symbols.Perm symbols) {catalog : Catalog}
    (hextract : backend.extract object = .ok catalog) :
    backend.extract (object.withSymbols symbols) = .ok catalog := by
  obtain ⟨hversion, found, hcollect, rfl⟩ := extract_eq_ok_iff.mp hextract
  obtain ⟨hdecodes, hnodup, -⟩ := collect_eq_ok_iff.mp hcollect
  obtain ⟨reordered, hreordered, hfound⟩ := collect_of_perm h hperm hcollect
  exact extract_eq_ok_iff.mpr ⟨versionAccepted_of_perm h hperm hversion, reordered, hreordered,
    catalogOf_perm (symbols_nodup_of_decodes hdecodes hnodup) hfound⟩

/-- **What is generated does not depend on the order of the symbols.** Of two objects that differ in
the order of their symbols alone, with names that are not ambiguous, both are read or none is. If
they are read, then the catalogs are equal, and so are the generated sources to the byte. -/
theorem extract_of_reordered {object : Object} {symbols : List Symbol} (h : Unambiguous object)
    (hperm : object.symbols.Perm symbols) :
    ((∃ catalog, backend.extract object = .ok catalog) ↔
      ∃ catalog, backend.extract (object.withSymbols symbols) = .ok catalog) ∧
    ∀ catalog reordered, backend.extract object = .ok catalog →
      backend.extract (object.withSymbols symbols) = .ok reordered →
      catalog = reordered ∧ ∀ options,
        Text.toBytes (HostSource.render catalog options) =
          Text.toBytes (HostSource.render reordered options) := by
  refine ⟨⟨?_, ?_⟩, ?_⟩
  · rintro ⟨catalog, hextract⟩
    exact ⟨catalog, extract_of_perm h hperm hextract⟩
  · rintro ⟨catalog, hextract⟩
    exact ⟨catalog, extract_of_perm (h.of_perm hperm) hperm.symm hextract⟩
  · intro catalog reordered hextract hextract'
    obtain rfl := Except.ok.inj ((extract_of_perm h hperm hextract).symm.trans hextract')
    exact ⟨rfl, fun _ => rfl⟩

/-- The sample is read in the same way with its symbols from the last to the first. -/
theorem extract_of_reordered_sampleObject :
    ∃ catalog, backend.extract (sampleObject.withSymbols sampleObject.symbols.reverse) =
        .ok catalog ∧ catalog.names = ["vec__add"] := by
  have hunambiguous : Unambiguous sampleObject := ⟨by decide +kernel, by decide +kernel⟩
  obtain ⟨hread, hsame⟩ :=
    extract_of_reordered hunambiguous sampleObject.symbols.reverse_perm.symm
  obtain ⟨reordered, hreordered⟩ := hread.mp ⟨_, extract_sampleObject⟩
  obtain ⟨hcatalog, -⟩ := hsame _ _ extract_sampleObject hreordered
  refine ⟨reordered, hreordered, ?_⟩
  rw [← hcatalog]
  rfl

end Descriptor

end KernelCatalog
