import KernelCatalog.Kernel.Catalog
import Mathlib.Data.List.Induction
import Mathlib.Data.List.Perm.Basic

/-!
# Catalogs as sequences of insertions

A catalog that grows by insertions from an empty one lists every kernel once, in the order in which
the kernels were first met, each with exactly the overloads inserted under its name and in their
order. `Records` relates the kernels of a catalog to the insertions, `Records.insertInto` is its
step and `Records.foldl` the run. `entries` forgets the grouping: a catalog's entries are the
insertions in another order. Within a kernel, and from the first overload of one kernel to that of
the next, the order of the insertions is kept. `GroupsByName` says the same of the answers of a
catalog: its names, what it has under a name, its count and its lines.
-/

namespace KernelCatalog.Catalog

/-- The overloads of the kernels, each with the name of its kernel. -/
def entriesOf (kernels : List Kernel) : List (String × Overload) :=
  kernels.flatMap fun kernel => kernel.overloads.map fun overload => (kernel.name, overload)

/-- The overloads of a catalog, each with the name of its kernel. -/
def entries (catalog : Catalog) : List (String × Overload) := entriesOf catalog.kernels

theorem mem_entries {catalog : Catalog} {name : String} {overload : Overload} :
    (name, overload) ∈ catalog.entries ↔
      ∃ kernel ∈ catalog.kernels, kernel.name = name ∧ overload ∈ kernel.overloads := by
  simp only [entries, entriesOf, List.mem_flatMap, List.mem_map, Prod.mk.injEq]
  constructor
  · rintro ⟨kernel, hkernel, _, hmem, hname, rfl⟩
    exact ⟨kernel, hkernel, hname, hmem⟩
  · rintro ⟨kernel, hkernel, hname, hmem⟩
    exact ⟨kernel, hkernel, overload, hmem, hname, rfl⟩

/-- An insertion adds its own entry and keeps all others. -/
theorem entriesOf_insertInto_perm (name : String) (overload : Overload) (kernels : List Kernel) :
    (entriesOf (insertInto name overload kernels)).Perm ((name, overload) :: entriesOf kernels) := by
  induction kernels with
  | nil => rfl
  | cons kernel rest ih =>
    simp only [insertInto]
    split
    · next hname =>
      subst hname
      simp only [entriesOf, List.flatMap_cons, List.map_append, List.map_cons, List.map_nil,
        List.append_assoc, List.singleton_append]
      exact List.perm_middle
    · simp only [entriesOf, List.flatMap_cons] at ih ⊢
      exact (ih.append_left _).trans List.perm_middle

/-- An insertion lists a new kernel at the end and leaves the names alone otherwise. -/
theorem map_name_insertInto (name : String) (overload : Overload) (kernels : List Kernel) :
    (insertInto name overload kernels).map Kernel.name =
      if name ∈ kernels.map Kernel.name then kernels.map Kernel.name
      else kernels.map Kernel.name ++ [name] := by
  induction kernels with
  | nil => rfl
  | cons kernel rest ih =>
    simp only [insertInto]
    by_cases hname : kernel.name = name
    · simp [hname]
    · simp only [hname, if_false, List.map_cons, ih, List.mem_cons, Ne.symm hname, false_or]
      split
      · rfl
      · rfl

/-- After an insertion a kernel is as it was, or it is the one inserted into and has the overload
at its end. -/
theorem mem_insertInto {name : String} {overload : Overload} {kernels : List Kernel}
    {kernel : Kernel} (hnodup : (kernels.map Kernel.name).Nodup)
    (h : kernel ∈ insertInto name overload kernels) :
    (kernel ∈ kernels ∧ kernel.name ≠ name) ∨
      ∃ before, kernel = ⟨name, before ++ [overload]⟩ ∧
        (⟨name, before⟩ ∈ kernels ∨ before = [] ∧ name ∉ kernels.map Kernel.name) := by
  induction kernels with
  | nil =>
    obtain rfl := List.mem_singleton.mp h
    exact Or.inr ⟨[], rfl, Or.inr ⟨rfl, by simp⟩⟩
  | cons first rest ih =>
    obtain ⟨hfirst, hrest⟩ := List.nodup_cons.mp hnodup
    simp only [insertInto] at h
    by_cases hname : first.name = name
    · subst hname
      rw [if_pos rfl] at h
      rcases List.mem_cons.mp h with rfl | h
      · exact Or.inr ⟨first.overloads, rfl, Or.inl (by simp)⟩
      · -- no other kernel has the name of the first one
        refine Or.inl ⟨List.mem_cons_of_mem _ h, fun heq => hfirst ?_⟩
        exact heq ▸ List.mem_map_of_mem h
    · rw [if_neg hname] at h
      rcases List.mem_cons.mp h with rfl | h
      · exact Or.inl ⟨by simp, hname⟩
      · rcases ih hrest h with ⟨hmem, hne⟩ | ⟨before, hkernel, hbefore⟩
        · exact Or.inl ⟨List.mem_cons_of_mem _ hmem, hne⟩
        · refine Or.inr ⟨before, hkernel, hbefore.imp (List.mem_cons_of_mem _) ?_⟩
          rintro ⟨hnil, hnew⟩
          exact ⟨hnil, by simpa [Ne.symm hname] using hnew⟩

/-- The kernels are what the insertions leave: each kernel that was inserted into is listed once,
at the place of its first insertion, with the overloads inserted into it in their order. -/
structure Records (insertions : List (String × Overload)) (kernels : List Kernel) : Prop where
  names_nodup : (kernels.map Kernel.name).Nodup
  names_eq : kernels.map Kernel.name = (insertions.map Prod.fst).eraseDups
  overloads_eq : ∀ kernel ∈ kernels,
    kernel.overloads = (insertions.filter fun entry => entry.1 = kernel.name).map Prod.snd
  entries_perm : (entriesOf kernels).Perm insertions

theorem Records.nil : Records [] [] :=
  ⟨List.nodup_nil, rfl, by simp, List.Perm.refl _⟩

/-- One more insertion. -/
theorem Records.insertInto {insertions : List (String × Overload)} {kernels : List Kernel}
    (h : Records insertions kernels) (name : String) (overload : Overload) :
    Records (insertions ++ [(name, overload)]) (Catalog.insertInto name overload kernels) := by
  have hmem : name ∈ kernels.map Kernel.name ↔ name ∈ insertions.map Prod.fst := by
    rw [h.names_eq, List.mem_eraseDups]
  refine ⟨?_, ?_, ?_, ?_⟩
  · rw [map_name_insertInto]
    split
    · exact h.names_nodup
    · next hnew =>
      have hcons := List.nodup_cons.mpr ⟨hnew, h.names_nodup⟩
      exact (List.perm_append_singleton _ _).nodup_iff.mpr hcons
  · rw [map_name_insertInto, List.map_append, List.eraseDups_append, ← h.names_eq]
    split
    · next hold => simp [List.removeAll, hmem.mp hold]
    · next hnew => simp [List.removeAll, List.eraseDups_cons, mt hmem.mpr hnew]
  · intro kernel hkernel
    rw [List.filter_append, List.map_append]
    rcases mem_insertInto h.names_nodup hkernel with ⟨hold, hne⟩ | ⟨before, rfl, hbefore⟩
    · simp [h.overloads_eq kernel hold, Ne.symm hne]
    · -- the kernel inserted into keeps its overloads, of which a new kernel has none
      have hprior : before = (insertions.filter fun entry => entry.1 = name).map Prod.snd := by
        rcases hbefore with hold | ⟨rfl, hnew⟩
        · exact h.overloads_eq _ hold
        · rw [hmem] at hnew
          simp only [List.mem_map, not_exists, not_and] at hnew
          rw [List.filter_eq_nil_iff.mpr (by simpa using fun a b hab => hnew (a, b) hab)]
          rfl
      simp [hprior]
  · refine (entriesOf_insertInto_perm name overload kernels).trans ?_
    exact (h.entries_perm.cons _).trans (List.perm_append_singleton _ _).symm

/-- A run of insertions. -/
theorem Records.foldl {insertions : List (String × Overload)} {catalog : Catalog}
    (h : Records insertions catalog.kernels) (more : List (String × Overload)) :
    Records (insertions ++ more)
      (more.foldl (fun catalog entry => catalog.insert entry.1 entry.2) catalog).kernels := by
  -- the insertions already made grow with the catalog
  induction more generalizing insertions catalog with
  | nil => simpa using h
  | cons entry more ih =>
    rw [List.append_cons]
    exact ih (h.insertInto entry.1 entry.2)

theorem Records.mem_names_iff {insertions : List (String × Overload)} {kernels : List Kernel}
    (h : Records insertions kernels) {name : String} :
    name ∈ kernels.map Kernel.name ↔ ∃ overload, (name, overload) ∈ insertions := by
  rw [h.names_eq, List.mem_eraseDups, List.mem_map]
  constructor
  · rintro ⟨⟨_, overload⟩, hmem, rfl⟩
    exact ⟨overload, hmem⟩
  · rintro ⟨overload, hmem⟩
    exact ⟨_, hmem, rfl⟩

/-- The insertions determine the kernels. -/
theorem Records.kernels_eq {insertions : List (String × Overload)} {kernels : List Kernel}
    (h : Records insertions kernels) :
    kernels = (insertions.map Prod.fst).eraseDups.map fun name =>
      ⟨name, (insertions.filter fun entry => entry.1 = name).map Prod.snd⟩ := by
  rw [← h.names_eq, List.map_map]
  conv_lhs => rw [← List.map_id kernels]
  refine List.map_congr_left fun kernel hkernel => ?_
  rw [Function.comp_apply, ← h.overloads_eq kernel hkernel, id]

/-! ## The order of the insertions -/

theorem find?_filter_ne {insertions : List (String × Overload)} {name other : String}
    (h : name ≠ other) :
    (insertions.filter fun entry => !entry.1 == other).find? (fun entry => entry.1 = name) =
      insertions.find? fun entry => entry.1 = name := by
  rw [List.find?_filter]
  congr 1
  funext entry
  by_cases hname : entry.1 = name
  · simp [hname, h]
  · simp [hname]

/-- The first insertions under the names, in the order in which the names are first met, stand in the
order of the insertions. -/
theorem firsts_sublist (insertions : List (String × Overload)) :
    ((insertions.map Prod.fst).eraseDups.map fun name =>
      insertions.find? fun entry => entry.1 = name).Sublist (insertions.map some) := by
  cases insertions with
  | nil => simp
  | cons entry rest =>
    -- the other names are those of the insertions under other names
    have hothers : (rest.map Prod.fst).filter (fun name => !name == entry.1) =
        (rest.filter fun other => !other.1 == entry.1).map Prod.fst := by
      rw [List.filter_map]
      rfl
    have hfirsts : ∀ name ∈ ((rest.filter fun other => !other.1 == entry.1).map Prod.fst).eraseDups,
        (entry :: rest).find? (fun other => other.1 = name) =
          (rest.filter fun other => !other.1 == entry.1).find? fun other => other.1 = name := by
      intro name hname
      obtain ⟨other, hother, rfl⟩ := List.mem_map.mp (List.mem_eraseDups.mp hname)
      have hne : other.1 ≠ entry.1 := by simpa using (List.mem_filter.mp hother).2
      rw [find?_filter_ne hne, List.find?_cons_of_neg (by simpa using Ne.symm hne)]
    rw [List.map_cons, List.eraseDups_cons, hothers, List.map_cons, List.map_cons,
      List.map_congr_left hfirsts, List.find?_cons_of_pos (by simp)]
    exact ((firsts_sublist (rest.filter fun other => !other.1 == entry.1)).trans
      (List.filter_sublist.map some)).cons_cons _
termination_by insertions.length
decreasing_by
  have hle := List.length_filter_le (fun other => !other.1 == entry.1) rest
  rw [List.length_cons]
  omega

/-- The overloads of a kernel stand in the order of the insertions. -/
theorem Records.overloads_sublist {insertions : List (String × Overload)} {kernels : List Kernel}
    (h : Records insertions kernels) {kernel : Kernel} (hkernel : kernel ∈ kernels) :
    kernel.overloads.Sublist (insertions.map Prod.snd) := by
  rw [h.overloads_eq kernel hkernel]
  exact List.filter_sublist.map Prod.snd

/-- The first overloads of the kernels stand in the order of the insertions. -/
theorem Records.heads_sublist {insertions : List (String × Overload)} {kernels : List Kernel}
    (h : Records insertions kernels) :
    (kernels.map fun kernel => kernel.overloads.head?).Sublist
      ((insertions.map Prod.snd).map some) := by
  have hheads : kernels.map (fun kernel => kernel.overloads.head?) =
      ((insertions.map Prod.fst).eraseDups.map fun name =>
        insertions.find? fun entry => entry.1 = name).map (Option.map Prod.snd) := by
    rw [h.kernels_eq, List.map_map, List.map_map]
    refine List.map_congr_left fun name _ => ?_
    rw [Function.comp_apply, Function.comp_apply, List.head?_map, List.head?_filter]
  have hseconds : (insertions.map Prod.snd).map some =
      (insertions.map some).map (Option.map Prod.snd) := by
    rw [List.map_map, List.map_map]
    rfl
  rw [hheads, hseconds]
  exact (firsts_sublist insertions).map _

/-- Kernels are ordered by their first overloads as the insertions are. -/
theorem Records.pairwise_heads {insertions : List (String × Overload)} {kernels : List Kernel}
    (h : Records insertions kernels) {before : Overload → Overload → Prop}
    (hinsertions : (insertions.map Prod.snd).Pairwise before) :
    kernels.Pairwise fun kernel other => ∃ first second,
      kernel.overloads.head? = some first ∧ other.overloads.head? = some second ∧
        before first second := by
  have hsome : ((insertions.map Prod.snd).map some).Pairwise fun a b =>
      ∃ first second, a = some first ∧ b = some second ∧ before first second :=
    hinsertions.map some fun first second hbefore => ⟨first, second, rfl, rfl, hbefore⟩
  exact List.pairwise_map.mp (hsome.sublist h.heads_sublist)

/-! ## The answers of a catalog -/

/-- The catalog that insertions make one after another, from one without kernels. -/
def ofInsertions (architecture : Architecture) (processor : Option String)
    (insertions : List (String × Overload)) : Catalog :=
  insertions.foldl (fun catalog entry => catalog.insert entry.1 entry.2)
    (empty architecture processor)

/-- The overloads inserted under a name, in their order. -/
def inserted (insertions : List (String × Overload)) (name : String) : List Overload :=
  (insertions.filter fun entry => entry.1 = name).map Prod.snd

theorem inserted_eq_nil_iff {insertions : List (String × Overload)} {name : String} :
    inserted insertions name = [] ↔ ∀ overload, (name, overload) ∉ insertions := by
  rw [inserted, List.map_eq_nil_iff, List.filter_eq_nil_iff]
  constructor
  · intro h overload hmem
    exact h _ hmem (by simp)
  · rintro h ⟨other, overload⟩ hmem hname
    obtain rfl : other = name := by simpa using hname
    exact h overload hmem

/-- Insertions leave the architecture and the processor alone. -/
theorem header_foldl_insert (catalog : Catalog) (insertions : List (String × Overload)) :
    (insertions.foldl (fun catalog entry => catalog.insert entry.1 entry.2) catalog).architecture =
        catalog.architecture ∧
      (insertions.foldl (fun catalog entry => catalog.insert entry.1 entry.2) catalog).processor =
        catalog.processor := by
  induction insertions generalizing catalog with
  | nil => exact ⟨rfl, rfl⟩
  | cons entry rest ih => exact ih (catalog.insert entry.1 entry.2)

theorem pairwise_idxOf_eraseDups (names : List String) :
    names.eraseDups.Pairwise fun a b => names.idxOf a < names.idxOf b := by
  -- a name at the end is new and found behind all others, or it adds nothing
  induction names using List.reverseRecOn with
  | nil => exact List.Pairwise.nil
  | append_singleton names name ih =>
    have hbefore : names.eraseDups.Pairwise fun a b =>
        (names ++ [name]).idxOf a < (names ++ [name]).idxOf b := by
      refine List.Pairwise.imp_of_mem ?_ ih
      intro a b ha hb hlt
      rwa [List.idxOf_append_of_mem (List.mem_eraseDups.mp ha),
        List.idxOf_append_of_mem (List.mem_eraseDups.mp hb)]
    rw [List.eraseDups_append]
    by_cases hmem : name ∈ names
    · simpa [List.removeAll, hmem] using hbefore
    · have hnew : ([name].removeAll names).eraseDups = [name] := by
        simp [List.removeAll, List.eraseDups_cons, hmem]
      rw [hnew, List.pairwise_append]
      refine ⟨hbefore, List.pairwise_singleton _ _, ?_⟩
      intro a ha b hb
      obtain rfl := List.mem_singleton.mp hb
      have hlt := List.idxOf_lt_length_of_mem (List.mem_eraseDups.mp ha)
      rw [List.idxOf_append_of_mem (List.mem_eraseDups.mp ha), List.idxOf_append_of_notMem hmem]
      omega

namespace Records

variable {insertions : List (String × Overload)} {catalog : Catalog}

/-- A kernel is found under the name of an insertion, with what was inserted under it. -/
theorem get?_eq (h : Records insertions catalog.kernels) (name : String) :
    catalog.get? name =
      if inserted insertions name = [] then none else some (inserted insertions name) := by
  rw [get?]
  cases hfind : catalog.kernels.find? fun kernel => kernel.name == name with
  | none =>
    have hnone : inserted insertions name = [] := by
      rw [inserted_eq_nil_iff]
      intro overload hmem
      obtain ⟨kernel, hkernel, hname⟩ := List.mem_map.mp (h.mem_names_iff.mpr ⟨overload, hmem⟩)
      exact List.find?_eq_none.mp hfind kernel hkernel (by simpa using hname)
    rw [if_pos hnone, Option.map_none]
  | some kernel =>
    have hkernel := List.mem_of_find?_eq_some hfind
    obtain rfl : kernel.name = name := by simpa using List.find?_some hfind
    have hsome : inserted insertions kernel.name ≠ [] := by
      rw [ne_eq, inserted_eq_nil_iff, not_forall]
      obtain ⟨overload, hmem⟩ := h.mem_names_iff.mp (List.mem_map_of_mem hkernel)
      exact ⟨overload, not_not_intro hmem⟩
    rw [if_neg hsome, Option.map_some, h.overloads_eq kernel hkernel, inserted]

theorem overloads_ne_nil (h : Records insertions catalog.kernels) {kernel : Kernel}
    (hkernel : kernel ∈ catalog.kernels) : kernel.overloads ≠ [] := by
  obtain ⟨overload, hmem⟩ := h.mem_names_iff.mp (List.mem_map_of_mem hkernel)
  rw [h.overloads_eq kernel hkernel]
  exact fun hnil => inserted_eq_nil_iff.mp hnil overload hmem

theorem overloadCount_eq (h : Records insertions catalog.kernels) :
    catalog.overloadCount = insertions.length := by
  have hentries : catalog.kernels.flatMap Kernel.overloads =
      (entriesOf catalog.kernels).map Prod.snd := by
    rw [entriesOf, List.map_flatMap]
    refine List.flatMap_congr fun kernel _ => ?_
    rw [List.map_map]
    exact (List.map_id _).symm
  rw [overloadCount, hentries, List.length_map, h.entries_perm.length_eq]

/-- The lines of a catalog are those of what was inserted under each of its names. -/
theorem diagnostics_eq (h : Records insertions catalog.kernels) :
    catalog.diagnostics = catalog.names.flatMap fun name => (inserted insertions name).map
      fun overload => name ++ "(" ++ overload.description ++ ")" := by
  rw [diagnostics, names, List.flatMap_map]
  refine List.flatMap_congr fun kernel hkernel => ?_
  rw [h.overloads_eq kernel hkernel, inserted]

end Records

/-- A catalog answers for insertions: it lists their names, each once and in the order in which they
were first met, has under a name exactly what was inserted under it, in its order, and nothing under
any other name, and counts and tells each insertion once. -/
structure GroupsByName (insertions : List (String × Overload)) (catalog : Catalog) : Prop where
  names_nodup : catalog.names.Nodup
  mem_names_iff : ∀ name, name ∈ catalog.names ↔ ∃ overload, (name, overload) ∈ insertions
  pairwise_names : catalog.names.Pairwise fun a b =>
    (insertions.map Prod.fst).idxOf a < (insertions.map Prod.fst).idxOf b
  get?_eq : ∀ name, catalog.get? name =
    if inserted insertions name = [] then none else some (inserted insertions name)
  get?_eq_none_iff : ∀ name, catalog.get? name = none ↔ ∀ overload, (name, overload) ∉ insertions
  overloads_ne_nil : ∀ kernel ∈ catalog.kernels, kernel.overloads ≠ []
  overloadCount_eq : catalog.overloadCount = insertions.length
  diagnostics_eq : catalog.diagnostics = catalog.names.flatMap fun name =>
    (inserted insertions name).map fun overload => name ++ "(" ++ overload.description ++ ")"

/-- **A catalog groups its insertions by name and keeps their order**, however the names take
turns. -/
theorem ofInsertions_groups_by_name (architecture : Architecture) (processor : Option String)
    (insertions : List (String × Overload)) :
    GroupsByName insertions (ofInsertions architecture processor insertions) ∧
      (ofInsertions architecture processor insertions).architecture = architecture ∧
      (ofInsertions architecture processor insertions).processor = processor := by
  have hempty : Records [] (empty architecture processor).kernels := Records.nil
  have hrecords : Records insertions (ofInsertions architecture processor insertions).kernels :=
    hempty.foldl insertions
  refine ⟨⟨hrecords.names_nodup, fun name => hrecords.mem_names_iff, ?_, hrecords.get?_eq, ?_,
    fun kernel => hrecords.overloads_ne_nil, hrecords.overloadCount_eq, hrecords.diagnostics_eq⟩,
    header_foldl_insert _ _⟩
  · rw [names, hrecords.names_eq]
    exact pairwise_idxOf_eraseDups _
  · intro name
    rw [hrecords.get?_eq, ← inserted_eq_nil_iff]
    split
    · next hnil => simp [hnil]
    · next hsome => simp [hsome]

end KernelCatalog.Catalog
