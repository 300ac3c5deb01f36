import KernelCatalog.Proofs.Text.Utf8
import KernelCatalog.Schedule.Graph
import Mathlib.Data.Fintype.Pigeonhole
import Mathlib.Data.List.Sort
import Mathlib.Data.Set.Finite.Basic
import Mathlib.Logic.Relation

/-!
# Dependencies and cycles

`Needs` relates the name of a stage to the names of its dependencies, and `DependsOn` is its
transitive closure. Settling the stages again and again leaves exactly those from which a cycle can
be reached: a settled stage is accessible along its dependencies, and each stage that is left has a
dependency among those left.

* `exists_cycle`: names that all need a name among them lead to a cycle.
* `mem_unsettled_iff`: what is left when nothing more can be settled.
* `validate_decides_acyclicity`: what the validation of a graph answers.
-/

namespace KernelCatalog.Graph

variable {σ : Type}

/-! ## Building a graph -/

/-- The graph after a stage has been offered to it: a stage that is refused leaves it as it is. -/
def offer (graph : Graph σ) (stage : Stage σ) : Graph σ :=
  match graph.add stage with
  | .ok grown => grown
  | .error _ => graph

/-- The graph of stages that are offered to it one after another. -/
def ofOffers (stages : List (Stage σ)) : Graph σ := stages.foldl offer empty

/-- A stage that is added has a new name and stands behind the others. -/
theorem of_add_eq_ok {graph grown : Graph σ} {stage : Stage σ} (h : graph.add stage = .ok grown) :
    stage.name ∉ graph.names ∧ grown.stages = graph.stages ++ [stage] := by
  unfold add at h
  split at h
  · exact absurd h (by simp)
  · next hname =>
    split at h
    · exact absurd h (by simp)
    · obtain rfl := Except.ok.inj h
      exact ⟨by simpa using hname, rfl⟩

theorem nodup_names_of_add {graph grown : Graph σ} {stage : Stage σ} (hnodup : graph.names.Nodup)
    (h : graph.add stage = .ok grown) : grown.names.Nodup := by
  obtain ⟨hnew, hstages⟩ := of_add_eq_ok h
  rw [names, hstages, List.map_append, List.map_singleton,
    (List.perm_append_singleton _ _).nodup_iff]
  exact List.nodup_cons.mpr ⟨hnew, hnodup⟩

theorem nodup_names_ofOffers (stages : List (Stage σ)) : (ofOffers stages).names.Nodup := by
  have hempty : (empty : Graph σ).names.Nodup := List.nodup_nil
  refine List.foldlRecOn stages offer (motive := fun graph => graph.names.Nodup) hempty ?_
  intro graph hnodup stage _
  unfold offer
  split
  · next hadd => exact nodup_names_of_add hnodup hadd
  · exact hnodup

/-! ## Dependencies -/

/-- The stage of the first name has the second as a dependency. -/
def Needs (graph : Graph σ) (name dependency : String) : Prop :=
  ∃ stage ∈ graph.stages, stage.name = name ∧ dependency ∈ stage.dependencies

/-- The second name is a dependency of the first, or one of a dependency, and so on. -/
def DependsOn (graph : Graph σ) : String → String → Prop := Relation.TransGen graph.Needs

/-- Following dependencies from a name can lead into a cycle. -/
def ReachesCycle (graph : Graph σ) (name : String) : Prop :=
  ∃ other, Relation.ReflTransGen graph.Needs name other ∧ graph.DependsOn other other

/-- Every dependency is a stage of the graph. -/
def Closed (graph : Graph σ) : Prop :=
  ∀ stage ∈ graph.stages, ∀ dependency ∈ stage.dependencies, dependency ∈ graph.names

/-- Where names are distinct, the dependencies of a name are those of its stage. -/
theorem needs_name_iff {graph : Graph σ} (hnodup : graph.names.Nodup) {stage : Stage σ}
    (hstage : stage ∈ graph.stages) {dependency : String} :
    graph.Needs stage.name dependency ↔ dependency ∈ stage.dependencies := by
  constructor
  · rintro ⟨other, hother, hname, hdependency⟩
    rwa [List.inj_on_of_nodup_map hnodup hother hstage hname] at hdependency
  · intro hdependency
    exact ⟨stage, hstage, rfl, hdependency⟩

/-- If each of finitely many items leads to another of them, then each leads to a cycle. -/
theorem exists_cycle {α : Type} {R : α → α → Prop} (items : List α)
    (h : ∀ a ∈ items, ∃ b ∈ items, R a b) {a : α} (ha : a ∈ items) :
    ∃ c, Relation.ReflTransGen R a c ∧ Relation.TransGen R c c := by
  choose! next hnext hR using h
  -- the items met on the way repeat, since there are only finitely many
  have hmem : ∀ n, next^[n] a ∈ items := by
    intro n
    induction n with
    | zero => exact ha
    | succ n ih =>
      rw [Function.iterate_succ_apply']
      exact hnext _ ih
  have hpath : ∀ m n, Relation.ReflTransGen R (next^[m] a) (next^[m + n] a) := by
    intro m n
    induction n with
    | zero => exact .refl
    | succ n ih =>
      rw [← Nat.add_assoc, Function.iterate_succ_apply']
      exact ih.tail (hR _ (hmem _))
  obtain ⟨m, n, hlt, heq⟩ : ∃ m n, m < n ∧ next^[m] a = next^[n] a := by
    have : Finite { b // b ∈ items } := (List.finite_toSet items).to_subtype
    obtain ⟨m, n, hne, heq⟩ :=
      Finite.exists_ne_map_eq_of_infinite fun n => (⟨next^[n] a, hmem n⟩ : { b // b ∈ items })
    rcases Nat.lt_or_gt_of_ne hne with hlt | hlt
    · exact ⟨m, n, hlt, congrArg Subtype.val heq⟩
    · exact ⟨n, m, hlt, (congrArg Subtype.val heq).symm⟩
  refine ⟨next^[m] a, by simpa using hpath 0 m, ?_⟩
  obtain ⟨k, rfl⟩ := Nat.exists_eq_add_of_lt hlt
  have hfirst : R (next^[m] a) (next^[m + 1] a) := by
    rw [Function.iterate_succ_apply']
    exact hR _ (hmem m)
  have hrest := hpath (m + 1) k
  rw [Nat.add_right_comm, ← heq] at hrest
  exact .head' hfirst hrest

/-- What is accessible along a relation leads to no cycle of it. -/
theorem not_transGen_of_acc {α : Type} {R : α → α → Prop} {a c : α} (hacc : Acc (flip R) a)
    (hpath : Relation.ReflTransGen R a c) : ¬ Relation.TransGen R c c := by
  have hc : Acc (flip R) c := by
    induction hpath with
    | refl => exact hacc
    | tail _ hstep ih => exact ih.inv hstep
  -- the successor on the cycle is accessible, and on the same cycle
  induction hc with
  | intro c _ ih =>
    intro hcycle
    obtain ⟨next, hstep, hrest⟩ := Relation.TransGen.head'_iff.mp hcycle
    exact ih next hstep (hpath.tail hstep) (.tail' hrest hstep)

/-! ## Settling stages -/

theorem isReady_iff {settled : List String} {stage : Stage σ} :
    isReady settled stage = true ↔ ∀ dependency ∈ stage.dependencies, dependency ∈ settled := by
  simp [isReady]

theorem isReady_eq_false_iff {settled : List String} {stage : Stage σ} :
    isReady settled stage = false ↔ ∃ dependency ∈ stage.dependencies, dependency ∉ settled := by
  simp [isReady]

theorem unsettled_sublist (settled : List String) (stages : List (Stage σ)) :
    (unsettled settled stages).Sublist stages := by
  fun_induction unsettled settled stages with
  | case1 => exact List.Sublist.refl _
  | case2 _ _ _ ih => exact ih.trans List.filter_sublist

/-- A stage that is left has a dependency that is not settled, and every stage of that name is
left too. -/
theorem exists_unsettled_dependency {settled : List String} {stages : List (Stage σ)}
    {stage : Stage σ} (h : stage ∈ unsettled settled stages) :
    ∃ dependency ∈ stage.dependencies, dependency ∉ settled ∧
      ∀ other ∈ stages, other.name = dependency → other ∈ unsettled settled stages := by
  fun_induction unsettled settled stages with
  | case1 settled stages hready =>
    have hblocked : isReady settled stage = false := by
      have hall := List.isEmpty_iff.mp hready
      rw [ready, List.filter_eq_nil_iff] at hall
      exact Bool.eq_false_iff.mpr (hall stage h)
    obtain ⟨dependency, hmem, hsettled⟩ := isReady_eq_false_iff.mp hblocked
    exact ⟨dependency, hmem, hsettled, fun other hother _ => hother⟩
  | case2 settled stages hready ih =>
    obtain ⟨dependency, hmem, hsettled, hleft⟩ := ih h
    rw [List.mem_append, not_or] at hsettled
    refine ⟨dependency, hmem, hsettled.1, fun other hother hname => hleft other ?_ hname⟩
    -- a ready stage of that name would have been settled
    refine List.mem_filter.mpr ⟨hother, ?_⟩
    rw [Bool.not_eq_true']
    by_contra hisReady
    refine hsettled.2 (List.mem_map.mpr ⟨other, ?_, hname⟩)
    exact List.mem_filter.mpr ⟨hother, Bool.not_eq_false _ ▸ hisReady⟩

/-- A stage that gets settled is accessible along the dependencies, if what was settled is. -/
theorem acc_of_not_mem_unsettled {graph : Graph σ} (hnodup : graph.names.Nodup)
    {settled : List String} {stages : List (Stage σ)} (hstages : stages ⊆ graph.stages)
    (hsettled : ∀ name ∈ settled, Acc (flip graph.Needs) name) {stage : Stage σ}
    (hstage : stage ∈ stages) (h : stage ∉ unsettled settled stages) :
    Acc (flip graph.Needs) stage.name := by
  fun_induction unsettled settled stages with
  | case1 => exact absurd hstage h
  | case2 settled stages _ ih =>
    have hready : ∀ other ∈ ready settled stages, Acc (flip graph.Needs) other.name := by
      intro other hother
      obtain ⟨hmem, hisReady⟩ := List.mem_filter.mp hother
      refine Acc.intro _ fun dependency hneeds => hsettled dependency ?_
      exact isReady_iff.mp hisReady dependency
        ((needs_name_iff hnodup (hstages hmem)).mp hneeds)
    by_cases hisReady : isReady settled stage = true
    · exact hready stage (List.mem_filter.mpr ⟨hstage, hisReady⟩)
    · have hblocked : stage ∈ blocked settled stages :=
        List.mem_filter.mpr ⟨hstage, by simpa using hisReady⟩
      refine ih (fun other hother => hstages (List.mem_of_mem_filter hother)) ?_ hblocked h
      intro name hname
      rcases List.mem_append.mp hname with hname | hname
      · exact hsettled name hname
      · obtain ⟨other, hother, rfl⟩ := List.mem_map.mp hname
        exact hready other hother

/-- The stages that are never settled are those from which a cycle can be reached. -/
theorem mem_unsettled_iff {graph : Graph σ} (hnodup : graph.names.Nodup) (hclosed : graph.Closed)
    {stage : Stage σ} (hstage : stage ∈ graph.stages) :
    stage ∈ unsettled [] graph.stages ↔ graph.ReachesCycle stage.name := by
  constructor
  · intro h
    refine exists_cycle ((unsettled [] graph.stages).map Stage.name) ?_
      (List.mem_map_of_mem h)
    intro name hname
    obtain ⟨other, hother, rfl⟩ := List.mem_map.mp hname
    have hmem := (unsettled_sublist [] graph.stages).mem hother
    obtain ⟨dependency, hdependency, -, hleft⟩ := exists_unsettled_dependency hother
    obtain ⟨needed, hneeded, rfl⟩ := List.mem_map.mp (hclosed other hmem dependency hdependency)
    exact ⟨needed.name, List.mem_map_of_mem (hleft needed hneeded rfl), other, hmem, rfl,
      hdependency⟩
  · rintro ⟨other, hpath, hcycle⟩
    by_contra h
    have hacc := acc_of_not_mem_unsettled hnodup (List.Subset.refl _) (by simp) hstage h
    exact not_transGen_of_acc hacc hpath hcycle

/-! ## Validation -/

/-- The first dependency that is no stage, of the first stage that has one. -/
structure FirstUnknown (graph : Graph σ) (stage : Stage σ) (dependency : String) : Prop where
  stages_eq : ∃ earlier later, graph.stages = earlier ++ stage :: later ∧
    ∀ other ∈ earlier, ∀ known ∈ other.dependencies, known ∈ graph.names
  dependencies_eq : ∃ before after, stage.dependencies = before ++ dependency :: after ∧
    ∀ known ∈ before, known ∈ graph.names
  not_mem : dependency ∉ graph.names

/-- No dependency is unknown when all are stages. -/
theorem unknownDependency?_eq_none_iff {graph : Graph σ} :
    graph.unknownDependency? = none ↔ graph.Closed := by
  simp [unknownDependency?, Closed]

/-- The unknown dependency that is found is the first one. -/
theorem firstUnknown_of_unknownDependency? {graph : Graph σ} {name dependency : String}
    (h : graph.unknownDependency? = some (name, dependency)) :
    ∃ stage, stage.name = name ∧ graph.FirstUnknown stage dependency := by
  obtain ⟨earlier, stage, later, hstages, hfound, hearlier⟩ := List.findSome?_eq_some_iff.mp h
  obtain ⟨found, hfind, heq⟩ := Option.map_eq_some_iff.mp hfound
  obtain ⟨rfl, rfl⟩ := Prod.mk.inj heq
  obtain ⟨hunknown, before, after, hdependencies, hbefore⟩ :=
    List.find?_eq_some_iff_append.mp hfind
  refine ⟨stage, rfl, ⟨earlier, later, hstages, ?_⟩, ⟨before, after, hdependencies, ?_⟩, ?_⟩
  · intro other hother
    simpa using hearlier other hother
  · simpa using hbefore
  · simpa using hunknown

/-- The first unknown dependency is what the validation reports, if there is one. -/
theorem exists_firstUnknown {graph : Graph σ} (h : ¬ graph.Closed) :
    ∃ stage dependency, graph.FirstUnknown stage dependency ∧
      graph.validate = .error (.unknownDependency stage.name dependency) := by
  rw [← unknownDependency?_eq_none_iff, ← ne_eq, Option.ne_none_iff_exists'] at h
  obtain ⟨⟨name, dependency⟩, hfound⟩ := h
  obtain ⟨stage, rfl, hfirst⟩ := firstUnknown_of_unknownDependency? hfound
  refine ⟨stage, dependency, hfirst, ?_⟩
  rw [validate, hfound]

/-- Where all dependencies are stages, the validation depends on what is never settled. -/
theorem validate_of_closed {graph : Graph σ} (h : graph.Closed) :
    graph.validate =
      if unsettled [] graph.stages = [] then .ok ()
      else .error (.dependencyCycle ((unsettled [] graph.stages).map Stage.name).mergeSort) := by
  rw [validate, unknownDependency?_eq_none_iff.mpr h]
  dsimp only
  split
  · next heq => rw [if_pos heq]
  · next hne => rw [if_neg hne]

/-- Every stage is settled in the end when there is no cycle. -/
theorem unsettled_eq_nil_iff {graph : Graph σ} (hnodup : graph.names.Nodup)
    (hclosed : graph.Closed) :
    unsettled [] graph.stages = [] ↔ ∀ name, ¬ graph.DependsOn name name := by
  rw [List.eq_nil_iff_forall_not_mem]
  constructor
  · intro h name hcycle
    obtain ⟨_, ⟨stage, hstage, rfl, -⟩, -⟩ := Relation.TransGen.head'_iff.mp hcycle
    exact h stage ((mem_unsettled_iff hnodup hclosed hstage).mpr ⟨_, .refl, hcycle⟩)
  · intro h stage hstage
    have hmem := (unsettled_sublist [] graph.stages).mem hstage
    obtain ⟨name, -, hcycle⟩ := (mem_unsettled_iff hnodup hclosed hmem).mp hstage
    exact h name hcycle

/-- A graph is valid when its dependencies are stages and have no cycle. -/
theorem validate_eq_ok_iff {graph : Graph σ} (hnodup : graph.names.Nodup) :
    graph.validate = .ok () ↔ graph.Closed ∧ ∀ name, ¬ graph.DependsOn name name := by
  by_cases hclosed : graph.Closed
  · rw [validate_of_closed hclosed, ← unsettled_eq_nil_iff hnodup hclosed]
    split
    · next hnil => simp [hclosed, hnil]
    · next hne => simp [hne]
  · obtain ⟨stage, dependency, -, hvalidate⟩ := exists_firstUnknown hclosed
    simp [hvalidate, hclosed]

theorem nodup_unsettled_names {graph : Graph σ} (hnodup : graph.names.Nodup) :
    ((unsettled [] graph.stages).map Stage.name).mergeSort.Nodup :=
  (List.mergeSort_perm _ _).nodup_iff.mpr
    (hnodup.sublist ((unsettled_sublist [] graph.stages).map Stage.name))

theorem pairwise_unsettled_names {graph : Graph σ} (hnodup : graph.names.Nodup) :
    ((unsettled [] graph.stages).map Stage.name).mergeSort.Pairwise fun a b =>
      Text.toBytes a < Text.toBytes b := by
  have hnames := (List.mergeSort_perm _ _).nodup_iff.mp (nodup_unsettled_names hnodup)
  exact Text.pairwise_toBytes_mergeSort hnames

/-- **Validation decides whether stages can be put in order.** However a graph is built, it is valid
exactly when every dependency is a stage and no stage depends on itself, directly or through others.
Otherwise the first unknown dependency is reported or, if all are known, the stages from which a
cycle can be reached, each once and in the order of their bytes. -/
theorem validate_decides_acyclicity (offers : List (Stage σ)) :
    ((ofOffers offers).validate = .ok () ↔
      (ofOffers offers).Closed ∧ ∀ name, ¬ (ofOffers offers).DependsOn name name) ∧
    (¬ (ofOffers offers).Closed → ∃ stage dependency,
      (ofOffers offers).FirstUnknown stage dependency ∧
      (ofOffers offers).validate = .error (.unknownDependency stage.name dependency)) ∧
    ((ofOffers offers).Closed → (∃ name, (ofOffers offers).DependsOn name name) →
      ∃ names, (ofOffers offers).validate = .error (.dependencyCycle names) ∧
        (∀ name, name ∈ names ↔
          name ∈ (ofOffers offers).names ∧ (ofOffers offers).ReachesCycle name) ∧
        names.Nodup ∧ names.Pairwise fun a b => Text.toBytes a < Text.toBytes b) := by
  have hnodup := nodup_names_ofOffers offers
  generalize ofOffers offers = graph at hnodup ⊢
  refine ⟨validate_eq_ok_iff hnodup, exists_firstUnknown, ?_⟩
  rintro hclosed ⟨cyclic, hcycle⟩
  have hne : unsettled [] graph.stages ≠ [] := fun hnil =>
    (unsettled_eq_nil_iff hnodup hclosed).mp hnil cyclic hcycle
  refine ⟨_, by rw [validate_of_closed hclosed, if_neg hne], ?_, nodup_unsettled_names hnodup,
    pairwise_unsettled_names hnodup⟩
  intro name
  rw [List.mem_mergeSort, List.mem_map, names, List.mem_map]
  constructor
  · rintro ⟨stage, hstage, rfl⟩
    have hmem := (unsettled_sublist [] graph.stages).mem hstage
    exact ⟨⟨stage, hmem, rfl⟩, (mem_unsettled_iff hnodup hclosed hmem).mp hstage⟩
  · rintro ⟨⟨stage, hmem, rfl⟩, hreaches⟩
    exact ⟨stage, (mem_unsettled_iff hnodup hclosed hmem).mpr hreaches, rfl⟩

end KernelCatalog.Graph
