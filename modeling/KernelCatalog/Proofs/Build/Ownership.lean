import KernelCatalog.Proofs.Build.Summary
import KernelCatalog.Proofs.Project.Config
import KernelCatalog.Proofs.Schedule.Exclusive

/-!
# Who owns which output

A graph takes stages one after another if any two are compatible. The targets of a valid
configuration are exclusive, so their stages have different names, and objects are compared
with objects and generated sources with generated sources. An object is not compared with a
generated source before the graph is made.

* `Graph.foldlM_add_eq_ok_iff`: which stages a graph takes.
* `Pipeline.graph_isOk_iff`: which pipelines a graph takes.
* `BuildSetup.graph_isOk_iff_of_validated`: when the targets of a valid configuration can be built.
-/

namespace KernelCatalog

/-- No object of a target is a generated source of one. -/
def Job.Apart (jobs : List Job) : Prop :=
  ∀ first ∈ jobs, ∀ second ∈ jobs, first.object.same second.generated = false

instance (jobs : List Job) : Decidable (Job.Apart jobs) :=
  inferInstanceAs (Decidable (∀ first ∈ jobs, ∀ second ∈ jobs, _ = false))

namespace Graph

variable {σ : Type}

/-- **A graph takes stages one after another** if any two are compatible, those that it has
included. -/
theorem foldlM_add_eq_ok_iff {graph grown : Graph σ} {stages : List (Stage σ)} :
    stages.foldlM add graph = .ok grown ↔
      (∀ other ∈ graph.stages, ∀ stage ∈ stages, other.Compatible stage) ∧
      stages.Pairwise Stage.Compatible ∧ grown = ⟨graph.stages ++ stages⟩ := by
  induction stages generalizing graph with
  | nil => simp [pure, Except.pure, eq_comm]
  | cons stage rest ih =>
    rw [List.foldlM_cons]
    constructor
    · intro h
      obtain ⟨next, hnext, h⟩ := of_bind_eq_ok h
      obtain ⟨hstage, rfl⟩ := add_eq_ok_iff.mp hnext
      obtain ⟨hearlier, hrest, rfl⟩ := ih.mp h
      rw [List.forall_mem_append, List.forall_mem_singleton] at hearlier
      refine ⟨fun other hother => ?_, List.pairwise_cons.mpr ⟨hearlier.2, hrest⟩, by simp⟩
      exact List.forall_mem_cons.mpr ⟨hstage other hother, hearlier.1 other hother⟩
    · rintro ⟨hearlier, hpairwise, rfl⟩
      obtain ⟨hstage, hrest⟩ := List.pairwise_cons.mp hpairwise
      have hnext : graph.add stage = .ok ⟨graph.stages ++ [stage]⟩ :=
        add_eq_ok_iff.mpr ⟨fun other hother => hearlier other hother stage (by simp), rfl⟩
      rw [hnext]
      refine ih.mpr ⟨?_, hrest, by simp⟩
      rw [List.forall_mem_append, List.forall_mem_singleton]
      exact ⟨fun other hother second hsecond => hearlier other hother second (by simp [hsecond]),
        hstage⟩

/-- Stages of different names are refused for an output only. -/
theorem of_foldlM_add_eq_error {graph : Graph σ} {stages : List (Stage σ)} {e : GraphError}
    (hnodup : (graph.names ++ stages.map Stage.name).Nodup)
    (h : stages.foldlM add graph = .error e) :
    ∃ path first second, e = .outputConflict path first second := by
  induction stages generalizing graph with
  | nil => exact absurd h (by simp [pure, Except.pure])
  | cons stage rest ih =>
    rw [List.foldlM_cons] at h
    cases hadd : graph.add stage with
    | error cause =>
      rw [hadd] at h
      obtain rfl := Except.error.inj h
      cases add_eq_error_iff.mp hadd with
      | duplicate hname => exact absurd (by simp) (List.disjoint_of_nodup_append hnodup hname)
      | conflict => exact ⟨_, _, _, rfl⟩
    | ok grown =>
      rw [hadd] at h
      refine ih ?_ h
      rwa [names, (of_add_eq_ok hadd).2, List.map_append, List.append_assoc]

end Graph

namespace Pipeline

/-! ## Pipelines -/

theorem stages_cons (launch : Launcher) (index : Nat) (first : Pipeline) (rest : List Pipeline) :
    stages launch index (first :: rest) =
      first.pair launch index ++ stages launch (index + 1) rest := rfl

/-- Pipelines are added stage by stage. -/
theorem addAll_eq_foldlM (launch : Launcher) (index : Nat) (pipelines : List Pipeline)
    (graph : Graph Workspace) :
    addAll launch index pipelines graph =
      (stages launch index pipelines).foldlM Graph.add graph := by
  induction pipelines generalizing index graph with
  | nil => rfl
  | cons first rest ih =>
    rw [stages_cons, pair, List.cons_append, List.foldlM_cons, addAll, addTo]
    cases hcompile : graph.add (first.compileStage launch index) with
    | error e => rfl
    | ok compiling =>
      cases hextract : compiling.add (first.extractStage index) with
      | error e => simp [hextract, bind, Except.bind]
      | ok extracting => simp [hextract, bind, Except.bind, ih]

theorem compileName_ne_extractName (first second : Pipeline) :
    first.compileName ≠ second.extractName := by
  have hhead : ∀ {front rest : String} {c : Char}, front.toList.head? = some c →
      (front ++ rest).toList.head? = some c := by
    intro front rest c hfront
    rw [String.toList_append, List.head?_append, hfront, Option.some_or]
  have hcompile : first.compileName.toList.head? = some 'd' := hhead (by decide +kernel)
  have hextract : second.extractName.toList.head? = some 'c' := hhead (by decide +kernel)
  intro h
  rw [h, hextract] at hcompile
  exact absurd hcompile (by decide)

theorem compileName_inj {first second : Pipeline} :
    first.compileName = second.compileName ↔ first.job.name = second.job.name :=
  String.append_right_inj _

theorem extractName_inj {first second : Pipeline} :
    first.extractName = second.extractName ↔ first.job.name = second.job.name :=
  String.append_right_inj _

theorem pairwise_pair_iff (launch : Launcher) (pipeline : Pipeline) (place : Nat) :
    (pipeline.pair launch place).Pairwise Stage.Compatible ↔
      pipeline.job.object.same pipeline.job.generated = false := by
  rw [pair, List.pairwise_pair]
  constructor
  · intro h
    rw [Path.same_comm]
    exact h.outputs _ (List.mem_singleton_self _) _ (List.mem_singleton_self _)
  · intro h
    refine ⟨compileName_ne_extractName pipeline pipeline, ?_⟩
    simpa [compileStage, extractStage, Path.same_comm] using h

/-- The stages of exclusive pipelines are compatible if the object of neither is the generated
source of the other. -/
theorem compatible_pairs_iff (launch : Launcher) {first second : Pipeline} (place other : Nat)
    (hexclusive : first.job.Exclusive second.job) :
    (∀ later ∈ second.pair launch other, ∀ earlier ∈ first.pair launch place,
      earlier.Compatible later) ↔
      first.job.object.same second.job.generated = false ∧
        second.job.object.same first.job.generated = false := by
  constructor
  · intro h
    have hextract := h _ (second.extractStage_mem_pair launch other) _
      (first.compileStage_mem_pair launch place)
    have hcompile := h _ (second.compileStage_mem_pair launch other) _
      (first.extractStage_mem_pair launch place)
    rw [Path.same_comm]
    exact ⟨hextract.outputs _ (List.mem_singleton_self _) _ (List.mem_singleton_self _),
      hcompile.outputs _ (List.mem_singleton_self _) _ (List.mem_singleton_self _)⟩
  · rintro ⟨hgenerated, hobject⟩ later hlater earlier hearlier
    rcases List.mem_pair.mp hearlier with rfl | rfl <;>
      rcases List.mem_pair.mp hlater with rfl | rfl
    · refine ⟨mt compileName_inj.mp hexclusive.name_ne, ?_⟩
      simpa [compileStage, Path.same_comm] using hexclusive.object
    · refine ⟨compileName_ne_extractName first second, ?_⟩
      simpa [compileStage, extractStage, Path.same_comm] using hgenerated
    · refine ⟨(compileName_ne_extractName second first).symm, ?_⟩
      simpa [compileStage, extractStage] using hobject
    · refine ⟨mt extractName_inj.mp hexclusive.name_ne, ?_⟩
      simpa [extractStage, Path.same_comm] using hexclusive.generated

/-- What holds of the stages of each pipeline holds of all stages. -/
theorem forall_mem_stages_iff {launch : Launcher} {pipelines : List Pipeline} (index : Nat)
    {P : Stage Workspace → Prop} {Q : Pipeline → Prop}
    (h : ∀ pipeline ∈ pipelines, ∀ place,
      (∀ stage ∈ pipeline.pair launch place, P stage) ↔ Q pipeline) :
    (∀ stage ∈ stages launch index pipelines, P stage) ↔ ∀ pipeline ∈ pipelines, Q pipeline := by
  induction pipelines generalizing index with
  | nil => simp [stages]
  | cons first rest ih =>
    rw [List.forall_mem_cons] at h ⊢
    rw [stages_cons, List.forall_mem_append, h.1, ih (index + 1) h.2]

section Exclusive

variable {launch : Launcher} {pipelines : List Pipeline}

/-- The stages of exclusive pipelines are compatible if no object is a generated source. -/
theorem pairwise_stages_iff (launch : Launcher) (index : Nat)
    (hexclusive : (pipelines.map Pipeline.job).Pairwise Job.Exclusive) :
    (stages launch index pipelines).Pairwise Stage.Compatible ↔
      Job.Apart (pipelines.map Pipeline.job) := by
  induction pipelines generalizing index with
  | nil => simp [stages, Job.Apart]
  | cons first rest ih =>
    rw [List.map_cons, List.pairwise_cons, List.forall_mem_map] at hexclusive
    have hcross : (∀ earlier ∈ first.pair launch index, ∀ later ∈ stages launch (index + 1) rest,
        earlier.Compatible later) ↔ ∀ second ∈ rest,
          first.job.object.same second.job.generated = false ∧
            second.job.object.same first.job.generated = false := by
      rw [← forall_mem_stages_iff (index + 1) fun second hsecond place =>
        compatible_pairs_iff launch index place (hexclusive.1 second hsecond)]
      exact ⟨fun h later hlater earlier hearlier => h earlier hearlier later hlater,
        fun h earlier hearlier later hlater => h later hlater earlier hearlier⟩
    rw [stages_cons, List.pairwise_append, pairwise_pair_iff, ih (index + 1) hexclusive.2, hcross]
    simp only [Job.Apart, List.map_cons, List.forall_mem_cons, List.forall_mem_map]
    constructor
    · rintro ⟨hself, hrest, hcross⟩
      exact ⟨⟨hself, fun second hsecond => (hcross second hsecond).1⟩,
        fun second hsecond => ⟨(hcross second hsecond).2, hrest second hsecond⟩⟩
    · rintro ⟨⟨hself, hfirst⟩, hrest⟩
      exact ⟨hself, fun second hsecond => (hrest second hsecond).2,
        fun second hsecond => ⟨hfirst second hsecond, (hrest second hsecond).1⟩⟩

theorem map_name_stages (index : Nat) :
    (stages launch index pipelines).map Stage.name =
      pipelines.flatMap fun pipeline => [pipeline.compileName, pipeline.extractName] := by
  induction pipelines generalizing index with
  | nil => rfl
  | cons first rest ih => rw [stages_cons, List.map_append, ih]; rfl

variable (hexclusive : (pipelines.map Pipeline.job).Pairwise Job.Exclusive)
include hexclusive

theorem nodup_names_stages (index : Nat) :
    ((stages launch index pipelines).map Stage.name).Nodup := by
  rw [map_name_stages, List.nodup_flatMap]
  refine ⟨fun pipeline _ => by simp [compileName_ne_extractName], ?_⟩
  refine (List.pairwise_map.mp hexclusive).imp fun {first second} h => ?_
  simp [Function.onFun, List.disjoint_left, compileName_inj, extractName_inj, h.name_ne,
    compileName_ne_extractName, (compileName_ne_extractName second first).symm]

/-- **A graph takes exclusive pipelines** if no object is a generated source. -/
theorem graph_isOk_iff :
    (∃ graph, Pipeline.graph launch pipelines = .ok graph) ↔
      Job.Apart (pipelines.map Pipeline.job) := by
  rw [← pairwise_stages_iff launch 0 hexclusive, Pipeline.graph, addAll_eq_foldlM]
  simp [Graph.foldlM_add_eq_ok_iff, Graph.empty]

/-- Exclusive pipelines are refused for an output only. -/
theorem of_graph_eq_error {e : GraphError} (h : Pipeline.graph launch pipelines = .error e) :
    ∃ path first second, e = .outputConflict path first second := by
  rw [Pipeline.graph, addAll_eq_foldlM] at h
  refine Graph.of_foldlM_add_eq_error ?_ h
  exact nodup_names_stages hexclusive 0

end Exclusive

/-- **The stages of a graph are compatible** if they are not the same stage. -/
theorem compatible_of_graph {launch : Launcher} {pipelines : List Pipeline}
    {graph : Graph Workspace} (h : Pipeline.graph launch pipelines = .ok graph)
    {first second : Stage Workspace} (hfirst : first ∈ graph.stages)
    (hsecond : second ∈ graph.stages) (hne : first.name ≠ second.name) :
    first.Compatible second := by
  rw [Pipeline.graph, addAll_eq_foldlM, Graph.foldlM_add_eq_ok_iff] at h
  obtain ⟨-, hpairwise, rfl⟩ := h
  have hsymm : Std.Symm (Stage.Compatible (σ := Workspace)) := ⟨fun _ _ => .symm⟩
  exact hpairwise.forall hfirst hsecond (ne_of_apply_ne Stage.name hne)

/-- **The graph of pipelines is valid**: only a stage that extracts depends on another, which is the
one that compiles for it. -/
theorem validate_of_graph {launch : Launcher} {pipelines : List Pipeline} {graph : Graph Workspace}
    (h : Pipeline.graph launch pipelines = .ok graph) : graph.validate = .ok () := by
  have hnodup := (of_graph_eq_ok h).1
  refine (Graph.validate_eq_ok_iff hnodup).mpr ⟨?_, ?_⟩
  · intro stage hstage dependency hdependency
    obtain ⟨pipeline, place, hpipeline, hpair⟩ := (mem_graph_iff h).mp hstage
    rcases List.mem_pair.mp hpair with rfl | rfl
    · exact absurd hdependency List.not_mem_nil
    · obtain rfl := List.mem_singleton.mp hdependency
      have hcompile := (mem_graph_iff h).mpr
        ⟨pipeline, place, hpipeline, pipeline.compileStage_mem_pair launch place⟩
      exact List.mem_map_of_mem hcompile
  · intro name hcycle
    obtain ⟨_, ⟨stage, hstage, rfl, hdependency⟩, -⟩ := Relation.TransGen.head'_iff.mp hcycle
    obtain ⟨pipeline, place, hpipeline, hpair⟩ := (mem_graph_iff h).mp hstage
    rcases List.mem_pair.mp hpair with rfl | rfl
    · exact absurd hdependency List.not_mem_nil
    · have hself := (dependsOn_extractName_iff h hpipeline).mp hcycle
      exact compileName_ne_extractName pipeline pipeline hself.symm

end Pipeline

namespace BuildSetup

/-- A build stops at a fault of the graph only while the graph is made. -/
theorem fst_build_eq_graph_error_iff {setup : BuildSetup} {project : Project} {names : List String}
    {targets : List Target} (hselect : project.config.select names = .ok targets) (files : Files)
    (cause : GraphError) :
    (setup.build project names files).1 = .error (.graph cause) ↔
      Pipeline.graph setup.launch (targets.map (setup.pipeline project)) = .error cause := by
  unfold build
  simp only [hselect]
  cases hgraph : Pipeline.graph setup.launch (targets.map (setup.pipeline project)) with
  | error e => simp
  | ok graph =>
    obtain ⟨report, next, hrun, -⟩ := Graph.steps_run (Pipeline.of_graph_eq_ok hgraph).1
      (Pipeline.validate_of_graph hgraph) ⟨files, targets.map fun _ => {}⟩
    simp only [hrun]
    split <;> simp

/-- **When the targets of a valid configuration can be built.** Any choice of different targets is
taken into one graph, and that graph is valid, if and only if no object of a chosen target is a
generated source of one; no build of them then stops at a fault of the graph. Otherwise the graph
is refused for an output of two stages. -/
theorem graph_isOk_iff_of_validated (setup : BuildSetup) {project : Project} {names : List String}
    (hvalid : project.config.validate project.layout = .ok ()) (hnodup : names.Nodup)
    (hknown : ∀ name ∈ names, ∃ target ∈ project.config.targets, target.name = name) :
    ∃ targets, project.config.select names = .ok targets ∧
      ((∃ graph, Pipeline.graph setup.launch (targets.map (setup.pipeline project)) = .ok graph ∧
        graph.validate = .ok ()) ↔ Job.Apart (targets.map (·.job project.layout))) ∧
      ((∀ files cause, (setup.build project names files).1 ≠ .error (.graph cause)) ↔
        Job.Apart (targets.map (·.job project.layout))) ∧
      ∀ cause, Pipeline.graph setup.launch (targets.map (setup.pipeline project)) = .error cause →
        ∃ path first second, cause = .outputConflict path first second := by
  obtain ⟨targets, hselect⟩ := Config.exists_select_eq_ok hknown
  have hexclusive : ((targets.map (setup.pipeline project)).map Pipeline.job).Pairwise
      Job.Exclusive := by
    rw [List.map_map]
    exact Config.pairwise_exclusive_of_select hvalid hnodup hselect
  have hok : (∃ graph, Pipeline.graph setup.launch (targets.map (setup.pipeline project)) =
      .ok graph) ↔ Job.Apart (targets.map (·.job project.layout)) := by
    rw [Pipeline.graph_isOk_iff hexclusive, List.map_map]
    rfl
  refine ⟨targets, hselect, ?_, ?_, fun cause => Pipeline.of_graph_eq_error hexclusive⟩
  · rw [← hok]
    constructor
    · rintro ⟨graph, hgraph, -⟩
      exact ⟨graph, hgraph⟩
    · rintro ⟨graph, hgraph⟩
      exact ⟨graph, hgraph, Pipeline.validate_of_graph hgraph⟩
  · rw [← hok]
    simp only [ne_eq, fst_build_eq_graph_error_iff hselect]
    cases Pipeline.graph setup.launch (targets.map (setup.pipeline project)) with
    | error e => exact ⟨fun h => absurd rfl (h (.empty []) e), fun ⟨_, h⟩ => absurd h (by simp)⟩
    | ok graph => exact ⟨fun _ => ⟨graph, rfl⟩, fun _ _ _ => by simp⟩

/-- The targets of the sample can be built together. -/
theorem graph_isOk_iff_of_validated_sample :
    sampleProject.config.validate sampleProject.layout = .ok () ∧ ["dev", "gone"].Nodup ∧
    ∃ targets, sampleProject.config.select ["dev", "gone"] = .ok targets ∧
      (∃ graph, Pipeline.graph sampleSetup.launch
        (targets.map (sampleSetup.pipeline sampleProject)) = .ok graph ∧
          graph.validate = .ok ()) ∧
      ∀ files cause, (sampleSetup.build sampleProject ["dev", "gone"] files).1 ≠
        .error (.graph cause) := by
  have hvalid : sampleProject.config.validate sampleProject.layout = .ok () := by decide +kernel
  have hnodup : ["dev", "gone"].Nodup := by decide
  have hknown : ∀ name ∈ ["dev", "gone"],
      ∃ target ∈ sampleProject.config.targets, target.name = name := by decide
  obtain ⟨targets, hselect, hgraph, hbuild, -⟩ :=
    graph_isOk_iff_of_validated sampleSetup hvalid hnodup hknown
  have hapart : ∀ targets, sampleProject.config.select ["dev", "gone"] = .ok targets →
      Job.Apart (targets.map (·.job sampleProject.layout)) := by
    rintro _ ⟨⟩
    decide +kernel
  exact ⟨hvalid, hnodup, targets, hselect, hgraph.mpr (hapart targets hselect),
    hbuild.mpr (hapart targets hselect)⟩

/-- A project in which the source that is generated for one target is to be the object of the
other. -/
def sharedOutputProject : Project where
  layout := ⟨⟨"/p"⟩⟩
  config := { Config.new "shared" ":memory:" with
    targets := [⟨"a", "a.o", .amdgpu, none, .prebuilt, some ".kbridge/build/b/device.o"⟩,
      ⟨"b", "b.o", .amdgpu, none, .prebuilt, none⟩] }
  ledgerPath := ⟨":memory:"⟩
  ledger := .memory ⟨1, some ⟨[], 0⟩⟩

/-- **A valid configuration that cannot be built**: no validation compares an object with a
generated source, but the graph does. -/
theorem validated_output_conflict :
    sharedOutputProject.config.validate sharedOutputProject.layout = .ok () ∧
    (sampleSetup.build sharedOutputProject [] sampleFiles).1 =
      .error (.graph (.outputConflict ⟨"/p/.kbridge/build/b/device.o"⟩ "config-extract:a"
        "device-compile:b")) := by
  refine ⟨by decide +kernel, ?_⟩
  have hselect : sharedOutputProject.config.select [] = .ok sharedOutputProject.config.targets :=
    rfl
  rw [fst_build_eq_graph_error_iff hselect]
  have hgraph : (Pipeline.graph sampleSetup.launch (sharedOutputProject.config.targets.map
      (sampleSetup.pipeline sharedOutputProject))).map (fun _ => ()) =
      .error (.outputConflict ⟨"/p/.kbridge/build/b/device.o"⟩ "config-extract:a"
        "device-compile:b") := by decide +kernel
  cases h : Pipeline.graph sampleSetup.launch (sharedOutputProject.config.targets.map
      (sampleSetup.pipeline sharedOutputProject)) with
  | error e =>
    rw [h] at hgraph
    exact congrArg Except.error (Except.error.inj hgraph)
  | ok graph =>
    rw [h] at hgraph
    exact absurd hgraph (by simp [Except.map])

end BuildSetup

end KernelCatalog
