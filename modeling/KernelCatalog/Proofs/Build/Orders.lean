import KernelCatalog.Proofs.Build.Rebuild
import KernelCatalog.Proofs.Build.Task

/-!
# Builds in any order

The stages of a wave run at the same time, and their steps on the files may come in any order. Where
the objects of targets exist already, the order does not matter, if the paths of the targets are
clear: each of them is firm, no output is a place that an output of another stage comes by, and no
output is the place of a source. Every order then ends with what the stages leave one after another,
and what is extracted for a target is read from the object that its own compilation has made.

The paths alone do not tell this: paths with different components may lead to one file.

* `Pipeline.Taking.step`: how far a target has come, in the sequential run.
* `Pipeline.Clear.minds`, `Pipeline.Clear.pairwise_apart`: the stages of a wave keep apart.
* `Pipeline.Clear.orderless`: why the order of steps does not matter.
* `Pipeline.run_in_any_order`: what builds come to, in any order.
-/

namespace KernelCatalog

namespace Pipeline

/-! ## Plans and areas -/

/-- The tasks that are planned for the stages of pipelines. -/
inductive Plan (launch : Launcher) (pipelines : List Pipeline) :
    Stage Workspace → Task Workspace Outcome → Prop where
  | compile {pipeline : Pipeline} {place : Nat} (mem : pipelines[place]? = some pipeline) :
      Plan launch pipelines (pipeline.compileStage launch place) (pipeline.compileTask place)
  | extract {pipeline : Pipeline} {place : Nat} (mem : pipelines[place]? = some pipeline) :
      Plan launch pipelines (pipeline.extractStage place) (pipeline.extractTask place)

/-- The place of the pipeline that a stage belongs to. -/
def placeOf (pipelines : List Pipeline) (stage : Stage Workspace) : Nat :=
  pipelines.findIdx fun pipeline => [pipeline.compileName, pipeline.extractName].contains stage.name

/-- The area of a stage: it owns the places of its outputs, and others write the places of the
outputs of other pipelines. -/
def area (pipelines : List Pipeline) (files : Files) (stage : Stage Workspace) : Area where
  place := placeOf pipelines stage
  own := files.places stage.outputs
  others := files.places ((pipelines.eraseIdx (placeOf pipelines stage)).flatMap (·.job.outputs))

/-- Pipelines of targets whose objects exist already, with clear paths: each can be followed for
good, no output leads to a place that an output of another stage comes by, and no output leads to
the place of a source. -/
structure Clear (launch : Launcher) (pipelines : List Pipeline) (graph : Graph Workspace)
    (files : Files) : Prop where
  graph_eq : Pipeline.graph launch pipelines = .ok graph
  prebuilt : ∀ pipeline ∈ pipelines, pipeline.compiler = .prebuilt
  apart : ∀ first ∈ pipelines, ∀ second ∈ pipelines, ∀ output ∈ second.job.outputs,
    first.job.source.same output = false
  firm : ∀ pipeline ∈ pipelines, ∀ path ∈ pipeline.job.paths, files.Firm path
  outputs : ∀ first ∈ graph.stages, ∀ second ∈ graph.stages, first.name ≠ second.name →
    ∀ output ∈ first.outputs, ∀ other ∈ second.outputs, ∀ location ∈ files.place? output,
      location ∉ files.met other
  sources : ∀ first ∈ pipelines, ∀ second ∈ pipelines, ∀ output ∈ second.job.outputs,
    ∀ location ∈ files.place? first.job.source, location ∉ files.place? output

variable {launch : Launcher} {pipelines : List Pipeline} {graph : Graph Workspace} {files : Files}
  {first second pipeline : Pipeline} {place other : Nat}

/-- Stages of pipelines at different places have different names. -/
theorem disjoint_names (hgraph : Pipeline.graph launch pipelines = .ok graph)
    (hfirst : pipelines[place]? = some first) (hsecond : pipelines[other]? = some second)
    (hne : place ≠ other) :
    [first.compileName, first.extractName].Disjoint [second.compileName, second.extractName] := by
  obtain ⟨hnodup, hstages⟩ := of_graph_eq_ok hgraph
  rw [Graph.names, hstages, map_name_stages, List.nodup_flatMap] at hnodup
  have hpairwise := List.pairwise_iff_getElem.mp hnodup.2
  obtain ⟨hplace, rfl⟩ := List.getElem?_eq_some_iff.mp hfirst
  obtain ⟨hother, rfl⟩ := List.getElem?_eq_some_iff.mp hsecond
  rcases Nat.lt_or_gt_of_ne hne with hlt | hgt
  · exact hpairwise place other hplace hother hlt
  · exact (hpairwise other place hother hplace hgt).symm

theorem name_mem_names {stage : Stage Workspace} (hstage : stage ∈ pipeline.pair launch place) :
    stage.name ∈ [pipeline.compileName, pipeline.extractName] := by
  rcases List.mem_pair.mp hstage with rfl | rfl
  · exact List.mem_cons_self
  · exact List.mem_cons_of_mem _ List.mem_cons_self

theorem placeOf_eq (hgraph : Pipeline.graph launch pipelines = .ok graph)
    (hpipeline : pipelines[place]? = some pipeline) {stage : Stage Workspace}
    (hstage : stage ∈ pipeline.pair launch place) : placeOf pipelines stage = place := by
  have hname := name_mem_names hstage
  obtain ⟨hplace, hget⟩ := List.getElem?_eq_some_iff.mp hpipeline
  refine (List.findIdx_eq hplace).mpr ⟨by rwa [hget, List.contains_iff_mem], fun other hlt => ?_⟩
  have hother : pipelines[other]? = some pipelines[other] := List.getElem?_eq_getElem _
  have hdisjoint := disjoint_names hgraph hother hpipeline (Nat.ne_of_lt hlt)
  rw [Bool.eq_false_iff, Ne, List.contains_iff_mem]
  exact fun hmem => hdisjoint hmem hname

/-- What others write are the places of outputs of pipelines elsewhere. -/
theorem exists_of_mem_others {stage : Stage Workspace} {location : Location}
    (h : location ∈ (area pipelines files stage).others) :
    ∃ (elsewhere : Nat) (pipeline : Pipeline), elsewhere ≠ placeOf pipelines stage ∧
      pipelines[elsewhere]? = some pipeline ∧
      ∃ output ∈ pipeline.job.outputs, files.place? output = some location := by
  obtain ⟨output, hlisted, hplace⟩ := List.mem_filterMap.mp h
  obtain ⟨pipeline, hmem, houtput⟩ := List.mem_flatMap.mp hlisted
  obtain ⟨elsewhere, hne, hpipeline⟩ := List.mem_eraseIdx_iff_getElem?.mp hmem
  exact ⟨elsewhere, pipeline, hne, hpipeline, output, houtput, hplace⟩

/-- An output of a pipeline is one of its stages. -/
theorem exists_stage_of_output (launch : Launcher) (place : Nat) {output : Path}
    (h : output ∈ pipeline.job.outputs) :
    ∃ stage ∈ pipeline.pair launch place, output ∈ stage.outputs := by
  rcases List.mem_pair.mp h with rfl | rfl
  · exact ⟨_, pipeline.compileStage_mem_pair launch place, List.mem_singleton_self _⟩
  · exact ⟨_, pipeline.extractStage_mem_pair launch place, List.mem_singleton_self _⟩

namespace Clear

/-- An output of one pipeline does not come by the place of an output of another one. -/
theorem not_mem_met (h : Clear launch pipelines graph files)
    (hfirst : pipelines[place]? = some first) (hsecond : pipelines[other]? = some second)
    (hne : place ≠ other) {output path : Path} (houtput : output ∈ first.job.outputs)
    (hpath : path ∈ second.job.outputs) {location : Location}
    (hplace : files.place? output = some location) : location ∉ files.met path := by
  obtain ⟨stage, hstage, hmine⟩ := exists_stage_of_output launch place houtput
  obtain ⟨theirs, htheirs, hlisted⟩ := exists_stage_of_output launch other hpath
  have hnames : stage.name ≠ theirs.name := fun heq =>
    disjoint_names h.graph_eq hfirst hsecond hne (name_mem_names hstage)
      (heq ▸ name_mem_names htheirs)
  exact h.outputs stage ((mem_graph_iff h.graph_eq).mpr ⟨first, place, hfirst, hstage⟩) theirs
    ((mem_graph_iff h.graph_eq).mpr ⟨second, other, hsecond, htheirs⟩) hnames output hmine path
    hlisted location hplace

theorem firm_of_mem (h : Clear launch pipelines graph files)
    (hpipeline : pipelines[place]? = some pipeline) {path : Path}
    (hpath : path ∈ pipeline.job.paths) : files.Firm path :=
  h.firm pipeline (List.mem_of_getElem? hpipeline) path hpath

section Area

variable {stage : Stage Workspace} (h : Clear launch pipelines graph files)
  (hpipeline : pipelines[place]? = some pipeline) (hstage : stage ∈ pipeline.pair launch place)
include h hpipeline

theorem sees_source (stage : Stage Workspace) :
    (area pipelines files stage).Sees files pipeline.job.source := by
  refine ⟨h.firm_of_mem hpipeline List.mem_cons_self, fun location hplace hmem => ?_⟩
  obtain ⟨_, other, -, hother, output, houtput, hwritten⟩ := exists_of_mem_others hmem
  exact h.sources pipeline (List.mem_of_getElem? hpipeline) other (List.mem_of_getElem? hother)
    output houtput location hplace hwritten

include hstage

/-- Outputs of the own pipeline can be looked at beside others. -/
theorem sees_output {path : Path} (hpath : path ∈ pipeline.job.outputs) :
    (area pipelines files stage).Sees files path := by
  have hfirm := h.firm_of_mem hpipeline (pipeline.job.outputs_subset_paths hpath)
  refine ⟨hfirm, fun location hplace hmem => ?_⟩
  obtain ⟨_, other, hne, hother, output, houtput, hwritten⟩ := exists_of_mem_others hmem
  rw [placeOf_eq h.graph_eq hpipeline hstage] at hne
  exact h.not_mem_met hother hpipeline hne houtput hpath hwritten (hfirm.mem_met hplace)

theorem owns_output {path : Path} (hpath : path ∈ stage.outputs) :
    (area pipelines files stage).Owns files path := by
  have hlisted := outputs_subset hstage hpath
  refine ⟨h.firm_of_mem hpipeline (pipeline.job.outputs_subset_paths hlisted),
    List.filterMap_subset _ (List.cons_subset.mpr ⟨hpath, List.nil_subset _⟩),
    fun location hmet hmem => ?_⟩
  obtain ⟨_, other, hne, hother, output, houtput, hwritten⟩ := exists_of_mem_others hmem
  rw [placeOf_eq h.graph_eq hpipeline hstage] at hne
  exact h.not_mem_met hother hpipeline hne houtput hlisted hwritten hmet

end Area

/-- An output of one stage leads to another place than an output of another stage. -/
theorem place?_ne (h : Clear launch pipelines graph files)
    (hpipeline : pipelines[place]? = some pipeline) {mine stage : Stage Workspace}
    (hmine : mine ∈ pipeline.pair launch place) (hstage : stage ∈ graph.stages)
    (hname : mine.name ≠ stage.name) {path output : Path} (hpath : path ∈ mine.outputs)
    (houtput : output ∈ stage.outputs) {location : Location}
    (hplace : files.place? path = some location) : files.place? output ≠ some location := by
  intro hwritten
  have hmem := (mem_graph_iff h.graph_eq).mpr ⟨pipeline, place, hpipeline, hmine⟩
  have hlisted := pipeline.job.outputs_subset_paths (outputs_subset hmine hpath)
  exact h.outputs stage hstage mine hmem hname.symm output houtput path hpath location hwritten
    ((h.firm_of_mem hpipeline hlisted).mem_met hplace)

/-- What pipelines write are outputs. -/
theorem exists_of_mem_places_written {location : Location}
    (h : location ∈ files.places (pipelines.flatMap written)) :
    ∃ pipeline ∈ pipelines, ∃ output ∈ pipeline.job.outputs,
      files.place? output = some location := by
  obtain ⟨output, hlisted, hplace⟩ := List.mem_filterMap.mp h
  obtain ⟨pipeline, hmem, houtput⟩ := List.mem_flatMap.mp hlisted
  exact ⟨pipeline, hmem, output, written_subset_outputs houtput, hplace⟩

/-- A run leaves the sources as they are, also those that are missing. -/
theorem fileAt?_source (h : Clear launch pipelines graph files) (htree : files.IsTree)
    (hpipeline : pipelines[place]? = some pipeline) {after : Files}
    (hkept : files.Keeps (files.places (pipelines.flatMap written)) after) :
    after.fileAt? pipeline.job.source = files.fileAt? pipeline.job.source := by
  refine hkept.fileAt?_eq_of_firm htree (h.firm_of_mem hpipeline List.mem_cons_self)
    fun location hplace hmem => ?_
  obtain ⟨other, hother, output, houtput, hwritten⟩ := exists_of_mem_places_written hmem
  exact h.sources pipeline (List.mem_of_getElem? hpipeline) other hother output houtput location
    hplace hwritten

/-- What a compilation is asked to take is at another place than what it is to make. -/
theorem request_apart (h : Clear launch pipelines graph files)
    (hpipeline : pipelines[place]? = some pipeline) {written : List Location} {after : Files}
    (hkept : files.Keeps written after) :
    pipeline.request.source.same pipeline.request.output = false ∧
      ∀ location, after.place? pipeline.request.source = some location →
        after.place? pipeline.request.output ≠ some location := by
  have hmem := List.mem_of_getElem? hpipeline
  refine ⟨h.apart pipeline hmem pipeline hmem _ List.mem_cons_self, fun location hsource => ?_⟩
  rw [hkept.place?_eq] at hsource ⊢
  exact h.sources pipeline hmem pipeline hmem _ List.mem_cons_self location hsource

/-- Other stages leave an object as it is. -/
theorem fileAt?_object (h : Clear launch pipelines graph files)
    (hpipeline : pipelines[place]? = some pipeline) {changed : List Location}
    {workspace : Workspace} (hkept : files.Keeps changed workspace.files)
    {stage : Stage Workspace} (hstage : stage ∈ graph.stages)
    (hname : pipeline.compileName ≠ stage.name) {object : Content × Permissions}
    (hobject : workspace.files.fileAt? pipeline.job.object = some object) :
    (stage.run workspace).2.files.fileAt? pipeline.job.object = some object := by
  have hrun := keeps_of_prebuilt h.graph_eq h.prebuilt hstage hkept.isTree
  refine hrun.fileAt?_of_some (fun location hlocate hmem => ?_) hobject
  obtain ⟨output, houtput, hwritten⟩ := List.mem_filterMap.mp hmem
  have hplace := Files.place?_of_locate hlocate
  rw [hkept.place?_eq] at hplace hwritten
  exact h.place?_ne hpipeline (pipeline.compileStage_mem_pair launch place) hstage hname
    (List.mem_singleton_self _) houtput hplace hwritten

end Clear

/-! ## One after another -/

/-- What an extraction has made of an object. -/
structure MadeOf (pipeline : Pipeline) (object : Content × Permissions) (extracted : Extracted) :
    Prop where
  generate_eq : pipeline.extraction.generate pipeline.job.object object.1.bytes =
    .ok (extracted.catalog, extracted.generated)
  extracted_eq : extracted = { extracted with
    target := pipeline.job.name
    generatedPath := pipeline.job.generated
    binaryPath := pipeline.job.object
    binaryHash := Digest.sha256Hex object.1.bytes }

/-- How far a target has come: once it is compiled, its object is what its source was in the
beginning, and what is extracted then is made of that. -/
structure Taking (pipeline : Pipeline) (place : Nat) (files : Files) (report : Report)
    (workspace : Workspace) : Prop where
  compiled : pipeline.compileName ∈ report.completed →
    (workspace.state place).compile.result? = some pipeline.job.object ∧
      ∃ object, files.fileAt? pipeline.job.source = some object ∧
        workspace.files.fileAt? pipeline.job.object = some object
  extracted : pipeline.extractName ∈ report.completed →
    ∃ object extracted, files.fileAt? pipeline.job.source = some object ∧
      (workspace.state place).extract.result? = some extracted ∧ pipeline.MadeOf object extracted

/-- A compilation that takes an object that exists ends well where the object is taken. -/
theorem fst_compileStage_eq_done_iff {workspace : Workspace}
    (hprebuilt : pipeline.compiler = .prebuilt) :
    ((pipeline.compileStage launch place).run workspace).1 = .done ↔
      (Compiler.takePrebuilt pipeline.request workspace.files).1 = .ok () := by
  simp only [compileStage, runCompile, compile, hprebuilt, Compiler.compile]
  rcases Compiler.takePrebuilt pipeline.request workspace.files with ⟨_ | _, after⟩
  · simp [Outcome.ofRun]
  · simp [Outcome.ofRun]

/-- An extraction that ends well has made something. -/
theorem exists_of_extractStage_eq_done {workspace : Workspace}
    (h : ((pipeline.extractStage place).run workspace).1 = .done) :
    ∃ extracted after, pipeline.extraction.run (pipeline.objectSource (workspace.state place))
      workspace.files = (.ok extracted, after) := by
  simp only [extractStage, runExtract] at h
  rcases hrun : pipeline.extraction.run (pipeline.objectSource (workspace.state place))
    workspace.files with ⟨_ | extracted, after⟩
  · rw [hrun] at h
    exact absurd h (by simp [Outcome.ofRun])
  · exact ⟨extracted, after, rfl⟩

namespace Taking

variable {rest : Multiset (Stage Workspace)} {report : Report} {workspace : Workspace}

/-- What a stage completes is its own name, where no other name is completed before. -/
theorem eq_of_completed {name stage : String} {outcome : Outcome} (hnew : name ∉ report.names)
    (h : name ∈ (report.record stage outcome).completed) : name = stage ∧ outcome = .done :=
  (Report.mem_completed_record_iff.mp h).resolve_left fun hmem =>
    hnew (List.mem_append_left _ hmem)

/-- A stage of another pipeline leaves a target as far as it was. -/
theorem run_other (hclear : Clear launch pipelines graph files)
    (hpipeline : pipelines[place]? = some pipeline) {stage : Stage Workspace}
    (hmidway : Midway pipelines graph files ⟨stage ::ₘ rest, report, workspace⟩)
    (hcompile : pipeline.compileName ≠ stage.name) (hextract : pipeline.extractName ≠ stage.name)
    (hstate : (stage.run workspace).2.state place = workspace.state place)
    (h : Taking pipeline place files report workspace) :
    Taking pipeline place files (report.record stage.name (stage.run workspace).1)
      (stage.run workspace).2 := by
  have hstage := hmidway.accounted.left_mem stage (Multiset.mem_cons_self _ _)
  have hearlier : ∀ {name}, name ≠ stage.name →
      name ∈ (report.record stage.name (stage.run workspace).1).completed →
        name ∈ report.completed := fun hne hmem =>
    (Report.mem_completed_record_iff.mp hmem).resolve_right fun heq => hne heq.1
  refine ⟨fun hmem => ?_, fun hmem => ?_⟩
  · obtain ⟨hresult, object, hsource, hobject⟩ := h.compiled (hearlier hcompile hmem)
    refine ⟨hstate ▸ hresult, object, hsource, ?_⟩
    exact hclear.fileAt?_object hpipeline hmidway.keeps hstage hcompile hobject
  · rw [hstate]
    exact h.extracted (hearlier hextract hmem)

/-- Compiling a target makes its object from its source. -/
theorem run_compile (hclear : Clear launch pipelines graph files) (htree : files.IsTree)
    (hpipeline : pipelines[place]? = some pipeline)
    (hmidway : Midway pipelines graph files
      ⟨pipeline.compileStage launch place ::ₘ rest, report, workspace⟩)
    (h : Taking pipeline place files report workspace) :
    Taking pipeline place files
      (report.record pipeline.compileName ((pipeline.compileStage launch place).run workspace).1)
      ((pipeline.compileStage launch place).run workspace).2 := by
  have hprebuilt := hclear.prebuilt pipeline (List.mem_of_getElem? hpipeline)
  have hplace := hmidway.place_lt hpipeline
  refine ⟨fun hmem => ?_, fun hmem => ?_⟩
  · have hnew := hmidway.accounted.not_mem_names (of_graph_eq_ok hclear.graph_eq).1
      (Multiset.mem_cons_self _ _)
    have hok := (fst_compileStage_eq_done_iff hprebuilt).mp (eq_of_completed hnew hmem).2
    have hkept := hmidway.keeps
    obtain ⟨hsame, hpart⟩ := hclear.request_apart hpipeline hkept
    obtain ⟨object, hsource, hobject⟩ :=
      Compiler.of_takePrebuilt_eq_ok hkept.isTree hsame hpart hok
    have hbegan := hclear.fileAt?_source htree hpipeline hkept
    refine ⟨(result?_compileStage launch hprebuilt hplace).mpr ⟨hok, rfl⟩, object,
      hbegan.symm.trans hsource, ?_⟩
    rw [files_compileStage hprebuilt]
    exact hobject
  · have hearlier : pipeline.extractName ∈ report.completed :=
      (Report.mem_completed_record_iff.mp hmem).resolve_right fun heq =>
        compileName_ne_extractName pipeline pipeline heq.1.symm
    rw [extract_compileStage hplace]
    exact h.extracted hearlier

/-- Extracting a target makes its generated source from its object. -/
theorem run_extract (hclear : Clear launch pipelines graph files)
    (hpipeline : pipelines[place]? = some pipeline)
    (hmidway : Midway pipelines graph files
      ⟨pipeline.extractStage place ::ₘ rest, report, workspace⟩)
    (hready : pipeline.compileName ∈ report.completed)
    (h : Taking pipeline place files report workspace) :
    Taking pipeline place files
      (report.record pipeline.extractName ((pipeline.extractStage place).run workspace).1)
      ((pipeline.extractStage place).run workspace).2 := by
  have hplace := hmidway.place_lt hpipeline
  obtain ⟨hresult, object, hsource, hobject⟩ := h.compiled hready
  refine ⟨fun _ => ⟨?_, object, hsource, ?_⟩, fun hmem => ?_⟩
  · rw [compile_extractStage hplace]
    exact hresult
  · have hstage := hmidway.accounted.left_mem _ (Multiset.mem_cons_self _ _)
    exact hclear.fileAt?_object hpipeline hmidway.keeps hstage
      (compileName_ne_extractName pipeline pipeline) hobject
  · have hnew := hmidway.accounted.not_mem_names (of_graph_eq_ok hclear.graph_eq).1
      (Multiset.mem_cons_self _ _)
    obtain ⟨extracted, after, hrun⟩ :=
      exists_of_extractStage_eq_done (eq_of_completed hnew hmem).2
    obtain ⟨hgenerate, hextracted⟩ := of_run_extraction_eq_ok hresult hobject hrun
    refine ⟨object, extracted, hsource, ?_, hgenerate, hextracted⟩
    rw [extract_extractStage hplace, hrun]
    rfl

/-- **A step of a run** goes on from the source of a target. -/
theorem step (hclear : Clear launch pipelines graph files) (htree : files.IsTree)
    (hpipeline : pipelines[place]? = some pipeline) {before after : Graph.Standing Workspace}
    (hstep : Graph.Step before after) (hmidway : Midway pipelines graph files before)
    (h : Taking pipeline place files before.report before.state) :
    Taking pipeline place files after.report after.state := by
  cases hstep with
  | skip => exact ⟨h.compiled, h.extracted⟩
  | run stage hready =>
    have hstage := hmidway.accounted.left_mem stage (Multiset.mem_cons_self _ _)
    rcases stage_cases hclear.graph_eq hpipeline hstage with
      rfl | rfl | ⟨hcompile, hextract, hstate⟩
    · exact h.run_compile hclear htree hpipeline hmidway
    · exact h.run_extract hclear hpipeline hmidway (hready _ (List.mem_singleton_self _))
    · exact h.run_other hclear hpipeline hmidway hcompile hextract (hstate _)

end Taking

/-- Where a run of clear pipelines stands: with each target as far as its source has come. -/
structure TakingAll (pipelines : List Pipeline) (graph : Graph Workspace) (files : Files)
    (standing : Graph.Standing Workspace) : Prop where
  midway : Midway pipelines graph files standing
  taking : ∀ (place : Nat) (pipeline : Pipeline), pipelines[place]? = some pipeline →
    Taking pipeline place files standing.report standing.state

namespace TakingAll

theorem start (graph : Graph Workspace) {states : List PipelineState} (htree : files.IsTree)
    (hlength : states.length = pipelines.length) :
    TakingAll pipelines graph files ⟨graph.stages, .empty, ⟨files, states⟩⟩ :=
  ⟨midway_start graph htree hlength, fun _ _ _ =>
    ⟨fun hmem => absurd hmem List.not_mem_nil, fun hmem => absurd hmem List.not_mem_nil⟩⟩

theorem step (hclear : Clear launch pipelines graph files) (htree : files.IsTree)
    {before after : Graph.Standing Workspace} (hstep : Graph.Step before after)
    (h : TakingAll pipelines graph files before) : TakingAll pipelines graph files after :=
  ⟨h.midway.step hclear.graph_eq hclear.prebuilt hstep, fun place pipeline hpipeline =>
    (h.taking place pipeline hpipeline).step hclear htree hpipeline hstep h.midway⟩

end TakingAll

/-! ## Taking turns -/

section Waves

variable {stages : List (Stage Workspace)} {report : Report} {start : Workspace}

theorem mem_graph_of_mem_wave (hall : TakingAll pipelines graph files ⟨stages, report, start⟩)
    {stage : Stage Workspace}
    (hstage : stage ∈ (Graph.pass report.completed report.dead stages).wave) :
    stage ∈ graph.stages :=
  hall.midway.accounted.left_mem stage
    (Multiset.mem_coe.mpr ((Graph.wave_sublist _ _ _).subset hstage))

/-- A target that is about to be extracted is compiled. -/
theorem compiled_of_mem_wave
    (hstage : pipeline.extractStage place ∈ (Graph.pass report.completed report.dead stages).wave) :
    pipeline.compileName ∈ report.completed := by
  have hready := Graph.isReady_of_mem_wave hstage
  simpa [Graph.isReady, extractStage] using hready

variable (hclear : Clear launch pipelines graph files) (htree : files.IsTree)
  (hall : TakingAll pipelines graph files ⟨stages, report, start⟩)
include hclear hall

omit hclear in
/-- A target is not compiled and extracted in one wave. -/
theorem extractStage_not_mem_wave (hgraph : Pipeline.graph launch pipelines = .ok graph)
    (hcompile : pipeline.compileStage launch place ∈
      (Graph.pass report.completed report.dead stages).wave) :
    pipeline.extractStage place ∉ (Graph.pass report.completed report.dead stages).wave := by
  intro hextract
  -- the stage that extracts waits until the one that compiles is reported, which is not left then
  have hleft := Multiset.mem_coe.mpr ((Graph.wave_sublist _ _ _).subset hcompile)
  exact hall.midway.accounted.not_mem_names (of_graph_eq_ok hgraph).1 hleft
    (List.mem_append_left _ (compiled_of_mem_wave hextract))

/-- Different stages of a wave belong to pipelines at different places. -/
theorem Clear.placeOf_ne {first second : Stage Workspace}
    (hfirst : first ∈ (Graph.pass report.completed report.dead stages).wave)
    (hsecond : second ∈ (Graph.pass report.completed report.dead stages).wave)
    (hname : first.name ≠ second.name) : placeOf pipelines first ≠ placeOf pipelines second := by
  obtain ⟨mine, place, hmine, hpair⟩ :=
    (mem_graph_iff hclear.graph_eq).mp (mem_graph_of_mem_wave hall hfirst)
  obtain ⟨theirs, other, htheirs, hother⟩ :=
    (mem_graph_iff hclear.graph_eq).mp (mem_graph_of_mem_wave hall hsecond)
  rw [placeOf_eq hclear.graph_eq hmine hpair, placeOf_eq hclear.graph_eq htheirs hother]
  rintro rfl
  obtain rfl := Option.some.inj (hmine.symm.trans htheirs)
  rcases List.mem_pair.mp hpair with rfl | rfl <;> rcases List.mem_pair.mp hother with rfl | rfl
  · exact hname rfl
  · exact extractStage_not_mem_wave hall hclear.graph_eq hfirst hsecond
  · exact extractStage_not_mem_wave hall hclear.graph_eq hsecond hfirst
  · exact hname rfl

omit hall in
/-- What a stage owns belongs to others for a stage of a pipeline elsewhere. -/
theorem Clear.own_subset_others {first second : Stage Workspace} (hfirst : first ∈ graph.stages)
    (hne : placeOf pipelines first ≠ placeOf pipelines second) :
    (area pipelines files first).own ⊆ (area pipelines files second).others := by
  obtain ⟨mine, place, hmine, hpair⟩ := (mem_graph_iff hclear.graph_eq).mp hfirst
  rw [placeOf_eq hclear.graph_eq hmine hpair] at hne
  refine List.filterMap_subset _ fun output houtput => ?_
  exact List.mem_flatMap.mpr ⟨mine, List.mem_eraseIdx_iff_getElem?.mpr ⟨place, hne, hmine⟩,
    outputs_subset hpair houtput⟩

/-- **The stages of a wave are in areas that are apart.** -/
theorem Clear.pairwise_apart :
    (Graph.pass report.completed report.dead stages).wave.Pairwise fun first second =>
      (area pipelines files first).Apart (area pipelines files second) := by
  have hnodup := hall.midway.accounted.nodup (of_graph_eq_ok hclear.graph_eq).1
  have hnames : (stages.map Stage.name).Nodup :=
    Multiset.coe_nodup.mp (Multiset.nodup_add.mp hnodup).2.1
  have hwave := List.pairwise_map.mp
    (((Graph.wave_sublist report.completed report.dead stages).map Stage.name).nodup hnames)
  refine hwave.imp_of_mem fun {first second} hfirst hsecond hname => ?_
  have hne := hclear.placeOf_ne hall hfirst hsecond hname
  exact ⟨hne, hclear.own_subset_others (mem_graph_of_mem_wave hall hfirst) hne,
    hclear.own_subset_others (mem_graph_of_mem_wave hall hsecond) hne.symm⟩

include htree

/-- **The stages of a wave mind their areas.** -/
theorem Clear.minds {stage : Stage Workspace}
    (hstage : stage ∈ (Graph.pass report.completed report.dead stages).wave)
    {task : Task Workspace Outcome} (hplan : Plan launch pipelines stage task) :
    (area pipelines files stage).Minds task start := by
  have hkept := hall.midway.keeps
  cases hplan with
  | @compile pipeline place hpipeline =>
    have hpair := pipeline.compileStage_mem_pair launch place
    have hplace : (area pipelines files (pipeline.compileStage launch place)).place = place :=
      placeOf_eq hclear.graph_eq hpipeline hpair
    have hsees := hclear.sees_source hpipeline (pipeline.compileStage launch place)
    have howns := hclear.owns_output hpipeline hpair (List.mem_singleton_self pipeline.job.object)
    have hminds := Area.minds_compileTask hkept.isTree (hsees.of_keeps hkept htree)
      (howns.of_keeps hkept htree) (hclear.request_apart hpipeline hkept).2
    rwa [hplace] at hminds
  | @extract pipeline place hpipeline =>
    have hpair := pipeline.extractStage_mem_pair launch place
    have hplace : (area pipelines files (pipeline.extractStage place)).place = place :=
      placeOf_eq hclear.graph_eq hpipeline hpair
    obtain ⟨hresult, object, -, hobject⟩ :=
      (hall.taking place pipeline hpipeline).compiled (compiled_of_mem_wave hstage)
    have howns :=
      hclear.owns_output hpipeline hpair (List.mem_singleton_self pipeline.job.generated)
    have hminds := Area.minds_extractTask hkept.isTree (hplace.symm ▸ hresult) hobject
      (fun path hpath => (hclear.sees_output hpipeline hpair hpath).of_keeps hkept htree)
      (howns.of_keeps hkept htree)
    rwa [hplace] at hminds

end Waves

/-- A stage of a graph of prebuilt targets has a task, which does what the stage does. -/
theorem Clear.faithful (hclear : Clear launch pipelines graph files) :
    Graph.Faithful (Plan launch pipelines) := by
  rintro _ _ (hpipeline | hpipeline) workspace
  · exact run_compileTask launch (hclear.prebuilt _ (List.mem_of_getElem? hpipeline)) _ workspace
  · exact run_extractTask _ _ workspace

/-- There is a task for each stage. -/
theorem planned_of_subset (hgraph : Pipeline.graph launch pipelines = .ok graph)
    {stages : List (Stage Workspace)} (h : ∀ stage ∈ stages, stage ∈ graph.stages) :
    Graph.Planned (Plan launch pipelines) stages := by
  intro stage hstage
  obtain ⟨pipeline, place, hpipeline, hpair⟩ := (mem_graph_iff hgraph).mp (h stage hstage)
  rcases List.mem_pair.mp hpair with rfl | rfl
  · exact ⟨_, .compile hpipeline⟩
  · exact ⟨_, .extract hpipeline⟩

/-- **The order of steps does not matter** for clear pipelines. -/
theorem Clear.orderless (hclear : Clear launch pipelines graph files) (htree : files.IsTree) :
    Graph.Orderless (Plan launch pipelines) Workspace.Same (TakingAll pipelines graph files)
      (Area.Joint (area pipelines files)) where
  faithful := hclear.faithful
  refl := .refl
  step _ _ hstep h := h.step hclear htree hstep
  planned _ _ _ h := planned_of_subset hclear.graph_eq fun stage hstage =>
    h.midway.accounted.left_mem stage (Multiset.mem_coe.mpr hstage)
  independent _ _ _ h := Area.independent h.midway.keeps.isTree
    (fun _ hstage _ hplan => hclear.minds htree h hstage hplan) (hclear.pairwise_apart h)

/-! ## Any order -/

/-- **While a target is extracted, its object is what its source was** before the build. -/
theorem Clear.object_of_during (hclear : Clear launch pipelines graph files) (htree : files.IsTree)
    {stages : List (Stage Workspace)} {report : Report} {start : Workspace}
    {strands : List (Graph.Strand Workspace)} {moment : Graph.Moment Workspace}
    {total : Report × Workspace}
    (hduring : Graph.During (TakingAll pipelines graph files) (Area.Joint (area pipelines files))
      total stages report start strands moment)
    {entry : Graph.Entry Workspace} (hentry : entry ∈ moment.running)
    (hpipeline : pipelines[place]? = some pipeline)
    (hextract : entry.1 = pipeline.extractStage place) :
    pipeline.compileName ∈ moment.report.completed ∧
      ∃ object, files.fileAt? pipeline.job.source = some object ∧
        moment.state.files.fileAt? pipeline.job.object = some object := by
  obtain ⟨hwave, before, strand, after, rfl, hstrand⟩ := hduring.strand hentry
  rw [hextract] at hwave hstrand
  have hall := hduring.standing
  have hkept := hall.midway.keeps
  have hcompleted := compiled_of_mem_wave hwave
  obtain ⟨-, object, hsource, hobject⟩ := (hall.taking place pipeline hpipeline).compiled hcompleted
  have hpair := pipeline.extractStage_mem_pair launch place
  have hsees : (area pipelines files strand.stage).Sees start.files pipeline.job.object := by
    rw [hstrand]
    exact (hclear.sees_output hpipeline hpair List.mem_cons_self).of_keeps hkept htree
  -- the extraction writes its generated source only, which is at another place
  have hown : ∀ location, start.files.place? pipeline.job.object = some location →
      location ∉ (area pipelines files strand.stage).own := by
    intro location hplace hmem
    rw [hkept.place?_eq] at hplace
    rw [hstrand] at hmem
    obtain ⟨output, houtput, hwritten⟩ := List.mem_filterMap.mp hmem
    have hstage := (mem_graph_iff hclear.graph_eq).mpr ⟨pipeline, place, hpipeline, hpair⟩
    exact hclear.place?_ne hpipeline (pipeline.compileStage_mem_pair launch place) hstage
      (compileName_ne_extractName pipeline pipeline) (List.mem_singleton_self _) houtput hplace
      hwritten
  refine ⟨?_, object, hsource, ?_⟩
  · rw [hduring.report_eq]
    exact hcompleted
  · rw [hduring.joint.fileAt?_eq hkept.isTree hsees hown, hobject]

/-- **Builds in any order**: for clear pipelines, running the stages of each wave one after another
is one of the orders in which they can take turns, every order can be carried on to its end, and in
the end each has reported the same and has left the same files and states. While a target is
extracted, its object is what its source was before the build, and so it is what was extracted. -/
theorem run_in_any_order (hclear : Clear launch pipelines graph files) (htree : files.IsTree)
    {states : List PipelineState} (hlength : states.length = pipelines.length) :
    ∃ report final, graph.run ⟨files, states⟩ = (.ok report, final) ∧
      (∀ (place : Nat) (pipeline : Pipeline), pipelines[place]? = some pipeline →
        Taking pipeline place files report final) ∧
      (∃ moment calls, graph.Reaches (Plan launch pipelines) ⟨files, states⟩ moment ∧
        Graph.Ended moment calls ∧ Graph.recordAll moment.report calls = report ∧
        moment.state = final) ∧
      ∀ moment, graph.Reaches (Plan launch pipelines) ⟨files, states⟩ moment →
        (∃ last calls, Relation.ReflTransGen (Graph.Move (Plan launch pipelines)) moment last ∧
          Graph.Ended last calls) ∧
        (∀ calls, Graph.Ended moment calls →
          Graph.recordAll moment.report calls = report ∧ final.Same moment.state) ∧
        ∀ entry ∈ moment.running, ∀ (place : Nat) (pipeline : Pipeline),
          pipelines[place]? = some pipeline → entry.1 = pipeline.extractStage place →
            pipeline.compileName ∈ moment.report.completed ∧
              ∃ object, files.fileAt? pipeline.job.source = some object ∧
                moment.state.files.fileAt? pipeline.job.object = some object := by
  have hnodup := (of_graph_eq_ok hclear.graph_eq).1
  have hvalid := validate_of_graph hclear.graph_eq
  have hstart : TakingAll pipelines graph files ⟨graph.stages, .empty, ⟨files, states⟩⟩ :=
    .start graph htree hlength
  have horderless := hclear.orderless htree
  -- the run of one stage after another is what every order is compared with
  obtain ⟨moment, calls, hreaches, hended, hrun⟩ := Graph.reaches_sequential hclear.faithful
    (planned_of_subset hclear.graph_eq fun _ hstage => hstage) hnodup hvalid ⟨files, states⟩
  have hall := (Graph.steps_of_run hnodup hrun).preserve horderless.step hstart
  have htotal : Graph.runStages graph.stages .empty ⟨files, states⟩ =
      (Graph.recordAll moment.report calls, moment.state) := by
    rw [Graph.run, hvalid] at hrun
    obtain ⟨hreport, hstate⟩ := Prod.mk.inj hrun
    exact Prod.ext (Except.ok.inj hreport) hstate
  refine ⟨_, _, hrun, hall.taking, ⟨moment, calls, hreaches, hended, rfl, rfl⟩,
    fun reached hreached => ?_⟩
  obtain ⟨_, _, _, _, hduring⟩ := horderless.of_reaches hstart hreached
  rw [htotal] at hduring
  exact ⟨horderless.exists_ended hnodup hvalid hstart hreached,
    fun done hdone => hduring.ended horderless hdone,
    fun entry hentry place pipeline hpipeline hextract =>
      hclear.object_of_during htree hduring hentry hpipeline hextract⟩

/-! ## Two targets -/

/-- A target whose object exists already and is to be at the given path. -/
def taken (name object : String) : Pipeline where
  job := ⟨name, ⟨"/p/" ++ name ++ ".o"⟩, .amdgpu, none, ⟨object⟩,
    ⟨"/p/generated/" ++ name ++ "_kernels.rs"⟩⟩
  compiler := .prebuilt
  registry := BuildSetup.sampleSetup.registry
  options := BuildSetup.sampleProject.config.options

/-- Two such targets. -/
def takenPair (first second : String) : List Pipeline := [taken "a" first, taken "b" second]

/-- The objects of two targets, which differ in one byte. -/
def takenFiles : Files :=
  ((Files.empty ["p"]).put ["p", "a.o"] (.file (.plain BuildSetup.sampleObject) .plain)).put
    ["p", "b.o"] (.file (.plain (BuildSetup.sampleObject ++ [1])) .plain)

/-- What two such targets come to, one stage after another. -/
def runTaken (first second : String) : Option (Report × List (Option String)) :=
  match Pipeline.graph BuildSetup.sampleSetup.launch (takenPair first second) with
  | .error _ => none
  | .ok graph =>
    match graph.run ⟨takenFiles, [{}, {}]⟩ with
    | (.error _, _) => none
    | (.ok report, final) =>
      some (report, final.states.map fun state => state.extract.result?.map Extracted.binaryHash)

/-- Two targets whose objects are made in the same new directory. -/
theorem run_in_any_order_taken :
    takenFiles.IsTree ∧ ∃ graph report final,
      Clear BuildSetup.sampleSetup.launch (takenPair "/p/build/a.o" "/p/build/b.o") graph
        takenFiles ∧
      graph.run ⟨takenFiles, [{}, {}]⟩ = (.ok report, final) ∧
      report.completed = ["device-compile:a", "device-compile:b", "config-extract:a",
        "config-extract:b"] ∧
      ∀ moment calls, graph.Reaches (Plan BuildSetup.sampleSetup.launch
          (takenPair "/p/build/a.o" "/p/build/b.o")) ⟨takenFiles, [{}, {}]⟩ moment →
        Graph.Ended moment calls →
          Graph.recordAll moment.report calls = report ∧ final.Same moment.state := by
  have htree : takenFiles.IsTree := Files.isTree_of_entries (by decide +kernel)
  have hcompleted : (runTaken "/p/build/a.o" "/p/build/b.o").map (·.1.completed) =
      some ["device-compile:a", "device-compile:b", "config-extract:a", "config-extract:b"] := by
    decide +kernel
  unfold runTaken at hcompleted
  cases hgraph : Pipeline.graph BuildSetup.sampleSetup.launch
      (takenPair "/p/build/a.o" "/p/build/b.o") with
  | error e =>
    rw [hgraph] at hcompleted
    exact absurd hcompleted (by simp)
  | ok graph =>
    rw [hgraph] at hcompleted
    have hclear : Clear BuildSetup.sampleSetup.launch (takenPair "/p/build/a.o" "/p/build/b.o")
        graph takenFiles := by
      refine ⟨hgraph, by decide +kernel, by decide +kernel, by decide +kernel, ?_,
        by decide +kernel⟩
      rw [(of_graph_eq_ok hgraph).2]
      decide +kernel
    obtain ⟨report, final, hrun, -, -, horders⟩ :=
      @run_in_any_order _ _ _ _ hclear htree [{}, {}] rfl
    simp only [hrun, Option.map_some, Option.some.injEq] at hcompleted
    exact ⟨htree, graph, report, final, hclear, hrun, hcompleted,
      fun moment calls hreaches hended => (horders moment hreaches).2.1 calls hended⟩

/-- **Paths that are spelled apart do not keep targets apart**: the objects of two targets are one
file, so the object of the second one is read for both. -/
theorem aliased_object_is_read :
    takenFiles.IsTree ∧
    (∀ pipeline ∈ takenPair "/p/o/x.o" "/p/o/../o/x.o", pipeline.compiler = .prebuilt) ∧
    (∀ first ∈ takenPair "/p/o/x.o" "/p/o/../o/x.o", ∀ output ∈ first.job.outputs,
      ∀ second ∈ takenPair "/p/o/x.o" "/p/o/../o/x.o", ∀ path ∈ second.job.paths,
        path = output ∧ first.job.name = second.job.name ∨
          ¬ output.components <+: path.components ∧ ¬ path.components <+: output.components) ∧
    runTaken "/p/o/x.o" "/p/o/../o/x.o" =
      some (⟨["device-compile:a", "device-compile:b", "config-extract:a", "config-extract:b"], [],
        []⟩, [some (Digest.sha256Hex (BuildSetup.sampleObject ++ [1])),
          some (Digest.sha256Hex (BuildSetup.sampleObject ++ [1]))]) ∧
    Digest.sha256Hex BuildSetup.sampleObject ≠
      Digest.sha256Hex (BuildSetup.sampleObject ++ [1]) := by
  refine ⟨Files.isTree_of_entries ?_, ?_, ?_, ?_, ?_⟩ <;> decide +kernel

end Pipeline

end KernelCatalog
