import KernelCatalog.Proofs.Build.Built

/-!
# Targets that are built again

A run leaves the targets that have succeeded built. A run that starts from a target that is built
finds everything in place: the target succeeds again with the same result and nothing to write, if
its object may be written over.

* `Pipeline.Making.step`: a run leaves the targets that have succeeded built.
* `Pipeline.Remaking.step`: a run keeps a target that is built.
-/

namespace KernelCatalog

namespace Pipeline

variable {launch : Launcher} {pipelines : List Pipeline} {graph : Graph Workspace} {files : Files}
  {pipeline : Pipeline} {place : Nat}

/-! ## Runs -/

theorem written_subset_outputs : pipeline.written ⊆ pipeline.job.outputs := by
  unfold written
  split
  · exact List.subset_cons_self _ _
  · exact List.Subset.refl _

/-- Where a run of pipelines stands: no stage is dealt with twice, only outputs are written, and
there is a place for each pipeline. -/
structure Midway (pipelines : List Pipeline) (graph : Graph Workspace) (files : Files)
    (standing : Graph.Standing Workspace) : Prop where
  accounted : graph.Accounted standing
  keeps : files.Keeps (files.places (pipelines.flatMap written)) standing.state.files
  length_eq : standing.state.states.length = pipelines.length

theorem midway_start (graph : Graph Workspace) {states : List PipelineState}
    (htree : files.IsTree) (hlength : states.length = pipelines.length) :
    Midway pipelines graph files ⟨graph.stages, .empty, ⟨files, states⟩⟩ :=
  ⟨graph.accounted_start _, .refl htree, hlength⟩

theorem Midway.place_lt {standing : Graph.Standing Workspace}
    (h : Midway pipelines graph files standing) (hpipeline : pipelines[place]? = some pipeline) :
    place < standing.state.states.length := by
  rw [h.length_eq]
  exact (List.getElem?_eq_some_iff.mp hpipeline).1

/-- A step of a run writes outputs only. -/
theorem Midway.step (hgraph : Pipeline.graph launch pipelines = .ok graph)
    (hprebuilt : ∀ pipeline ∈ pipelines, pipeline.compiler = .prebuilt)
    {before after : Graph.Standing Workspace} (hstep : Graph.Step before after)
    (h : Midway pipelines graph files before) : Midway pipelines graph files after := by
  have hunlinked : ∀ pipeline ∈ pipelines, pipeline.Unlinked files :=
    fun pipeline hmem hne => absurd (hprebuilt pipeline hmem) hne
  have hconfined : ∀ pipeline ∈ pipelines, pipeline.Confined launch :=
    fun pipeline hmem command hcommand =>
      absurd ((hprebuilt pipeline hmem).symm.trans hcommand) (by simp)
  refine ⟨h.accounted.step hstep,
    keeps_step hgraph hunlinked hconfined hstep h.accounted h.keeps, ?_⟩
  cases hstep with
  | skip => exact h.length_eq
  | run stage hready =>
    have hstage := h.accounted.left_mem stage (Multiset.mem_cons_self _ _)
    obtain ⟨other, elsewhere, -, hpair⟩ := (mem_graph_iff hgraph).mp hstage
    rw [length_states_run hpair]
    exact h.length_eq

/-- Where a run of pipelines has come to. -/
theorem Midway.of_steps (htidy : Tidy launch pipelines graph files) (htree : files.IsTree)
    {states : List PipelineState} (hlength : states.length = pipelines.length)
    {standing : Graph.Standing Workspace}
    (hsteps : Graph.Steps ⟨graph.stages, .empty, ⟨files, states⟩⟩ standing) :
    Midway pipelines graph files standing :=
  hsteps.preserve (fun _ _ hstep hmidway => hmidway.step htidy.graph_eq htidy.prebuilt hstep)
    (midway_start graph htree hlength)

section Compile

variable {written : List Location} {workspace : Workspace}

/-- The source of a compilation is at another place than its object. -/
theorem Tidy.request_apart (htidy : Tidy launch pipelines graph files)
    (hpipeline : pipelines[place]? = some pipeline) (hkept : files.Keeps written workspace.files) :
    pipeline.request.source.same pipeline.request.output = false ∧
      ∀ location, workspace.files.place? pipeline.request.source = some location →
        workspace.files.place? pipeline.request.output ≠ some location := by
  have hmem := List.mem_of_getElem? hpipeline
  refine ⟨htidy.apart pipeline hmem pipeline hmem pipeline.job.object List.mem_cons_self, ?_⟩
  simp only [hkept.place?_eq]
  exact htidy.place?_source_ne hmem hmem List.mem_cons_self

/-- The place of a source is not written. -/
theorem Tidy.source_not_mem (htidy : Tidy launch pipelines graph files)
    (hpipeline : pipeline ∈ pipelines) (location : Location)
    (hsource : files.place? pipeline.job.source = some location) :
    location ∉ files.places (pipelines.flatMap Pipeline.written) := by
  intro hmem
  obtain ⟨output, houtput, hplace⟩ := List.mem_filterMap.mp hmem
  obtain ⟨other, hother, houtput⟩ := List.mem_flatMap.mp houtput
  exact htidy.place?_source_ne hpipeline hother (written_subset_outputs houtput) location hsource
    hplace

/-- **Compiling a target again** leaves it built, and does not fail if the object may be written
over. -/
theorem Built.run_compile (htidy : Tidy launch pipelines graph files)
    (hpipeline : pipelines[place]? = some pipeline) (hkept : files.Keeps written workspace.files)
    {extracted : Extracted} {object generated : Content × Permissions}
    (h : pipeline.Built workspace.files extracted object generated) :
    (workspace.files.allows object.2 = true →
        (Compiler.takePrebuilt pipeline.request workspace.files).1 = .ok ()) ∧
      pipeline.Built ((pipeline.compileStage launch place).run workspace).2.files extracted object
        generated := by
  obtain ⟨hsame, hpart⟩ := htidy.request_apart hpipeline hkept
  have hothers := htidy.fileAt?_run_compile hpipeline hkept
  have hagain : (workspace.files.allows object.2 = true →
      (Compiler.takePrebuilt pipeline.request workspace.files).1 = .ok ()) ∧
      (Compiler.takePrebuilt pipeline.request workspace.files).2.fileAt? pipeline.job.object =
        some object := by
    cases hallows : workspace.files.allows object.2 with
    | true =>
      obtain ⟨hok, hobject⟩ := Compiler.takePrebuilt_of_fileAt? hkept.isTree hsame hpart
        h.source_eq h.object_eq hallows
      exact ⟨fun _ => hok, hobject⟩
    | false =>
      rw [Compiler.takePrebuilt_of_protected hkept.isTree hsame h.source_eq h.object_eq hallows]
      exact ⟨fun hnot => absurd hnot (by simp), h.object_eq⟩
  refine ⟨hagain.1, { h with
    source_eq := hothers _ List.mem_cons_self _ h.source_eq
    object_eq := ?_
    generated_eq := hothers _ (by simp) _ h.generated_eq }⟩
  rw [files_compileStage (htidy.prebuilt pipeline (List.mem_of_getElem? hpipeline))]
  exact hagain.2

end Compile

/-! ## The first time -/

/-- How far a target has come: an object that is made is the source, and a target whose source is
extracted is built. -/
structure Making (pipeline : Pipeline) (place : Nat) (workspace : Workspace) : Prop where
  compiled : ∀ path, (workspace.state place).compile.result? = some path →
    path = pipeline.job.object ∧
      ∃ object, workspace.files.fileAt? pipeline.job.source = some object ∧
        workspace.files.fileAt? pipeline.job.object = some object
  extracted : ∀ extracted, (workspace.state place).extract.result? = some extracted →
    ∃ object generated, pipeline.Built workspace.files extracted object generated

namespace Making

variable {written : List Location} {workspace : Workspace}

theorem start (h : workspace.state place = {}) : Making pipeline place workspace where
  compiled _ hresult := by
    rw [h] at hresult
    exact absurd hresult (by simp [Progress.result?])
  extracted _ hresult := by
    rw [h] at hresult
    exact absurd hresult (by simp [Progress.result?])

/-- Compiling a target makes its object, and leaves it built if it was. -/
theorem run_compile (htidy : Tidy launch pipelines graph files)
    (hpipeline : pipelines[place]? = some pipeline) (hkept : files.Keeps written workspace.files)
    (hplace : place < workspace.states.length) (h : Making pipeline place workspace) :
    Making pipeline place ((pipeline.compileStage launch place).run workspace).2 := by
  have hprebuilt := htidy.prebuilt pipeline (List.mem_of_getElem? hpipeline)
  refine ⟨fun path hresult => ?_, fun extracted hresult => ?_⟩
  · obtain ⟨hok, rfl⟩ := (result?_compileStage launch hprebuilt hplace).mp hresult
    obtain ⟨hsame, hpart⟩ := htidy.request_apart hpipeline hkept
    obtain ⟨object, hsource, hobject⟩ :=
      Compiler.of_takePrebuilt_eq_ok hkept.isTree hsame hpart hok
    have hothers := htidy.fileAt?_run_compile hpipeline hkept
    refine ⟨rfl, object, hothers _ List.mem_cons_self object hsource, ?_⟩
    rw [files_compileStage hprebuilt]
    exact hobject
  · rw [extract_compileStage hplace] at hresult
    obtain ⟨object, generated, hbuilt⟩ := h.extracted extracted hresult
    exact ⟨object, generated, (hbuilt.run_compile htidy hpipeline hkept).2⟩

/-- Extracting a target builds it. -/
theorem run_extract (htidy : Tidy launch pipelines graph files)
    (hpipeline : pipelines[place]? = some pipeline) (hkept : files.Keeps written workspace.files)
    (hplace : place < workspace.states.length) (h : Making pipeline place workspace) :
    Making pipeline place ((pipeline.extractStage place).run workspace).2 := by
  have hothers := htidy.fileAt?_run_extract hpipeline hkept
  refine ⟨fun path hresult => ?_, fun extracted hresult => ?_⟩
  · rw [compile_extractStage hplace] at hresult
    obtain ⟨hpath, object, hsource, hobject⟩ := h.compiled path hresult
    exact ⟨hpath, object, hothers _ List.mem_cons_self _ hsource, hothers _ (by simp) _ hobject⟩
  · rw [extract_extractStage hplace] at hresult
    rcases hrun : pipeline.extraction.run (pipeline.objectSource (workspace.state place))
      workspace.files with ⟨_ | made, after⟩
    · rw [hrun] at hresult
      exact absurd hresult (by simp [Progress.ofRun, Progress.result?])
    · rw [hrun] at hresult
      obtain rfl := Option.some.inj hresult
      have hafter : ((pipeline.extractStage place).run workspace).2.files = after :=
        congrArg Prod.snd hrun
      obtain ⟨path, _, _, _, _, hbinary, -⟩ := Extraction.of_run_eq_ok hrun
      have hcompiled := result?_of_binary hbinary
      obtain ⟨rfl, object, hsource, hobject⟩ := h.compiled path hcompiled
      have hsourceAfter := hothers _ List.mem_cons_self _ hsource
      have hobjectAfter := hothers pipeline.job.object (by simp) _ hobject
      rw [hafter] at hsourceAfter hobjectAfter ⊢
      exact ⟨object, built_of_run hkept.isTree hcompiled hobject hrun hsourceAfter hobjectAfter⟩

/-- What is kept of a target and its state is as far as it was. -/
theorem of_kept {after : Workspace} (h : Making pipeline place workspace)
    (hstate : after.state place = workspace.state place)
    (hfiles : ∀ path ∈ pipeline.job.paths, ∀ file, workspace.files.fileAt? path = some file →
      after.files.fileAt? path = some file) :
    Making pipeline place after := by
  refine ⟨fun path hresult => ?_, fun extracted hresult => ?_⟩
  · rw [hstate] at hresult
    obtain ⟨hpath, object, hsource, hobject⟩ := h.compiled path hresult
    exact ⟨hpath, object, hfiles _ (by simp [Job.paths]) _ hsource,
      hfiles _ (by simp [Job.paths]) _ hobject⟩
  · rw [hstate] at hresult
    obtain ⟨object, generated, hbuilt⟩ := h.extracted extracted hresult
    exact ⟨object, generated, hbuilt.of_kept hfiles⟩

/-- **A step of a run leaves targets that have succeeded built.** -/
theorem step (htidy : Tidy launch pipelines graph files)
    (hpipeline : pipelines[place]? = some pipeline) {before after : Graph.Standing Workspace}
    (hstep : Graph.Step before after) (hmidway : Midway pipelines graph files before)
    (h : Making pipeline place before.state) : Making pipeline place after.state := by
  cases hstep with
  | skip => exact h
  | @run rest report workspace stage hready =>
    have hstage := hmidway.accounted.left_mem stage (Multiset.mem_cons_self _ _)
    have hkept := hmidway.keeps
    have hplace := hmidway.place_lt hpipeline
    rcases stage_cases htidy.graph_eq hpipeline hstage with rfl | rfl | ⟨hcompile, hextract, hstate⟩
    · exact h.run_compile htidy hpipeline hkept hplace
    · exact h.run_extract htidy hpipeline hkept hplace
    · exact h.of_kept (hstate workspace)
        (htidy.fileAt?_run_other hpipeline hkept hstage hcompile hextract)

/-- **After a run, the targets that have succeeded are built.** -/
theorem of_steps (htidy : Tidy launch pipelines graph files)
    (hpipeline : pipelines[place]? = some pipeline) (htree : files.IsTree)
    {states : List PipelineState} (hlength : states.length = pipelines.length)
    (hstart : (⟨files, states⟩ : Workspace).state place = {}) {left : Multiset (Stage Workspace)}
    {report : Report} {next : Workspace}
    (hsteps : Graph.Steps ⟨graph.stages, .empty, ⟨files, states⟩⟩ ⟨left, report, next⟩) :
    Making pipeline place next := by
  refine (hsteps.preserve (P := fun standing => Midway pipelines graph files standing ∧
    Making pipeline place standing.state) ?_ ⟨midway_start graph htree hlength, .start hstart⟩).2
  rintro _ _ hstep ⟨hmidway, hmaking⟩
  exact ⟨hmidway.step htidy.graph_eq htidy.prebuilt hstep,
    hmaking.step htidy hpipeline hstep hmidway⟩

end Making

/-! ## The second time -/

/-- How far a target has come that was built before: it is still built, its compilation does not
fail, and its extraction has nothing to write. -/
structure Remaking (pipeline : Pipeline) (place : Nat) (extracted : Extracted)
    (object generated : Content × Permissions) (standing : Graph.Standing Workspace) : Prop where
  built : pipeline.Built standing.state.files extracted object generated
  compiled : pipeline.compileName ∈ standing.report.completed →
    (standing.state.state place).compile.result? = some pipeline.job.object
  not_failed : (standing.state.state place).compile.failure? = none
  extract_eq : (standing.state.state place).extract = .pending ∨
    (standing.state.state place).extract = .done { extracted with changed := false }

namespace Remaking

variable {extracted : Extracted} {object generated : Content × Permissions}
  {written : List Location} {rest : Multiset (Stage Workspace)} {report : Report}
  {workspace : Workspace}

theorem start (hbuilt : pipeline.Built workspace.files extracted object generated)
    (h : workspace.state place = {}) (left : Multiset (Stage Workspace)) :
    Remaking pipeline place extracted object generated ⟨left, .empty, workspace⟩ := by
  refine ⟨hbuilt, fun hmem => absurd hmem List.not_mem_nil, ?_, ?_⟩
  · rw [h]
    rfl
  · exact Or.inl (by rw [h])

/-- Compiling again completes. -/
theorem run_compile (htidy : Tidy launch pipelines graph files)
    (hpipeline : pipelines[place]? = some pipeline) (hkept : files.Keeps written workspace.files)
    (hallows : files.allows object.2 = true) (hplace : place < workspace.states.length)
    (outcome : Outcome)
    (h : Remaking pipeline place extracted object generated
      ⟨pipeline.compileStage launch place ::ₘ rest, report, workspace⟩) :
    Remaking pipeline place extracted object generated
      ⟨rest, report.record pipeline.compileName outcome,
        ((pipeline.compileStage launch place).run workspace).2⟩ := by
  have hprebuilt := htidy.prebuilt pipeline (List.mem_of_getElem? hpipeline)
  obtain ⟨hok, hbuilt⟩ := h.built.run_compile htidy hpipeline hkept
  have hresult := (result?_compileStage launch hprebuilt hplace).mpr
    ⟨hok ((hkept.allows_eq object.2).trans hallows), rfl⟩
  refine ⟨hbuilt, fun _ => hresult, ?_, ?_⟩
  · exact Progress.failure?_of_result? (by rw [hresult]; rfl)
  · simp only [extract_compileStage hplace]
    exact h.extract_eq

/-- Extracting again finds everything in place. -/
theorem run_extract (hplace : place < workspace.states.length)
    (hready : pipeline.compileName ∈ report.completed) (outcome : Outcome)
    (h : Remaking pipeline place extracted object generated
      ⟨pipeline.extractStage place ::ₘ rest, report, workspace⟩) :
    Remaking pipeline place extracted object generated
      ⟨rest, report.record pipeline.extractName outcome,
        ((pipeline.extractStage place).run workspace).2⟩ := by
  have hcompiled := h.compiled hready
  have hrun := h.built.run_extraction hcompiled
  have hfiles : ((pipeline.extractStage place).run workspace).2.files = workspace.files :=
    congrArg Prod.snd hrun
  refine ⟨?_, fun _ => ?_, ?_, Or.inr ?_⟩
  · rw [hfiles]
    exact h.built
  · rw [compile_extractStage hplace]
    exact hcompiled
  · rw [compile_extractStage hplace]
    exact h.not_failed
  · rw [extract_extractStage hplace, hrun]
    rfl

/-- **A step of a run keeps a target that is built.** -/
theorem step (htidy : Tidy launch pipelines graph files)
    (hpipeline : pipelines[place]? = some pipeline) (hallows : files.allows object.2 = true)
    {before after : Graph.Standing Workspace} (hstep : Graph.Step before after)
    (hmidway : Midway pipelines graph files before)
    (h : Remaking pipeline place extracted object generated before) :
    Remaking pipeline place extracted object generated after := by
  cases hstep with
  | skip => exact ⟨h.built, h.compiled, h.not_failed, h.extract_eq⟩
  | @run rest report workspace stage hready =>
    have hstage := hmidway.accounted.left_mem stage (Multiset.mem_cons_self _ _)
    have hkept := hmidway.keeps
    have hplace := hmidway.place_lt hpipeline
    rcases stage_cases htidy.graph_eq hpipeline hstage with rfl | rfl | ⟨hcompile, hextract, hstate⟩
    · exact h.run_compile htidy hpipeline hkept hallows hplace _
    · exact h.run_extract hplace (hready _ (List.mem_singleton_self _)) _
    · refine ⟨h.built.of_kept
        (htidy.fileAt?_run_other hpipeline hkept hstage hcompile hextract), fun hmem => ?_, ?_, ?_⟩
      · rw [hstate]
        -- what is recorded is another stage
        rcases Report.mem_completed_record_iff.mp hmem with hmem | ⟨hname, -⟩
        · exact h.compiled hmem
        · exact absurd hname hcompile
      · rw [hstate]
        exact h.not_failed
      · rw [hstate]
        exact h.extract_eq

/-- **After a run, the targets that were built before are built.** -/
theorem of_steps (htidy : Tidy launch pipelines graph files)
    (hpipeline : pipelines[place]? = some pipeline) (htree : files.IsTree)
    (hbuilt : pipeline.Built files extracted object generated)
    (hallows : files.allows object.2 = true)
    {states : List PipelineState} (hlength : states.length = pipelines.length)
    (hstart : (⟨files, states⟩ : Workspace).state place = {}) {left : Multiset (Stage Workspace)}
    {next : Workspace}
    (hsteps : Graph.Steps ⟨graph.stages, .empty, ⟨files, states⟩⟩ ⟨left, report, next⟩) :
    Remaking pipeline place extracted object generated ⟨left, report, next⟩ := by
  refine (hsteps.preserve (P := fun standing => Midway pipelines graph files standing ∧
    Remaking pipeline place extracted object generated standing) ?_
    ⟨midway_start graph htree hlength, .start hbuilt hstart _⟩).2
  rintro _ _ hstep ⟨hmidway, hremaking⟩
  exact ⟨hmidway.step htidy.graph_eq htidy.prebuilt hstep,
    hremaking.step htidy hpipeline hallows hstep hmidway⟩

/-- A target that is built and has been dealt with was extracted again. -/
theorem extract_eq_done {left : Multiset (Stage Workspace)} {final : Report} {next : Workspace}
    (h : Remaking pipeline place extracted object generated ⟨left, report, next⟩)
    (hsettled : pipeline.Settled final (next.state place)) :
    (next.state place).extract = .done { extracted with changed := false } := by
  rcases h.extract_eq with hpending | hdone
  · have hended := hsettled.ended
    rw [hpending, h.not_failed] at hended
    exact absurd hended (by simp [Progress.result?, Progress.failure?])
  · exact hdone

end Remaking

end Pipeline

end KernelCatalog
