import KernelCatalog.Proofs.Build.Generated
import KernelCatalog.Proofs.Files.Touch

/-!
# Targets that are built

A target whose object exists already is built when the object is the source and the generated source
is what is generated from it. Its stages then find everything in place: the one that compiles makes
the same object again, and the one that extracts finds the generated source and writes nothing. The
stages of other targets write elsewhere, if different paths are different files.

* `Compiler.takePrebuilt_of_fileAt?`: making the object again.
* `Compiler.takePrebuilt_again_of_protected`: an object that cannot be made again.
* `Pipeline.Built.run_extraction`: extracting a target again.
* `Pipeline.Tidy.fileAt?_run_of_ne`: what a stage leaves of the files of a target.
-/

namespace KernelCatalog

/-- The paths of a target. -/
def Job.paths (job : Job) : List Path := [job.source, job.object, job.generated]

theorem Job.outputs_subset_paths (job : Job) : job.outputs ⊆ job.paths :=
  List.subset_cons_self _ _

/-! ## Compilers -/

namespace Compiler

variable {request : CompileRequest} {files : Files}

/-- **Taking an object makes it what the source is**, if it leads to another place. -/
theorem of_takePrebuilt_eq_ok (htree : files.IsTree)
    (hsame : request.source.same request.output = false)
    (hplace : ∀ location, files.place? request.source = some location →
      files.place? request.output ≠ some location)
    (hok : (takePrebuilt request files).1 = .ok ()) :
    ∃ file, files.fileAt? request.source = some file ∧
      (takePrebuilt request files).2.fileAt? request.output = some file := by
  generalize htaken : takePrebuilt request files = taken at hok
  obtain ⟨result, after⟩ := taken
  obtain rfl : result = .ok () := hok
  have h := htaken
  unfold takePrebuilt at h
  split at h
  · exact absurd (Prod.mk.inj h).1 (by simp)
  · next hfile =>
    rw [if_neg (by simp [hsame])] at h
    have hparent := Files.keeps_makeParent request.output htree
    split at h
    · exact absurd (Prod.mk.inj h).1 (by simp)
    · next made hmade =>
      rw [hmade] at hparent
      split at h
      · exact absurd (Prod.mk.inj h).1 (by simp)
      · next copied hcopy =>
        obtain ⟨-, rfl⟩ := Prod.mk.inj h
        obtain ⟨-, location, flag, hwritable⟩ := Files.of_copy_eq_ok hcopy
        -- the file that is copied was there before the directories were made
        have hthere : files.isFile request.source = true := by simpa using hfile
        rw [Files.isFile_eq_isSome] at hthere
        obtain ⟨⟨content, permissions⟩, hsource⟩ := Option.isSome_iff_exists.mp hthere
        have hstill := hparent.fileAt?_of_some (fun _ _ => List.not_mem_nil) hsource
        have hlocate := (Files.of_writable_eq_ok hparent.isTree hwritable).1
        have hne : made.locate request.source ≠ .ok location := by
          intro hlocated
          have hsourcePlace := Files.place?_of_locate hlocated
          have houtputPlace := Files.place?_of_locate hlocate
          rw [hparent.place?_eq] at hsourcePlace houtputPlace
          exact hplace location hsourcePlace houtputPlace
        have hcopied := (Files.copy_of_writable hparent.isTree hstill hwritable hne).2
        rw [hcopy] at hcopied
        exact ⟨_, hsource, hcopied⟩

/-- An object that was taken is what its source was and still is. -/
theorem exists_fileAt?_of_takePrebuilt {after : Files} (htree : files.IsTree)
    (hsame : request.source.same request.output = false)
    (hplace : ∀ location, files.place? request.source = some location →
      files.place? request.output ≠ some location)
    (h : takePrebuilt request files = (.ok (), after)) :
    ∃ file, files.fileAt? request.source = some file ∧ after.fileAt? request.source = some file ∧
      after.fileAt? request.output = some file := by
  obtain ⟨file, hsource, hobject⟩ := of_takePrebuilt_eq_ok htree hsame hplace (congrArg Prod.fst h)
  have hkept := keeps_takePrebuilt request htree
  rw [h] at hobject hkept
  refine ⟨file, hsource, hkept.fileAt?_of_some (fun location hlocate hmem => ?_) hsource, hobject⟩
  obtain ⟨path, hpath, hlocated⟩ := List.mem_filterMap.mp hmem
  obtain rfl := List.mem_singleton.mp hpath
  exact hplace location (Files.place?_of_locate hlocate) hlocated

/-- Taking an object over one that is there comes down to copying it. -/
theorem takePrebuilt_eq_copy {file other : Content × Permissions}
    (hsame : request.source.same request.output = false)
    (hsource : files.fileAt? request.source = some file)
    (hobject : files.fileAt? request.output = some other) :
    takePrebuilt request files = ((files.copy request.source request.output).1.mapError
      (CompileError.io request.output), (files.copy request.source request.output).2) := by
  rw [takePrebuilt, if_neg (by simp [Files.isFile_eq_isSome, hsource]), if_neg (by simp [hsame]),
    Files.makeParent_of_fileAt? hobject]
  dsimp only
  rcases files.copy request.source request.output with ⟨_ | _, after⟩ <;> rfl

/-- **An object that is there can be taken again**, if it may be written over. -/
theorem takePrebuilt_of_fileAt? {file other : Content × Permissions} (htree : files.IsTree)
    (hsame : request.source.same request.output = false)
    (hplace : ∀ location, files.place? request.source = some location →
      files.place? request.output ≠ some location)
    (hsource : files.fileAt? request.source = some file)
    (hobject : files.fileAt? request.output = some other)
    (hallows : files.allows other.2 = true) :
    (takePrebuilt request files).1 = .ok () ∧
      (takePrebuilt request files).2.fileAt? request.output = some file := by
  obtain ⟨content, permissions⟩ := file
  obtain ⟨location, hlocate, hwritable⟩ := Files.writable_of_fileAt? htree hobject
  rw [if_pos hallows] at hwritable
  have hne : files.locate request.source ≠ .ok location := fun hlocated =>
    hplace location (Files.place?_of_locate hlocated) (Files.place?_of_locate hlocate)
  obtain ⟨hcopied, hcopy⟩ := Files.copy_of_writable htree hsource hwritable hne
  rw [takePrebuilt_eq_copy hsame hsource hobject, hcopied]
  exact ⟨rfl, hcopy⟩

/-- An object that may not be written over is left as it is. -/
theorem takePrebuilt_of_protected {file other : Content × Permissions} (htree : files.IsTree)
    (hsame : request.source.same request.output = false)
    (hsource : files.fileAt? request.source = some file)
    (hobject : files.fileAt? request.output = some other)
    (hallows : files.allows other.2 = false) :
    takePrebuilt request files = (.error (.io request.output .permissionDenied), files) := by
  obtain ⟨content, permissions⟩ := file
  obtain ⟨location, -, hwritable⟩ := Files.writable_of_fileAt? htree hobject
  rw [if_neg (by simp [hallows])] at hwritable
  rw [takePrebuilt_eq_copy hsame hsource hobject, Files.copy,
    Files.fileAt?_eq_some_iff_stat.mp hsource]
  simp only [hwritable]
  rfl

/-- **A source that may only be read is copied once**: the copy has its permissions, and so it cannot
be written over. -/
theorem takePrebuilt_again_of_protected {file : Content × Permissions} {after : Files}
    (htree : files.IsTree) (hsame : request.source.same request.output = false)
    (hplace : ∀ location, files.place? request.source = some location →
      files.place? request.output ≠ some location)
    (hsource : files.fileAt? request.source = some file) (hallows : files.allows file.2 = false)
    (h : takePrebuilt request files = (.ok (), after)) :
    takePrebuilt request after = (.error (.io request.output .permissionDenied), after) := by
  obtain ⟨taken, hwas, hstill, hobject⟩ := exists_fileAt?_of_takePrebuilt htree hsame hplace h
  obtain rfl := Option.some.inj (hsource.symm.trans hwas)
  have hkept := keeps_takePrebuilt request htree
  rw [h] at hkept
  exact takePrebuilt_of_protected hkept.isTree hsame hstill hobject
    ((hkept.allows_eq file.2).trans hallows)

end Compiler

namespace Pipeline

/-! ## Built targets -/

/-- A target is built: the object is the source, and what an extraction has made is what it would
make of that object again. -/
structure Built (pipeline : Pipeline) (files : Files) (extracted : Extracted)
    (object generated : Content × Permissions) : Prop where
  source_eq : files.fileAt? pipeline.job.source = some object
  object_eq : files.fileAt? pipeline.job.object = some object
  generated_eq : files.fileAt? pipeline.job.generated = some generated
  generate_eq : pipeline.extraction.generate pipeline.job.object object.1.bytes =
    .ok (extracted.catalog, extracted.generated)
  bytes_eq : generated.1.bytes = Text.toBytes extracted.generated
  extracted_eq : extracted = { extracted with
    target := pipeline.job.name
    generatedPath := pipeline.job.generated
    binaryPath := pipeline.job.object
    binaryHash := Digest.sha256Hex object.1.bytes }

/-- A target stays built where its files stay. -/
theorem Built.of_kept {pipeline : Pipeline} {files after : Files} {extracted : Extracted}
    {object generated : Content × Permissions} (h : pipeline.Built files extracted object generated)
    (hkept : ∀ path ∈ pipeline.job.paths, ∀ file, files.fileAt? path = some file →
      after.fileAt? path = some file) :
    pipeline.Built after extracted object generated :=
  { h with
    source_eq := hkept _ (by simp [Job.paths]) _ h.source_eq
    object_eq := hkept _ (by simp [Job.paths]) _ h.object_eq
    generated_eq := hkept _ (by simp [Job.paths]) _ h.generated_eq }

/-- A target that is built the same way twice has the same files. -/
theorem Built.fileAt?_eq {pipeline : Pipeline} {files after : Files} {extracted : Extracted}
    {object generated : Content × Permissions} (h : pipeline.Built files extracted object generated)
    (hafter : pipeline.Built after extracted object generated) :
    ∀ path ∈ pipeline.job.paths,
      (files.fileAt? path).isSome ∧ after.fileAt? path = files.fileAt? path := by
  intro path hpath
  simp only [Job.paths, List.mem_cons, List.not_mem_nil, or_false] at hpath
  rcases hpath with rfl | rfl | rfl
  · rw [h.source_eq, hafter.source_eq]
    exact ⟨rfl, rfl⟩
  · rw [h.object_eq, hafter.object_eq]
    exact ⟨rfl, rfl⟩
  · rw [h.generated_eq, hafter.generated_eq]
    exact ⟨rfl, rfl⟩

/-- The object is what the compilation has made. -/
theorem binary_objectSource {pipeline : Pipeline} {state : PipelineState} {path : Path}
    (h : state.compile.result? = some path) :
    Extraction.binary (pipeline.objectSource state) = .ok path := by
  obtain ⟨compile, extract⟩ := state
  cases compile with
  | done result =>
    obtain rfl := Option.some.inj h
    rfl
  | _ => exact absurd h (by simp [Progress.result?])

/-- An extraction that is given an object was given what the compilation has made. -/
theorem result?_of_binary {pipeline : Pipeline} {state : PipelineState} {path : Path}
    (h : Extraction.binary (pipeline.objectSource state) = .ok path) :
    state.compile.result? = some path := by
  cases hresult : state.compile.result? with
  | some made =>
    rw [binary_objectSource hresult] at h
    rw [Except.ok.inj h]
  | none =>
    have hbinary : (pipeline.objectSource state).binary = none := hresult
    unfold Extraction.binary at h
    split at h
    · exact absurd h (by simp)
    · split at h
      · next hsome => exact absurd (hbinary.symm.trans hsome) (by simp)
      · exact absurd h (by simp)

/-- What is read of an object that is there. -/
theorem readBytes_of_fileAt? {files : Files} {path : Path} {file : Content × Permissions}
    (h : files.fileAt? path = some file) : Object.readBytes files path = .ok file.1.bytes := by
  have hread : files.read path = .ok file.1.bytes :=
    Files.read_eq_ok_iff.mpr ⟨file.1, file.2, h, rfl⟩
  rw [Object.readBytes, hread]

/-- How an extraction that succeeds has come to what it has made. -/
theorem of_run_extraction_eq_ok {pipeline : Pipeline} {state : PipelineState}
    {files after : Files} {extracted : Extracted} {object : Content × Permissions}
    (hcompiled : state.compile.result? = some pipeline.job.object)
    (hobject : files.fileAt? pipeline.job.object = some object)
    (h : pipeline.extraction.run (pipeline.objectSource state) files = (.ok extracted, after)) :
    pipeline.extraction.generate pipeline.job.object object.1.bytes =
        .ok (extracted.catalog, extracted.generated) ∧
      extracted = { extracted with
        target := pipeline.job.name
        generatedPath := pipeline.job.generated
        binaryPath := pipeline.job.object
        binaryHash := Digest.sha256Hex object.1.bytes } := by
  obtain ⟨path, bytes, catalog, generated, changed, hbinary, hread, hgenerate, -, rfl⟩ :=
    Extraction.of_run_eq_ok h
  obtain rfl := Except.ok.inj ((binary_objectSource hcompiled).symm.trans hbinary)
  obtain rfl := Except.ok.inj ((readBytes_of_fileAt? hobject).symm.trans hread)
  exact ⟨hgenerate, rfl⟩

/-- **An extraction that succeeds** has built its target, if the object is the source and both are
still there. -/
theorem built_of_run {pipeline : Pipeline} {state : PipelineState} {files after : Files}
    {extracted : Extracted} {object : Content × Permissions} (htree : files.IsTree)
    (hcompiled : state.compile.result? = some pipeline.job.object)
    (hobject : files.fileAt? pipeline.job.object = some object)
    (h : pipeline.extraction.run (pipeline.objectSource state) files = (.ok extracted, after))
    (hsource : after.fileAt? pipeline.job.source = some object)
    (hstill : after.fileAt? pipeline.job.object = some object) :
    ∃ generated, pipeline.Built after extracted object generated := by
  obtain ⟨hgenerate, hextracted⟩ := of_run_extraction_eq_ok hcompiled hobject h
  have hread := (Extraction.leaves_of_run htree h).2.read_eq
  obtain ⟨content, permissions, hgenerated, hbytes⟩ := Files.read_eq_ok_iff.mp hread
  exact ⟨(content, permissions), hsource, hstill, hgenerated, hgenerate, hbytes, hextracted⟩

/-- **Extracting a target again** finds its generated source in place. -/
theorem Built.run_extraction {pipeline : Pipeline} {state : PipelineState} {files : Files}
    {extracted : Extracted} {object generated : Content × Permissions}
    (h : pipeline.Built files extracted object generated)
    (hcompiled : state.compile.result? = some pipeline.job.object) :
    pipeline.extraction.run (pipeline.objectSource state) files =
      (.ok { extracted with changed := false }, files) := by
  have hread : files.read pipeline.job.generated = .ok (Text.toBytes extracted.generated) :=
    Files.read_eq_ok_iff.mpr ⟨generated.1, generated.2, h.generated_eq, h.bytes_eq⟩
  have hwrite : Extraction.writeIfChanged files pipeline.job.generated extracted.generated =
      (.ok false, files) := by
    rw [Extraction.writeIfChanged, if_pos (Extraction.holds_iff.mpr hread)]
  have hpath : pipeline.extraction.generatedPath = pipeline.job.generated := rfl
  unfold Extraction.run
  rw [binary_objectSource hcompiled]
  simp only [readBytes_of_fileAt? h.object_eq, h.generate_eq, hpath, hwrite]
  rw [h.extracted_eq]
  rfl

/-! ## Stages -/

/-- A stage of targets whose objects exist already writes its outputs only. -/
theorem keeps_of_prebuilt {launch : Launcher} {pipelines : List Pipeline}
    {graph : Graph Workspace} (hgraph : Pipeline.graph launch pipelines = .ok graph)
    (hprebuilt : ∀ pipeline ∈ pipelines, pipeline.compiler = .prebuilt) {stage : Stage Workspace}
    (hstage : stage ∈ graph.stages) {workspace : Workspace} (htree : workspace.files.IsTree) :
    workspace.files.Keeps (workspace.files.places stage.outputs)
      (stage.run workspace).2.files := by
  obtain ⟨other, elsewhere, hother, hpair⟩ := (mem_graph_iff hgraph).mp hstage
  have hcompiler := hprebuilt other (List.mem_of_getElem? hother)
  exact keeps_outputs hpair htree (fun hne => absurd hcompiler hne)
    fun command hcommand => absurd (hcompiler.symm.trans hcommand) (by simp)

/-- Pipelines of targets whose objects exist already: different paths of them are different files,
and no source is also written. -/
structure Tidy (launch : Launcher) (pipelines : List Pipeline) (graph : Graph Workspace)
    (files : Files) : Prop where
  graph_eq : Pipeline.graph launch pipelines = .ok graph
  prebuilt : ∀ pipeline ∈ pipelines, pipeline.compiler = .prebuilt
  distinct : files.Distinct (pipelines.flatMap (·.job.paths))
  apart : ∀ first ∈ pipelines, ∀ second ∈ pipelines, ∀ output ∈ second.job.outputs,
    first.job.source.same output = false

namespace Tidy

variable {launch : Launcher} {pipelines : List Pipeline} {graph : Graph Workspace} {files : Files}
  {pipeline : Pipeline} {place : Nat}

/-- A file is kept by a stage that does not have its path as an output. -/
theorem fileAt?_run (htidy : Tidy launch pipelines graph files) {written : List Location}
    {workspace : Workspace} (hkept : files.Keeps written workspace.files)
    {stage : Stage Workspace} (hstage : stage ∈ graph.stages) {path : Path}
    (hpath : path ∈ pipelines.flatMap (·.job.paths))
    (hnot : ∀ output ∈ stage.outputs, output.same path = false) {file : Content × Permissions}
    (hfile : workspace.files.fileAt? path = some file) :
    (stage.run workspace).2.files.fileAt? path = some file := by
  have hrun := keeps_of_prebuilt htidy.graph_eq htidy.prebuilt hstage hkept.isTree
  refine hrun.fileAt?_of_some (fun location hlocate hmem => ?_) hfile
  obtain ⟨output, houtput, hplace⟩ := List.mem_filterMap.mp hmem
  have hlocated := Files.place?_of_locate hlocate
  rw [hkept.place?_eq] at hplace hlocated
  -- an output at the same place would be the same path
  have hlisted : output ∈ pipelines.flatMap (·.job.paths) := by
    obtain ⟨other, elsewhere, hother, hpair⟩ := (mem_graph_iff htidy.graph_eq).mp hstage
    exact List.mem_flatMap.mpr ⟨other, List.mem_of_getElem? hother,
      other.job.outputs_subset_paths (outputs_subset hpair houtput)⟩
  have hsame := htidy.distinct output hlisted path hpath location hplace hlocated
  exact absurd (hsame.symm.trans (hnot output houtput)) (by simp)

theorem of_keeps (htidy : Tidy launch pipelines graph files) {written : List Location}
    {after : Files} (hkept : files.Keeps written after) : Tidy launch pipelines graph after where
  graph_eq := htidy.graph_eq
  prebuilt := htidy.prebuilt
  distinct first hfirst second hsecond location hlocation hplace := by
    rw [hkept.place?_eq] at hlocation hplace
    exact htidy.distinct first hfirst second hsecond location hlocation hplace
  apart := htidy.apart

/-- A source is no output of a stage. -/
theorem same_source (htidy : Tidy launch pipelines graph files)
    (hpipeline : pipelines[place]? = some pipeline) {stage : Stage Workspace}
    (hstage : stage ∈ graph.stages) :
    ∀ output ∈ stage.outputs, output.same pipeline.job.source = false := by
  intro output houtput
  obtain ⟨other, elsewhere, hother, hpair⟩ := (mem_graph_iff htidy.graph_eq).mp hstage
  rw [Path.same_comm]
  exact htidy.apart pipeline (List.mem_of_getElem? hpipeline) other
    (List.mem_of_getElem? hother) output (outputs_subset hpair houtput)

/-- An output of one stage of a pipeline is no output of another stage. -/
theorem same_output (htidy : Tidy launch pipelines graph files)
    (hpipeline : pipelines[place]? = some pipeline) {mine stage : Stage Workspace}
    (hmine : mine ∈ pipeline.pair launch place) (hstage : stage ∈ graph.stages)
    (hname : mine.name ≠ stage.name) :
    ∀ output ∈ stage.outputs, ∀ path ∈ mine.outputs, output.same path = false := by
  have hmem := (mem_graph_iff htidy.graph_eq).mpr ⟨pipeline, place, hpipeline, hmine⟩
  exact (compatible_of_graph htidy.graph_eq hmem hstage hname).outputs

/-- A source leads to another place than an output. -/
theorem place?_source_ne (htidy : Tidy launch pipelines graph files)
    (hpipeline : pipeline ∈ pipelines) {other : Pipeline} (hother : other ∈ pipelines)
    {output : Path} (houtput : output ∈ other.job.outputs) (location : Location)
    (hsource : files.place? pipeline.job.source = some location) :
    files.place? output ≠ some location := by
  intro hplace
  have hsame := htidy.distinct _ (List.mem_flatMap.mpr ⟨pipeline, hpipeline, List.mem_cons_self⟩)
    output (List.mem_flatMap.mpr ⟨other, hother, List.mem_cons_of_mem _ houtput⟩) location hsource
    hplace
  rw [htidy.apart pipeline hpipeline other hother output houtput] at hsame
  exact absurd hsame (by simp)

theorem mem_paths (hpipeline : pipelines[place]? = some pipeline) {path : Path}
    (hpath : path ∈ pipeline.job.paths) : path ∈ pipelines.flatMap (·.job.paths) :=
  List.mem_flatMap.mpr ⟨pipeline, List.mem_of_getElem? hpipeline, hpath⟩

/-- **A stage leaves the files of a target that are not its own**: the source, the object unless it
is the stage that compiles, and the generated source unless it is the one that extracts. -/
theorem fileAt?_run_of_ne (htidy : Tidy launch pipelines graph files)
    (hpipeline : pipelines[place]? = some pipeline) {written : List Location}
    {workspace : Workspace} (hkept : files.Keeps written workspace.files)
    {stage : Stage Workspace} (hstage : stage ∈ graph.stages) {path : Path}
    (hpath : path = pipeline.job.source ∨
      (path = pipeline.job.object ∧ pipeline.compileName ≠ stage.name) ∨
      (path = pipeline.job.generated ∧ pipeline.extractName ≠ stage.name))
    {file : Content × Permissions} (hfile : workspace.files.fileAt? path = some file) :
    (stage.run workspace).2.files.fileAt? path = some file := by
  have hlisted : path ∈ pipeline.job.paths := by
    rcases hpath with rfl | ⟨rfl, -⟩ | ⟨rfl, -⟩ <;> simp [Job.paths]
  refine htidy.fileAt?_run hkept hstage (mem_paths hpipeline hlisted) (fun output houtput => ?_)
    hfile
  rcases hpath with rfl | ⟨rfl, hcompile⟩ | ⟨rfl, hextract⟩
  · exact htidy.same_source hpipeline hstage output houtput
  · exact htidy.same_output hpipeline (pipeline.compileStage_mem_pair launch place) hstage hcompile
      output houtput _ (List.mem_singleton_self _)
  · exact htidy.same_output hpipeline (pipeline.extractStage_mem_pair launch place) hstage hextract
      output houtput _ (List.mem_singleton_self _)

theorem fileAt?_run_other (htidy : Tidy launch pipelines graph files)
    (hpipeline : pipelines[place]? = some pipeline) {written : List Location}
    {workspace : Workspace} (hkept : files.Keeps written workspace.files)
    {stage : Stage Workspace} (hstage : stage ∈ graph.stages)
    (hcompile : pipeline.compileName ≠ stage.name) (hextract : pipeline.extractName ≠ stage.name) :
    ∀ path ∈ pipeline.job.paths, ∀ file, workspace.files.fileAt? path = some file →
      (stage.run workspace).2.files.fileAt? path = some file := by
  intro path hpath file hfile
  refine htidy.fileAt?_run_of_ne hpipeline hkept hstage ?_ hfile
  simp only [Job.paths, List.mem_cons, List.not_mem_nil, or_false] at hpath
  exact hpath.imp_right (Or.imp (⟨·, hcompile⟩) (⟨·, hextract⟩))

/-- The stage that compiles leaves the source and the generated source as they are. -/
theorem fileAt?_run_compile (htidy : Tidy launch pipelines graph files)
    (hpipeline : pipelines[place]? = some pipeline) {written : List Location}
    {workspace : Workspace} (hkept : files.Keeps written workspace.files) :
    ∀ path ∈ [pipeline.job.source, pipeline.job.generated], ∀ file,
      workspace.files.fileAt? path = some file →
        ((pipeline.compileStage launch place).run workspace).2.files.fileAt? path = some file := by
  intro path hpath file hfile
  have hstage := (mem_graph_iff htidy.graph_eq).mpr
    ⟨pipeline, place, hpipeline, pipeline.compileStage_mem_pair launch place⟩
  have hne := (compileName_ne_extractName pipeline pipeline).symm
  exact htidy.fileAt?_run_of_ne hpipeline hkept hstage
    ((List.mem_pair.mp hpath).imp_right fun hgenerated => .inr ⟨hgenerated, hne⟩) hfile

/-- The stage that extracts leaves the source and the object as they are. -/
theorem fileAt?_run_extract (htidy : Tidy launch pipelines graph files)
    (hpipeline : pipelines[place]? = some pipeline) {written : List Location}
    {workspace : Workspace} (hkept : files.Keeps written workspace.files) :
    ∀ path ∈ [pipeline.job.source, pipeline.job.object], ∀ file,
      workspace.files.fileAt? path = some file →
        ((pipeline.extractStage place).run workspace).2.files.fileAt? path = some file := by
  intro path hpath file hfile
  have hstage := (mem_graph_iff htidy.graph_eq).mpr
    ⟨pipeline, place, hpipeline, pipeline.extractStage_mem_pair launch place⟩
  have hne := compileName_ne_extractName pipeline pipeline
  exact htidy.fileAt?_run_of_ne hpipeline hkept hstage
    ((List.mem_pair.mp hpath).imp_right fun hobject => .inl ⟨hobject, hne⟩) hfile

end Tidy

/-- What a compilation remembers of taking an object that exists. -/
theorem result?_compileStage (launch : Launcher) {pipeline : Pipeline} {place : Nat}
    {workspace : Workspace} (hprebuilt : pipeline.compiler = .prebuilt)
    (hplace : place < workspace.states.length) {path : Path} :
    (((pipeline.compileStage launch place).run workspace).2.state place).compile.result? =
        some path ↔
      (Compiler.takePrebuilt pipeline.request workspace.files).1 = .ok () ∧
        path = pipeline.job.object := by
  simp only [compileStage, runCompile]
  rw [Workspace.state_setState_self hplace]
  simp only [compile, hprebuilt, Compiler.compile]
  rcases Compiler.takePrebuilt pipeline.request workspace.files with ⟨_ | _, after⟩
  · simp [Progress.ofRun, Progress.result?]
  · simp [Progress.ofRun, Progress.result?, eq_comm]

/-- What a compilation leaves that takes an object that exists. -/
theorem files_compileStage {launch : Launcher} {pipeline : Pipeline} {place : Nat}
    {workspace : Workspace} (hprebuilt : pipeline.compiler = .prebuilt) :
    ((pipeline.compileStage launch place).run workspace).2.files =
      (Compiler.takePrebuilt pipeline.request workspace.files).2 := by
  change (pipeline.compile launch workspace.files).2 = _
  rw [snd_compile, hprebuilt]
  rfl

end Pipeline

end KernelCatalog
