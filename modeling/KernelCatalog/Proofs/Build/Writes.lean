import KernelCatalog.Proofs.Build.Ownership
import KernelCatalog.Proofs.Ledger.Keep

/-!
# What a build writes

A stage writes its outputs and makes directories around them; what an external program does is
taken to be confined to the object that it is asked for. So a build writes the objects and generated
sources of its targets and the ledger, and leaves every other file as it is, however it ends.

* `Pipeline.keeps_compileStage`, `Pipeline.keeps_extractStage`: what one stage writes.
* `Pipeline.keeps_of_steps`: what a run of the stages writes.
* `BuildSetup.keeps_build`: what a build writes.
-/

namespace KernelCatalog

/-- The paths that the stages of a target have as outputs. -/
def Job.outputs (job : Job) : List Path := [job.object, job.generated]

theorem Job.generated_mem_outputs (job : Job) : job.generated ∈ job.outputs :=
  List.mem_cons_of_mem _ List.mem_cons_self

/-- A program that is started with the given arguments writes nothing but its output. -/
def Launcher.Confined (launch : Launcher) (program : String) (args : List String) (output : Path) :
    Prop :=
  ∀ files : Files, files.IsTree → files.endsInLink output = false →
    files.Keeps (files.places [output]) (launch program args files).2

/-! ## Compilers -/

theorem Command.keeps_removeStale {files after : Files} {path : Path} (htree : files.IsTree)
    (hends : files.endsInLink path = false) (h : removeStale files path = .ok after) :
    files.Keeps (files.places [path]) after := by
  unfold removeStale at h
  split at h
  · next hremove =>
    obtain rfl := Except.ok.inj h
    exact Files.keeps_remove htree hends hremove
  · obtain rfl := Except.ok.inj h
    exact .refl htree
  · exact absurd h (by simp)

/-- Compiling by a program that is confined to the object concerns the object only. -/
theorem Command.keeps_compile {launch : Launcher} {command : Command} {request : CompileRequest}
    {files : Files} (htree : files.IsTree) (hends : files.endsInLink request.output = false)
    (hconfined : Launcher.Confined launch command.program (command.expandArgs request)
      request.output) :
    files.Keeps (files.places [request.output]) (command.compile launch request files).2 := by
  have hparent : files.Keeps (files.places [request.output]) (files.makeParent request.output).2 :=
    (Files.keeps_makeParent request.output htree).of_nil
  unfold compile
  split
  · next hresult => rwa [hresult] at hparent
  · next made hresult =>
    rw [hresult] at hparent
    rw [← hparent.endsInLink_eq] at hends
    split
    · exact hparent
    · next cleared hstale =>
      have hcleared := keeps_removeStale hparent.isTree hends hstale
      have hlaunched := hconfined cleared hcleared.isTree
        ((hcleared.endsInLink_eq request.output).trans hends)
      rw [hcleared.places_eq, hparent.places_eq] at hlaunched
      rw [hparent.places_eq] at hcleared
      have hkept := (hparent.trans hcleared).trans hlaunched
      split
      · next hresult => rwa [hresult] at hkept
      · next hresult => rwa [hresult] at hkept

theorem Compiler.keeps_takePrebuilt (request : CompileRequest) {files : Files}
    (htree : files.IsTree) :
    files.Keeps (files.places [request.output]) (takePrebuilt request files).2 := by
  have hparent : files.Keeps (files.places [request.output]) (files.makeParent request.output).2 :=
    (Files.keeps_makeParent request.output htree).of_nil
  unfold takePrebuilt
  split
  · exact .refl htree
  · split
    · exact .refl htree
    · split
      · next hresult => rwa [hresult] at hparent
      · next made hresult =>
        rw [hresult] at hparent
        have hcopied := Files.keeps_copy request.source request.output hparent.isTree
        rw [hparent.places_eq] at hcopied
        have hkept := hparent.trans hcopied
        split
        · next hresult => rwa [hresult] at hkept
        · next hresult => rwa [hresult] at hkept

/-- Taking an object that is in place changes nothing. -/
theorem Compiler.takePrebuilt_of_same (request : CompileRequest)
    (h : request.source.same request.output = true) (files : Files) :
    (takePrebuilt request files).2 = files := by
  unfold takePrebuilt
  rw [if_pos h]
  split <;> rfl

/-! ## Extractions -/

namespace Extraction

/-- A text is held by a file if it is what is read there. -/
theorem holds_iff {files : Files} {path : Path} {text : String} :
    holds files path text = true ↔ files.read path = .ok (Text.toBytes text) := by
  unfold holds
  split
  · next bytes hread => simp [hread]
  · next hread => simp [hread]

/-- What a write leaves that is spared where the file holds the text already: the text, with the
tree as it was if nothing had to be written. -/
structure Leaves (files after : Files) (path : Path) (text : String) (changed : Bool) : Prop where
  read_eq : after.read path = .ok (Text.toBytes text)
  changed_iff : changed = false ↔ files.read path = .ok (Text.toBytes text)
  unwritten : changed = false → after = files

/-- **Writing a text where it is not there yet** concerns its file only, and leaves the text
there. -/
theorem leaves_of_writeIfChanged {files after : Files} {path : Path} {text : String}
    {changed : Bool} (htree : files.IsTree)
    (h : writeIfChanged files path text = (.ok changed, after)) :
    files.Keeps (files.places [path]) after ∧ Leaves files after path text changed := by
  unfold writeIfChanged at h
  split at h
  · next hholds =>
    obtain ⟨hresult, rfl⟩ := Prod.mk.inj h
    obtain rfl := Except.ok.inj hresult
    rw [holds_iff] at hholds
    exact ⟨.refl htree, hholds, by simp [hholds], fun _ => rfl⟩
  · next hholds =>
    rw [holds_iff] at hholds
    have hparent : files.Keeps (files.places [path]) (files.makeParent path).2 :=
      (Files.keeps_makeParent path htree).of_nil
    split at h
    · exact absurd (Prod.mk.inj h).1 (by simp)
    · next made hmade =>
      rw [hmade] at hparent
      split at h
      · exact absurd (Prod.mk.inj h).1 (by simp)
      · next written hwrite =>
        obtain ⟨hresult, rfl⟩ := Prod.mk.inj h
        obtain rfl := Except.ok.inj hresult
        obtain ⟨hkept, permissions, hfile⟩ := Files.keeps_writeContent hparent.isTree hwrite
        rw [hparent.places_eq] at hkept
        exact ⟨hparent.trans hkept, Files.read_eq_ok_iff.mpr ⟨_, permissions, hfile, rfl⟩,
          by simp [hholds], by simp⟩

theorem keeps_of_writeIfChanged_error {files after : Files} {path : Path} {text : String}
    {e : StageError} (htree : files.IsTree)
    (h : writeIfChanged files path text = (.error e, after)) : files.Keeps [] after := by
  unfold writeIfChanged at h
  split at h
  · exact absurd (Prod.mk.inj h).1 (by simp)
  · have hparent := Files.keeps_makeParent path htree
    split at h
    · next hmade =>
      obtain ⟨-, rfl⟩ := Prod.mk.inj h
      rwa [hmade] at hparent
    · next hmade =>
      rw [hmade] at hparent
      split at h
      · obtain ⟨-, rfl⟩ := Prod.mk.inj h
        exact hparent
      · exact absurd (Prod.mk.inj h).1 (by simp)

/-- **How an extraction that succeeds has come to what it has made**: it was given a binary, has
read it, has generated a source from it, and has written that where it was not there yet. -/
theorem of_run_eq_ok {extraction : Extraction} {source : ObjectSource} {files after : Files}
    {extracted : Extracted} (h : extraction.run source files = (.ok extracted, after)) :
    ∃ path bytes catalog generated changed, binary source = .ok path ∧
      Object.readBytes files path = .ok bytes ∧
      extraction.generate path bytes = .ok (catalog, generated) ∧
      writeIfChanged files extraction.generatedPath generated = (.ok changed, after) ∧
      extracted = ⟨source.target, catalog, generated, extraction.generatedPath, path,
        Digest.sha256Hex bytes, changed⟩ := by
  unfold run at h
  split at h
  · exact absurd (Prod.mk.inj h).1 (by simp)
  · next path hbinary =>
    split at h
    · exact absurd (Prod.mk.inj h).1 (by simp)
    · next bytes hread =>
      split at h
      · exact absurd (Prod.mk.inj h).1 (by simp)
      · next catalog generated hgenerate =>
        split at h
        · exact absurd (Prod.mk.inj h).1 (by simp)
        · next changed written hwrite =>
          obtain ⟨hresult, rfl⟩ := Prod.mk.inj h
          exact ⟨path, bytes, catalog, generated, changed, hbinary, hread, hgenerate, hwrite,
            (Except.ok.inj hresult).symm⟩

/-- **How an extraction that fails has ended**: it has not come to write, or it could not. -/
theorem of_run_eq_error {extraction : Extraction} {source : ObjectSource} {files after : Files}
    {e : StageError} (h : extraction.run source files = (.error e, after)) :
    after = files ∨ ∃ generated fault,
      writeIfChanged files extraction.generatedPath generated = (.error fault, after) := by
  unfold run at h
  split at h
  · exact Or.inl (Prod.mk.inj h).2.symm
  · split at h
    · exact Or.inl (Prod.mk.inj h).2.symm
    · split at h
      · exact Or.inl (Prod.mk.inj h).2.symm
      · next catalog generated _ =>
        split at h
        · next fault failed hwrite =>
          obtain ⟨-, rfl⟩ := Prod.mk.inj h
          exact Or.inr ⟨generated, fault, hwrite⟩
        · exact absurd (Prod.mk.inj h).1 (by simp)

/-- **An extraction that succeeds** leaves what it has generated in the file. -/
theorem leaves_of_run {extraction : Extraction} {source : ObjectSource} {files after : Files}
    {extracted : Extracted} (htree : files.IsTree)
    (h : extraction.run source files = (.ok extracted, after)) :
    files.Keeps (files.places [extraction.generatedPath]) after ∧
      Leaves files after extraction.generatedPath extracted.generated extracted.changed := by
  obtain ⟨path, bytes, catalog, generated, changed, -, -, -, hwrite, rfl⟩ := of_run_eq_ok h
  exact leaves_of_writeIfChanged htree hwrite

/-- **An extraction that fails** concerns no file. -/
theorem keeps_of_run_error {extraction : Extraction} {source : ObjectSource} {files after : Files}
    {e : StageError} (htree : files.IsTree)
    (h : extraction.run source files = (.error e, after)) : files.Keeps [] after := by
  rcases of_run_eq_error h with rfl | ⟨generated, fault, hwrite⟩
  · exact .refl htree
  · exact keeps_of_writeIfChanged_error htree hwrite

end Extraction

namespace Pipeline

/-! ## Stages -/

/-- The external program of a pipeline, if it has one, writes nothing but the object. -/
def Confined (launch : Launcher) (pipeline : Pipeline) : Prop :=
  ∀ command, pipeline.compiler = .external command →
    Launcher.Confined launch command.program (command.expandArgs pipeline.request)
      pipeline.job.object

/-- The object that an external program is to make is not a link, which would be taken away. -/
def Unlinked (files : Files) (pipeline : Pipeline) : Prop :=
  pipeline.compiler ≠ .prebuilt → files.endsInLink pipeline.job.object = false

instance (files : Files) (pipeline : Pipeline) : Decidable (pipeline.Unlinked files) :=
  inferInstanceAs (Decidable (_ → _))

theorem Unlinked.of_keeps {written : List Location} {files after : Files} {pipeline : Pipeline}
    (h : pipeline.Unlinked files) (hkept : files.Keeps written after) :
    pipeline.Unlinked after := by
  rw [Unlinked, hkept.endsInLink_eq]
  exact h

/-- The paths that the stages of a pipeline write: an object that exists already is not copied onto
itself. -/
def written (pipeline : Pipeline) : List Path :=
  if pipeline.compiler = .prebuilt ∧ pipeline.job.source.same pipeline.job.object then
    [pipeline.job.generated]
  else [pipeline.job.object, pipeline.job.generated]

section Stages

variable {launch : Launcher} {pipeline : Pipeline} {workspace : Workspace}

theorem snd_compile (launch : Launcher) (pipeline : Pipeline) (files : Files) :
    (pipeline.compile launch files).2 =
      (pipeline.compiler.compile launch pipeline.request files).2 := by
  unfold compile
  rcases pipeline.compiler.compile launch pipeline.request files with ⟨_ | _, after⟩
  · rfl
  · rfl

/-- **The stage that compiles** writes the object only. -/
theorem keeps_compileStage (place : Nat) (htree : workspace.files.IsTree)
    (hunlinked : pipeline.Unlinked workspace.files) (hconfined : pipeline.Confined launch) :
    workspace.files.Keeps (workspace.files.places [pipeline.job.object])
      ((pipeline.compileStage launch place).run workspace).2.files := by
  change workspace.files.Keeps (workspace.files.places [pipeline.request.output])
    (pipeline.compile launch workspace.files).2
  rw [snd_compile]
  cases hcompiler : pipeline.compiler with
  | external command =>
    have hends : workspace.files.endsInLink pipeline.request.output = false :=
      hunlinked (by simp [hcompiler])
    exact Command.keeps_compile htree hends (hconfined command hcompiler)
  | prebuilt => exact Compiler.keeps_takePrebuilt pipeline.request htree

/-- The stage that takes an object that is in place writes nothing. -/
theorem files_compileStage_of_same (place : Nat) (hcompiler : pipeline.compiler = .prebuilt)
    (hsame : pipeline.job.source.same pipeline.job.object = true) :
    ((pipeline.compileStage launch place).run workspace).2.files = workspace.files := by
  change (pipeline.compile launch workspace.files).2 = _
  rw [snd_compile, hcompiler]
  exact Compiler.takePrebuilt_of_same pipeline.request hsame workspace.files

/-- **The stage that extracts** writes the generated source only. -/
theorem keeps_extractStage (place : Nat) (htree : workspace.files.IsTree) :
    workspace.files.Keeps (workspace.files.places [pipeline.job.generated])
      ((pipeline.extractStage place).run workspace).2.files := by
  change workspace.files.Keeps _ (pipeline.extraction.run
    (pipeline.objectSource (workspace.state place)) workspace.files).2
  cases hrun : pipeline.extraction.run (pipeline.objectSource (workspace.state place))
    workspace.files with
  | mk result after =>
    cases result with
    | error e => exact (Extraction.keeps_of_run_error htree hrun).of_nil
    | ok extracted => exact (Extraction.leaves_of_run htree hrun).1

/-- **A stage** writes the outputs that it has declared only. -/
theorem keeps_outputs {place : Nat} {stage : Stage Workspace}
    (hstage : stage ∈ pipeline.pair launch place) (htree : workspace.files.IsTree)
    (hunlinked : pipeline.Unlinked workspace.files) (hconfined : pipeline.Confined launch) :
    workspace.files.Keeps (workspace.files.places stage.outputs)
      (stage.run workspace).2.files := by
  rcases List.mem_pair.mp hstage with rfl | rfl
  · exact keeps_compileStage place htree hunlinked hconfined
  · exact keeps_extractStage place htree

/-- A stage writes what the pipeline writes only. -/
theorem keeps_written {place : Nat} {stage : Stage Workspace}
    (hstage : stage ∈ pipeline.pair launch place) (htree : workspace.files.IsTree)
    (hunlinked : pipeline.Unlinked workspace.files) (hconfined : pipeline.Confined launch) :
    workspace.files.Keeps (workspace.files.places pipeline.written)
      (stage.run workspace).2.files := by
  have houtputs := keeps_outputs hstage htree hunlinked hconfined
  -- an object that is in place is declared as an output but not written
  rw [written]
  split
  · next hprebuilt =>
    rcases List.mem_pair.mp hstage with rfl | rfl
    · rw [files_compileStage_of_same place hprebuilt.1 hprebuilt.2]
      exact .refl htree
    · exact houtputs
  · refine houtputs.mono (List.filterMap_subset _ ?_)
    rcases List.mem_pair.mp hstage with rfl | rfl
    · simp [compileStage]
    · simp [extractStage]

end Stages

section Runs

variable {launch : Launcher} {pipelines : List Pipeline} {graph : Graph Workspace} {files : Files}
  (hgraph : Pipeline.graph launch pipelines = .ok graph)
  (hunlinked : ∀ pipeline ∈ pipelines, pipeline.Unlinked files)
  (hconfined : ∀ pipeline ∈ pipelines, pipeline.Confined launch)
include hgraph hunlinked hconfined

/-- A step of a run writes what the pipelines write only. -/
theorem keeps_step {before after : Graph.Standing Workspace} (hstep : Graph.Step before after)
    (haccounted : graph.Accounted before)
    (hkept : files.Keeps (files.places (pipelines.flatMap written)) before.state.files) :
    files.Keeps (files.places (pipelines.flatMap written)) after.state.files := by
  cases hstep with
  | skip => exact hkept
  | run stage hready =>
    have hstage := haccounted.left_mem stage (Multiset.mem_cons_self _ _)
    obtain ⟨pipeline, place, hpipeline, hpair⟩ := (mem_graph_iff hgraph).mp hstage
    have hmem := List.mem_of_getElem? hpipeline
    have hrun := keeps_written hpair hkept.isTree ((hunlinked pipeline hmem).of_keeps hkept)
      (hconfined pipeline hmem)
    rw [hkept.places_eq] at hrun
    refine hkept.trans (hrun.mono (List.filterMap_subset _ fun path hpath => ?_))
    exact List.mem_flatMap.mpr ⟨pipeline, hmem, hpath⟩

end Runs

end Pipeline

namespace BuildSetup

/-! ## Builds -/

/-- Recording targets writes to the ledger only. -/
theorem keeps_recordAll (setup : BuildSetup) (layout : Layout)
    (pairs : List (Target × PipelineState)) (ledger : Ledger.Handle) {files : Files}
    (htree : files.IsTree) (hledger : ∀ location ∈ ledger.places, files.linkIn? location = none) :
    files.Keeps ledger.places (setup.recordAll layout pairs ledger files).2.2 := by
  induction pairs generalizing ledger files with
  | nil => exact .refl htree
  | cons pair rest ih =>
    obtain ⟨target, state⟩ := pair
    rw [recordAll]
    split
    · exact .refl htree
    · next id next between hinsert =>
      have hkept := Ledger.Handle.keeps_insert htree hledger hinsert
      have hplaces := Ledger.Handle.places_of_insert hinsert
      have hrest := ih next hkept.isTree fun location hmem =>
        (hkept.link location).trans (hledger location (hplaces ▸ hmem))
      rw [hplaces] at hrest
      split
      · next hresult =>
        rw [hresult] at hrest
        exact hkept.trans hrest
      · next hresult =>
        rw [hresult] at hrest
        exact hkept.trans hrest

/-- Recording targets after a run writes to the ledger only, since a run leaves the links and the
ledger is none of them. -/
theorem keeps_recordAll_of_keeps (setup : BuildSetup) (layout : Layout)
    (pairs : List (Target × PipelineState)) (ledger : Ledger.Handle) {files ran : Files}
    {written : List Location} (hran : files.Keeps written ran)
    (hledger : ∀ location ∈ ledger.places, files.linkIn? location = none) :
    ran.Keeps ledger.places (setup.recordAll layout pairs ledger ran).2.2 :=
  setup.keeps_recordAll layout pairs ledger hran.isTree fun location hmem =>
    (hran.link location).trans (hledger location hmem)

/-- A program that writes an object to the path that is its only argument. -/
def writeObject : Launcher := fun _ args files =>
  match args with
  | [output] =>
    match files.write ⟨output⟩ sampleObject with
    | .ok after => (.ok ⟨.code 0, []⟩, after)
    | .error e => (.error e, files)
  | _ => (.error .notFound, files)

/-- The program that writes an object writes nothing else. -/
theorem confined_writeObject (program : String) (output : Path) :
    Launcher.Confined writeObject program [output.text] output := by
  intro files htree _
  simp only [writeObject]
  split
  · next hwrite => exact (Files.keeps_writeContent htree hwrite).1
  · exact .refl htree

end BuildSetup

end KernelCatalog
