import KernelCatalog.Proofs.Build.Built

/-!
# Calls of the stages of a target

The two stages of a target can be called in any order and any number of times, and the files can
change in any way in between. What a stage remembers is always what its last call came to, and an
extraction has always been made from the object that is at its path when it is called.

* `Progress.Tells`: a stage remembers how a call has ended.
* `Pipeline.Reached`: how far the stages have come after any calls.
* `Pipeline.Reached.extracts`: what an extraction that succeeds was made from.
* `Pipeline.calls_are_told`: what the next call comes to after any calls.
-/

namespace KernelCatalog

/-! ## What is remembered -/

/-- A stage remembers how a call has ended: it is done if the call gave a result, which it has, and
it has failed if the call gave an error, whose text it has. -/
structure Progress.Tells {α : Type} (progress : Progress α) (result : Except StageError α) :
    Prop where
  done_iff : progress.status = .done ↔ ∃ value, result = .ok value
  failed_iff : progress.status = .failed ↔ ∃ e, result = .error e
  result_eq : ∀ value, progress.result? = some value ↔ result = .ok value
  failure_eq : ∀ text, progress.failure? = some text ↔ ∃ e, result = .error e ∧ e.message = text

/-- A stage remembers how its last call has ended. -/
theorem Progress.tells_ofRun {α : Type} (result : Except StageError α) :
    (Progress.ofRun StageError.message result).Tells result := by
  cases result with
  | ok value => constructor <;> simp [Progress.ofRun, status, result?, failure?]
  | error e => constructor <;> simp [Progress.ofRun, status, result?, failure?]

/-! ## Extractions -/

/-- What an extraction generates comes from the object that its bytes hold. -/
theorem Extraction.of_generate_eq_ok {extraction : Extraction} {path : Path} {bytes : Bytes}
    {catalog : Catalog} {generated : String}
    (h : extraction.generate path bytes = .ok (catalog, generated)) :
    ∃ object, Object.readFrom path.text bytes = .ok object ∧
      extraction.registry.extract object = .ok catalog := by
  unfold generate at h
  split at h
  · exact absurd h (by simp)
  · next object hobject =>
    split at h
    · exact absurd h (by simp)
    · next hextract =>
      obtain ⟨rfl, -⟩ := Prod.mk.inj (Except.ok.inj h)
      exact ⟨object, hobject, hextract⟩

/-- Bytes are read from a file. -/
theorem Object.readBytes_eq_ok_iff {files : Files} {path : Path} {bytes : Bytes} :
    readBytes files path = .ok bytes ↔ files.read path = .ok bytes := by
  unfold readBytes
  split
  · next hread => simp [hread]
  · next hread => simp [hread]

namespace Pipeline

variable {launch : Launcher} {pipeline : Pipeline} {state : PipelineState}

/-- An extraction is refused before it looks at any file while the compilation is not done. -/
theorem run_extraction_of_not_done (h : state.compile.status ≠ .done) (files : Files) :
    pipeline.extraction.run (pipeline.objectSource state) files =
      (.error (.notReady pipeline.extractName pipeline.compileName), files) := by
  have hbinary : Extraction.binary (pipeline.objectSource state) =
      .error (.notReady pipeline.extractName pipeline.compileName) := by
    obtain ⟨compile, extract⟩ := state
    cases compile with
    | done path => exact absurd rfl h
    | _ => rfl
  rw [Extraction.run, hbinary]

/-! ## Calls -/

/-- How far the stages of a target have come after any calls, each of which finds any files. -/
inductive Reached (launch : Launcher) (pipeline : Pipeline) : PipelineState → Prop where
  | start : Reached launch pipeline {}
  | compile {state : PipelineState} (files : Files) (before : Reached launch pipeline state) :
      Reached launch pipeline (pipeline.runCompile launch state files).2.1
  | extract {state : PipelineState} (files : Files) (before : Reached launch pipeline state) :
      Reached launch pipeline (pipeline.runExtract state files).2.1

/-- A compilation that succeeds has made the object. -/
theorem of_compile_eq_ok {files after : Files} {path : Path}
    (h : pipeline.compile launch files = (.ok path, after)) : path = pipeline.job.object := by
  unfold Pipeline.compile at h
  split at h
  · exact (Except.ok.inj (Prod.mk.inj h).1).symm
  · exact absurd (Prod.mk.inj h).1 (by simp)

theorem Reached.object_eq (h : Reached launch pipeline state) {path : Path}
    (hpath : state.compile.result? = some path) : path = pipeline.job.object := by
  induction h with
  | start => exact absurd hpath (by simp [Progress.result?])
  | compile files _ _ =>
    have hcompiled := (Progress.tells_ofRun (pipeline.compile launch files).1).result_eq path
    exact of_compile_eq_ok (Prod.ext (hcompiled.mp hpath) rfl)
  | extract files _ ih => exact ih hpath

/-- What an extraction that succeeds was made from. -/
structure Extracts (pipeline : Pipeline) (state : PipelineState) (files : Files)
    (extracted : Extracted) : Prop where
  compiled : state.compile.status = .done
  binaryPath_eq : extracted.binaryPath = pipeline.job.object
  read_binary : ∃ bytes object, files.read pipeline.job.object = .ok bytes ∧
    extracted.binaryHash = Digest.sha256Hex bytes ∧
    Object.readFrom pipeline.job.object.text bytes = .ok object ∧
    pipeline.registry.extract object = .ok extracted.catalog
  generatedPath_eq : extracted.generatedPath = pipeline.job.generated

/-- **An extraction that succeeds** after any calls was made from the object, and what it has
generated is in its file. -/
theorem Reached.extracts (h : Reached launch pipeline state) {files after : Files}
    {extracted : Extracted}
    (hrun : pipeline.extraction.run (pipeline.objectSource state) files = (.ok extracted, after)) :
    pipeline.Extracts state files extracted ∧ (files.IsTree →
      after.read extracted.generatedPath = .ok (Text.toBytes extracted.generated)) := by
  obtain ⟨path, bytes, catalog, generated, changed, hbinary, hread, hgenerate, hwrite, rfl⟩ :=
    Extraction.of_run_eq_ok hrun
  obtain ⟨object, hobject, hextract⟩ := Extraction.of_generate_eq_ok hgenerate
  obtain rfl : path = pipeline.job.object := h.object_eq (result?_of_binary hbinary)
  rw [Object.readBytes_eq_ok_iff] at hread
  refine ⟨⟨?_, rfl, ⟨bytes, object, hread, rfl, hobject, hextract⟩, rfl⟩, fun htree => ?_⟩
  · by_contra hnot
    rw [run_extraction_of_not_done hnot] at hrun
    exact absurd (Prod.mk.inj hrun).1 (by simp)
  · exact (Extraction.leaves_of_writeIfChanged htree hwrite).2.read_eq

/-- **What the next call comes to after any calls.** The stage that is called remembers how its call
has ended, and the other one is as it was. What is compiled is the object. Nothing is extracted and
no file is looked at while the compilation is not done, and what is extracted was made from the
object that is at its path then. What is generated is read back afterwards, if the files are those
of a tree. -/
theorem calls_are_told (h : Reached launch pipeline state) (files : Files) :
    (∀ result next after, pipeline.runCompile launch state files = (result, next, after) →
      next.compile.Tells result ∧ next.extract = state.extract ∧
        ∀ path, result = .ok path → path = pipeline.job.object) ∧
    ∀ result next after, pipeline.runExtract state files = (result, next, after) →
      next.extract.Tells result ∧ next.compile = state.compile ∧
        (state.compile.status ≠ .done →
          result = .error (.notReady pipeline.extractName pipeline.compileName) ∧ after = files) ∧
        ∀ extracted, result = .ok extracted → pipeline.Extracts state files extracted ∧
          (files.IsTree →
            after.read extracted.generatedPath = .ok (Text.toBytes extracted.generated)) := by
  refine ⟨fun result next after hrun => ?_, fun result next after hrun => ?_⟩
  · obtain ⟨rfl, hrest⟩ := Prod.mk.inj hrun
    obtain ⟨rfl, rfl⟩ := Prod.mk.inj hrest
    refine ⟨Progress.tells_ofRun _, rfl, fun path hpath => ?_⟩
    exact of_compile_eq_ok (Prod.ext hpath rfl)
  · obtain ⟨rfl, hrest⟩ := Prod.mk.inj hrun
    obtain ⟨rfl, rfl⟩ := Prod.mk.inj hrest
    refine ⟨Progress.tells_ofRun _, rfl, fun hnot => ?_, fun extracted hextracted => ?_⟩
    · exact Prod.mk.inj (run_extraction_of_not_done hnot files)
    · exact h.extracts (Prod.ext hextracted rfl)

/-- The pipeline of the target of the sample whose object is there. -/
def devPipeline : Pipeline :=
  BuildSetup.sampleSetup.pipeline BuildSetup.sampleProject
    ⟨"dev", "dev.o", .amdgpu, none, .prebuilt, none⟩

/-- How far its stages have come when it was extracted too early, and then compiled. -/
def devState : PipelineState :=
  (devPipeline.runCompile BuildSetup.sampleSetup.launch
    (devPipeline.runExtract {} (Files.empty [])).2.1 BuildSetup.sampleFiles).2.1

/-- The files with the object. -/
def devFiles : Files :=
  (devPipeline.compile BuildSetup.sampleSetup.launch BuildSetup.sampleFiles).2

/-- An extraction that came too early failed, and one after the compilation succeeds. -/
theorem calls_are_told_extracted :
    Reached BuildSetup.sampleSetup.launch devPipeline devState ∧
      devState.extract.status = .failed ∧ devFiles.IsTree ∧
      ∃ extracted next after, devPipeline.runExtract devState devFiles =
          (.ok extracted, next, after) ∧
        next.extract.status = .done ∧ devPipeline.Extracts devState devFiles extracted ∧
        after.read extracted.generatedPath = .ok (Text.toBytes extracted.generated) := by
  have hreached : Reached BuildSetup.sampleSetup.launch devPipeline devState :=
    .compile _ (.extract _ .start)
  have hfailed : devState.extract.status = .failed := by decide +kernel
  have htree : devFiles.IsTree := Files.isTree_of_entries (by decide +kernel)
  have hok : (devPipeline.runExtract devState devFiles).1.toOption.isSome = true := by
    decide +kernel
  rcases hrun : devPipeline.runExtract devState devFiles with ⟨_ | extracted, next, after⟩
  · rw [hrun] at hok
    exact absurd hok (by simp [Except.toOption])
  · obtain ⟨htells, -, -, hextracts⟩ := (calls_are_told hreached devFiles).2 _ _ _ hrun
    obtain ⟨hmade, hread⟩ := hextracts extracted rfl
    exact ⟨hreached, hfailed, htree, extracted, next, after, rfl,
      htells.done_iff.mpr ⟨extracted, rfl⟩, hmade, hread htree⟩

end Pipeline

end KernelCatalog
