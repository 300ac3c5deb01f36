import KernelCatalog.Proofs.Build.Built
import KernelCatalog.Proofs.Build.Turns
import KernelCatalog.Proofs.Files.Prepare

/-!
# The stages of targets, step by step

What a stage of a target does is a task: the one that takes an object that exists checks the source,
makes the directory around the object and copies the source; the one that extracts reads the object,
reads the generated source, makes the directory around it and writes it. Both note how far they have
come. Done at once, a task is its stage, and it minds its area where its paths are firm and others
keep away from them.

* `Pipeline.run_compileTask`, `Pipeline.run_extractTask`: tasks that are done at once.
* `Area.minds_compileTask`, `Area.minds_extractTask`: tasks beside others.
-/

namespace KernelCatalog

/-! ## Tasks -/

/-- Tries to change the files, which stay as they are if that fails. -/
def Files.attempt (change : Files → Except FileError Files) (files : Files) :
    Except FileError Unit × Files :=
  match change files with
  | .error e => (.error e, files)
  | .ok after => (.ok (), after)

/-- Copies an object that exists into place, step by step. -/
def Compiler.takeTask (request : CompileRequest)
    (next : Except CompileError Unit → Task Workspace Outcome) : Task Workspace Outcome :=
  Workspace.look (fun files => files.isFile request.source) fun found =>
    if !found then next (.error (.missingOutput request.source))
    else if request.source.same request.output then next (.ok ())
    else
      Workspace.onFiles (fun files => files.makeParent request.output) fun
        | .error (path, e) => next (.error (.io path e))
        | .ok () =>
          Workspace.onFiles (fun files => files.copy request.source request.output) fun
            | .error e => next (.error (.io request.output e))
            | .ok () => next (.ok ())

/-- Writes a text to a file that does not hold it, step by step. -/
def Extraction.writeTask (path : Path) (text : String)
    (next : Except StageError Bool → Task Workspace Outcome) : Task Workspace Outcome :=
  Workspace.look (fun files => holds files path text) fun held =>
    if held then next (.ok false)
    else
      Workspace.onFiles (fun files => files.makeParent path) fun
        | .error (parent, e) => next (.error (.write parent e))
        | .ok () =>
          Workspace.onFiles (Files.attempt fun files => files.writeText path text) fun
            | .error e => next (.error (.write path e))
            | .ok () => next (.ok true)

/-- Reads a binary and writes the source that is generated from it, step by step. -/
def Extraction.task (extraction : Extraction) (source : ObjectSource)
    (next : Except StageError Extracted → Task Workspace Outcome) : Task Workspace Outcome :=
  match binary source with
  | .error e => next (.error e)
  | .ok path =>
    Workspace.look (fun files => Object.readBytes files path) fun
      | .error e => next (.error (.binary e))
      | .ok bytes =>
        match extraction.generate path bytes with
        | .error e => next (.error e)
        | .ok (catalog, generated) =>
          writeTask extraction.generatedPath generated fun
            | .error e => next (.error e)
            | .ok changed =>
              next (.ok ⟨source.target, catalog, generated, extraction.generatedPath, path,
                Digest.sha256Hex bytes, changed⟩)

namespace Pipeline

/-- The last step of a stage notes how it has ended. -/
def finish {α : Type} (place : Nat) (change : Progress α → PipelineState → PipelineState)
    (result : Except StageError α) : Task Workspace Outcome :=
  Workspace.noting place (change (.ofRun StageError.message result))
    (.done (.ofRun StageError.message result))

/-- What is noted about a compilation. -/
def noteCompile (progress : Progress Path) (state : PipelineState) : PipelineState :=
  { state with compile := progress }

/-- What is noted about an extraction. -/
def noteExtract (progress : Progress Extracted) (state : PipelineState) : PipelineState :=
  { state with extract := progress }

/-- The stage that takes an object that exists, step by step. -/
def compileTask (pipeline : Pipeline) (place : Nat) : Task Workspace Outcome :=
  Workspace.noting place (noteCompile .running) <|
    Compiler.takeTask pipeline.request fun
      | .ok () => finish place noteCompile (.ok pipeline.job.object)
      | .error e => finish place noteCompile (.error (.compile pipeline.job.name e))

/-- The stage that extracts, step by step. -/
def extractTask (pipeline : Pipeline) (place : Nat) : Task Workspace Outcome :=
  Workspace.noting place (noteExtract .running) <|
    Workspace.ask place fun state =>
      pipeline.extraction.task (pipeline.objectSource state) (finish place noteExtract)

end Pipeline

/-! ## Tasks that are done at once -/

/-- Taking an object at once. -/
theorem Compiler.run_takeTask (request : CompileRequest)
    (next : Except CompileError Unit → Task Workspace Outcome) (workspace : Workspace) :
    (takeTask request next).run workspace =
      (next (takePrebuilt request workspace.files).1).run
        (workspace.withFiles (takePrebuilt request workspace.files).2) := by
  unfold takeTask takePrebuilt
  rw [Workspace.look, Task.run_act]
  split
  · rfl
  · split
    · rfl
    · rw [Workspace.onFiles, Task.run_act]
      rcases workspace.files.makeParent request.output with ⟨⟨path, e⟩ | _, made⟩
      · rfl
      · simp only [Workspace.onFiles, Task.run_act, Workspace.files_withFiles]
        rcases made.copy request.source request.output with ⟨_ | _, after⟩
        · rfl
        · rfl

/-- Writing a text at once. -/
theorem Extraction.run_writeTask (path : Path) (text : String)
    (next : Except StageError Bool → Task Workspace Outcome) (workspace : Workspace) :
    (writeTask path text next).run workspace =
      (next (writeIfChanged workspace.files path text).1).run
        (workspace.withFiles (writeIfChanged workspace.files path text).2) := by
  unfold writeTask writeIfChanged
  rw [Workspace.look, Task.run_act]
  split
  · rfl
  · rw [Workspace.onFiles, Task.run_act]
    rcases workspace.files.makeParent path with ⟨⟨parent, e⟩ | _, made⟩
    · rfl
    · simp only [Workspace.onFiles, Task.run_act, Workspace.files_withFiles, Files.attempt]
      cases made.writeText path text with
      | error e => rfl
      | ok after => rfl

/-- Extracting at once. -/
theorem Extraction.run_task (extraction : Extraction) (source : ObjectSource)
    (next : Except StageError Extracted → Task Workspace Outcome) (workspace : Workspace) :
    (extraction.task source next).run workspace =
      (next (extraction.run source workspace.files).1).run
        (workspace.withFiles (extraction.run source workspace.files).2) := by
  unfold task Extraction.run
  cases binary source with
  | error e => rfl
  | ok path =>
    simp only
    rw [Workspace.look, Task.run_act]
    cases Object.readBytes workspace.files path with
    | error e => rfl
    | ok bytes =>
      simp only
      cases extraction.generate path bytes with
      | error e => rfl
      | ok made =>
        obtain ⟨catalog, generated⟩ := made
        simp only
        rw [run_writeTask]
        rcases writeIfChanged workspace.files extraction.generatedPath generated with
          ⟨_ | _, after⟩
        · rfl
        · rfl

namespace Workspace

/-- What is noted before and after a change of the files is noted once. -/
theorem note_withFiles_note (place : Nat) (first second : PipelineState → PipelineState)
    (files : Files) (workspace : Workspace) :
    ((workspace.note place first).withFiles files).note place second =
      workspace.setState place (second (first (workspace.state place))) files := by
  by_cases hplace : place < workspace.states.length
  · simp [note, withFiles, setState, Workspace.state, hplace]
  · have hset : ∀ state, workspace.states.set place state = workspace.states := fun state =>
      List.set_eq_of_length_le (Nat.le_of_not_lt hplace)
    simp [note, withFiles, setState, hset]

end Workspace

namespace Pipeline

variable {launch : Launcher} {pipeline : Pipeline} {place : Nat}

/-- A stage that takes an object that exists gives its path, or tells why there is none. -/
theorem compile_of_prebuilt (launch : Launcher) (hprebuilt : pipeline.compiler = .prebuilt)
    (files : Files) :
    pipeline.compile launch files =
      (((Compiler.takePrebuilt pipeline.request files).1.map fun _ => pipeline.job.object).mapError
        (.compile pipeline.job.name), (Compiler.takePrebuilt pipeline.request files).2) := by
  rw [compile, hprebuilt, Compiler.compile]
  rcases Compiler.takePrebuilt pipeline.request files with ⟨_ | _, after⟩ <;> rfl

/-- **The stage that takes an object that exists** is its task, done at once. -/
theorem run_compileTask (launch : Launcher) (hprebuilt : pipeline.compiler = .prebuilt)
    (place : Nat) (workspace : Workspace) :
    (pipeline.compileTask place).run workspace =
      (pipeline.compileStage launch place).run workspace := by
  rw [compileTask, Workspace.noting, Task.run_step, Compiler.run_takeTask, Workspace.files_note]
  simp only [compileStage, runCompile, compile_of_prebuilt launch hprebuilt]
  rcases Compiler.takePrebuilt pipeline.request workspace.files with ⟨_ | _, after⟩
  · simp [Except.map, Except.mapError, finish, Workspace.noting, Workspace.note_withFiles_note,
      noteCompile]
  · simp [Except.map, Except.mapError, finish, Workspace.noting, Workspace.note_withFiles_note,
      noteCompile]

/-- What an extraction notes first does not change what it knows of the compilation. -/
theorem objectSource_note (progress : Progress Extracted) (workspace : Workspace) :
    pipeline.objectSource ((workspace.note place (noteExtract progress)).state place) =
      pipeline.objectSource (workspace.state place) := by
  rw [Workspace.state_note_self]
  split
  · rfl
  · next hplace => simp [Workspace.state, hplace]

/-- **The stage that extracts** is its task, done at once. -/
theorem run_extractTask (pipeline : Pipeline) (place : Nat) (workspace : Workspace) :
    (pipeline.extractTask place).run workspace = (pipeline.extractStage place).run workspace := by
  rw [extractTask, Workspace.noting, Task.run_step, Workspace.ask, Task.run_act,
    Extraction.run_task, objectSource_note, Workspace.files_note]
  simp only [extractStage, runExtract]
  simp [finish, Workspace.noting, Workspace.note_withFiles_note, noteExtract]

end Pipeline

/-! ## Tasks beside others -/

namespace Area

variable {area : Area} {files : Files} {path : Path}

/-- A path in an area at which a file can be looked at: it is firm, and others do not write it. -/
structure Sees (area : Area) (files : Files) (path : Path) : Prop where
  firm : files.Firm path
  not_mem : ∀ location, files.place? path = some location → location ∉ area.others

/-- A path that an area owns: it is firm, it leads to an own place, and it does not come by what
others write. -/
structure Owns (area : Area) (files : Files) (path : Path) : Prop where
  firm : files.Firm path
  subset : files.places [path] ⊆ area.own
  met : ∀ location ∈ files.met path, location ∉ area.others

theorem Sees.of_keeps {written : List Location} {after : Files} (h : area.Sees files path)
    (hkept : files.Keeps written after) (htree : files.IsTree) : area.Sees after path := by
  refine ⟨hkept.firm htree h.firm, ?_⟩
  rw [hkept.place?_eq]
  exact h.not_mem

theorem Owns.of_keeps {written : List Location} {after : Files} (h : area.Owns files path)
    (hkept : files.Keeps written after) (htree : files.IsTree) : area.Owns after path := by
  refine ⟨hkept.firm htree h.firm, ?_, ?_⟩
  · rw [hkept.places_eq]
    exact h.subset
  · rw [hkept.met_eq]
    exact h.met

theorem Sees.fileAt?_eq (h : area.Sees files path) (htree : files.IsTree) {shared : Files}
    (hshared : files.Spares area.others area.own shared) :
    shared.fileAt? path = files.fileAt? path :=
  hshared.keeps.fileAt?_eq_of_firm htree h.firm h.not_mem

theorem Owns.get?_eq (h : area.Owns files path) {shared : Files}
    (hshared : files.Spares area.others area.own shared) (location : Location)
    (hplace : files.place? path = some location) :
    shared.get? location = files.get? location :=
  hshared.get?_eq location (h.subset (by simp [Files.places, hplace]))

/-- The file at a path that can be looked at stays what it was in the beginning of a wave, if it is
not an own one. -/
theorem Joint.fileAt?_eq {area : Stage Workspace → Area} {start shared : Workspace}
    {before after : List (Graph.Strand Workspace)} {strand : Graph.Strand Workspace}
    (h : Joint area start (before ++ strand :: after) shared) (htree : start.files.IsTree)
    (hsees : (area strand.stage).Sees start.files path)
    (hown : ∀ location, start.files.place? path = some location →
      location ∉ (area strand.stage).own) :
    shared.files.fileAt? path = start.files.fileAt? path := by
  have hstays := h.stays strand (List.mem_append_right _ List.mem_cons_self)
  have hkept := hstays.spares.keeps
  calc
    shared.files.fileAt? path = strand.alone.files.fileAt? path :=
      (hsees.of_keeps hkept htree).fileAt?_eq hkept.isTree (h.beside htree).spares
    _ = start.files.fileAt? path := hkept.fileAt?_eq_of_firm htree hsees.firm hown

namespace Minds

variable {β : Type} {alone : Workspace}

/-- A step that checks whether there is a file. -/
theorem isFile {next : Bool → Task Workspace Outcome} (htree : alone.files.IsTree)
    (hsees : area.Sees alone.files path)
    (hrest : area.Minds (next (alone.files.isFile path)) alone) :
    area.Minds (Workspace.look (fun files => files.isFile path) next) alone := by
  refine look htree (fun shared hshared => ?_) hrest
  rw [Files.isFile_eq_isSome, Files.isFile_eq_isSome, hsees.fileAt?_eq htree hshared]

/-- A step that checks whether a file holds a text. -/
theorem holds {text : String} {next : Bool → Task Workspace Outcome} (htree : alone.files.IsTree)
    (hsees : area.Sees alone.files path)
    (hrest : area.Minds (next (Extraction.holds alone.files path text)) alone) :
    area.Minds (Workspace.look (fun files => Extraction.holds files path text) next) alone := by
  refine look htree (fun shared hshared => ?_) hrest
  rw [Bool.eq_iff_iff, Extraction.holds_iff, Extraction.holds_iff, Files.read_eq_ok_iff,
    Files.read_eq_ok_iff, hsees.fileAt?_eq htree hshared]

/-- A step that reads a file that is there. -/
theorem readBytes {next : Except BinaryError Bytes → Task Workspace Outcome}
    (htree : alone.files.IsTree) (hsees : area.Sees alone.files path) {file : Content × Permissions}
    (hfile : alone.files.fileAt? path = some file)
    (hrest : area.Minds (next (.ok file.1.bytes)) alone) :
    area.Minds (Workspace.look (fun files => Object.readBytes files path) next) alone := by
  have hread := Pipeline.readBytes_of_fileAt? hfile
  refine look htree (fun shared hshared => ?_) (by rwa [hread])
  rw [hread, Pipeline.readBytes_of_fileAt? ((hsees.fileAt?_eq htree hshared).trans hfile)]

/-- A step that makes the directory around an own path. -/
theorem makeParent {next : Except (Path × FileError) Unit → Task Workspace Outcome}
    (htree : alone.files.IsTree) (howns : area.Owns alone.files path)
    (hrest : area.Minds (next (alone.files.makeParent path).1)
      (alone.withFiles (alone.files.makeParent path).2)) :
    area.Minds (Workspace.onFiles (fun files => files.makeParent path) next) alone := by
  refine onFiles ⟨(Files.keeps_makeParent path htree).of_nil, fun location hmem => ?_⟩
    (fun shared hshared => ?_) hrest
  · exact (Files.touches_makeParent htree).get?_eq location fun hmet => howns.met location hmet hmem
  · obtain ⟨hresult, halike⟩ := hshared.keeps.makeParent_alike htree howns.firm howns.met
    have hkept := Files.keeps_makeParent path hshared.keeps.isTree
    exact ⟨hresult, halike.mono (List.nil_subset _), hkept.current_eq, hkept.unrestricted_eq⟩

/-- A step that copies a file to an own path. -/
theorem copy {source : Path} {file : Content × Permissions}
    {next : Except FileError Unit → Task Workspace Outcome}
    (htree : alone.files.IsTree) (howns : area.Owns alone.files path)
    (hreach : ∃ directory, alone.files.reach (alone.files.start path.text)
      (Files.steps path.text).dropLast = .ok directory)
    (hsees : area.Sees alone.files source) (hsource : alone.files.fileAt? source = some file)
    (hapart : ∀ location, alone.files.place? source = some location →
      alone.files.place? path ≠ some location)
    (hrest : area.Minds (next (alone.files.copy source path).1)
      (alone.withFiles (alone.files.copy source path).2)) :
    area.Minds (Workspace.onFiles (fun files => files.copy source path) next) alone := by
  obtain ⟨directory, hreach⟩ := hreach
  have hkept := Files.keeps_copy source path htree
  refine onFiles ⟨hkept.mono howns.subset, fun location hmem => ?_⟩ (fun shared hshared => ?_) hrest
  · exact (Files.touches_copy source htree).get?_eq location fun hmet =>
      howns.met location hmet hmem
  · obtain ⟨hresult, halike⟩ := hshared.keeps.copy_alike htree howns.firm hreach
      (howns.get?_eq hshared) hsource
      fun location hplace => ⟨hsees.not_mem location hplace, hapart location hplace⟩
    have hboth := Files.keeps_copy source path hshared.keeps.isTree
    exact ⟨hresult, halike.mono howns.subset, hboth.current_eq, hboth.unrestricted_eq⟩

/-- A step that writes a text to an own path. -/
theorem writeText {text : String} {next : Except FileError Unit → Task Workspace Outcome}
    (htree : alone.files.IsTree) (howns : area.Owns alone.files path)
    (hreach : ∃ directory, alone.files.reach (alone.files.start path.text)
      (Files.steps path.text).dropLast = .ok directory)
    (hrest : ∀ result after, after.IsTree → area.Minds (next result) (alone.withFiles after)) :
    area.Minds (Workspace.onFiles (Files.attempt fun files => files.writeText path text) next)
      alone := by
  obtain ⟨directory, hreach⟩ := hreach
  have hkept : ∀ {before : Files}, before.IsTree →
      before.Keeps (before.places [path])
        (Files.attempt (fun files => files.writeText path text) before).2 := by
    intro before htree
    unfold Files.attempt
    split
    · exact .refl htree
    · next after hwrite => exact (Files.keeps_writeContent htree hwrite).1
  refine onFiles ⟨(hkept htree).mono howns.subset, fun location hmem => ?_⟩
    (fun shared hshared => ?_) (hrest _ _ (hkept htree).isTree)
  · unfold Files.attempt
    split
    · rfl
    · next after hwrite =>
      exact (Files.touches_writeContent htree hwrite).get?_eq location fun hmet =>
        howns.met location hmet hmem
  · have hcurrent := (hkept hshared.keeps.isTree).current_eq
    have hunrestricted := (hkept hshared.keeps.isTree).unrestricted_eq
    rcases hshared.keeps.writeContent_alike htree howns.firm hreach (howns.get?_eq hshared)
      (.plain (Text.toBytes text)) with ⟨e, halone, hboth⟩ | ⟨next, after, halone, hboth, halike⟩
    · simp only [Files.attempt, Files.writeText, Files.write, halone, hboth]
      exact ⟨trivial, .refl, trivial, trivial⟩
    · simp only [Files.attempt, Files.writeText, Files.write, halone, hboth]
        at hcurrent hunrestricted ⊢
      exact ⟨trivial, halike.mono howns.subset, hcurrent, hunrestricted⟩

end Minds

variable {alone : Workspace}

/-- **Taking an object beside others.** -/
theorem minds_takeTask {request : CompileRequest}
    {next : Except CompileError Unit → Task Workspace Outcome} (htree : alone.files.IsTree)
    (hsees : area.Sees alone.files request.source) (howns : area.Owns alone.files request.output)
    (hapart : ∀ location, alone.files.place? request.source = some location →
      alone.files.place? request.output ≠ some location)
    (hnext : ∀ result after, after.IsTree → area.Minds (next result) (alone.withFiles after)) :
    area.Minds (Compiler.takeTask request next) alone := by
  unfold Compiler.takeTask
  refine .isFile htree hsees ?_
  split
  · exact hnext _ alone.files htree
  · next hfound =>
    split
    · exact hnext _ alone.files htree
    · have hkept := Files.keeps_makeParent request.output htree
      refine .makeParent htree howns ?_
      split
      · exact hnext _ _ hkept.isTree
      · next hmade =>
        obtain ⟨directory, hreach⟩ := Files.reach_makeParent htree howns.firm.start hmade
        obtain ⟨file, hsource⟩ : ∃ file, alone.files.fileAt? request.source = some file := by
          rw [Files.isFile_eq_isSome, Bool.not_eq_true', Bool.not_eq_false] at hfound
          exact Option.isSome_iff_exists.mp hfound
        refine .copy hkept.isTree (howns.of_keeps hkept htree) ⟨directory, ?_⟩
          (hsees.of_keeps hkept htree)
          (hkept.fileAt?_of_some (fun _ _ => List.not_mem_nil) hsource) ?_ ?_
        · rw [Workspace.files_withFiles, hkept.start_eq, hreach]
        · simpa only [Workspace.files_withFiles, hkept.place?_eq] using hapart
        · have hcopied := (Files.keeps_copy request.source request.output hkept.isTree).isTree
          split
          · exact hnext _ _ hcopied
          · exact hnext _ _ hcopied

/-- **Writing a text beside others.** -/
theorem minds_writeTask {text : String} {next : Except StageError Bool → Task Workspace Outcome}
    (htree : alone.files.IsTree) (hsees : area.Sees alone.files path)
    (howns : area.Owns alone.files path)
    (hnext : ∀ result after, after.IsTree → area.Minds (next result) (alone.withFiles after)) :
    area.Minds (Extraction.writeTask path text next) alone := by
  unfold Extraction.writeTask
  refine .holds htree hsees ?_
  split
  · exact hnext _ alone.files htree
  · have hkept := Files.keeps_makeParent path htree
    refine .makeParent htree howns ?_
    split
    · exact hnext _ _ hkept.isTree
    · next hmade =>
      obtain ⟨directory, hreach⟩ := Files.reach_makeParent htree howns.firm.start hmade
      refine .writeText hkept.isTree (howns.of_keeps hkept htree) ⟨directory, ?_⟩
        fun result after hafter => ?_
      · rw [Workspace.files_withFiles, hkept.start_eq, hreach]
      · cases result with
        | error e => exact hnext _ after hafter
        | ok => exact hnext _ after hafter

theorem minds_finish {α : Type} {change : Progress α → PipelineState → PipelineState}
    (htree : alone.files.IsTree) (result : Except StageError α) :
    area.Minds (Pipeline.finish area.place change result) alone :=
  .noting htree (.done ..)

variable {pipeline : Pipeline}

/-- **The stage that takes an object that exists, beside others.** -/
theorem minds_compileTask (htree : alone.files.IsTree)
    (hsees : area.Sees alone.files pipeline.job.source)
    (howns : area.Owns alone.files pipeline.job.object)
    (hapart : ∀ location, alone.files.place? pipeline.job.source = some location →
      alone.files.place? pipeline.job.object ≠ some location) :
    area.Minds (pipeline.compileTask area.place) alone := by
  refine .noting htree (minds_takeTask htree hsees howns hapart fun result after hafter => ?_)
  cases result with
  | error e => exact minds_finish hafter _
  | ok => exact minds_finish hafter _

/-- **The stage that extracts, beside others**, once there is an object. -/
theorem minds_extractTask (htree : alone.files.IsTree) {object : Content × Permissions}
    (hcompiled : (alone.state area.place).compile.result? = some pipeline.job.object)
    (hobject : alone.files.fileAt? pipeline.job.object = some object)
    (hsees : ∀ path ∈ pipeline.job.outputs, area.Sees alone.files path)
    (howns : area.Owns alone.files pipeline.job.generated) :
    area.Minds (pipeline.extractTask area.place) alone := by
  have hnoted : (alone.note area.place (Pipeline.noteExtract .running)).files.IsTree := htree
  refine .noting htree (.ask hnoted ?_)
  rw [Pipeline.objectSource_note, Extraction.task, Pipeline.binary_objectSource hcompiled]
  refine .readBytes hnoted (hsees _ List.mem_cons_self) hobject ?_
  split
  · exact absurd ‹_› (by simp)
  · next bytes _ =>
    split
    · exact minds_finish hnoted _
    · refine minds_writeTask hnoted (hsees _ pipeline.job.generated_mem_outputs) howns
        fun result after hafter => ?_
      cases result with
      | error e => exact minds_finish hafter _
      | ok => exact minds_finish hafter _

end Area

end KernelCatalog
