import KernelCatalog.Proofs.Build.Rebuild

/-!
# Builds that are repeated

A build that is done again at once finds its targets built and its ledger ready for more rows, if
its sources are not written, neither the ledger nor its journal is among its paths, and the copies
of its sources may be written over. So it ends with a summary again: a target that has succeeded
succeeds with the same result, its files stay as they are, and its new row tells the same but for
its number, its times and that nothing was written.

* `Pipeline.Tidy.touches_of_steps`: where a run leaves something.
* `Ledger.Handle.Aside`: a ledger in places of its own.
* `BuildSetup.exists_recordAll_of_ready`: a ledger that is ready takes all rows.
* `BuildSetup.build_again`: what a build does that is repeated.
-/

namespace KernelCatalog

/-! ## Where a run leaves something -/

theorem Compiler.touches_takePrebuilt (request : CompileRequest) {files : Files}
    (htree : files.IsTree) :
    files.Touches (files.met request.output) (takePrebuilt request files).2 := by
  have hparent : files.Touches (files.met request.output) (files.makeParent request.output).2 :=
    Files.touches_makeParent htree
  have hkept := Files.keeps_makeParent request.output htree
  unfold takePrebuilt
  split
  · exact .refl
  · split
    · exact .refl
    · split
      · next hresult => rwa [hresult] at hparent
      · next made hresult =>
        rw [hresult] at hparent hkept
        have hcopied : made.Touches (made.met request.output)
            (made.copy request.source request.output).2 :=
          Files.touches_copy request.source hkept.isTree
        rw [hkept.met_eq] at hcopied
        have htouched := hparent.trans hcopied
        split
        · next hresult => rwa [hresult] at htouched
        · next hresult => rwa [hresult] at htouched

theorem Extraction.touches_writeIfChanged (path : Path) (text : String) {files : Files}
    (htree : files.IsTree) :
    files.Touches (files.met path) (writeIfChanged files path text).2 := by
  have hparent : files.Touches (files.met path) (files.makeParent path).2 :=
    Files.touches_makeParent htree
  have hkept := Files.keeps_makeParent path htree
  unfold writeIfChanged
  split
  · exact .refl
  · split
    · next hresult => rwa [hresult] at hparent
    · next made hresult =>
      rw [hresult] at hparent hkept
      split
      · exact hparent
      · next written hwrite =>
        have hwritten := Files.touches_writeContent hkept.isTree hwrite
        rw [hkept.met_eq] at hwritten
        exact hparent.trans hwritten

theorem Extraction.touches_run (extraction : Extraction) (source : ObjectSource) {files : Files}
    (htree : files.IsTree) :
    files.Touches (files.met extraction.generatedPath) (extraction.run source files).2 := by
  have htouched := fun text => touches_writeIfChanged extraction.generatedPath text htree
  rcases hrun : extraction.run source files with ⟨_ | extracted, after⟩
  · rcases of_run_eq_error hrun with rfl | ⟨generated, fault, hwrite⟩
    · exact .refl
    · simpa [hwrite] using htouched generated
  · obtain ⟨path, bytes, catalog, generated, changed, -, -, -, hwrite, -⟩ := of_run_eq_ok hrun
    simpa [hwrite] using htouched generated

namespace Pipeline

variable {launch : Launcher} {pipelines : List Pipeline} {graph : Graph Workspace} {files : Files}

/-- A stage leaves something on the way to its outputs only. -/
theorem Tidy.touches_run (htidy : Tidy launch pipelines graph files) {stage : Stage Workspace}
    (hstage : stage ∈ graph.stages) {workspace : Workspace} (htree : workspace.files.IsTree) :
    workspace.files.Touches (stage.outputs.flatMap workspace.files.met)
      (stage.run workspace).2.files := by
  obtain ⟨other, elsewhere, hother, hpair⟩ := (mem_graph_iff htidy.graph_eq).mp hstage
  rcases List.mem_pair.mp hpair with rfl | rfl
  · rw [files_compileStage (htidy.prebuilt other (List.mem_of_getElem? hother))]
    have htouched := Compiler.touches_takePrebuilt other.request htree
    exact htouched.mono fun location hmem =>
      List.mem_flatMap.mpr ⟨_, List.mem_singleton_self _, hmem⟩
  · have htouched := other.extraction.touches_run
      (other.objectSource (workspace.state elsewhere)) htree
    exact htouched.mono fun location hmem =>
      List.mem_flatMap.mpr ⟨_, List.mem_singleton_self _, hmem⟩

/-- **A run of pipelines** leaves something on the way to their outputs only. -/
theorem Tidy.touches_of_steps (htidy : Tidy launch pipelines graph files) (htree : files.IsTree)
    {states : List PipelineState} (hlength : states.length = pipelines.length)
    {left : Multiset (Stage Workspace)} {report : Report} {next : Workspace}
    (hsteps : Graph.Steps ⟨graph.stages, .empty, ⟨files, states⟩⟩ ⟨left, report, next⟩) :
    files.Touches ((pipelines.flatMap (·.job.outputs)).flatMap files.met) next.files := by
  refine (hsteps.preserve (P := fun standing => Midway pipelines graph files standing ∧
    files.Touches ((pipelines.flatMap (·.job.outputs)).flatMap files.met) standing.state.files) ?_
    ⟨midway_start graph htree hlength, .refl⟩).2
  rintro _ _ hstep ⟨hmidway, htouched⟩
  refine ⟨hmidway.step htidy.graph_eq htidy.prebuilt hstep, ?_⟩
  cases hstep with
  | skip => exact htouched
  | run stage hready =>
    have hstage := hmidway.accounted.left_mem stage (Multiset.mem_cons_self _ _)
    have hrun := htidy.touches_run hstage hmidway.keeps.isTree
    rw [funext hmidway.keeps.met_eq] at hrun
    refine htouched.trans (hrun.mono ?_)
    obtain ⟨other, elsewhere, hother, hpair⟩ := (mem_graph_iff htidy.graph_eq).mp hstage
    intro location hmem
    obtain ⟨output, houtput, hmet⟩ := List.mem_flatMap.mp hmem
    refine List.mem_flatMap.mpr ⟨output, List.mem_flatMap.mpr
      ⟨other, List.mem_of_getElem? hother, outputs_subset hpair houtput⟩, hmet⟩

end Pipeline

/-! ## A ledger in places of its own -/

namespace Ledger.Handle

/-- A ledger in places of its own: neither it nor its journal is a link or in the place of a path
of the targets, and no output of the targets leads through the journal. -/
structure Aside (ledger : Handle) (layout : Layout) (targets : List Target) (files : Files) :
    Prop where
  link : ∀ location ∈ ledger.places, files.linkIn? location = none
  place : ∀ location ∈ ledger.places, ∀ target ∈ targets, ∀ path ∈ (target.job layout).paths,
    files.place? path ≠ some location
  journal : ∀ journal ∈ ledger.journals, ∀ target ∈ targets,
    ∀ output ∈ (target.job layout).outputs, journal ∉ files.met output

namespace Aside

variable {ledger : Handle} {layout : Layout} {targets : List Target} {files after : Files}
  {written : List Location}

/-- A ledger that is kept in the same places is still aside after files were written. -/
theorem of_keeps (haside : ledger.Aside layout targets files) (hkept : files.Keeps written after)
    {next : Handle} (hplaces : next.places = ledger.places) :
    next.Aside layout targets after where
  link location hmem := by
    rw [hkept.link]
    exact haside.link location (hplaces ▸ hmem)
  place location hmem target htarget path hpath := by
    rw [hkept.place?_eq]
    exact haside.place location (hplaces ▸ hmem) target htarget path hpath
  journal journal hmem target htarget output houtput := by
    have hjournals : next.journals = ledger.journals := by rw [journals, journals, hplaces]
    rw [hkept.met_eq]
    exact haside.journal journal (hjournals ▸ hmem) target htarget output houtput

/-- Writing to the ledger keeps the files of the targets. -/
theorem fileAt?_of_some (haside : ledger.Aside layout targets files)
    (hran : files.Keeps written after) {recorded : Files}
    (hrecorded : after.Keeps ledger.places recorded) {target : Target} (htarget : target ∈ targets)
    {path : Path} (hpath : path ∈ (target.job layout).paths) {file : Content × Permissions}
    (hfile : after.fileAt? path = some file) : recorded.fileAt? path = some file := by
  refine hrecorded.fileAt?_of_some (fun location hlocate hmem => ?_) hfile
  have hplace := Files.place?_of_locate hlocate
  rw [hran.place?_eq] at hplace
  exact haside.place location hmem target htarget path hpath hplace

end Aside

end Ledger.Handle

namespace BuildSetup

/-! ## Recording again -/

/-- **A ledger that is ready takes all rows.** -/
theorem exists_recordAll_of_ready (setup : BuildSetup) (layout : Layout)
    (pairs : List (Target × PipelineState)) {ledger : Ledger.Handle} {files : Files}
    (h : ledger.Ready files) :
    ∃ outcomes written after,
      setup.recordAll layout pairs ledger files = (.ok outcomes, written, after) := by
  induction pairs generalizing ledger files with
  | nil => exact ⟨[], ledger, files, rfl⟩
  | cons pair rest ih =>
    obtain ⟨target, state⟩ := pair
    obtain ⟨id, next, between, hinsert⟩ :=
      Ledger.Handle.insert_of_ready h (setup.record layout target state)
    obtain ⟨outcomes, written, after, hrest⟩ := ih (Ledger.Handle.ready_of_insert hinsert)
    refine ⟨outcome target state id :: outcomes, written, after, ?_⟩
    rw [recordAll]
    simp only [hinsert, hrest]
    rfl

/-- A ledger that has taken rows is kept in the same places. -/
theorem places_of_recordAll {setup : BuildSetup} {layout : Layout}
    {pairs : List (Target × PipelineState)} {ledger written : Ledger.Handle} {files after : Files}
    {recorded : List TargetOutcome}
    (h : setup.recordAll layout pairs ledger files = (.ok recorded, written, after)) :
    written.places = ledger.places := by
  induction pairs generalizing ledger files recorded with
  | nil =>
    obtain ⟨-, hleft⟩ := Prod.mk.inj h
    rw [(Prod.mk.inj hleft).1]
  | cons pair rest ih =>
    obtain ⟨target, state⟩ := pair
    obtain ⟨id, next, between, others, hinsert, hrest, -⟩ := of_recordAll_cons_eq_ok h
    rw [ih hrest, Ledger.Handle.places_of_insert hinsert]

/-- A ledger that has taken rows is ready for more. -/
theorem ready_of_recordAll {setup : BuildSetup} {layout : Layout}
    {pairs : List (Target × PipelineState)} (hne : pairs ≠ []) {ledger written : Ledger.Handle}
    {files after : Files} {recorded : List TargetOutcome}
    (h : setup.recordAll layout pairs ledger files = (.ok recorded, written, after)) :
    written.Ready after := by
  induction pairs generalizing ledger files recorded with
  | nil => exact absurd rfl hne
  | cons pair rest ih =>
    obtain ⟨target, state⟩ := pair
    obtain ⟨id, next, between, others, hinsert, hrest, rfl⟩ := of_recordAll_cons_eq_ok h
    by_cases hnil : rest = []
    · subst hnil
      obtain ⟨-, hleft⟩ := Prod.mk.inj hrest
      obtain ⟨rfl, rfl⟩ := Prod.mk.inj hleft
      exact Ledger.Handle.ready_of_insert hinsert
    · exact ih hnil hrest

/-- **A ledger that has taken the rows of targets takes those of the same targets again**, if it is
left alone in between. -/
theorem exists_recordAll_again {setup : BuildSetup} {layout : Layout} {targets : List Target}
    {states : List PipelineState} {ledger written : Ledger.Handle} {files after : Files}
    {recorded : List TargetOutcome} (hstates : states.length = targets.length)
    (h : setup.recordAll layout (targets.zip states) ledger files = (.ok recorded, written, after))
    {between : Files} (hundisturbed : written.Undisturbed after between) (next : BuildSetup)
    (others : List PipelineState) :
    ∃ outcomes last final,
      next.recordAll layout (targets.zip others) written between = (.ok outcomes, last, final) := by
  by_cases hnil : targets.zip states = []
  -- without targets nothing is recorded, so the ledger need not have been opened
  · have htargets : targets = [] := by
      have hlength := congrArg List.length hnil
      rw [List.length_zip, hstates, Nat.min_self] at hlength
      exact List.length_eq_zero_iff.mp hlength
    subst htargets
    exact ⟨[], written, between, rfl⟩
  · exact exists_recordAll_of_ready _ _ _ ((ready_of_recordAll hnil h).of_undisturbed hundisturbed)

/-! ## Rows and outcomes again -/

/-- The setup of a build at other times. -/
def later (setup : BuildSetup) (startedAt finishedAt : String) : BuildSetup :=
  { setup with startedAt, finishedAt }

end BuildSetup

/-- What becomes of a target in a build that is repeated, if it has succeeded before: the same, and
nothing was written. -/
def TargetOutcome.Repeats (first again : TargetOutcome) : Prop :=
  first.status = .succeeded →
    again = { first with
      output := first.output.map fun output => { output with changed := false }
      runId := again.runId }

/-- The row of a target in a build that is repeated, if it has succeeded before: the same but for
its number and its times, and nothing was written. -/
def Ledger.Row.Repeats (startedAt finishedAt : String) (first again : Row) : Prop :=
  first.status = RunStatus.succeeded.name →
    again = { first with
      id := again.id
      generatedChanged := false
      startedAt := startedAt
      finishedAt := finishedAt }

/-- How far a pipeline comes again that has come to its end before. -/
structure PipelineState.Repeats (first again : PipelineState) : Prop where
  extract_eq : ∀ extracted, first.extract.result? = some extracted →
    again.extract = .done { extracted with changed := false }
  compile_eq : first.extract.result?.isSome → again.compile.result? = first.compile.result?

namespace BuildSetup

/-- The outcome of a pipeline that comes to its end again. -/
theorem outcome_repeats {target : Target} {first again : PipelineState} (h : first.Repeats again)
    (id next : Nat) : (outcome target first id).Repeats (outcome target again next) := by
  intro hstatus
  obtain ⟨extracted, hextracted⟩ :=
    Option.isSome_iff_exists.mp ((verdict_eq_succeeded_iff first).mp hstatus)
  have hagain : again.extract.result? = some { extracted with changed := false } := by
    rw [h.extract_eq extracted hextracted]
    rfl
  simp [outcome, verdict, hextracted, hagain]

/-- The row of a pipeline that comes to its end again. -/
theorem record_repeats (setup : BuildSetup) (layout : Layout) {target : Target}
    {first again : PipelineState} (h : first.Repeats again) (startedAt finishedAt : String)
    (id next : Nat) :
    Ledger.Row.Repeats startedAt finishedAt (.ofRun id (setup.record layout target first))
      (.ofRun next ((setup.later startedAt finishedAt).record layout target again)) := by
  intro hstatus
  have hsucceeded : (verdict first).1 = .succeeded := by
    have hparsed := congrArg RunStatus.parse? hstatus
    rw [RunStatus.parse?_name] at hparsed
    exact Option.some.inj ((RunStatus.parse?_name _).symm.trans hparsed)
  obtain ⟨extracted, hextracted⟩ :=
    Option.isSome_iff_exists.mp ((verdict_eq_succeeded_iff first).mp hsucceeded)
  have hagain : again.extract.result? = some { extracted with changed := false } := by
    rw [h.extract_eq extracted hextracted]
    rfl
  have hcompile := h.compile_eq (by rw [hextracted]; rfl)
  simp [Ledger.Row.ofRun, record, verdict, hextracted, hagain, hcompile, later]

/-- What is numbered one after another stands in the same order. -/
theorem forall₂_map_zipIdx {α β γ δ : Type} {R : α → β → Prop} {S : γ → δ → Prop}
    {f : α × Nat → γ} {g : β × Nat → δ} {as : List α} {bs : List β} (h : List.Forall₂ R as bs)
    (hfg : ∀ a b, R a b → ∀ i j, S (f (a, i)) (g (b, j))) (first next : Nat) :
    List.Forall₂ S ((as.zipIdx first).map f) ((bs.zipIdx next).map g) := by
  induction h generalizing first next with
  | nil => exact .nil
  | cons hab _ ih => exact .cons (hfg _ _ hab first next) (ih (first + 1) (next + 1))

/-! ## Builds -/

/-- A build changes nothing of a project but its open ledger. -/
theorem project_of_build {setup : BuildSetup} {project built : Project} {names : List String}
    {files after : Files} {result : Except BuildError BuildSummary}
    (h : setup.build project names files = (result, built, after)) :
    built = { project with ledger := built.ledger } := by
  have hproject : (setup.build project names files).2.1 =
      { project with ledger := (setup.build project names files).2.1.ledger } := by
    unfold build
    repeat' split
    all_goals rfl
  rwa [h] at hproject

/-- The summary that a build comes to. -/
theorem build_of_run {setup : BuildSetup} {project : Project} {names : List String}
    {targets : List Target} {graph : Graph Workspace} {files after : Files} {report : Report}
    {workspace : Workspace} {outcomes : List TargetOutcome} {ledger : Ledger.Handle}
    (hselect : project.config.select names = .ok targets)
    (hgraph : Pipeline.graph setup.launch (targets.map (setup.pipeline project)) = .ok graph)
    (hrun : graph.run ⟨files, targets.map fun _ => {}⟩ = (.ok report, workspace))
    (hrecord : setup.recordAll project.layout (targets.zip workspace.states) project.ledger
      workspace.files = (.ok outcomes, ledger, after)) :
    setup.build project names files = (.ok ⟨outcomes, report⟩, { project with ledger }, after) := by
  unfold build
  simp only [hselect, hgraph, hrun, hrecord]

/-- Targets stand beside how far their pipelines have come, the one time and the other. -/
theorem forall₂_zip_states {targets : List Target} {first again : Workspace}
    {R : Target × PipelineState → Target × PipelineState → Prop}
    (hfirst : first.states.length = targets.length)
    (hagain : again.states.length = targets.length)
    (h : ∀ (place : Nat) target, targets[place]? = some target →
      R (target, first.state place) (target, again.state place)) :
    List.Forall₂ R (targets.zip first.states) (targets.zip again.states) := by
  refine List.forall₂_iff_get.mpr ⟨by simp [hfirst, hagain], fun place hplace hother => ?_⟩
  have htarget : place < targets.length := by
    rw [List.length_zip] at hplace
    omega
  have hrelated := h place targets[place] (List.getElem?_eq_getElem htarget)
  have hstate : ∀ workspace : Workspace, (hbound : place < workspace.states.length) →
      workspace.state place = workspace.states[place] := by
    intro workspace hbound
    simp [Workspace.state, hbound]
  rw [hstate first (by omega), hstate again (by omega)] at hrelated
  simpa using hrelated

section Again

variable {setup : BuildSetup} {project : Project} {targets : List Target} {graph : Graph Workspace}
  {files after : Files} {report again : Report} {first second : Workspace}

/-- The pipelines of targets are tidy if the targets are: they take objects that exist, different
paths of them are different files, and no source is also an output. -/
theorem tidy_of_targets
    (hgraph : Pipeline.graph setup.launch (targets.map (setup.pipeline project)) = .ok graph)
    (hprebuilt : ∀ target ∈ targets, target.compiler = .prebuilt)
    (hdistinct : files.Distinct (targets.flatMap fun target => (target.job project.layout).paths))
    (hapart : ∀ first ∈ targets, ∀ second ∈ targets,
      ∀ output ∈ (second.job project.layout).outputs,
        (first.job project.layout).source.same output = false) :
    Pipeline.Tidy setup.launch (targets.map (setup.pipeline project)) graph files where
  graph_eq := hgraph
  prebuilt := List.forall_mem_map.mpr fun target htarget => by
    rw [pipeline, hprebuilt target htarget]
    rfl
  distinct := by
    rw [List.flatMap_map]
    exact hdistinct
  apart := List.forall_mem_map.mpr fun first hfirst =>
    List.forall_mem_map.mpr fun second hsecond => hapart first hfirst second hsecond

/-- A run keeps to its outputs, from its first step to its last. -/
theorem midway_of_run
    (htidy : Pipeline.Tidy setup.launch (targets.map (setup.pipeline project)) graph files)
    (htree : files.IsTree)
    (hrun : graph.run ⟨files, targets.map fun _ => {}⟩ = (.ok report, first)) :
    Pipeline.Midway (targets.map (setup.pipeline project)) graph files ⟨0, report, first⟩ := by
  have hsteps := Graph.steps_of_run (Pipeline.of_graph_eq_ok htidy.graph_eq).1 hrun
  exact .of_steps htidy htree (by simp) hsteps

/-- A run and the rows that are recorded after it write outputs and the ledger only. -/
theorem keeps_of_recorded_run
    (htidy : Pipeline.Tidy setup.launch (targets.map (setup.pipeline project)) graph files)
    (htree : files.IsTree)
    (hrun : graph.run ⟨files, targets.map fun _ => {}⟩ = (.ok report, first))
    {ledger : Ledger.Handle} (hrecorded : first.files.Keeps ledger.places after) :
    files.Keeps (files.places ((targets.map (setup.pipeline project)).flatMap Pipeline.written) ++
      ledger.places) after :=
  ((midway_of_run htidy htree hrun).keeps.mono (List.subset_append_left _ _)).trans
    (hrecorded.mono (List.subset_append_right _ _))

/-- A run makes what its targets have come to. -/
theorem making_of_run
    (htidy : Pipeline.Tidy setup.launch (targets.map (setup.pipeline project)) graph files)
    (htree : files.IsTree)
    (hrun : graph.run ⟨files, targets.map fun _ => {}⟩ = (.ok report, first))
    {place : Nat} {target : Target} (htarget : targets[place]? = some target) :
    Pipeline.Making (setup.pipeline project target) place first := by
  have hsteps := Graph.steps_of_run (Pipeline.of_graph_eq_ok htidy.graph_eq).1 hrun
  exact .of_steps htidy (by simp [htarget]) htree (by simp) (state_start targets files place) hsteps

/-- A run makes again what is built already. -/
theorem remaking_of_run
    (htidy : Pipeline.Tidy setup.launch (targets.map (setup.pipeline project)) graph files)
    (htree : files.IsTree)
    (hrun : graph.run ⟨files, targets.map fun _ => {}⟩ = (.ok report, first))
    {place : Nat} {target : Target} (htarget : targets[place]? = some target)
    {extracted : Extracted} {object generated : Content × Permissions}
    (hbuilt : (setup.pipeline project target).Built files extracted object generated)
    (hallows : files.allows object.2 = true) :
    Pipeline.Remaking (setup.pipeline project target) place extracted object generated
      ⟨0, report, first⟩ := by
  have hsteps := Graph.steps_of_run (Pipeline.of_graph_eq_ok htidy.graph_eq).1 hrun
  exact .of_steps htidy (by simp [htarget]) htree hbuilt hallows (by simp)
    (state_start targets files place) hsteps

/-- A target that has succeeded is built when its row was recorded, and the same run makes it
again. -/
theorem exists_remaking_of_runs
    (htidy : Pipeline.Tidy setup.launch (targets.map (setup.pipeline project)) graph files)
    (htree : files.IsTree)
    (hfirst : graph.run ⟨files, targets.map fun _ => {}⟩ = (.ok report, first))
    {ledger : Ledger.Handle} (haside : ledger.Aside project.layout targets files)
    (hrecorded : first.files.Keeps ledger.places after)
    (hsecond : graph.run ⟨after, targets.map fun _ => {}⟩ = (.ok again, second))
    {place : Nat} {target : Target} (htarget : targets[place]? = some target)
    (hwritable : ∀ location ∈ files.place? (target.job project.layout).source,
      files.isProtected location = false)
    {extracted : Extracted} (hextracted : (first.state place).extract.result? = some extracted) :
    ∃ object generated, (setup.pipeline project target).Built after extracted object generated ∧
      Pipeline.Remaking (setup.pipeline project target) place extracted object generated
        ⟨0, again, second⟩ := by
  have hran := (midway_of_run htidy htree hfirst).keeps
  have htotal := keeps_of_recorded_run htidy htree hfirst hrecorded
  obtain ⟨object, generated, hbuilt⟩ :=
    (making_of_run htidy htree hfirst htarget).extracted extracted hextracted
  have hbuilt := hbuilt.of_kept fun path hpath file hfile =>
    haside.fileAt?_of_some hran hrecorded (List.mem_of_getElem? htarget) hpath hfile
  -- the object has the permissions of its source, which is neither an output nor the ledger
  have hallows : files.allows object.2 = true := by
    refine htotal.allows_of_fileAt? (fun location hplace => ⟨fun hmem => ?_,
      hwritable location hplace⟩) hbuilt.source_eq
    rcases List.mem_append.mp hmem with hmem | hmem
    · exact htidy.source_not_mem (List.mem_map_of_mem (List.mem_of_getElem? htarget)) location
        hplace hmem
    · exact haside.place location hmem target (List.mem_of_getElem? htarget) _ (by simp [Job.paths])
        hplace
  exact ⟨object, generated, hbuilt, remaking_of_run (htidy.of_keeps htotal) htotal.isTree hsecond
    htarget hbuilt ((htotal.allows_eq object.2).trans hallows)⟩

/-- **Targets that have succeeded come to the same end** when the same run is done again, after
their rows were recorded. -/
theorem repeats_of_runs
    (htidy : Pipeline.Tidy setup.launch (targets.map (setup.pipeline project)) graph files)
    (htree : files.IsTree)
    (hfirst : graph.run ⟨files, targets.map fun _ => {}⟩ = (.ok report, first))
    {ledger : Ledger.Handle} (haside : ledger.Aside project.layout targets files)
    (hrecorded : first.files.Keeps ledger.places after)
    (hsecond : graph.run ⟨after, targets.map fun _ => {}⟩ = (.ok again, second))
    {place : Nat} {target : Target} (htarget : targets[place]? = some target)
    (hwritable : ∀ location ∈ files.place? (target.job project.layout).source,
      files.isProtected location = false) :
    (first.state place).Repeats (second.state place) := by
  have hpipeline : (targets.map (setup.pipeline project))[place]? =
      some (setup.pipeline project target) := by simp [htarget]
  have hsettled := settled_of_run htidy.graph_eq hfirst place _ hpipeline
  have hsettledAgain := settled_of_run htidy.graph_eq hsecond place _ hpipeline
  refine ⟨fun extracted hextracted => ?_, fun hsome => ?_⟩
  · obtain ⟨object, generated, -, hremaking⟩ :=
      exists_remaking_of_runs htidy htree hfirst haside hrecorded hsecond htarget hwritable
        hextracted
    exact hremaking.extract_eq_done hsettledAgain
  · obtain ⟨extracted, hextracted⟩ := Option.isSome_iff_exists.mp hsome
    obtain ⟨object, generated, -, hremaking⟩ :=
      exists_remaking_of_runs htidy htree hfirst haside hrecorded hsecond htarget hwritable
        hextracted
    have hdone := hremaking.extract_eq_done hsettledAgain
    obtain ⟨made, hmade⟩ := Option.isSome_iff_exists.mp (hsettled.compiled (Or.inl hsome))
    have hcompleted := hsettledAgain.compile.completed_iff.mpr
      (hsettledAgain.compiled (Or.inl (by rw [hdone]; rfl)))
    have hmaking := making_of_run htidy htree hfirst htarget
    rw [hremaking.compiled hcompleted, hmade, (hmaking.compiled made hmade).1]

/-- **The files of targets that have succeeded stay as they are** when the same run is done and
recorded again. -/
theorem fileAt?_of_runs
    (htidy : Pipeline.Tidy setup.launch (targets.map (setup.pipeline project)) graph files)
    (htree : files.IsTree)
    (hfirst : graph.run ⟨files, targets.map fun _ => {}⟩ = (.ok report, first))
    {ledger next : Ledger.Handle} (haside : ledger.Aside project.layout targets files)
    (hrecorded : first.files.Keeps ledger.places after) (hplaces : next.places = ledger.places)
    (hsecond : graph.run ⟨after, targets.map fun _ => {}⟩ = (.ok again, second))
    {final : Files} (hrecordedAgain : second.files.Keeps next.places final)
    {place : Nat} {target : Target} (htarget : targets[place]? = some target)
    (hwritable : ∀ location ∈ files.place? (target.job project.layout).source,
      files.isProtected location = false)
    (hsome : (first.state place).extract.result?.isSome) :
    ∀ path ∈ (target.job project.layout).paths,
      (after.fileAt? path).isSome ∧ final.fileAt? path = after.fileAt? path := by
  intro path hpath
  have htotal := keeps_of_recorded_run htidy htree hfirst hrecorded
  obtain ⟨extracted, hextracted⟩ := Option.isSome_iff_exists.mp hsome
  obtain ⟨object, generated, hbuilt, hremaking⟩ :=
    exists_remaking_of_runs htidy htree hfirst haside hrecorded hsecond htarget hwritable
        hextracted
  obtain ⟨hthere, hsame⟩ := hbuilt.fileAt?_eq hremaking.built path hpath
  obtain ⟨file, hfile⟩ := Option.isSome_iff_exists.mp hthere
  rw [hfile] at hsame ⊢
  -- the second run leaves the file, and so does what is recorded after it
  have hranAgain := (midway_of_run (htidy.of_keeps htotal) htotal.isTree hsecond).keeps
  exact ⟨rfl, (haside.of_keeps htotal hplaces).fileAt?_of_some hranAgain hrecordedAgain
    (List.mem_of_getElem? htarget) hpath hsame⟩

/-- A run leaves a ledger alone that is in places of its own. -/
theorem undisturbed_of_run
    (htidy : Pipeline.Tidy setup.launch (targets.map (setup.pipeline project)) graph files)
    (htree : files.IsTree)
    (hrun : graph.run ⟨files, targets.map fun _ => {}⟩ = (.ok report, first))
    {ledger : Ledger.Handle} (haside : ledger.Aside project.layout targets files) :
    ledger.Undisturbed files first.files := by
  have hsteps := Graph.steps_of_run (Pipeline.of_graph_eq_ok htidy.graph_eq).1 hrun
  have hmidway := midway_of_run htidy htree hrun
  have htouched := htidy.touches_of_steps htree (by simp) hsteps
  refine Ledger.Handle.undisturbed_of_keeps hmidway.keeps htouched
    (fun location hmem hwritten => ?_) fun journal hmem hmet => ?_
  · obtain ⟨path, hpath, hplace⟩ := List.mem_filterMap.mp hwritten
    obtain ⟨pipeline, hpipeline, hpath⟩ := List.mem_flatMap.mp hpath
    obtain ⟨target, htarget, rfl⟩ := List.mem_map.mp hpipeline
    have houtput := Pipeline.written_subset_outputs hpath
    exact haside.place location hmem target htarget path (Job.outputs_subset_paths _ houtput) hplace
  · obtain ⟨output, houtput, hmet⟩ := List.mem_flatMap.mp hmet
    obtain ⟨pipeline, hpipeline, houtput⟩ := List.mem_flatMap.mp houtput
    obtain ⟨target, htarget, rfl⟩ := List.mem_map.mp hpipeline
    exact haside.journal journal hmem target htarget output houtput hmet

/-- **A build that is repeated finds everything in place.** Where the selected targets take objects
that exist, different paths of them are different files, no source is also an output, the user may
write the sources, since their copies have the same permissions, no path leads to the ledger or its
journal, no output leads through the journal, and neither of the two is a link, a build that has
given a summary gives one again when it is repeated. Each target that has succeeded succeeds again
with the same result, but that nothing was written; its files are the same after both builds; and
the ledger gains a row for each target both times, where the rows of such a target differ in their
numbers and times and in that nothing was written. -/
theorem build_again {built : Project} {names : List String} {summary : BuildSummary}
    (htree : files.IsTree) (hselect : project.config.select names = .ok targets)
    (hprebuilt : ∀ target ∈ targets, target.compiler = .prebuilt)
    (hdistinct : files.Distinct (targets.flatMap fun target => (target.job project.layout).paths))
    (hapart : ∀ first ∈ targets, ∀ second ∈ targets,
      ∀ output ∈ (second.job project.layout).outputs,
        (first.job project.layout).source.same output = false)
    (hwritable : ∀ target ∈ targets, ∀ location ∈ files.place? (target.job project.layout).source,
      files.isProtected location = false)
    (hledger : ∀ location ∈ project.ledger.places, files.linkIn? location = none ∧
      ∀ target ∈ targets, ∀ path ∈ (target.job project.layout).paths,
        files.place? path ≠ some location)
    (hjournal : ∀ journal ∈ project.ledger.journals, ∀ target ∈ targets,
      ∀ output ∈ (target.job project.layout).outputs, journal ∉ files.met output)
    (h : setup.build project names files = (.ok summary, built, after))
    (startedAt finishedAt : String) :
    ∃ repeated rebuilt final rows rowsAgain,
      (setup.later startedAt finishedAt).build built names after =
        (.ok repeated, rebuilt, final) ∧
      List.Forall₂ TargetOutcome.Repeats summary.outcomes repeated.outcomes ∧
      List.Forall₂ (fun target outcome => outcome.status = .succeeded →
        ∀ path ∈ (target.job project.layout).paths,
          (after.fileAt? path).isSome ∧ final.fileAt? path = after.fileAt? path)
        targets summary.outcomes ∧
      List.Forall₂ (TargetOutcome.KeptAs project.layout summary.report) summary.outcomes rows ∧
      List.Forall₂ (TargetOutcome.KeptAs project.layout repeated.report) repeated.outcomes
        rowsAgain ∧
      List.Forall₂ (Ledger.Row.Repeats startedAt finishedAt) rows rowsAgain ∧
      built.ledger.rows after = (rows.reverse ++ ·) <$> project.ledger.rows files ∧
      rebuilt.ledger.rows final = (rowsAgain.reverse ++ ·) <$> built.ledger.rows after := by
  obtain ⟨chosen, graph, first, hchosen, hgraph, hrun, hrecord⟩ := of_build_eq_ok h
  obtain rfl := Except.ok.inj (hselect.symm.trans hchosen)
  obtain ⟨ledger, rfl⟩ : ∃ ledger, built = { project with ledger } := ⟨_, project_of_build h⟩
  have hplaces : ledger.places = project.ledger.places := places_of_recordAll hrecord
  have hstates : first.states.length = targets.length := by
    rw [Pipeline.length_states_of_run hgraph hrun, List.length_map]
  -- the first build: it writes outputs and the ledger, and its run leaves the ledger alone
  have htidy := tidy_of_targets hgraph hprebuilt hdistinct hapart
  have haside : project.ledger.Aside project.layout targets files :=
    ⟨fun location hmem => (hledger location hmem).1, fun location hmem => (hledger location hmem).2,
      hjournal⟩
  have hran := (midway_of_run htidy htree hrun).keeps
  have hrecorded := setup.keeps_recordAll_of_keeps project.layout (targets.zip first.states)
    project.ledger hran haside.link
  rw [hrecord] at hrecorded
  have hundisturbed := undisturbed_of_run htidy htree hrun haside
  have htotal := keeps_of_recorded_run htidy htree hrun hrecorded
  -- so the second one starts from files of which the same is true
  have htidyAgain := htidy.of_keeps htotal
  have hasideAgain := haside.of_keeps htotal hplaces
  obtain ⟨again, second, hrunAgain, -⟩ := Graph.steps_run (Pipeline.of_graph_eq_ok hgraph).1
    (Pipeline.validate_of_graph hgraph) ⟨after, targets.map fun _ => {}⟩
  have hranAgain := (midway_of_run htidyAgain htotal.isTree hrunAgain).keeps
  have hundisturbedAgain := undisturbed_of_run htidyAgain htotal.isTree hrunAgain hasideAgain
  have hstatesAgain : second.states.length = targets.length := by
    rw [Pipeline.length_states_of_run hgraph hrunAgain, List.length_map]
  obtain ⟨outcomesAgain, ledgerAgain, final, hrecordAgain⟩ := exists_recordAll_again hstates hrecord
    hundisturbedAgain (setup.later startedAt finishedAt) second.states
  have hrecordedAgain := (setup.later startedAt finishedAt).keeps_recordAll_of_keeps project.layout
    (targets.zip second.states) ledger hranAgain hasideAgain.link
  rw [hrecordAgain] at hrecordedAgain
  -- target by target, the second run repeats the first
  have hpairs := forall₂_zip_states hstates hstatesAgain
    (R := fun pair again => pair.1 = again.1 ∧ pair.2.Repeats again.2)
    fun place target htarget =>
      ⟨rfl, repeats_of_runs htidy htree hrun haside hrecorded hrunAgain htarget
        (hwritable target (List.mem_of_getElem? htarget))⟩
  obtain ⟨number, houtcomes, hrows⟩ := of_recordAll_eq_ok hrecord
  obtain ⟨next, houtcomesAgain, hrowsAgain⟩ := of_recordAll_eq_ok hrecordAgain
  refine ⟨⟨outcomesAgain, again⟩, { project with ledger := ledgerAgain }, final,
    setup.rows project.layout (targets.zip first.states) number,
    (setup.later startedAt finishedAt).rows project.layout (targets.zip second.states) next,
    build_of_run hselect hgraph hrunAgain hrecordAgain, ?_, ?_, ?_, ?_, ?_, ?_, ?_⟩
  · rw [houtcomes, houtcomesAgain]
    refine forall₂_map_zipIdx hpairs ?_ number next
    rintro ⟨target, state⟩ ⟨_, stateAgain⟩ ⟨rfl, hrepeats⟩ id later
    exact outcome_repeats hrepeats id later
  · rw [houtcomes]
    refine forall₂_outcomes hstates fun pair hpair id hstatus => ?_
    obtain ⟨place, htarget, hstate⟩ := exists_place_of_mem_zip hpair
    have hsome := (verdict_eq_succeeded_iff pair.2).mp hstatus
    rw [← hstate] at hsome
    exact fileAt?_of_runs htidy htree hrun haside hrecorded hplaces hrunAgain hrecordedAgain htarget
      (hwritable pair.1 (List.mem_of_getElem? htarget)) hsome
  · rw [houtcomes]
    exact forall₂_outcomes_rows fun pair hpair => settled_of_mem_zip hgraph hrun hpair
  · rw [houtcomesAgain]
    exact forall₂_outcomes_rows fun pair hpair => settled_of_mem_zip hgraph hrunAgain hpair
  · refine forall₂_map_zipIdx hpairs ?_ number next
    rintro ⟨target, state⟩ ⟨_, stateAgain⟩ ⟨rfl, hrepeats⟩ id later
    exact record_repeats setup project.layout hrepeats startedAt finishedAt id later
  · rw [← Ledger.Handle.rows_of_undisturbed hundisturbed]
    exact hrows
  · rw [← Ledger.Handle.rows_of_undisturbed hundisturbedAgain]
    exact hrowsAgain

end Again

/-- An ordinary user does a build, in which one target fails and the other succeeds, again a day
later. -/
theorem build_again_recorded :
    previousFiles.IsTree ∧ previousFiles.unrestricted = false ∧
    previousFiles.Distinct (recordedProject.config.targets.flatMap fun target =>
      (target.job recordedProject.layout).paths) ∧
    ∃ summary built after repeated rebuilt final rows rowsAgain,
      sampleSetup.build recordedProject [] previousFiles = (.ok summary, built, after) ∧
      summary.outcomes.map TargetOutcome.status = [.failed, .succeeded] ∧
      (sampleSetup.later "2024-01-02T00:00:00+00:00" "2024-01-02T00:00:01+00:00").build built []
        after = (.ok repeated, rebuilt, final) ∧
      List.Forall₂ TargetOutcome.Repeats summary.outcomes repeated.outcomes ∧
      List.Forall₂ (Ledger.Row.Repeats "2024-01-02T00:00:00+00:00" "2024-01-02T00:00:01+00:00")
        rows rowsAgain ∧
      rebuilt.ledger.rows final = (rowsAgain.reverse ++ ·) <$> built.ledger.rows after := by
  have htree : previousFiles.IsTree := Files.isTree_of_entries (by decide +kernel)
  have hselect : recordedProject.config.select [] = .ok recordedProject.config.targets := rfl
  have hprebuilt : ∀ target ∈ recordedProject.config.targets, target.compiler = .prebuilt := by
    decide
  have hdistinct : previousFiles.Distinct (recordedProject.config.targets.flatMap fun target =>
      (target.job recordedProject.layout).paths) := by decide +kernel
  have hapart : ∀ first ∈ recordedProject.config.targets,
      ∀ second ∈ recordedProject.config.targets,
        ∀ output ∈ (second.job recordedProject.layout).outputs,
          (first.job recordedProject.layout).source.same output = false := by decide +kernel
  have hwritable : ∀ target ∈ recordedProject.config.targets,
      ∀ location ∈ previousFiles.place? (target.job recordedProject.layout).source,
        previousFiles.isProtected location = false := by decide +kernel
  have hledger : ∀ location ∈ recordedProject.ledger.places,
      previousFiles.linkIn? location = none ∧ ∀ target ∈ recordedProject.config.targets,
        ∀ path ∈ (target.job recordedProject.layout).paths,
          previousFiles.place? path ≠ some location := by decide +kernel
  have hjournal : ∀ journal ∈ recordedProject.ledger.journals,
      ∀ target ∈ recordedProject.config.targets,
        ∀ output ∈ (target.job recordedProject.layout).outputs,
          journal ∉ previousFiles.met output := by decide +kernel
  obtain ⟨summary, built, after, hbuild, hstatuses⟩ := exists_build_recorded
  obtain ⟨repeated, rebuilt, final, rows, rowsAgain, hagain, houtcomes, -, -, -, hrows, -,
    hledgers⟩ := build_again htree hselect hprebuilt hdistinct hapart hwritable hledger hjournal
      hbuild "2024-01-02T00:00:00+00:00" "2024-01-02T00:00:01+00:00"
  exact ⟨htree, rfl, hdistinct, summary, built, after, repeated, rebuilt, final, rows, rowsAgain,
    hbuild, hstatuses, hagain, houtcomes, hrows, hledgers⟩

/-- A project in which the generated source of a target, whose object is there, is to be the journal
of the ledger. -/
def overlaidProject : Project :=
  { journalProject with
    config := { journalProject.config with
      targets := [⟨"dev", "dev.o", .amdgpu, none, .prebuilt, some "builds.db-journal"⟩] } }

/-- The object and the ledger of that project. -/
def overlaidFiles : Files :=
  sampleFiles.put ["p", "builds.db"] (.file (.ledger ⟨1, some ⟨[], 0⟩⟩) .plain)

/-- **A build that writes the same source twice**: recording the first run takes the generated
source away, since it is in the place of the journal. -/
theorem repeated_build_writes_again :
    overlaidFiles.IsTree ∧
    overlaidFiles.Distinct (overlaidProject.config.targets.flatMap fun target =>
      (target.job overlaidProject.layout).paths) ∧
    (∀ target ∈ overlaidProject.config.targets, target.compiler = .prebuilt ∧
      (∀ output ∈ (target.job overlaidProject.layout).outputs,
        (target.job overlaidProject.layout).source.same output = false) ∧
      ∀ path ∈ (target.job overlaidProject.layout).paths,
        overlaidFiles.place? path ≠ some ["p", "builds.db"]) ∧
    (sampleSetup.build overlaidProject [] overlaidFiles).1.toOption.map
      (fun summary => summary.outcomes.map TargetOutcome.status) = some [.succeeded] ∧
    ((sampleSetup.build (sampleSetup.build overlaidProject [] overlaidFiles).2.1 []
      (sampleSetup.build overlaidProject [] overlaidFiles).2.2).1.toOption.map fun summary =>
        summary.outcomes.map fun outcome => outcome.output.map Extracted.changed) =
      some [some true] := by
  refine ⟨Files.isTree_of_entries (by decide +kernel), by decide +kernel, by decide +kernel,
    by decide +kernel, by decide +kernel⟩

end BuildSetup

end KernelCatalog
