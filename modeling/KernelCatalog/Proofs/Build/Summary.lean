import KernelCatalog.Build.Summary
import KernelCatalog.Proofs.Build.Pipeline
import KernelCatalog.Proofs.Ledger.Ready

/-!
# Builds, reports and ledgers agree

The outcome of a target is told from how far its pipeline has come, the report from how its stages
ended, and the row in the ledger from both. A build that gives a summary gives the same answer in
all three. The stages come before the rows, and one of them may write where the ledger is.

* `BuildSetup.of_recordAll_eq_ok`: targets that are recorded one after another get a row each.
* `BuildSetup.build_agrees`: what the outcomes, the report and the ledger say of a build.
-/

namespace KernelCatalog

/-- The outcome of a target is what a report says of its two stages. -/
structure TargetOutcome.AgreesWith (outcome : TargetOutcome) (report : Report) : Prop where
  succeeded_iff : outcome.status = .succeeded ↔
    "config-extract:" ++ outcome.target ∈ report.completed
  failed_iff : ∀ error, outcome.status = .failed ∧ outcome.error = some error ↔
    ⟨"device-compile:" ++ outcome.target, error⟩ ∈ report.failed ∨
      ⟨"config-extract:" ++ outcome.target, error⟩ ∈ report.failed
  not_skipped : outcome.status ≠ .skipped

/-- A row keeps the outcome of a target, whose stages a report tells of. -/
structure TargetOutcome.KeptAs (layout : Layout) (report : Report) (outcome : TargetOutcome)
    (row : Ledger.Row) : Prop where
  id_eq : row.id = outcome.runId
  target_eq : row.target = outcome.target
  status_eq : row.status = outcome.status.name
  error_eq : row.error = outcome.error
  binaryPath_isSome : row.binaryPath.isSome ↔
    "device-compile:" ++ outcome.target ∈ report.completed
  binaryHash_eq : row.binaryHash = outcome.output.map Extracted.binaryHash
  generatedPath_eq : row.generatedPath =
    outcome.output.map fun output => layout.relative output.generatedPath
  kernelCount_eq : row.kernelCount.toUInt64 =
    .ofNat ((outcome.output.map fun output => output.catalog.size).getD 0)
  overloadCount_eq : row.overloadCount.toUInt64 =
    .ofNat ((outcome.output.map fun output => output.catalog.overloadCount).getD 0)

namespace BuildSetup

/-! ## Verdicts -/

/-- A target has succeeded once its source is extracted. -/
theorem verdict_eq_succeeded_iff (state : PipelineState) :
    (verdict state).1 = .succeeded ↔ state.extract.result?.isSome := by
  unfold verdict
  split <;> simp_all

/-- A target has failed with the error of the stage that failed. -/
theorem verdict_eq_failed_iff {pipeline : Pipeline} {report : Report} {state : PipelineState}
    (h : pipeline.Settled report state) (error : String) :
    (verdict state).1 = .failed ∧ (verdict state).2 = some error ↔
      state.compile.failure? = some error ∨ state.extract.failure? = some error := by
  obtain ⟨compile, extract⟩ := state
  have hcompiled := h.compiled
  cases compile <;> cases extract <;>
    simp_all [verdict, Progress.result?, Progress.failure?]

theorem verdict_ne_skipped {pipeline : Pipeline} {report : Report} {state : PipelineState}
    (h : pipeline.Settled report state) : (verdict state).1 ≠ .skipped := by
  have hended := h.ended
  unfold verdict
  split <;> simp_all

/-! ## Recording -/

/-- The outcome of a target that is recorded under a number. -/
def outcome (target : Target) (state : PipelineState) (id : Nat) : TargetOutcome :=
  ⟨target.name, (verdict state).1, (verdict state).2, state.extract.result?, id⟩

/-- The outcome of a target whose pipeline has come as far as a report shows agrees with it. -/
theorem outcome_agreesWith {setup : BuildSetup} {project : Project} {target : Target}
    {report : Report} {state : PipelineState}
    (h : (setup.pipeline project target).Settled report state) (id : Nat) :
    (outcome target state id).AgreesWith report where
  succeeded_iff := (verdict_eq_succeeded_iff state).trans h.extract.completed_iff.symm
  failed_iff error := (verdict_eq_failed_iff h error).trans
    (or_congr (h.compile.failed_iff error).symm (h.extract.failed_iff error).symm)
  not_skipped := verdict_ne_skipped h

/-- The row of a target keeps its outcome. -/
theorem outcome_keptAs {setup : BuildSetup} {project : Project} {target : Target}
    {report : Report} {state : PipelineState}
    (h : (setup.pipeline project target).Settled report state) (id : Nat) :
    (outcome target state id).KeptAs project.layout report
      (.ofRun id (setup.record project.layout target state)) where
  id_eq := rfl
  target_eq := rfl
  status_eq := rfl
  error_eq := rfl
  binaryPath_isSome := by
    refine Iff.trans ?_ h.compile.completed_iff.symm
    simp [Ledger.Row.ofRun, record]
  binaryHash_eq := rfl
  generatedPath_eq := rfl
  kernelCount_eq := rfl
  overloadCount_eq := rfl

/-- The outcomes of targets that are recorded one after another from a number on. -/
def outcomes (pairs : List (Target × PipelineState)) (first : Nat) : List TargetOutcome :=
  (pairs.zipIdx first).map fun ((target, state), id) => outcome target state id

/-- The rows of targets that are recorded one after another from a number on. -/
def rows (setup : BuildSetup) (layout : Layout) (pairs : List (Target × PipelineState))
    (first : Nat) : List Ledger.Row :=
  (pairs.zipIdx first).map fun ((target, state), id) => .ofRun id (setup.record layout target state)

section Outcomes

variable (pairs : List (Target × PipelineState)) (first : Nat)

theorem map_outcomes {α : Type} {f : TargetOutcome → α} {g : Target × PipelineState → α}
    (h : ∀ target state id, f (outcome target state id) = g (target, state)) :
    (outcomes pairs first).map f = pairs.map g := by
  rw [outcomes, List.map_map]
  conv_rhs => rw [← List.zipIdx_map_fst first pairs, List.map_map]
  exact List.map_congr_left fun pair _ => h pair.1.1 pair.1.2 pair.2

theorem map_runId_outcomes :
    (outcomes pairs first).map TargetOutcome.runId = List.range' first pairs.length := by
  rw [outcomes, List.map_map, ← List.zipIdx_map_snd]
  rfl

theorem mem_outcomes {pairs : List (Target × PipelineState)} {first : Nat} {result : TargetOutcome}
    (h : result ∈ outcomes pairs first) :
    ∃ pair ∈ pairs, ∃ id, result = outcome pair.1 pair.2 id := by
  obtain ⟨⟨pair, id⟩, hpair, rfl⟩ := List.mem_map.mp h
  exact ⟨pair, List.fst_mem_of_mem_zipIdx hpair, id, rfl⟩

/-- The outcomes are those of success if the verdicts are. -/
theorem all_succeeded_outcomes :
    ((outcomes pairs first).all fun outcome => outcome.status == .succeeded) = true ↔
      ∀ pair ∈ pairs, (verdict pair.2).1 = .succeeded := by
  have hstatus : (outcomes pairs first).map TargetOutcome.status =
      pairs.map fun pair => (verdict pair.2).1 := map_outcomes pairs first fun _ _ _ => rfl
  have hall := List.all_map (f := TargetOutcome.status) (l := outcomes pairs first)
    (p := fun status => status == .succeeded)
  rw [hstatus, List.all_map] at hall
  exact hall ▸ by simp

/-- The rows keep the outcomes. -/
theorem forall₂_outcomes_rows {setup : BuildSetup} {project : Project} {report : Report}
    {pairs : List (Target × PipelineState)} {first : Nat}
    (h : ∀ pair ∈ pairs, (setup.pipeline project pair.1).Settled report pair.2) :
    List.Forall₂ (TargetOutcome.KeptAs project.layout report) (outcomes pairs first)
      (setup.rows project.layout pairs first) := by
  rw [outcomes, rows, List.forall₂_map_left_iff, List.forall₂_map_right_iff, List.forall₂_same]
  exact fun pair hpair => outcome_keptAs (h pair.1 (List.fst_mem_of_mem_zipIdx hpair)) pair.2

end Outcomes

/-- Recording the first target and then the others. -/
theorem of_recordAll_cons_eq_ok {setup : BuildSetup} {layout : Layout} {target : Target}
    {state : PipelineState} {rest : List (Target × PipelineState)} {ledger written : Ledger.Handle}
    {files after : Files} {recorded : List TargetOutcome}
    (h : setup.recordAll layout ((target, state) :: rest) ledger files =
      (.ok recorded, written, after)) :
    ∃ id next between others,
      ledger.insert files (setup.record layout target state) = .ok (id, next, between) ∧
      setup.recordAll layout rest next between = (.ok others, written, after) ∧
      recorded = outcome target state id :: others := by
  rw [recordAll] at h
  cases hinsert : ledger.insert files (setup.record layout target state) with
  | error e => simp [hinsert] at h
  | ok inserted =>
    obtain ⟨id, next, between⟩ := inserted
    simp only [hinsert] at h
    rcases hrest : setup.recordAll layout rest next between with ⟨_ | others, left⟩
    · simp [hrest] at h
    · rw [hrest] at h
      obtain ⟨hrecorded, rfl⟩ := Prod.mk.inj h
      exact ⟨id, next, between, others, rfl, hrest, (Except.ok.inj hrecorded).symm⟩

/-- Targets get the numbers behind the latest in the table, and their rows stand in front of the
earlier ones. -/
theorem of_recordAll_of_table {setup : BuildSetup} {layout : Layout}
    {pairs : List (Target × PipelineState)} {ledger written : Ledger.Handle} {files after : Files}
    {recorded : List TargetOutcome}
    (h : setup.recordAll layout pairs ledger files = (.ok recorded, written, after))
    {before : Ledger.Store} {table : Ledger.Table} (hbefore : ledger.store files = .ok before)
    (htable : before.table = some table) :
    recorded = outcomes pairs (table.lastId + 1) ∧
      written.rows after =
        .ok ((setup.rows layout pairs (table.lastId + 1)).reverse ++ table.rows) := by
  induction pairs generalizing ledger files recorded before table with
  | nil =>
    obtain ⟨hrecorded, hleft⟩ := Prod.mk.inj h
    obtain ⟨rfl, rfl⟩ := Prod.mk.inj hleft
    exact ⟨(Except.ok.inj hrecorded).symm, Ledger.Handle.rows_of_table hbefore htable⟩
  | cons pair rest ih =>
    obtain ⟨target, state⟩ := pair
    obtain ⟨id, next, between, others, hinsert, hrest, rfl⟩ := of_recordAll_cons_eq_ok h
    obtain ⟨store, earlier, hstore, hearlier, rfl, hnext⟩ := Ledger.Handle.of_insert_eq_ok hinsert
    obtain rfl := Except.ok.inj (hstore.symm.trans hbefore)
    obtain rfl := Option.some.inj (hearlier.symm.trans htable)
    obtain ⟨rfl, hwritten⟩ := ih hrest hnext rfl
    refine ⟨by simp [outcomes], ?_⟩
    rw [hwritten]
    simp [rows]

/-- **Targets that are recorded one after another** get numbers that count up, and their rows stand
in front of the earlier ones. -/
theorem of_recordAll_eq_ok {setup : BuildSetup} {layout : Layout}
    {pairs : List (Target × PipelineState)} {ledger written : Ledger.Handle} {files after : Files}
    {recorded : List TargetOutcome}
    (h : setup.recordAll layout pairs ledger files = (.ok recorded, written, after)) :
    ∃ first, recorded = outcomes pairs first ∧
      written.rows after =
        ((setup.rows layout pairs first).reverse ++ ·) <$> ledger.rows files := by
  cases pairs with
  | nil =>
    obtain ⟨hrecorded, hleft⟩ := Prod.mk.inj h
    obtain ⟨rfl, rfl⟩ := Prod.mk.inj hleft
    refine ⟨0, (Except.ok.inj hrecorded).symm, ?_⟩
    simp [rows]
  | cons pair rest =>
    -- the first insertion shows that there is a table
    obtain ⟨id, next, between, others, hinsert, -, -⟩ := of_recordAll_cons_eq_ok h
    obtain ⟨store, table, hstore, htable, -, -⟩ := Ledger.Handle.of_insert_eq_ok hinsert
    obtain ⟨hrecorded, hwritten⟩ := of_recordAll_of_table h hstore htable
    refine ⟨table.lastId + 1, hrecorded, ?_⟩
    rw [hwritten, Ledger.Handle.rows_of_table hstore htable]
    rfl

/-! ## Builds -/

/-- How a build comes to its summary. -/
theorem of_build_eq_ok {setup : BuildSetup} {project built : Project} {names : List String}
    {files after : Files} {summary : BuildSummary}
    (h : setup.build project names files = (.ok summary, built, after)) :
    ∃ targets graph workspace,
      project.config.select names = .ok targets ∧
      Pipeline.graph setup.launch (targets.map (setup.pipeline project)) = .ok graph ∧
      graph.run ⟨files, targets.map fun _ => {}⟩ = (.ok summary.report, workspace) ∧
      setup.recordAll project.layout (targets.zip workspace.states) project.ledger workspace.files =
        (.ok summary.outcomes, built.ledger, after) := by
  unfold build at h
  split at h
  · exact absurd (Prod.mk.inj h).1 (by simp)
  · next targets hselect =>
    split at h
    · exact absurd (Prod.mk.inj h).1 (by simp)
    · next graph hgraph =>
      split at h
      · exact absurd (Prod.mk.inj h).1 (by simp)
      · next report workspace hrun =>
        split at h
        · exact absurd (Prod.mk.inj h).1 (by simp)
        · next outcomes ledger left hrecord =>
          obtain ⟨hsummary, hleft⟩ := Prod.mk.inj h
          obtain ⟨rfl, rfl⟩ := Prod.mk.inj hleft
          obtain rfl := Except.ok.inj hsummary
          exact ⟨targets, graph, workspace, hselect, hgraph, hrun, hrecord⟩

section Build

variable {setup : BuildSetup} {project : Project} {targets : List Target} {graph : Graph Workspace}
  {files : Files} {report : Report} {workspace : Workspace}

/-- A target stands beside the place of its pipeline. -/
theorem exists_place_of_mem_zip {pair : Target × PipelineState}
    (h : pair ∈ targets.zip workspace.states) :
    ∃ place : Nat, targets[place]? = some pair.1 ∧ workspace.state place = pair.2 := by
  obtain ⟨place, hplace⟩ := List.mem_iff_getElem?.mp h
  obtain ⟨htarget, hstate⟩ := List.getElem?_zip_eq_some.mp hplace
  exact ⟨place, htarget, by simp [Workspace.state, hstate]⟩

theorem state_start (targets : List Target) (files : Files) (place : Nat) :
    (⟨files, targets.map fun _ => {}⟩ : Workspace).state place = {} := by
  rw [Workspace.state, List.getD_eq_getElem?_getD, List.getElem?_map]
  cases targets[place]? <;> rfl

/-- After a run, the pipeline of each target has come as far as the report shows. -/
theorem settled_of_run
    (hgraph : Pipeline.graph setup.launch (targets.map (setup.pipeline project)) = .ok graph)
    (hrun : graph.run ⟨files, targets.map fun _ => {}⟩ = (.ok report, workspace)) (place : Nat)
    (pipeline : Pipeline)
    (hpipeline : (targets.map (setup.pipeline project))[place]? = some pipeline) :
    pipeline.Settled report (workspace.state place) :=
  Pipeline.settled_of_run hgraph hrun (by simp) (state_start targets files place) hpipeline

/-- After a run, the pipeline beside a target has come as far as the report shows. -/
theorem settled_of_mem_zip
    (hgraph : Pipeline.graph setup.launch (targets.map (setup.pipeline project)) = .ok graph)
    (hrun : graph.run ⟨files, targets.map fun _ => {}⟩ = (.ok report, workspace))
    {pair : Target × PipelineState} (hpair : pair ∈ targets.zip workspace.states) :
    (setup.pipeline project pair.1).Settled report pair.2 := by
  obtain ⟨place, htarget, hstate⟩ := exists_place_of_mem_zip hpair
  rw [← hstate]
  exact settled_of_run hgraph hrun place _ (by simp [htarget])

/-- A run is a success if every target has succeeded. -/
theorem isSuccess_iff_of_run
    (hgraph : Pipeline.graph setup.launch (targets.map (setup.pipeline project)) = .ok graph)
    (hrun : graph.run ⟨files, targets.map fun _ => {}⟩ = (.ok report, workspace)) :
    report.isSuccess ↔ ∀ pair ∈ targets.zip workspace.states, (verdict pair.2).1 = .succeeded := by
  rw [Pipeline.isSuccess_iff_of_run hgraph hrun (settled_of_run hgraph hrun)]
  have hlength := Pipeline.length_states_of_run hgraph hrun
  constructor
  · intro hall pair hpair
    obtain ⟨place, htarget, hstate⟩ := exists_place_of_mem_zip hpair
    rw [verdict_eq_succeeded_iff, ← hstate]
    exact hall place (setup.pipeline project pair.1) (by simp [htarget])
  · intro hall place pipeline hpipeline
    rw [List.getElem?_map] at hpipeline
    obtain ⟨target, htarget, -⟩ := Option.map_eq_some_iff.mp hpipeline
    have hplace : place < workspace.states.length := by
      rw [hlength, List.length_map]
      exact (List.getElem?_eq_some_iff.mp htarget).1
    have hpair : (target, workspace.state place) ∈ targets.zip workspace.states := by
      refine List.mem_iff_getElem?.mpr ⟨place, List.getElem?_zip_eq_some.mpr ⟨htarget, ?_⟩⟩
      simp [Workspace.state, hplace]
    exact (verdict_eq_succeeded_iff _).mp (hall _ hpair)

/-- **The outcomes, the report and the ledger agree on a build.** There is an outcome for each
chosen target, in order, and it is what the report says of the two stages of the target. The ledger
has gained a row for each outcome, with numbers that count up, in front of the rows that it held
when the stages had run. If the stages have left the ledger alone, these are the rows that it held
before the build. -/
theorem build_agrees {built : Project} {names : List String} {after : Files}
    {summary : BuildSummary} (h : setup.build project names files = (.ok summary, built, after)) :
    ∃ targets graph workspace rows,
      project.config.select names = .ok targets ∧
      Pipeline.graph setup.launch (targets.map (setup.pipeline project)) = .ok graph ∧
      graph.run ⟨files, targets.map fun _ => {}⟩ = (.ok summary.report, workspace) ∧
      summary.outcomes.map TargetOutcome.target = targets.map Target.name ∧
      (∀ outcome ∈ summary.outcomes, outcome.AgreesWith summary.report) ∧
      summary.isSuccess = summary.report.isSuccess ∧
      (summary.outcomes.map TargetOutcome.runId).Pairwise (· < ·) ∧
      List.Forall₂ (TargetOutcome.KeptAs project.layout summary.report) summary.outcomes rows ∧
      built.ledger.rows after = (rows.reverse ++ ·) <$> project.ledger.rows workspace.files ∧
      (project.ledger.Undisturbed files workspace.files →
        built.ledger.rows after = (rows.reverse ++ ·) <$> project.ledger.rows files) := by
  obtain ⟨targets, graph, workspace, hselect, hgraph, hrun, hrecord⟩ := of_build_eq_ok h
  obtain ⟨first, houtcomes, hrows⟩ := of_recordAll_eq_ok hrecord
  have hlength : workspace.states.length = targets.length := by
    rw [Pipeline.length_states_of_run hgraph hrun, List.length_map]
  have hsettled : ∀ pair ∈ targets.zip workspace.states,
      (setup.pipeline project pair.1).Settled summary.report pair.2 :=
    fun _ => settled_of_mem_zip hgraph hrun
  refine ⟨targets, graph, workspace, _, hselect, hgraph, hrun, ?_, ?_, ?_, ?_, ?_, hrows,
    fun hundisturbed => ?_⟩
  · have htargets := map_outcomes (targets.zip workspace.states) first
      (f := TargetOutcome.target) (g := Target.name ∘ Prod.fst) fun _ _ _ => rfl
    rw [houtcomes, htargets, ← List.map_map, List.map_fst_zip hlength.ge]
  · rw [houtcomes]
    intro outcome houtcome
    obtain ⟨pair, hpair, id, rfl⟩ := mem_outcomes houtcome
    exact outcome_agreesWith (hsettled pair hpair) id
  · rw [Bool.eq_iff_iff, isSuccess_iff_of_run hgraph hrun, BuildSummary.isSuccess, houtcomes,
      all_succeeded_outcomes]
  · rw [houtcomes, map_runId_outcomes]
    exact List.pairwise_lt_range'
  · rw [houtcomes]
    exact forall₂_outcomes_rows hsettled
  · rw [hrows, Ledger.Handle.rows_of_undisturbed hundisturbed]

end Build

/-- An object without sections, for AMD processors. -/
def sampleObject : Bytes :=
  Elf.signature ++ [2, 1, 1] ++ List.replicate 11 0 ++ [224, 0] ++ List.replicate 44 0

/-- A backend that finds the same kernel in every object. -/
def sampleBackend : Backend where
  architecture := .amdgpu
  name := "sample"
  encoding := none
  extract _ := .ok ((Catalog.empty .amdgpu (some "gfx90a")).insert "add"
    ⟨"add__f32", 0x1000, [.scalar .f32], ⟨256, 0, 16⟩⟩)

/-- A setup in which no program can be started. -/
def sampleSetup : BuildSetup where
  registry := Registry.empty.register sampleBackend
  launch _ _ files := (.error .notFound, files)
  clang := Command.defaultClang
  startedAt := "2024-01-01T00:00:00+00:00"
  finishedAt := "2024-01-01T00:00:01+00:00"

/-- A project with a target whose object is missing and one whose object is there. -/
def sampleProject : Project where
  layout := ⟨⟨"/p"⟩⟩
  config := { Config.new "sample" ":memory:" with
    targets := [⟨"gone", "gone.o", .amdgpu, none, .prebuilt, none⟩,
      ⟨"dev", "dev.o", .amdgpu, none, .prebuilt, none⟩] }
  ledgerPath := ⟨":memory:"⟩
  ledger := .memory ⟨1, some ⟨[], 0⟩⟩

/-- The files of the sample, which belong to an ordinary user. -/
def sampleFiles : Files :=
  (Files.empty ["p"]).restricted.put ["p", "dev.o"] (.file (.plain sampleObject) .plain)

/-- A build of which something is told has given a summary. -/
theorem exists_summary_of_build {setup : BuildSetup} {project : Project} {names : List String}
    {files : Files} {α : Type} {tell : BuildSummary → α} {told : α}
    (h : (setup.build project names files).1.toOption.map tell = some told) :
    ∃ summary built after, setup.build project names files = (.ok summary, built, after) ∧
      tell summary = told := by
  rcases hbuild : setup.build project names files with ⟨_ | summary, built, after⟩
  · rw [hbuild] at h
    exact absurd h (by simp [Except.toOption])
  · rw [hbuild] at h
    exact ⟨summary, built, after, rfl, Option.some.inj h⟩

/-- The project of the sample, with its ledger in a file. -/
def recordedProject : Project :=
  { sampleProject with
    config := { sampleProject.config with ledger := ⟨"builds.db"⟩ }
    ledgerPath := ⟨"/p/builds.db"⟩
    ledger := .file ["p", "builds.db"] 0 false }

/-- The row of an earlier build. -/
def earlierRow : Ledger.Row :=
  .ofRun 7 (sampleSetup.record ⟨⟨"/p"⟩⟩ ⟨"old", "old.o", .amdgpu, none, .prebuilt, none⟩ {})

/-- The files of that project, with the row of an earlier build in its ledger. -/
def recordedFiles : Files :=
  sampleFiles.put ["p", "builds.db"] (.file (.ledger ⟨1, some ⟨[earlierRow], 7⟩⟩) .plain)

/-- A build in which one target fails and the other succeeds leaves the rows of both in front of the
earlier one. -/
theorem build_agrees_recorded : ∃ summary built after rows,
    sampleSetup.build recordedProject [] recordedFiles = (.ok summary, built, after) ∧
    summary.outcomes.map (fun outcome => (outcome.target, outcome.status)) =
      [("gone", .failed), ("dev", .succeeded)] ∧
    (∀ outcome ∈ summary.outcomes, outcome.AgreesWith summary.report) ∧
    List.Forall₂ (TargetOutcome.KeptAs recordedProject.layout summary.report) summary.outcomes
      rows ∧
    recordedProject.ledger.rows recordedFiles = .ok [earlierRow] ∧
    built.ledger.rows after = .ok (rows.reverse ++ [earlierRow]) := by
  have houtcomes : (sampleSetup.build recordedProject [] recordedFiles).1.toOption.map
      (fun summary => summary.outcomes.map fun outcome => (outcome.target, outcome.status)) =
      some [("gone", .failed), ("dev", .succeeded)] := by decide +kernel
  have hleft : (Pipeline.graph sampleSetup.launch
      (recordedProject.config.targets.map (sampleSetup.pipeline recordedProject))).toOption.map
        (fun graph => decide (recordedProject.ledger.Undisturbed recordedFiles
          (graph.run ⟨recordedFiles, recordedProject.config.targets.map fun _ => {}⟩).2.files)) =
      some true := by decide +kernel
  have hearlier : recordedProject.ledger.rows recordedFiles = .ok [earlierRow] := by
    decide +kernel
  obtain ⟨summary, built, after, hbuild, htold⟩ := exists_summary_of_build houtcomes
  obtain ⟨targets, graph, workspace, rows, hselect, hgraph, hrun, -, hagrees, -, -, hkept, -,
    hrows⟩ := build_agrees hbuild
  obtain rfl : recordedProject.config.targets = targets := Except.ok.inj hselect
  rw [hgraph] at hleft
  simp only [Except.toOption, Option.map_some, hrun, Option.some.injEq, decide_eq_true_eq] at hleft
  rw [hearlier] at hrows
  exact ⟨summary, built, after, rows, hbuild, htold, hagrees, hkept, hearlier, hrows hleft⟩

/-- A project whose ledger is where the object of a target is to be, and the source of that target
is another ledger. -/
def replacedProject : Project where
  layout := ⟨⟨"/p"⟩⟩
  config := { Config.new "replaced" ".kbridge/build/dev/device.o" with
    targets := [⟨"dev", "first.db", .amdgpu, none, .prebuilt, none⟩] }
  ledgerPath := ⟨"/p/.kbridge/build/dev/device.o"⟩
  ledger := .file ["p", ".kbridge", "build", "dev", "device.o"] 0 false

/-- The two ledgers of that project: one with the row of an earlier build, and a new one. -/
def replacedFiles : Files :=
  ((((sampleFiles.put ["p", ".kbridge"] .directory).put ["p", ".kbridge", "build"] .directory).put
    ["p", ".kbridge", "build", "dev"] .directory).put
    ["p", ".kbridge", "build", "dev", "device.o"]
      (.file (.ledger ⟨1, some ⟨[earlierRow], 7⟩⟩) .plain)).put
    ["p", "first.db"] (.file (.ledger ⟨1, some ⟨[], 0⟩⟩) .plain)

/-- **A build that loses the earlier rows**: a stage copies another ledger over the open one before
the run is recorded. -/
theorem build_replaces_ledger :
    replacedFiles.IsTree ∧
    replacedProject.config.validate replacedProject.layout = .ok () ∧
    replacedProject.ledger.rows replacedFiles = .ok [earlierRow] ∧
    (sampleSetup.build replacedProject [] replacedFiles).1.toOption.map
      (fun summary => summary.outcomes.map TargetOutcome.runId) = some [1] ∧
    ((sampleSetup.build replacedProject [] replacedFiles).2.1.ledger.rows
      (sampleSetup.build replacedProject [] replacedFiles).2.2).toOption.map
        (fun rows => rows.map Ledger.Row.id) = some [1] := by
  refine ⟨Files.isTree_of_entries (by decide +kernel), by decide +kernel, by decide +kernel,
    by decide +kernel, by decide +kernel⟩

end BuildSetup

end KernelCatalog
