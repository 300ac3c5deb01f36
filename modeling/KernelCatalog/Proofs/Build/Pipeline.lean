import KernelCatalog.Build.Pipeline
import KernelCatalog.Proofs.Schedule.Calls

/-!
# What a report says of pipelines

The stages of a pipeline leave in the workspace how they ended, each at the place of its pipeline.
The report of a run says the same. A pipeline depends on nothing outside, so if its extraction was
not reached, then its compilation failed.

* `Pipeline.of_graph_eq_ok`: the stages of the graph of pipelines.
* `Pipeline.stage_cases`: what a stage of the graph is to one of the pipelines.
* `Pipeline.settled_of_run`: after a run, every pipeline has come as far as the report shows.
* `Pipeline.isSuccess_iff_of_run`: when a report is one of success.
-/

namespace KernelCatalog

namespace Progress

variable {α : Type}

/-- The outcome of the last call of a stage, once it has ended. -/
def outcome? : Progress α → Option Outcome
  | .done _ => some .done
  | .failed message => some (.failed message)
  | .pending | .running => none

/-- What a stage remembers of a call is the outcome of the call. -/
theorem outcome?_ofRun {ε : Type} (message : ε → String) (result : Except ε α) :
    (ofRun message result).outcome? = some (.ofRun message result) := by
  cases result <;> rfl

/-- A stage that made something has not failed. -/
theorem failure?_of_result? {progress : Progress α} (h : progress.result?.isSome) :
    progress.failure? = none := by
  cases progress <;> simp_all [result?, failure?]

end Progress

/-- A report shows what a stage remembers of its call. -/
structure Report.Shows {α : Type} (report : Report) (name : String) (progress : Progress α) :
    Prop where
  completed_iff : name ∈ report.completed ↔ progress.result?.isSome
  failed_iff : ∀ error, ⟨name, error⟩ ∈ report.failed ↔ progress.failure? = some error

/-- What a report says of an outcome that a stage remembers. -/
theorem Report.Says.shows {α : Type} {report : Report} {name : String} {progress : Progress α}
    (h : report.Says name progress.outcome?) : report.Shows name progress := by
  obtain ⟨hcompleted, hfailed⟩ := h
  refine ⟨hcompleted.trans ?_, fun error => (hfailed error).trans ?_⟩
  · cases progress <;> simp [Progress.outcome?, Progress.result?]
  · cases progress <;> simp [Progress.outcome?, Progress.failure?, Outcome.message?]

/-- A stage that was not skipped has ended. -/
theorem Report.Shows.ended {α : Type} {report : Report} {name : String} {progress : Progress α}
    (h : report.Shows name progress) (hnames : name ∈ report.names)
    (hskipped : name ∉ report.skipped) :
    progress.result?.isSome ∨ progress.failure?.isSome := by
  rw [names, dead, List.mem_append, List.mem_append] at hnames
  rcases hnames with hcompleted | hfailed | hnot
  · exact Or.inl (h.completed_iff.mp hcompleted)
  · obtain ⟨failure, hfailure, rfl⟩ := List.mem_map.mp hfailed
    rw [(h.failed_iff failure.error).mp hfailure]
    exact Or.inr rfl
  · exact absurd hnot hskipped

/-- A stage that has ended was completed or has failed. -/
theorem Report.Shows.called {α : Type} {report : Report} {name : String} {progress : Progress α}
    (h : report.Shows name progress)
    (hended : progress.result?.isSome ∨ progress.failure?.isSome) :
    name ∈ report.completed ++ report.failed.map StageFailure.stage := by
  rw [List.mem_append]
  rcases hended with hresult | hfailure
  · exact Or.inl (h.completed_iff.mpr hresult)
  · obtain ⟨error, herror⟩ := Option.isSome_iff_exists.mp hfailure
    exact Or.inr (List.mem_map_of_mem ((h.failed_iff error).mpr herror))

namespace Workspace

theorem state_setState_self {workspace : Workspace} {index : Nat}
    (h : index < workspace.states.length) (state : PipelineState) (files : Files) :
    (workspace.setState index state files).state index = state := by
  simp [setState, Workspace.state, h]

theorem state_setState_other (workspace : Workspace) {index other : Nat} (h : other ≠ index)
    (state : PipelineState) (files : Files) :
    (workspace.setState index state files).state other = workspace.state other := by
  simp [setState, Workspace.state, List.getElem?_set_ne (Ne.symm h)]

theorem length_states_setState (workspace : Workspace) (index : Nat) (state : PipelineState)
    (files : Files) :
    (workspace.setState index state files).states.length = workspace.states.length :=
  List.length_set

end Workspace

namespace Pipeline

/-! ## The stages of a graph -/

/-- The two stages of a pipeline. -/
def pair (launch : Launcher) (pipeline : Pipeline) (place : Nat) : List (Stage Workspace) :=
  [pipeline.compileStage launch place, pipeline.extractStage place]

theorem compileStage_mem_pair (launch : Launcher) (pipeline : Pipeline) (place : Nat) :
    pipeline.compileStage launch place ∈ pipeline.pair launch place := List.mem_cons_self

theorem extractStage_mem_pair (launch : Launcher) (pipeline : Pipeline) (place : Nat) :
    pipeline.extractStage place ∈ pipeline.pair launch place :=
  List.mem_cons_of_mem _ List.mem_cons_self

/-- The stages of pipelines, the first of which is at the given place. -/
def stages (launch : Launcher) (index : Nat) (pipelines : List Pipeline) : List (Stage Workspace) :=
  (pipelines.zipIdx index).flatMap fun (pipeline, place) => pipeline.pair launch place

/-- Pipelines that are added put their stages behind the others, under new names. -/
theorem of_addAll_eq_ok {launch : Launcher} {index : Nat} {pipelines : List Pipeline}
    {graph grown : Graph Workspace} (hnodup : graph.names.Nodup)
    (h : addAll launch index pipelines graph = .ok grown) :
    grown.names.Nodup ∧ grown.stages = graph.stages ++ stages launch index pipelines := by
  induction pipelines generalizing index graph with
  | nil =>
    obtain rfl := Except.ok.inj h
    exact ⟨hnodup, by simp [stages]⟩
  | cons first rest ih =>
    rw [addAll, addTo] at h
    cases hcompile : graph.add (first.compileStage launch index) with
    | error e => simp [hcompile] at h
    | ok compiling =>
      simp only [hcompile] at h
      cases hextract : compiling.add (first.extractStage index) with
      | error e => simp [hextract] at h
      | ok extracting =>
        simp only [hextract] at h
        have hcompiling := Graph.nodup_names_of_add hnodup hcompile
        obtain ⟨hgrown, hstages⟩ := ih (Graph.nodup_names_of_add hcompiling hextract) h
        refine ⟨hgrown, ?_⟩
        rw [hstages, (Graph.of_add_eq_ok hextract).2, (Graph.of_add_eq_ok hcompile).2]
        simp [stages, pair]

/-- **The graph of pipelines** has their stages, under different names. -/
theorem of_graph_eq_ok {launch : Launcher} {pipelines : List Pipeline} {graph : Graph Workspace}
    (h : Pipeline.graph launch pipelines = .ok graph) :
    graph.names.Nodup ∧ graph.stages = stages launch 0 pipelines := by
  have hempty : (Graph.empty : Graph Workspace).names.Nodup := List.nodup_nil
  exact of_addAll_eq_ok hempty h

/-- The stages of the graph of pipelines are the two stages of each of them. -/
theorem mem_graph_iff {launch : Launcher} {pipelines : List Pipeline} {graph : Graph Workspace}
    (h : Pipeline.graph launch pipelines = .ok graph) {stage : Stage Workspace} :
    stage ∈ graph.stages ↔ ∃ (pipeline : Pipeline) (place : Nat),
      pipelines[place]? = some pipeline ∧ stage ∈ pipeline.pair launch place := by
  rw [(of_graph_eq_ok h).2]
  simp [stages, List.mem_zipIdx_iff_getElem?]

/-! ## Running the stages -/

theorem length_states_run {launch : Launcher} {pipeline : Pipeline} {place : Nat}
    {stage : Stage Workspace} (hstage : stage ∈ pipeline.pair launch place)
    (workspace : Workspace) :
    (stage.run workspace).2.states.length = workspace.states.length := by
  rcases List.mem_pair.mp hstage with rfl | rfl
  · exact Workspace.length_states_setState ..
  · exact Workspace.length_states_setState ..

/-- A stage works on the place of its pipeline alone. -/
theorem state_run_elsewhere {launch : Launcher} {pipeline : Pipeline} {place other : Nat}
    {stage : Stage Workspace} (hstage : stage ∈ pipeline.pair launch place) (hne : other ≠ place)
    (workspace : Workspace) : (stage.run workspace).2.state other = workspace.state other := by
  rcases List.mem_pair.mp hstage with rfl | rfl
  · exact Workspace.state_setState_other _ hne ..
  · exact Workspace.state_setState_other _ hne ..

section Stages

variable {launch : Launcher} {pipelines : List Pipeline} {graph : Graph Workspace}
  {pipeline : Pipeline} {place : Nat}

/-- A stage is one of the two of a pipeline, or it has another name and works elsewhere. -/
theorem stage_cases (hgraph : Pipeline.graph launch pipelines = .ok graph)
    (hpipeline : pipelines[place]? = some pipeline) {stage : Stage Workspace}
    (hstage : stage ∈ graph.stages) :
    stage = pipeline.compileStage launch place ∨ stage = pipeline.extractStage place ∨
      (pipeline.compileName ≠ stage.name ∧ pipeline.extractName ≠ stage.name ∧
        ∀ workspace, (stage.run workspace).2.state place = workspace.state place) := by
  have hnodup := (of_graph_eq_ok hgraph).1
  have hown : ∀ mine ∈ pipeline.pair launch place, mine.name = stage.name → stage = mine :=
    fun mine hmine hname => (List.inj_on_of_nodup_map hnodup
      ((mem_graph_iff hgraph).mpr ⟨pipeline, place, hpipeline, hmine⟩) hstage hname).symm
  by_cases hcompile : pipeline.compileName = stage.name
  · exact Or.inl (hown _ (pipeline.compileStage_mem_pair launch place) hcompile)
  · by_cases hextract : pipeline.extractName = stage.name
    · exact Or.inr (Or.inl (hown _ (pipeline.extractStage_mem_pair launch place) hextract))
    · refine Or.inr (Or.inr ⟨hcompile, hextract, fun workspace => ?_⟩)
      obtain ⟨other, elsewhere, hother, hpair⟩ := (mem_graph_iff hgraph).mp hstage
      by_cases heq : place = elsewhere
      · subst heq
        obtain rfl := Option.some.inj (hother.symm.trans hpipeline)
        rcases List.mem_pair.mp hpair with rfl | rfl
        · exact absurd rfl hcompile
        · exact absurd rfl hextract
      · exact state_run_elsewhere hpair heq workspace

/-- A compilation leaves what the extraction remembers. -/
theorem extract_compileStage {workspace : Workspace} (hplace : place < workspace.states.length) :
    (((pipeline.compileStage launch place).run workspace).2.state place).extract =
      (workspace.state place).extract := by
  simp only [compileStage, runCompile]
  rw [Workspace.state_setState_self hplace]

/-- An extraction leaves what the compilation remembers. -/
theorem compile_extractStage {workspace : Workspace} (hplace : place < workspace.states.length) :
    (((pipeline.extractStage place).run workspace).2.state place).compile =
      (workspace.state place).compile := by
  simp only [extractStage, runExtract]
  rw [Workspace.state_setState_self hplace]

/-- What an extraction remembers is how its run has ended. -/
theorem extract_extractStage {workspace : Workspace} (hplace : place < workspace.states.length) :
    (((pipeline.extractStage place).run workspace).2.state place).extract =
      .ofRun StageError.message (pipeline.extraction.run
        (pipeline.objectSource (workspace.state place)) workspace.files).1 := by
  simp only [extractStage, runExtract]
  rw [Workspace.state_setState_self hplace]

end Stages

section Report

variable {launch : Launcher} {pipelines : List Pipeline} {graph : Graph Workspace}
  {workspace next : Workspace} {report : Report} {pipeline : Pipeline} {place : Nat}

/-- What the stages of a pipeline leave at its place is what the report shows, for the part of the
place that one of them writes and the other does not touch. -/
theorem shows_of_steps {α : Type} (part : PipelineState → Progress α)
    (hgraph : Pipeline.graph launch pipelines = .ok graph)
    (hsteps : Graph.Steps ⟨graph.stages, .empty, workspace⟩ ⟨0, report, next⟩)
    (hlength : workspace.states.length = pipelines.length)
    (hstart : (part (workspace.state place)).outcome? = none)
    (hpipeline : pipelines[place]? = some pipeline) {stage : Stage Workspace}
    (hstage : stage ∈ pipeline.pair launch place)
    (hself : ∀ workspace : Workspace, place < workspace.states.length →
      (part ((stage.run workspace).2.state place)).outcome? = some (stage.run workspace).1)
    (hother : ∀ other ∈ pipeline.pair launch place, other.name ≠ stage.name →
      ∀ workspace : Workspace, place < workspace.states.length →
        part ((other.run workspace).2.state place) = part (workspace.state place)) :
    report.Shows stage.name (part (next.state place)) := by
  have hplace : place < pipelines.length := (List.getElem?_eq_some_iff.mp hpipeline).1
  have hmem : stage ∈ graph.stages :=
    (mem_graph_iff hgraph).mpr ⟨pipeline, place, hpipeline, hstage⟩
  refine Report.Says.shows (Graph.says_of_steps (of_graph_eq_ok hgraph).1 hmem
    (fun workspace => workspace.states.length = pipelines.length)
    (fun workspace => (part (workspace.state place)).outcome?) ?_ ?_ ?_ hsteps hlength hstart)
  · intro other hmem workspace hlength
    obtain ⟨second, elsewhere, -, hsecond⟩ := (mem_graph_iff hgraph).mp hmem
    rw [length_states_run hsecond, hlength]
  · exact fun workspace hlength => hself workspace (hlength ▸ hplace)
  · intro other hmem hname workspace hlength
    obtain ⟨second, elsewhere, hfound, hsecond⟩ := (mem_graph_iff hgraph).mp hmem
    by_cases heq : place = elsewhere
    · subst heq
      obtain rfl := Option.some.inj (hfound.symm.trans hpipeline)
      rw [hother other hsecond hname workspace (hlength ▸ hplace)]
    · rw [state_run_elsewhere hsecond heq]

/-- What the workspace says of a compilation is what the report shows. -/
theorem shows_compile (hgraph : Pipeline.graph launch pipelines = .ok graph)
    (hsteps : Graph.Steps ⟨graph.stages, .empty, workspace⟩ ⟨0, report, next⟩)
    (hlength : workspace.states.length = pipelines.length)
    (hstart : workspace.state place = {}) (hpipeline : pipelines[place]? = some pipeline) :
    report.Shows pipeline.compileName (next.state place).compile := by
  refine shows_of_steps PipelineState.compile hgraph hsteps hlength (by rw [hstart]; rfl) hpipeline
    (pipeline.compileStage_mem_pair launch place) ?_ ?_
  · intro workspace hplace
    simp only [compileStage, runCompile]
    rw [Workspace.state_setState_self hplace, Progress.outcome?_ofRun]
  · intro other hother hname workspace hplace
    rcases List.mem_pair.mp hother with rfl | rfl
    · exact absurd rfl hname
    · exact compile_extractStage hplace

/-- What the workspace says of an extraction is what the report shows. -/
theorem shows_extract (hgraph : Pipeline.graph launch pipelines = .ok graph)
    (hsteps : Graph.Steps ⟨graph.stages, .empty, workspace⟩ ⟨0, report, next⟩)
    (hlength : workspace.states.length = pipelines.length)
    (hstart : workspace.state place = {}) (hpipeline : pipelines[place]? = some pipeline) :
    report.Shows pipeline.extractName (next.state place).extract := by
  refine shows_of_steps PipelineState.extract hgraph hsteps hlength (by rw [hstart]; rfl) hpipeline
    (pipeline.extractStage_mem_pair launch place) ?_ ?_
  · intro workspace hplace
    rw [extract_extractStage hplace, Progress.outcome?_ofRun]
    rfl
  · intro other hother hname workspace hplace
    rcases List.mem_pair.mp hother with rfl | rfl
    · exact extract_compileStage hplace
    · exact absurd rfl hname

/-- A stage that extracts depends on the one that compiles and on no other. -/
theorem dependsOn_extractName_iff (hgraph : Pipeline.graph launch pipelines = .ok graph)
    (hpipeline : pipelines[place]? = some pipeline) {name : String} :
    graph.DependsOn pipeline.extractName name ↔ name = pipeline.compileName := by
  have hneeds : ∀ stage ∈ pipeline.pair launch place, ∀ dependency,
      graph.Needs stage.name dependency ↔ dependency ∈ stage.dependencies :=
    fun stage hstage dependency => Graph.needs_name_iff (of_graph_eq_ok hgraph).1
      ((mem_graph_iff hgraph).mpr ⟨pipeline, place, hpipeline, hstage⟩)
  have hextract := hneeds _ (pipeline.extractStage_mem_pair launch place)
  have hcompile := hneeds _ (pipeline.compileStage_mem_pair launch place)
  constructor
  · intro hdepends
    obtain ⟨first, hfirst, hrest⟩ := Relation.TransGen.head'_iff.mp hdepends
    obtain rfl := List.mem_singleton.mp ((hextract first).mp hfirst)
    rcases hrest.cases_head with heq | ⟨second, hsecond, -⟩
    · exact heq.symm
    · exact absurd ((hcompile second).mp hsecond) List.not_mem_nil
  · rintro rfl
    exact .single ((hextract _).mpr (List.mem_singleton_self _))

/-- A pipeline has come as far as the report shows. -/
structure Settled (pipeline : Pipeline) (report : Report) (state : PipelineState) : Prop where
  compile : report.Shows pipeline.compileName state.compile
  extract : report.Shows pipeline.extractName state.extract
  /-- An extraction that has ended was given an object. -/
  compiled : state.extract.result?.isSome ∨ state.extract.failure?.isSome →
    state.compile.result?.isSome
  /-- An extraction that has not ended was skipped, since the compilation failed. -/
  ended : state.extract.result?.isSome ∨ state.extract.failure?.isSome ∨
    state.compile.failure?.isSome

/-- **After a run, every pipeline has come as far as the report shows.** -/
theorem settled_of_run (hgraph : Pipeline.graph launch pipelines = .ok graph)
    (hrun : graph.run workspace = (.ok report, next))
    (hlength : workspace.states.length = pipelines.length)
    (hstart : workspace.state place = {}) (hpipeline : pipelines[place]? = some pipeline) :
    pipeline.Settled report (next.state place) := by
  have hnodup := (of_graph_eq_ok hgraph).1
  have hsteps := Graph.steps_of_run hnodup hrun
  have haccounts := Graph.accounts_of_run hnodup hrun
  have hcompile := shows_compile hgraph hsteps hlength hstart hpipeline
  have hextract := shows_extract hgraph hsteps hlength hstart hpipeline
  refine ⟨hcompile, hextract, fun hended => ?_, ?_⟩
  · have hcalled := haccounts.map_stage_perm.mem_iff.mpr (hextract.called hended)
    have hdepends := (dependsOn_extractName_iff hgraph hpipeline).mpr rfl
    exact hcompile.completed_iff.mp (haccounts.mem_completed_of_dependsOn hdepends hcalled)
  · by_cases hskipped : pipeline.extractName ∈ report.skipped
    · -- the failure for which it was skipped can only be that of the compilation
      obtain ⟨⟨name, error⟩, hfailure, hdepends⟩ := (haccounts.skipped_iff _).mp hskipped
      obtain rfl := (dependsOn_extractName_iff hgraph hpipeline).mp hdepends
      rw [(hcompile.failed_iff error).mp hfailure]
      exact Or.inr (Or.inr rfl)
    · have hstage := (mem_graph_iff hgraph).mpr
        ⟨pipeline, place, hpipeline, pipeline.extractStage_mem_pair launch place⟩
      have hnames : pipeline.extractName ∈ report.names :=
        haccounts.names_perm.mem_iff.mpr (List.mem_map_of_mem hstage)
      exact (hextract.ended hnames hskipped).imp_right Or.inl

theorem length_states_of_run (hgraph : Pipeline.graph launch pipelines = .ok graph)
    (hrun : graph.run workspace = (.ok report, next)) :
    next.states.length = workspace.states.length := by
  have hsteps := Graph.steps_of_run (of_graph_eq_ok hgraph).1 hrun
  refine (hsteps.preserve (P := fun standing => graph.Accounted standing ∧
    standing.state.states.length = workspace.states.length) ?_
    ⟨graph.accounted_start workspace, rfl⟩).2
  rintro _ _ hstep ⟨haccounted, hlength⟩
  refine ⟨haccounted.step hstep, ?_⟩
  cases hstep with
  | skip => exact hlength
  | run stage hready =>
    have hstage := haccounted.left_mem stage (Multiset.mem_cons_self _ _)
    obtain ⟨pipeline, place, -, hpair⟩ := (mem_graph_iff hgraph).mp hstage
    exact (length_states_run hpair _).trans hlength

/-- **A run is a success** if every pipeline has made what it is for. -/
theorem isSuccess_iff_of_run (hgraph : Pipeline.graph launch pipelines = .ok graph)
    (hrun : graph.run workspace = (.ok report, next))
    (hsettled : ∀ (place : Nat) (pipeline : Pipeline), pipelines[place]? = some pipeline →
      pipeline.Settled report (next.state place)) :
    report.isSuccess ↔ ∀ (place : Nat) (pipeline : Pipeline), pipelines[place]? = some pipeline →
      (next.state place).extract.result?.isSome := by
  have haccounts := Graph.accounts_of_run (of_graph_eq_ok hgraph).1 hrun
  rw [Report.isSuccess, Bool.and_eq_true, List.isEmpty_iff, List.isEmpty_iff]
  constructor
  · rintro ⟨hfailed, -⟩ place pipeline hpipeline
    obtain ⟨hcompile, hextract, -, hended⟩ := hsettled place pipeline hpipeline
    rcases hended with hresult | hfailure | hfailure
    · exact hresult
    · obtain ⟨error, herror⟩ := Option.isSome_iff_exists.mp hfailure
      exact absurd ((hextract.failed_iff error).mpr herror) (by simp [hfailed])
    · obtain ⟨error, herror⟩ := Option.isSome_iff_exists.mp hfailure
      exact absurd ((hcompile.failed_iff error).mpr herror) (by simp [hfailed])
  · intro hall
    have hfailed : report.failed = [] := by
      refine List.eq_nil_iff_forall_not_mem.mpr fun ⟨name, error⟩ hfailure => ?_
      have hname : name ∈ report.names :=
        List.mem_append_right _ (List.mem_append_left _ (List.mem_map_of_mem hfailure))
      obtain ⟨stage, hstage, rfl⟩ := List.mem_map.mp (haccounts.names_perm.mem_iff.mp hname)
      obtain ⟨pipeline, place, hpipeline, hpair⟩ := (mem_graph_iff hgraph).mp hstage
      have hsettled := hsettled place pipeline hpipeline
      have hresult := hall place pipeline hpipeline
      rcases List.mem_pair.mp hpair with rfl | rfl
      · have herror := (hsettled.compile.failed_iff error).mp hfailure
        rw [Progress.failure?_of_result? (hsettled.compiled (Or.inl hresult))] at herror
        exact absurd herror (by simp)
      · have herror := (hsettled.extract.failed_iff error).mp hfailure
        rw [Progress.failure?_of_result? hresult] at herror
        exact absurd herror (by simp)
    refine ⟨hfailed, List.eq_nil_iff_forall_not_mem.mpr fun name hskipped => ?_⟩
    obtain ⟨failure, hfailure, -⟩ := (haccounts.skipped_iff name).mp hskipped
    exact absurd hfailure (by simp [hfailed])

end Report

end Pipeline

end KernelCatalog
