import KernelCatalog.Proofs.Schedule.Run

/-!
# Which stages are called, and in which order

A traced stage does what the stage does and notes each call with its outcome. A graph of traced
stages runs like the graph itself, so the notes it leaves are the calls of the run.

* `run_traced`: tracing changes neither the report nor the state.
* `run_accounts_for_stages`: what is reported, and which stages are called in which order.
* `skipped_not_in_dependency_order`: a skipped stage may be reported before one that it depends on.
-/

namespace KernelCatalog

/-- A call of a stage and how it ended. -/
structure Call where
  stage : String
  outcome : Outcome
  deriving DecidableEq, Repr

/-- What a report says of a call that failed. -/
def Call.failure? (call : Call) : Option StageFailure :=
  call.outcome.message?.map fun message => ⟨call.stage, message⟩

/-- The stage that notes its calls behind those noted before. -/
def Stage.traced {σ : Type} (stage : Stage σ) : Stage (σ × List Call) where
  name := stage.name
  dependencies := stage.dependencies
  outputs := stage.outputs
  run traced :=
    let (outcome, next) := stage.run traced.1
    (outcome, next, traced.2 ++ [⟨stage.name, outcome⟩])

namespace Graph

variable {σ : Type}

/-! ## Tracing -/

/-- The graph of traced stages. -/
def traced (graph : Graph σ) : Graph (σ × List Call) := ⟨graph.stages.map Stage.traced⟩

/-- The calls that a run makes, in order. -/
def calls (graph : Graph σ) (state : σ) : List Call := (graph.traced.run (state, [])).2.2

@[simp] theorem names_traced (graph : Graph σ) : graph.traced.names = graph.names := by
  simp only [names, traced, List.map_map]
  rfl

theorem needs_traced (graph : Graph σ) : graph.traced.Needs = graph.Needs := by
  funext name dependency
  refine propext ⟨?_, ?_⟩
  · rintro ⟨_, hmem, hname, hdependency⟩
    obtain ⟨stage, hstage, rfl⟩ := List.mem_map.mp hmem
    exact ⟨stage, hstage, hname, hdependency⟩
  · rintro ⟨stage, hstage, hname, hdependency⟩
    exact ⟨stage.traced, List.mem_map_of_mem hstage, hname, hdependency⟩

theorem unsettled_traced (settled : List String) (stages : List (Stage σ)) :
    unsettled settled (stages.map Stage.traced) = (unsettled settled stages).map Stage.traced := by
  have hready : ∀ settled (stages : List (Stage σ)),
      ready settled (stages.map Stage.traced) = (ready settled stages).map Stage.traced :=
    fun settled stages => List.filter_map
  have hblocked : ∀ settled (stages : List (Stage σ)),
      blocked settled (stages.map Stage.traced) = (blocked settled stages).map Stage.traced :=
    fun settled stages => List.filter_map
  fun_induction unsettled settled stages with
  | case1 settled stages hempty =>
    rw [unsettled, hready, List.isEmpty_map, if_pos hempty]
  | case2 settled stages hempty ih =>
    rw [unsettled, hready, List.isEmpty_map, if_neg hempty, hblocked, ← ih, List.map_map]
    rfl

theorem validate_traced (graph : Graph σ) : graph.traced.validate = graph.validate := by
  have hunknown : graph.traced.unknownDependency? = graph.unknownDependency? := by
    unfold unknownDependency?
    rw [names_traced, traced, List.findSome?_map]
    rfl
  have hunsettled := unsettled_traced [] graph.stages
  rw [validate, validate, hunknown]
  cases graph.unknownDependency? with
  | some found => rfl
  | none =>
    dsimp only [traced]
    rw [hunsettled]
    cases unsettled [] graph.stages with
    | nil => rfl
    | cons first rest =>
      simp only [List.map_cons, List.map_map]
      rfl

/-- A pass over traced stages decides as a pass over the stages. -/
theorem pass_traced (done dead : List String) (stages : List (Stage σ)) :
    pass done dead (stages.map Stage.traced) =
      ⟨(pass done dead stages).wave.map Stage.traced,
        (pass done dead stages).waiting.map Stage.traced, (pass done dead stages).skipped⟩ := by
  induction stages generalizing dead with
  | nil => rfl
  | cons first rest ih =>
    have hdependencies : first.traced.dependencies = first.dependencies := rfl
    have hname : first.traced.name = first.name := rfl
    have hisReady : isReady done first.traced = isReady done first := rfl
    simp only [List.map_cons, pass, hdependencies, hname, hisReady, ih]
    split
    · rfl
    · split <;> rfl

/-- A wave of traced stages reports what the wave does. -/
theorem runWave_traced (wave : List (Stage σ)) (report : Report) (state : σ) (noted : List Call) :
    ∃ calls, runWave (wave.map Stage.traced) report (state, noted) =
      ((runWave wave report state).1, (runWave wave report state).2, calls) := by
  induction wave generalizing report state noted with
  | nil => exact ⟨noted, rfl⟩
  | cons first rest ih => exact ih _ _ _

/-- Traced stages run like the stages. -/
theorem runStages_traced (stages : List (Stage σ)) (report : Report) (state : σ)
    (noted : List Call) :
    ∃ calls, runStages (stages.map Stage.traced) report (state, noted) =
      ((runStages stages report state).1, (runStages stages report state).2, calls) := by
  fun_induction runStages stages report state generalizing noted with
  | case1 stages report state sorted ran next hran hlt ih =>
    obtain ⟨calls, hcalls⟩ := runWave_traced sorted.wave
      { report with skipped := report.skipped ++ sorted.skipped } state noted
    rw [hran] at hcalls
    rw [runStages, pass_traced]
    simp only [List.length_map]
    rw [hcalls, if_pos hlt]
    exact ih calls
  | case2 stages report state sorted ran next hran hlast =>
    obtain ⟨calls, hcalls⟩ := runWave_traced sorted.wave
      { report with skipped := report.skipped ++ sorted.skipped } state noted
    rw [hran] at hcalls
    rw [runStages, pass_traced]
    simp only [List.length_map]
    rw [hcalls, if_neg hlast]
    exact ⟨calls, rfl⟩

theorem run_traced (graph : Graph σ) (state : σ) :
    graph.traced.run (state, []) =
      ((graph.run state).1, (graph.run state).2, graph.calls state) := by
  have hrun : ∃ calls, graph.traced.run (state, []) =
      ((graph.run state).1, (graph.run state).2, calls) := by
    rw [run, validate_traced, run]
    cases graph.validate with
    | error e => exact ⟨[], rfl⟩
    | ok =>
      obtain ⟨calls, hcalls⟩ := runStages_traced graph.stages .empty state []
      refine ⟨calls, ?_⟩
      dsimp only [traced]
      rw [hcalls]
  obtain ⟨calls, hcalls⟩ := hrun
  rw [Graph.calls, hcalls]

/-! ## What stands in front -/

/-- Each item stands in the relation to the items in front of it. -/
def EachAfter {α : Type} (P : List α → α → Prop) (items : List α) : Prop :=
  ∀ before item after, items = before ++ item :: after → P before item

namespace EachAfter

variable {α : Type} {P Q : List α → α → Prop} {items : List α}

theorem nil : EachAfter P [] := by
  intro before item after heq
  exact absurd heq (by simp)

theorem concat (h : EachAfter P items) {last : α} (hlast : P items last) :
    EachAfter P (items ++ [last]) := by
  intro before item after heq
  rcases List.eq_nil_or_concat after with rfl | ⟨front, final, rfl⟩
  · obtain ⟨rfl, hitem⟩ := List.append_inj' heq rfl
    obtain rfl := List.singleton_inj.mp hitem
    exact hlast
  · rw [List.concat_eq_append, ← List.cons_append, ← List.append_assoc] at heq
    exact h before item front (List.append_inj' heq rfl).1

theorem imp (h : EachAfter P items) (hPQ : ∀ before item, P before item → Q before item) :
    EachAfter Q items :=
  fun before item after heq => hPQ before item (h before item after heq)

/-- Each item stands in the relation to some of the items. -/
theorem exists_before (h : EachAfter P items) {item : α} (hitem : item ∈ items) :
    ∃ before, before ⊆ items ∧ P before item := by
  obtain ⟨before, after, rfl⟩ := List.append_of_mem hitem
  exact ⟨before, List.subset_append_left _ _, h before item after rfl⟩

/-- What passes on from the items in front of an item to the item holds of all. -/
theorem forall_mem (h : EachAfter P items) {R : α → Prop}
    (hR : ∀ before item, P before item → (∀ other ∈ before, R other) → R item) :
    ∀ item ∈ items, R item := by
  induction items using List.reverseRecOn with
  | nil => simp
  | append_singleton front last ih =>
    have hfront : ∀ item ∈ front, R item := by
      refine ih fun before item after heq => h before item (after ++ [last]) ?_
      rw [heq, List.append_assoc, List.cons_append]
    intro item hitem
    rcases List.mem_append.mp hitem with hitem | hitem
    · exact hfront item hitem
    · obtain rfl := List.mem_singleton.mp hitem
      exact hR front item (h front item [] rfl) hfront

end EachAfter

/-! ## Calls and report -/

/-- The report tells the calls, in order. A call comes after its dependencies were called with
success, and a stage is skipped after a dependency that failed or was skipped. -/
structure Tells (graph : Graph σ) (report : Report) (calls : List Call) : Prop where
  completed_eq : report.completed = (calls.filter fun call => call.outcome = .done).map Call.stage
  failed_eq : report.failed = calls.filterMap Call.failure?
  calls_after : EachAfter
    (fun before call => ∀ dependency, graph.Needs call.stage dependency →
      ⟨dependency, .done⟩ ∈ before) calls
  completed_after : EachAfter
    (fun before name => ∀ dependency, graph.Needs name dependency → dependency ∈ before)
    report.completed
  skipped_after : EachAfter
    (fun before name => ∃ dependency, graph.Needs name dependency ∧
      (dependency ∈ report.failed.map StageFailure.stage ∨ dependency ∈ before))
    report.skipped

theorem Tells.empty (graph : Graph σ) : graph.Tells .empty [] :=
  ⟨rfl, rfl, .nil, .nil, .nil⟩

theorem Tells.mem_completed_iff {graph : Graph σ} {report : Report} {calls : List Call}
    (h : graph.Tells report calls) {name : String} :
    name ∈ report.completed ↔ ⟨name, .done⟩ ∈ calls := by
  rw [h.completed_eq, List.mem_map]
  constructor
  · rintro ⟨⟨_, outcome⟩, hcall, rfl⟩
    obtain ⟨hmem, hdone⟩ := List.mem_filter.mp hcall
    obtain rfl : outcome = .done := of_decide_eq_true hdone
    exact hmem
  · intro hmem
    exact ⟨_, List.mem_filter.mpr ⟨hmem, decide_eq_true rfl⟩, rfl⟩

/-- A stage is skipped because of a dependency that failed or was skipped. -/
theorem Tells.skip {graph : Graph σ} {report : Report} {calls : List Call}
    (h : graph.Tells report calls) {name dependency : String}
    (hneeds : graph.Needs name dependency) (hdead : dependency ∈ report.dead) :
    graph.Tells { report with skipped := report.skipped ++ [name] } calls :=
  { h with
    skipped_after := h.skipped_after.concat ⟨dependency, hneeds, List.mem_append.mp hdead⟩ }

/-- A stage is called after its dependencies are completed. -/
theorem Tells.call {graph : Graph σ} {report : Report} {calls : List Call}
    (h : graph.Tells report calls) {name : String}
    (hready : ∀ dependency, graph.Needs name dependency → dependency ∈ report.completed)
    (outcome : Outcome) :
    graph.Tells (report.record name outcome) (calls ++ [⟨name, outcome⟩]) := by
  have hcalls : EachAfter
      (fun before call => ∀ dependency, graph.Needs call.stage dependency →
        ⟨dependency, .done⟩ ∈ before) (calls ++ [⟨name, outcome⟩]) :=
    h.calls_after.concat fun dependency hneeds =>
      h.mem_completed_iff.mp (hready dependency hneeds)
  -- a failure more leaves the reasons for skipping as they are
  have hskipped : ∀ failure : StageFailure, EachAfter
      (fun before name => ∃ dependency, graph.Needs name dependency ∧
        (dependency ∈ (report.failed ++ [failure]).map StageFailure.stage ∨ dependency ∈ before))
      report.skipped := by
    intro failure
    refine h.skipped_after.imp fun before item ⟨dependency, hneeds, hdead⟩ =>
      ⟨dependency, hneeds, hdead.imp_left fun hfailed => ?_⟩
    rw [List.map_append]
    exact List.mem_append_left _ hfailed
  cases outcome with
  | done =>
    refine ⟨?_, ?_, hcalls, h.completed_after.concat hready, h.skipped_after⟩
    · simp [Report.record, h.completed_eq]
    · simp [Report.record, h.failed_eq, Call.failure?, Outcome.message?]
  | failed message =>
    refine ⟨?_, ?_, hcalls, h.completed_after, hskipped _⟩
    · simp [Report.record, h.completed_eq]
    · simp [Report.record, h.failed_eq, Call.failure?, Outcome.message?]
  | panicked =>
    refine ⟨?_, ?_, hcalls, h.completed_after, hskipped _⟩
    · simp [Report.record, h.completed_eq]
    · simp [Report.record, h.failed_eq, Call.failure?, Outcome.message?]

/-- The calls noted by traced stages are those that the report tells. -/
theorem Tells.step {graph : Graph σ} (hnodup : graph.names.Nodup)
    {before after : Standing (σ × List Call)} (hstep : Step before after)
    (haccounted : graph.traced.Accounted before) (h : graph.Tells before.report before.state.2) :
    graph.Tells after.report after.state.2 := by
  cases hstep with
  | skip stage dependency hmem hdead =>
    refine h.skip ?_ hdead
    rw [← needs_traced]
    exact ⟨stage, haccounted.left_mem stage (Multiset.mem_cons_self _ _), rfl, hmem⟩
  | @run rest report state stage hready =>
    obtain ⟨original, horiginal, rfl⟩ :=
      List.mem_map.mp (haccounted.left_mem stage (Multiset.mem_cons_self _ _))
    refine h.call (fun dependency hneeds => hready dependency ?_) _
    exact (needs_name_iff hnodup horiginal).mp hneeds

theorem map_stage_perm (calls : List Call) :
    (calls.map Call.stage).Perm ((calls.filter fun call => call.outcome = .done).map Call.stage
      ++ (calls.filterMap Call.failure?).map StageFailure.stage) := by
  induction calls with
  | nil => exact .refl _
  | cons call rest ih =>
    obtain ⟨stage, outcome⟩ := call
    cases outcome with
    | done =>
      rw [List.filter_cons_of_pos (by simp), List.filterMap_cons_none rfl]
      exact ih.cons stage
    | failed message =>
      rw [List.filter_cons_of_neg (by simp)]
      exact (ih.cons stage).trans List.perm_middle.symm
    | panicked =>
      rw [List.filter_cons_of_neg (by simp)]
      exact (ih.cons stage).trans List.perm_middle.symm

theorem Tells.map_stage_perm {graph : Graph σ} {report : Report} {calls : List Call}
    (h : graph.Tells report calls) :
    (calls.map Call.stage).Perm (report.completed ++ report.failed.map StageFailure.stage) := by
  rw [h.completed_eq, h.failed_eq]
  exact Graph.map_stage_perm calls

/-- Everything that a called stage depends on was completed. -/
theorem Tells.mem_completed_of_dependsOn {graph : Graph σ} {report : Report} {calls : List Call}
    (h : graph.Tells report calls) {name dependency : String}
    (hdepends : graph.DependsOn name dependency) (hcalled : name ∈ calls.map Call.stage) :
    dependency ∈ report.completed := by
  have hneeds : ∀ {name next}, graph.Needs name next → name ∈ calls.map Call.stage →
      ⟨next, .done⟩ ∈ calls := by
    intro name next hneeds hcalled
    obtain ⟨call, hcall, rfl⟩ := List.mem_map.mp hcalled
    obtain ⟨before, hbefore, hafter⟩ := h.calls_after.exists_before hcall
    exact hbefore (hafter next hneeds)
  induction hdepends using Relation.TransGen.head_induction_on with
  | single hlast => exact h.mem_completed_iff.mpr (hneeds hlast hcalled)
  | head hfirst _ ih => exact ih (List.mem_map_of_mem (hneeds hfirst hcalled))

/-- A skipped stage depends on one that failed. -/
theorem Tells.exists_failed_of_skipped {graph : Graph σ} {report : Report} {calls : List Call}
    (h : graph.Tells report calls) :
    ∀ name ∈ report.skipped, ∃ failure ∈ report.failed, graph.DependsOn name failure.stage := by
  refine h.skipped_after.forall_mem ?_
  rintro before name ⟨dependency, hneeds, hfailed | hskipped⟩ hbefore
  · obtain ⟨failure, hfailure, rfl⟩ := List.mem_map.mp hfailed
    exact ⟨failure, hfailure, .single hneeds⟩
  · obtain ⟨failure, hfailure, hdepends⟩ := hbefore dependency hskipped
    exact ⟨failure, hfailure, .head hneeds hdepends⟩

/-- What a run of a valid graph reports of its stages and their calls. -/
structure Accounts (graph : Graph σ) (report : Report) (calls : List Call) : Prop extends
    Tells graph report calls where
  /-- Every stage is reported, and nothing else. -/
  names_perm : report.names.Perm graph.names
  /-- No stage is reported twice. -/
  names_nodup : report.names.Nodup
  /-- What is skipped is what is downstream of a failure. -/
  skipped_iff : ∀ name, name ∈ report.skipped ↔
    ∃ failure ∈ report.failed, graph.DependsOn name failure.stage
  /-- What was completed or failed was called exactly once. -/
  called_once : ∀ name, name ∈ report.completed ∨ name ∈ report.failed.map StageFailure.stage →
    (calls.map Call.stage).count name = 1
  /-- What was skipped was not called. -/
  not_called : ∀ name ∈ report.skipped, name ∉ calls.map Call.stage

/-- A report that tells the calls and names every stage once accounts for the stages. -/
theorem Tells.accounts {graph : Graph σ} {report : Report} {calls : List Call}
    (h : graph.Tells report calls) (hnames : report.names.Perm graph.names)
    (hnodup : graph.names.Nodup) : graph.Accounts report calls := by
  have hreported : report.names.Nodup := hnames.nodup_iff.mpr hnodup
  obtain ⟨-, hdead, hcompleted⟩ := List.nodup_append'.mp hreported
  have hcalled : (calls.map Call.stage).Nodup := by
    rw [h.map_stage_perm.nodup_iff]
    refine hreported.sublist ?_
    rw [Report.names, Report.dead, ← List.append_assoc]
    exact List.sublist_append_left _ _
  have hnotCalled : ∀ name ∈ report.skipped, name ∉ calls.map Call.stage := by
    intro name hskipped hmem
    rcases List.mem_append.mp (h.map_stage_perm.mem_iff.mp hmem) with hmem | hmem
    · exact hcompleted hmem (List.mem_append_right _ hskipped)
    · exact (List.nodup_append'.mp hdead).2.2 hmem hskipped
  refine { h with
    names_perm := hnames, names_nodup := hreported, skipped_iff := ?_, called_once := ?_,
    not_called := hnotCalled }
  · refine fun name => ⟨h.exists_failed_of_skipped name, ?_⟩
    rintro ⟨failure, hfailure, hdepends⟩
    obtain ⟨_, ⟨stage, hstage, rfl, -⟩, -⟩ := Relation.TransGen.head'_iff.mp hdepends
    have hmem := hnames.mem_iff.mpr (List.mem_map_of_mem hstage)
    rw [Report.names, Report.dead, ← List.append_assoc, List.mem_append,
      ← h.map_stage_perm.mem_iff] at hmem
    -- had the stage been called, its dependency would have been completed
    refine hmem.resolve_left fun hcall => ?_
    refine hcompleted (h.mem_completed_of_dependsOn hdepends hcall) ?_
    exact List.mem_append_left _ (List.mem_map_of_mem hfailure)
  · intro name hmem
    refine List.count_eq_one_of_mem hcalled ?_
    exact h.map_stage_perm.mem_iff.mpr (List.mem_append.mpr hmem)

/-- The report of a run accounts for the stages and their calls. -/
theorem accounts_of_run {graph : Graph σ} (hnodup : graph.names.Nodup) {state next : σ}
    {report : Report} (h : graph.run state = (.ok report, next)) :
    graph.Accounts report (graph.calls state) := by
  have hrun : graph.traced.run (state, []) = (.ok report, next, graph.calls state) := by
    rw [run_traced, h]
  have hsteps := steps_of_run (graph.names_traced ▸ hnodup) hrun
  have hstart : graph.traced.Accounted ⟨graph.traced.stages, .empty, (state, [])⟩ ∧
      graph.Tells .empty [] := ⟨graph.traced.accounted_start _, .empty graph⟩
  obtain ⟨haccounted, htells⟩ := hsteps.preserve
    (P := fun standing => graph.traced.Accounted standing ∧
      graph.Tells standing.report standing.state.2)
    (fun _ _ hstep h => ⟨h.1.step hstep, h.2.step hnodup hstep h.1⟩) hstart
  have hnames := haccounted.names_eq
  rw [Multiset.map_zero, Multiset.add_zero, names_traced] at hnames
  exact htells.accounts (Multiset.coe_eq_coe.mp hnames) hnodup

/-- **A run accounts for every stage.** However a graph is built and whatever its stages do, an
invalid graph is refused without a call. A run of a valid graph reports every stage exactly once;
it skips exactly the stages downstream of a failure and calls each of the others exactly once, after
its dependencies were called with success. Completed stages are reported after all their
dependencies, and a skipped stage after a dependency for which it was skipped, unless that one
failed. -/
theorem run_accounts_for_stages (offers : List (Stage σ)) (state : σ) :
    (ofOffers offers).traced.run (state, []) =
      (((ofOffers offers).run state).1, ((ofOffers offers).run state).2,
        (ofOffers offers).calls state) ∧
    (∀ e, (ofOffers offers).validate = .error e →
      (ofOffers offers).run state = (.error e, state) ∧ (ofOffers offers).calls state = []) ∧
    ((ofOffers offers).validate = .ok () → ∃ report next,
      (ofOffers offers).run state = (.ok report, next) ∧
      (ofOffers offers).Accounts report ((ofOffers offers).calls state)) := by
  have hnodup := nodup_names_ofOffers offers
  generalize ofOffers offers = graph at hnodup ⊢
  refine ⟨graph.run_traced state, fun e he => ⟨run_of_invalid he state, ?_⟩, fun hvalid => ?_⟩
  · rw [calls, run_of_invalid (graph.validate_traced.trans he)]
  · obtain ⟨report, next, hrun, -⟩ := steps_run hnodup hvalid state
    exact ⟨report, next, hrun, accounts_of_run hnodup hrun⟩

/-- A stage that ends in the same way whenever it is called. -/
def sampleStage (name : String) (dependencies : List String) (outcome : Outcome) : Stage Unit where
  name := name
  dependencies := dependencies
  outputs := [⟨"/out/" ++ name⟩]
  run _ := (outcome, ())

/-- Two stages that depend on one that fails, of which the first depends on the second as well. -/
def sampleOffers : List (Stage Unit) :=
  [sampleStage "compile" [] (.failed "duplicate stage name 'boom'"),
    sampleStage "link" ["compile", "extract"] .done, sampleStage "extract" ["compile"] .done]

/-- What is reported of the sample. -/
def sampleReport : Report :=
  ⟨[], [⟨"compile", "duplicate stage name 'boom'"⟩], ["link", "extract"]⟩

/-- Skipped stages are not always reported after the skipped stages that they depend on: one that
depends on a failed stage is skipped as soon as it is met. -/
theorem skipped_not_in_dependency_order :
    (ofOffers sampleOffers).run () = (.ok sampleReport, ()) ∧
      ¬ EachAfter (fun before name => ∀ dependency, (ofOffers sampleOffers).Needs name dependency →
        dependency ∈ sampleReport.skipped → dependency ∈ before) sampleReport.skipped := by
  refine ⟨by cbv, fun h => ?_⟩
  have hstages : (ofOffers sampleOffers).stages = sampleOffers := by cbv
  have hneeds : (ofOffers sampleOffers).Needs "link" "extract" := by
    refine ⟨sampleStage "link" ["compile", "extract"] .done, ?_, rfl, by decide⟩
    rw [hstages]
    simp [sampleOffers]
  exact absurd (h [] "link" ["extract"] rfl "extract" hneeds (by decide)) (by simp)

end Graph

end KernelCatalog
