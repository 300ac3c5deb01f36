import KernelCatalog.Proofs.Schedule.Graph
import KernelCatalog.Proofs.Schedule.Step
import Mathlib.Data.Multiset.MapFold

/-!
# What a run reports

A run of a valid graph deals with every stage: stages that are all stuck would lead to a cycle. So
each stage is completed, failed or skipped, and which of the three is told by its dependencies.

* `steps_run`: a run of a valid graph takes steps until no stage is left.
* `says_of_steps`: what a stage leaves in the state about its outcome is what the report says.
-/

namespace KernelCatalog

/-- What a report says of a call that ends in the given way, if it fails. -/
def Outcome.message? : Outcome → Option String
  | .done => none
  | .failed message => some message
  | .panicked => some "stage panicked"

namespace Report

/-- The names of all stages in a report. -/
def names (report : Report) : List String := report.completed ++ report.dead

theorem mem_failed_record_iff {report : Report} {name : String} {outcome : Outcome}
    {failure : StageFailure} :
    failure ∈ (report.record name outcome).failed ↔
      failure ∈ report.failed ∨ failure.stage = name ∧ outcome.message? = some failure.error := by
  obtain ⟨stage, error⟩ := failure
  cases outcome <;> simp [record, Outcome.message?, eq_comm]

theorem names_record_perm (report : Report) (name : String) (outcome : Outcome) :
    (report.record name outcome).names.Perm (name :: report.names) := by
  cases outcome with
  | done =>
    simp only [names, record, dead, List.append_assoc, List.singleton_append]
    exact List.perm_middle
  | failed message =>
    simp only [names, record, dead, List.map_append, List.map_singleton, List.append_assoc,
      List.singleton_append]
    exact (List.perm_middle.append_left _).trans List.perm_middle
  | panicked =>
    simp only [names, record, dead, List.map_append, List.map_singleton, List.append_assoc,
      List.singleton_append]
    exact (List.perm_middle.append_left _).trans List.perm_middle

theorem names_skip_perm (report : Report) (name : String) :
    { report with skipped := report.skipped ++ [name] : Report }.names.Perm
      (name :: report.names) := by
  simp only [names, dead, ← List.append_assoc]
  exact List.perm_append_singleton _ _

/-- What a report says of a stage that was called with the given outcome, or not at all. -/
structure Says (report : Report) (name : String) (outcome : Option Outcome) : Prop where
  completed_iff : name ∈ report.completed ↔ outcome = some .done
  failed_iff : ∀ error, ⟨name, error⟩ ∈ report.failed ↔ outcome.bind Outcome.message? = some error

namespace Says

variable {report : Report} {name : String} {outcome : Option Outcome}

/-- A report without the stage says nothing of it. -/
theorem of_not_mem (h : name ∉ report.names) : report.Says name none := by
  rw [names, List.mem_append, not_or, dead, List.mem_append, not_or] at h
  obtain ⟨hcompleted, hfailed, -⟩ := h
  refine ⟨by simp [hcompleted], fun error => ?_⟩
  have hnot : ⟨name, error⟩ ∉ report.failed := fun hmem => hfailed (List.mem_map_of_mem hmem)
  simp [hnot]

theorem record_self (h : name ∉ report.names) (recorded : Outcome) :
    (report.record name recorded).Says name (some recorded) := by
  obtain ⟨hcompleted, hfailed⟩ := of_not_mem h
  refine ⟨?_, fun error => ?_⟩
  · simp [mem_completed_record_iff, hcompleted]
  · simp [mem_failed_record_iff, hfailed]

theorem record_other (h : report.Says name outcome) {other : String} (hne : name ≠ other)
    (recorded : Outcome) : (report.record other recorded).Says name outcome := by
  refine ⟨?_, fun error => ?_⟩
  · simp [mem_completed_record_iff, hne, h.completed_iff]
  · simp [mem_failed_record_iff, hne, h.failed_iff]

end Says

end Report

namespace Graph

variable {σ : Type}

/-! ## No stage is left -/

/-- The stages that are left are stages of the graph, and every name of the graph is either reported
or left. -/
structure Accounted (graph : Graph σ) (standing : Standing σ) : Prop where
  left_mem : ∀ stage ∈ standing.left, stage ∈ graph.stages
  names_eq : (standing.report.names : Multiset String) + standing.left.map Stage.name = graph.names

theorem accounted_start (graph : Graph σ) (state : σ) :
    graph.Accounted ⟨graph.stages, .empty, state⟩ :=
  ⟨fun _ hstage => hstage, rfl⟩

/-- A step moves the name of its stage from the stages that are left to the report. -/
theorem Accounted.step {graph : Graph σ} {before after : Standing σ} (hstep : Step before after)
    (h : graph.Accounted before) : graph.Accounted after := by
  obtain ⟨hmem, hnames⟩ := h
  cases hstep with
  | @skip rest report state stage dependency _ _ =>
    refine ⟨fun other hother => hmem other (Multiset.mem_cons_of_mem hother), ?_⟩
    have hperm := Multiset.coe_eq_coe.mpr (report.names_skip_perm stage.name)
    rw [← hnames, hperm, Multiset.map_cons, Multiset.add_cons, ← Multiset.cons_coe,
      Multiset.cons_add]
  | @run rest report state stage _ =>
    refine ⟨fun other hother => hmem other (Multiset.mem_cons_of_mem hother), ?_⟩
    have hperm := Multiset.coe_eq_coe.mpr (report.names_record_perm stage.name (stage.run state).1)
    rw [← hnames, hperm, Multiset.map_cons, Multiset.add_cons, ← Multiset.cons_coe,
      Multiset.cons_add]

/-- No name is both reported and left, or either of them twice. -/
theorem Accounted.nodup {graph : Graph σ} (hnodup : graph.names.Nodup) {standing : Standing σ}
    (h : graph.Accounted standing) :
    ((standing.report.names : Multiset String) + standing.left.map Stage.name).Nodup := by
  rw [h.names_eq]
  exact Multiset.coe_nodup.mpr hnodup

theorem Accounted.not_mem_names {graph : Graph σ} (hnodup : graph.names.Nodup)
    {standing : Standing σ} (h : graph.Accounted standing) {stage : Stage σ}
    (hstage : stage ∈ standing.left) : stage.name ∉ standing.report.names := by
  intro hreported
  have hdisjoint := (Multiset.nodup_add.mp (h.nodup hnodup)).2.2
  exact Multiset.disjoint_left.mp hdisjoint (Multiset.mem_coe.mpr hreported)
    (Multiset.mem_map_of_mem _ hstage)

/-- Stages that are all stuck depend on each other, so without a cycle there are none. -/
theorem Accounted.left_eq_zero {graph : Graph σ} (hclosed : graph.Closed)
    (hacyclic : ∀ name, ¬ graph.DependsOn name name) {standing : Standing σ}
    (h : graph.Accounted standing) (hstuck : ∀ stage ∈ standing.left, Stuck standing.report stage) :
    standing.left = 0 := by
  by_contra hne
  obtain ⟨first, hfirst⟩ := Multiset.exists_mem_of_ne_zero hne
  obtain ⟨items, hitems⟩ := Quot.exists_rep (standing.left.map Stage.name)
  have hmem : ∀ name, name ∈ items ↔ name ∈ standing.left.map Stage.name := by
    intro name
    rw [← hitems]
    exact Multiset.mem_coe.symm
  have hneeds : ∀ name ∈ items, ∃ other ∈ items, graph.Needs name other := by
    intro name hname
    obtain ⟨stage, hstage, rfl⟩ := Multiset.mem_map.mp ((hmem _).mp hname)
    have hgraph := h.left_mem stage hstage
    obtain ⟨dependency, hdependency, hnot⟩ := (hstuck stage hstage).not_ready
    refine ⟨dependency, (hmem _).mpr ?_, stage, hgraph, rfl, hdependency⟩
    -- the dependency is a stage that is neither completed nor dead
    have hknown : dependency ∈ (graph.names : Multiset String) :=
      hclosed stage hgraph dependency hdependency
    rw [← h.names_eq, Multiset.mem_add, Multiset.mem_coe, Report.names, List.mem_append] at hknown
    rcases hknown with (hcompleted | hdead) | hleft
    · exact absurd hcompleted hnot
    · exact absurd hdead ((hstuck stage hstage).not_dead dependency hdependency)
    · exact hleft
  obtain ⟨name, -, hcycle⟩ :=
    exists_cycle items hneeds ((hmem _).mpr (Multiset.mem_map_of_mem Stage.name hfirst))
  exact hacyclic name hcycle

/-- **A run of a valid graph** takes steps until no stage is left. -/
theorem steps_run {graph : Graph σ} (hnodup : graph.names.Nodup) (hvalid : graph.validate = .ok ())
    (state : σ) :
    ∃ report next, graph.run state = (.ok report, next) ∧
      Steps ⟨graph.stages, .empty, state⟩ ⟨0, report, next⟩ := by
  obtain ⟨hclosed, hacyclic⟩ := (validate_eq_ok_iff hnodup).mp hvalid
  obtain ⟨left, hsteps, hstuck⟩ := steps_runStages graph.stages .empty state
  have haccounted := hsteps.preserve (fun _ _ => Accounted.step) (graph.accounted_start state)
  obtain rfl := haccounted.left_eq_zero hclosed hacyclic hstuck
  refine ⟨_, _, ?_, hsteps⟩
  rw [run, hvalid]

theorem run_of_invalid {graph : Graph σ} {e : GraphError} (h : graph.validate = .error e)
    (state : σ) : graph.run state = (.error e, state) := by
  rw [run, h]

theorem steps_of_run {graph : Graph σ} (hnodup : graph.names.Nodup) {state next : σ}
    {report : Report} (h : graph.run state = (.ok report, next)) :
    Steps ⟨graph.stages, .empty, state⟩ ⟨0, report, next⟩ := by
  cases hvalid : graph.validate with
  | error e =>
    rw [run_of_invalid hvalid] at h
    exact absurd (Prod.mk.inj h).1 (by simp)
  | ok =>
    obtain ⟨reported, reached, hrun, hsteps⟩ := steps_run hnodup hvalid state
    obtain ⟨hreport, rfl⟩ := Prod.mk.inj (h.symm.trans hrun)
    obtain rfl := Except.ok.inj hreport
    exact hsteps

/-- **What a stage leaves in the state about its outcome is what the report says of it**, if a call
of the stage leaves its outcome there and calls of other stages do not touch it. -/
theorem says_of_steps {graph : Graph σ} (hnodup : graph.names.Nodup) {stage : Stage σ}
    (hstage : stage ∈ graph.stages) (invariant : σ → Prop) (outcome? : σ → Option Outcome)
    (hinvariant : ∀ other ∈ graph.stages, ∀ state, invariant state → invariant (other.run state).2)
    (hself : ∀ state, invariant state → outcome? (stage.run state).2 = some (stage.run state).1)
    (hother : ∀ other ∈ graph.stages, other.name ≠ stage.name → ∀ state, invariant state →
      outcome? (other.run state).2 = outcome? state)
    {state next : σ} {left : Multiset (Stage σ)} {report : Report}
    (hsteps : Steps ⟨graph.stages, .empty, state⟩ ⟨left, report, next⟩)
    (hstate : invariant state) (hnone : outcome? state = none) :
    report.Says stage.name (outcome? next) := by
  have hstart : graph.Accounted ⟨graph.stages, .empty, state⟩ ∧ invariant state ∧
      Report.empty.Says stage.name (outcome? state) := by
    refine ⟨graph.accounted_start state, hstate, ?_⟩
    rw [hnone]
    exact .of_not_mem (by simp [Report.names, Report.empty, Report.dead])
  refine (hsteps.preserve (P := fun standing => graph.Accounted standing ∧
    invariant standing.state ∧ standing.report.Says stage.name (outcome? standing.state))
    ?_ hstart).2.2
  rintro _ _ hstep ⟨haccounted, hstate, hsays⟩
  refine ⟨haccounted.step hstep, ?_⟩
  cases hstep with
  | skip => exact ⟨hstate, hsays.completed_iff, hsays.failed_iff⟩
  | run other hready =>
    have hmem := haccounted.left_mem other (Multiset.mem_cons_self _ _)
    refine ⟨hinvariant other hmem _ hstate, ?_⟩
    by_cases hname : other.name = stage.name
    · -- names are distinct, so this is the call of the stage itself
      obtain rfl := List.inj_on_of_nodup_map hnodup hmem hstage hname
      rw [hself _ hstate]
      exact .record_self (haccounted.not_mem_names hnodup (Multiset.mem_cons_self _ _)) _
    · rw [hother other hmem hname _ hstate]
      exact hsays.record_other (Ne.symm hname) _

end Graph

end KernelCatalog
