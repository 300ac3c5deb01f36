import KernelCatalog.Schedule.Report
import Mathlib.Data.Multiset.AddSub
import Mathlib.Logic.Relation

/-!
# What a run does step by step

A run deals with one stage after another: it skips a stage with a dependency that failed or was
skipped, and it runs a stage whose dependencies are all completed. `Step` says this of one stage,
whatever the order in which the waves take them. Every run is a sequence of steps, so a property
that each step keeps holds of what the run reports.

* `steps_runStages`: a run is a sequence of steps, after which the stages that are left are stuck.
-/

namespace KernelCatalog

theorem Report.mem_completed_record_iff {report : Report} {name other : String}
    {outcome : Outcome} :
    other ∈ (report.record name outcome).completed ↔
      other ∈ report.completed ∨ other = name ∧ outcome = .done := by
  cases outcome <;> simp [record]

namespace Graph

variable {σ : Type}

/-- Where a run stands: the stages that it has not dealt with, what it has reported, and the state
that the stages work on. -/
structure Standing (σ : Type) where
  left : Multiset (Stage σ)
  report : Report
  state : σ

/-- What a run does with one stage. -/
inductive Step : Standing σ → Standing σ → Prop where
  | skip {rest : Multiset (Stage σ)} {report : Report} {state : σ} (stage : Stage σ)
      (dependency : String) (mem : dependency ∈ stage.dependencies)
      (dead : dependency ∈ report.dead) :
      Step ⟨stage ::ₘ rest, report, state⟩
        ⟨rest, { report with skipped := report.skipped ++ [stage.name] }, state⟩
  | run {rest : Multiset (Stage σ)} {report : Report} {state : σ} (stage : Stage σ)
      (ready : ∀ dependency ∈ stage.dependencies, dependency ∈ report.completed) :
      Step ⟨stage ::ₘ rest, report, state⟩
        ⟨rest, report.record stage.name (stage.run state).1, (stage.run state).2⟩

/-- Any number of steps. -/
abbrev Steps : Standing σ → Standing σ → Prop := Relation.ReflTransGen Step

/-- A stage that can be neither run nor skipped. -/
structure Stuck (report : Report) (stage : Stage σ) : Prop where
  not_dead : ∀ dependency ∈ stage.dependencies, dependency ∉ report.dead
  not_ready : ∃ dependency ∈ stage.dependencies, dependency ∉ report.completed

/-- What each step keeps, any number of steps keep. -/
theorem Steps.preserve {P : Standing σ → Prop} (hstep : ∀ a b, Step a b → P a → P b)
    {a b : Standing σ} (hsteps : Steps a b) (ha : P a) : P b := by
  induction hsteps with
  | refl => exact ha
  | tail _ hlast ih => exact hstep _ _ hlast ih

/-! ## One pass -/

theorem isReady_of_mem_wave {done dead : List String} {stages : List (Stage σ)} {stage : Stage σ}
    (h : stage ∈ (pass done dead stages).wave) : isReady done stage = true := by
  fun_induction pass done dead stages with
  | case1 => exact absurd h (by simp)
  | case2 _ _ _ _ _ ih => exact ih h
  | case3 _ first _ _ hready _ ih =>
    rcases List.mem_cons.mp h with rfl | h
    · exact hready
    · exact ih h
  | case4 _ _ _ _ _ _ ih => exact ih h

/-- A stage that waits is not ready and has no dependency that failed or was skipped before. -/
theorem of_mem_waiting {done dead : List String} {stages : List (Stage σ)} {stage : Stage σ}
    (h : stage ∈ (pass done dead stages).waiting) :
    isReady done stage = false ∧ ∀ dependency ∈ stage.dependencies, dependency ∉ dead := by
  fun_induction pass done dead stages with
  | case1 => exact absurd h (by simp)
  | case2 dead first rest _ _ ih =>
    obtain ⟨hready, hdead⟩ := ih h
    exact ⟨hready, fun dependency hmem hold => hdead dependency hmem (List.mem_cons_of_mem _ hold)⟩
  | case3 _ _ _ _ _ _ ih => exact ih h
  | case4 dead first rest hdead hready _ ih =>
    rcases List.mem_cons.mp h with rfl | h
    · exact ⟨by simpa using hready, by simpa using hdead⟩
    · exact ih h

/-- A pass deals with every stage once. -/
theorem length_pass (done dead : List String) (stages : List (Stage σ)) :
    (pass done dead stages).wave.length + (pass done dead stages).waiting.length
      + (pass done dead stages).skipped.length = stages.length := by
  fun_induction pass done dead stages with
  | case1 => rfl
  | case2 _ _ _ _ sorted ih =>
    simp only [List.length_cons, sorted]
    omega
  | case3 _ _ _ _ _ sorted ih =>
    simp only [List.length_cons, sorted]
    omega
  | case4 _ _ _ _ _ sorted ih =>
    simp only [List.length_cons, sorted]
    omega

/-- The stages that a pass skips are skipped one after another; the others are kept. -/
theorem steps_pass (done : List String) {dead : List String} (report : Report)
    (hdead : ∀ name ∈ dead, name ∈ report.dead) (stages : List (Stage σ))
    (kept : Multiset (Stage σ)) (state : σ) :
    Steps ⟨(stages : Multiset (Stage σ)) + kept, report, state⟩
      ⟨((pass done dead stages).wave : Multiset (Stage σ)) + (pass done dead stages).waiting + kept,
        { report with skipped := report.skipped ++ (pass done dead stages).skipped }, state⟩ := by
  fun_induction pass done dead stages generalizing report kept with
  | case1 => rw [List.append_nil, Multiset.coe_nil, Multiset.add_zero, Multiset.zero_add]
  | case2 dead first rest hany sorted ih =>
    obtain ⟨dependency, hmem, hdependency⟩ : ∃ d ∈ first.dependencies, d ∈ dead := by
      simpa using hany
    rw [← Multiset.cons_coe, Multiset.cons_add]
    refine .head (.skip first dependency hmem (hdead _ hdependency)) ?_
    -- from here on, what depends on this stage is skipped too
    have hskipped : ∀ name ∈ first.name :: dead,
        name ∈ { report with skipped := report.skipped ++ [first.name] : Report }.dead := by
      intro name hname
      rw [Report.dead, ← List.append_assoc, List.mem_append, List.mem_singleton]
      rcases List.mem_cons.mp hname with hname | hname
      · exact Or.inr hname
      · exact Or.inl (hdead name hname)
    have hrest := ih _ hskipped kept
    rwa [List.append_assoc] at hrest
  | case3 dead first rest hany hready sorted ih =>
    have hrest := ih report hdead (first ::ₘ kept)
    rw [Multiset.add_cons, Multiset.add_cons] at hrest
    rwa [← Multiset.cons_coe, ← Multiset.cons_coe, Multiset.cons_add, Multiset.cons_add,
      Multiset.cons_add]
  | case4 dead first rest hany hready sorted ih =>
    have hrest := ih report hdead (first ::ₘ kept)
    rw [Multiset.add_cons, Multiset.add_cons] at hrest
    rwa [← Multiset.cons_coe, ← Multiset.cons_coe, Multiset.cons_add, Multiset.add_cons,
      Multiset.cons_add]

/-! ## Waves -/

/-- The stages of a wave are run one after another. -/
theorem steps_runWave (wave : List (Stage σ)) (report : Report) (state : σ)
    (hready : ∀ stage ∈ wave, ∀ dependency ∈ stage.dependencies, dependency ∈ report.completed)
    (kept : Multiset (Stage σ)) :
    Steps ⟨(wave : Multiset (Stage σ)) + kept, report, state⟩
      ⟨kept, (runWave wave report state).1, (runWave wave report state).2⟩ := by
  induction wave generalizing report state with
  | nil =>
    rw [Multiset.coe_nil, Multiset.zero_add]
    exact .refl
  | cons first rest ih =>
    rw [← Multiset.cons_coe, Multiset.cons_add]
    refine .head (.run first (hready first List.mem_cons_self)) ?_
    refine ih _ _ fun stage hstage dependency hdependency => ?_
    have hcompleted := hready stage (List.mem_cons_of_mem _ hstage) dependency hdependency
    exact Report.mem_completed_record_iff.mpr (Or.inl hcompleted)

/-- A pass and the wave that it decides on leave the stages that wait. -/
theorem steps_pass_runWave {stages : List (Stage σ)} {report ran : Report} {state next : σ}
    (h : runWave (pass report.completed report.dead stages).wave
      { report with
        skipped := report.skipped ++ (pass report.completed report.dead stages).skipped } state
      = (ran, next)) :
    Steps ⟨stages, report, state⟩
      ⟨(pass report.completed report.dead stages).waiting, ran, next⟩ := by
  have hpass := steps_pass report.completed report (fun _ hname => hname) stages 0 state
  rw [Multiset.add_zero, Multiset.add_zero] at hpass
  refine hpass.trans ?_
  have hwave := steps_runWave (pass report.completed report.dead stages).wave
    { report with skipped := report.skipped ++ (pass report.completed report.dead stages).skipped }
    state (fun stage hstage => by simpa [isReady] using isReady_of_mem_wave hstage)
    (pass report.completed report.dead stages).waiting
  rwa [h] at hwave

/-- Where all stages wait, a pass decides nothing. -/
theorem pass_eq_of_length {done dead : List String} {stages : List (Stage σ)}
    (h : ¬ (pass done dead stages).waiting.length < stages.length) :
    (pass done dead stages).wave = [] ∧ (pass done dead stages).skipped = [] := by
  have hlength := length_pass done dead stages
  exact ⟨List.eq_nil_of_length_eq_zero (by omega), List.eq_nil_of_length_eq_zero (by omega)⟩

/-- Where all stages wait, they are stuck. -/
theorem stuck_of_waiting {stages : List (Stage σ)} {report ran : Report} {state next : σ}
    (hran : runWave (pass report.completed report.dead stages).wave
      { report with
        skipped := report.skipped ++ (pass report.completed report.dead stages).skipped } state
      = (ran, next))
    (hlast : ¬ (pass report.completed report.dead stages).waiting.length < stages.length)
    {stage : Stage σ} (hstage : stage ∈ (pass report.completed report.dead stages).waiting) :
    Stuck ran stage := by
  obtain ⟨hwave, hskipped⟩ := pass_eq_of_length hlast
  rw [hwave, hskipped, List.append_nil] at hran
  obtain ⟨rfl, -⟩ := Prod.mk.inj hran
  obtain ⟨hready, hdead⟩ := of_mem_waiting hstage
  exact ⟨hdead, by simpa [isReady] using hready⟩

/-- **A run is a sequence of steps**, and it ends only when every stage that is left is stuck. -/
theorem steps_runStages (stages : List (Stage σ)) (report : Report) (state : σ) :
    ∃ left : Multiset (Stage σ),
      Steps ⟨stages, report, state⟩
        ⟨left, (runStages stages report state).1, (runStages stages report state).2⟩ ∧
      ∀ stage ∈ left, Stuck (runStages stages report state).1 stage := by
  fun_induction runStages stages report state with
  | case1 stages report state sorted ran next hran _ ih =>
    obtain ⟨left, hsteps, hstuck⟩ := ih
    exact ⟨left, (steps_pass_runWave hran).trans hsteps, hstuck⟩
  | case2 stages report state sorted ran next hran hlast =>
    exact ⟨sorted.waiting, steps_pass_runWave hran, fun stage hstage =>
      stuck_of_waiting hran hlast (Multiset.mem_coe.mp hstage)⟩

end Graph

end KernelCatalog
