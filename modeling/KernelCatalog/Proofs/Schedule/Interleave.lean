import KernelCatalog.Proofs.Schedule.Run

/-!
# Waves whose stages take turns

The stages of a wave may run at the same time. What a stage does is then a task: a sequence of
steps, each of which is done at once, while the steps of different stages may come in any order.
`Graph.Moment` is a moment of such a run, and `Graph.Move` says what can happen next.

A wave is independent if every stage does beside the others what it does alone. Then the order of
the steps does not matter, and a run comes to what it comes to when the stages run one after
another.

* `Graph.reaches_sequential`: running the stages one after another is one of the orders.
* `Graph.During.move`: what a run has come to, in any order.
* `Graph.During.ended`: what a run comes to in the end.
* `Graph.Orderless.exists_ended`: a run, in any order, can be carried on to its end.
-/

namespace KernelCatalog

/-! ## Tasks -/

/-- What there is to do, step by step. -/
inductive Task (σ α : Type) where
  | done (result : α)
  /-- A step changes the state, and goes on by what it has found there. -/
  | step (change : σ → σ) (next : σ → Task σ α)

namespace Task

variable {σ α β : Type}

/-- Takes all steps, one right after the other. -/
def run : Task σ α → σ → α × σ
  | .done result, state => (result, state)
  | .step change next, state => (next state).run (change state)

/-- One step that gives a value, and what is done with that. -/
def act (action : σ → β × σ) (next : β → Task σ α) : Task σ α :=
  .step (fun state => (action state).2) fun state => next (action state).1

@[simp] theorem run_done (result : α) (state : σ) :
    (Task.done result).run state = (result, state) := rfl

@[simp] theorem run_step (change : σ → σ) (next : σ → Task σ α) (state : σ) :
    (Task.step change next).run state = (next state).run (change state) := rfl

@[simp] theorem run_act (action : σ → β × σ) (next : β → Task σ α) (state : σ) :
    (act action next).run state = (next (action state).1).run (action state).2 := rfl

end Task

namespace Graph

variable {σ : Type}

/-! ## Moments of a run -/

/-- A stage of a wave with what it still has to do. -/
abbrev Entry (σ : Type) := Stage σ × Task σ Outcome

/-- A moment of a run: the stages of the wave, those that wait, what was reported before the wave,
and the state that all stages work on. -/
structure Moment (σ : Type) where
  running : List (Entry σ)
  waiting : List (Stage σ)
  report : Report
  state : σ

/-- One stage of a wave takes a step. -/
inductive Turn : List (Entry σ) × σ → List (Entry σ) × σ → Prop where
  | take (before after : List (Entry σ)) (stage : Stage σ) (change : σ → σ)
      (next : σ → Task σ Outcome) (state : σ) :
      Turn (before ++ (stage, .step change next) :: after, state)
        (before ++ (stage, next state) :: after, change state)

/-- Any number of turns. -/
abbrev Turns : List (Entry σ) × σ → List (Entry σ) × σ → Prop := Relation.ReflTransGen Turn

/-- The stages of a wave that is done, with their outcomes. -/
def finished (calls : List (Stage σ × Outcome)) : List (Entry σ) :=
  calls.map fun call => (call.1, .done call.2)

/-- The report with the outcomes of a wave, in the order of its stages. -/
def recordAll (report : Report) (calls : List (Stage σ × Outcome)) : Report :=
  calls.foldl (fun report call => report.record call.1.name call.2) report

/-- A wave begins with the stages that a pass decides on, each with a task that is planned. -/
structure Begins (plan : Stage σ → Task σ Outcome → Prop) (stages : List (Stage σ))
    (report : Report) (state : σ) (moment : Moment σ) : Prop where
  wave_eq : moment.running.map Prod.fst = (pass report.completed report.dead stages).wave
  planned : ∀ entry ∈ moment.running, plan entry.1 entry.2
  waiting_eq : moment.waiting = (pass report.completed report.dead stages).waiting
  report_eq : moment.report = { report with
    skipped := report.skipped ++ (pass report.completed report.dead stages).skipped }
  state_eq : moment.state = state

/-- What can happen next: a stage takes a step, or all stages are done and another wave begins. -/
inductive Move (plan : Stage σ → Task σ Outcome → Prop) : Moment σ → Moment σ → Prop where
  | turn {moment : Moment σ} {running : List (Entry σ)} {state : σ}
      (taken : Turn (moment.running, moment.state) (running, state)) :
      Move plan moment { moment with running, state }
  | wave {moment next : Moment σ} {calls : List (Stage σ × Outcome)}
      (done : moment.running = finished calls)
      (begins : Begins plan moment.waiting (recordAll moment.report calls) moment.state next) :
      Move plan moment next

/-- A run from a state can come to a moment. -/
def Reaches (plan : Stage σ → Task σ Outcome → Prop) (graph : Graph σ) (state : σ)
    (moment : Moment σ) : Prop :=
  ∃ first, Begins plan graph.stages .empty state first ∧
    Relation.ReflTransGen (Move plan) first moment

/-- At the end of a run, all stages of the last wave are done and none waits. -/
structure Ended (moment : Moment σ) (calls : List (Stage σ × Outcome)) : Prop where
  running_eq : moment.running = finished calls
  waiting_eq : moment.waiting = []

/-! ## One after another -/

/-- A task can be done without a turn of any other. -/
theorem turns_task (before after : List (Entry σ)) (stage : Stage σ) (task : Task σ Outcome)
    (state : σ) :
    Turns (before ++ (stage, task) :: after, state)
      (before ++ (stage, .done (task.run state).1) :: after, (task.run state).2) := by
  induction task generalizing state with
  | done result => exact .refl
  | step change next ih => exact .head (.take before after stage change next state) (ih state _)

/-- The stages of a wave can all be taken to their end. -/
theorem exists_turns_finished (before entries : List (Entry σ)) (state : σ) :
    ∃ calls last, Turns (before ++ entries, state) (before ++ finished calls, last) := by
  induction entries generalizing before state with
  | nil => exact ⟨[], state, .refl⟩
  | cons entry rest ih =>
    obtain ⟨stage, task⟩ := entry
    obtain ⟨calls, last, hturns⟩ :=
      ih (before ++ [(stage, .done (task.run state).1)]) (task.run state).2
    refine ⟨(stage, (task.run state).1) :: calls, last,
      (turns_task before rest stage task state).trans ?_⟩
    rw [List.append_assoc, List.append_assoc] at hturns
    exact hturns

/-- **The stages of a wave can run one after another.** -/
theorem turns_runWave (before : List (Entry σ)) {entries : List (Entry σ)}
    (hrun : ∀ entry ∈ entries, ∀ state, entry.2.run state = entry.1.run state) (report : Report)
    (state : σ) :
    ∃ calls, calls.map Prod.fst = entries.map Prod.fst ∧
      runWave (entries.map Prod.fst) report state =
        (recordAll report calls, (runWave (entries.map Prod.fst) report state).2) ∧
      Turns (before ++ entries, state)
        (before ++ finished calls, (runWave (entries.map Prod.fst) report state).2) := by
  induction entries generalizing before report state with
  | nil => exact ⟨[], rfl, rfl, .refl⟩
  | cons entry rest ih =>
    obtain ⟨stage, task⟩ := entry
    obtain ⟨hfirst, hrest⟩ := List.forall_mem_cons.mp hrun
    obtain ⟨calls, hstages, hreport, hturns⟩ := ih (before ++ [(stage, .done (task.run state).1)])
      hrest (report.record stage.name (stage.run state).1) (stage.run state).2
    refine ⟨(stage, (stage.run state).1) :: calls, by simp [hstages], hreport, ?_⟩
    refine (turns_task before rest stage task state).trans ?_
    rw [hfirst state] at hturns ⊢
    rw [List.append_assoc, List.append_assoc] at hturns
    exact hturns

theorem waiting_sublist (done dead : List String) (stages : List (Stage σ)) :
    (pass done dead stages).waiting.Sublist stages := by
  fun_induction pass done dead stages with
  | case1 => exact .slnil
  | case2 _ _ _ _ _ ih => exact ih.cons _
  | case3 _ _ _ _ _ _ ih => exact ih.cons _
  | case4 _ _ _ _ _ _ ih => exact ih.cons_cons _

theorem wave_sublist (done dead : List String) (stages : List (Stage σ)) :
    (pass done dead stages).wave.Sublist stages := by
  fun_induction pass done dead stages with
  | case1 => exact .slnil
  | case2 _ _ _ _ _ ih => exact ih.cons _
  | case3 _ _ _ _ _ _ ih => exact ih.cons_cons _
  | case4 _ _ _ _ _ _ ih => exact ih.cons _

/-- A run goes on with the stages that wait, also where a pass decides nothing more. -/
theorem runStages_eq_waiting {stages : List (Stage σ)} {report ran : Report} {state next : σ}
    (h : runWave (pass report.completed report.dead stages).wave
      { report with
        skipped := report.skipped ++ (pass report.completed report.dead stages).skipped } state
      = (ran, next)) :
    runStages stages report state =
      runStages (pass report.completed report.dead stages).waiting ran next := by
  by_cases hless : (pass report.completed report.dead stages).waiting.length < stages.length
  · rw [runStages]
    simp only [h, if_pos hless]
  · -- every stage waits, so nothing was skipped and nothing has run
    obtain ⟨hwave, hskipped⟩ := pass_eq_of_length hless
    have hsublist := waiting_sublist report.completed report.dead stages
    have hwaiting : (pass report.completed report.dead stages).waiting = stages :=
      hsublist.eq_of_length (Nat.le_antisymm hsublist.length_le (by omega))
    have hsame : (report, state) = (ran, next) := by
      rw [hwave, hskipped, List.append_nil] at h
      exact h
    obtain ⟨rfl, rfl⟩ := Prod.mk.inj hsame
    rw [hwaiting]

/-- Turns of a wave are moves of a run. -/
theorem moves_of_turns {plan : Stage σ → Task σ Outcome → Prop} {moment : Moment σ}
    {running : List (Entry σ)} {state : σ}
    (h : Turns (moment.running, moment.state) (running, state)) :
    Relation.ReflTransGen (Move plan) moment { moment with running, state } := by
  generalize hlast : (running, state) = last at h
  induction h generalizing running state with
  | refl =>
    obtain ⟨rfl, rfl⟩ := Prod.mk.inj hlast
    exact .refl
  | @tail between last _ hturn ih =>
    subst hlast
    obtain ⟨middle, reached⟩ := between
    have hmoves := ih rfl
    have hmove : Move plan ⟨middle, moment.waiting, moment.report, reached⟩
        ⟨running, moment.waiting, moment.report, state⟩ := .turn hturn
    exact hmoves.tail hmove

/-- There is a task for each stage. -/
def Planned (plan : Stage σ → Task σ Outcome → Prop) (stages : List (Stage σ)) : Prop :=
  ∀ stage ∈ stages, ∃ task, plan stage task

/-- The tasks of stages do what the stages do. -/
def Faithful (plan : Stage σ → Task σ Outcome → Prop) : Prop :=
  ∀ stage task, plan stage task → ∀ state, task.run state = stage.run state

/-- A wave can begin. -/
theorem exists_begins {plan : Stage σ → Task σ Outcome → Prop} {stages : List (Stage σ)}
    (hplanned : Planned plan stages) (report : Report) (state : σ) :
    ∃ moment, Begins plan stages report state moment := by
  have hentries : ∀ wave : List (Stage σ), (∀ stage ∈ wave, ∃ task, plan stage task) →
      ∃ running : List (Entry σ), running.map Prod.fst = wave ∧
        ∀ entry ∈ running, plan entry.1 entry.2 := by
    intro wave hwave
    induction wave with
    | nil => exact ⟨[], rfl, by simp⟩
    | cons stage rest ih =>
      obtain ⟨⟨task, htask⟩, hrest⟩ := List.forall_mem_cons.mp hwave
      obtain ⟨running, hrunning, hplan⟩ := ih hrest
      exact ⟨(stage, task) :: running, by rw [List.map_cons, hrunning],
        List.forall_mem_cons.mpr ⟨htask, hplan⟩⟩
  obtain ⟨running, hrunning, hplan⟩ := hentries _ fun stage hstage =>
    hplanned stage ((wave_sublist report.completed report.dead stages).subset hstage)
  exact ⟨⟨running, _, _, state⟩, hrunning, hplan, rfl, rfl, rfl⟩

/-- The stages of a wave that begins can run one after another. -/
theorem turns_of_begins {plan : Stage σ → Task σ Outcome → Prop} (hfaithful : Faithful plan)
    {stages : List (Stage σ)} {report ran : Report} {state next : σ} {first : Moment σ}
    (hbegins : Begins plan stages report state first)
    (hran : runWave (pass report.completed report.dead stages).wave
      { report with
        skipped := report.skipped ++ (pass report.completed report.dead stages).skipped } state
      = (ran, next)) :
    ∃ calls, calls.map Prod.fst = (pass report.completed report.dead stages).wave ∧
      ran = recordAll first.report calls ∧
      Turns (first.running, first.state) (finished calls, next) := by
  have hrun : ∀ entry ∈ first.running, ∀ state, entry.2.run state = entry.1.run state :=
    fun entry hentry => hfaithful _ _ (hbegins.planned entry hentry)
  obtain ⟨calls, hstages, hreport, hturns⟩ := turns_runWave [] hrun first.report first.state
  rw [hbegins.wave_eq] at hstages hreport hturns
  rw [hbegins.report_eq, hbegins.state_eq, hran] at hreport hturns
  rw [hbegins.report_eq, hbegins.state_eq]
  exact ⟨calls, hstages, (Prod.mk.inj hreport).1, hturns⟩

/-- The last moment of a run whose stages run one after another. -/
theorem exists_last {plan : Stage σ → Task σ Outcome → Prop} (hfaithful : Faithful plan)
    {stages : List (Stage σ)} {report : Report} {state : σ} (hplanned : Planned plan stages)
    {first : Moment σ} (hbegins : Begins plan stages report state first) :
    ∃ moment calls, Relation.ReflTransGen (Move plan) first moment ∧
      moment.running = finished calls ∧
      runStages stages report state = (recordAll moment.report calls, moment.state) ∧
      Steps ⟨stages, report, state⟩
        ⟨moment.waiting, recordAll moment.report calls, moment.state⟩ ∧
      ∀ stage ∈ moment.waiting, Stuck (recordAll moment.report calls) stage := by
  fun_induction runStages stages report state generalizing first with
  | case1 stages report state sorted ran next hran hless ih =>
    obtain ⟨calls, -, rfl, hturns⟩ := turns_of_begins hfaithful hbegins hran
    have hwaiting : Planned plan sorted.waiting := fun stage hstage =>
      hplanned stage ((waiting_sublist _ _ _).subset hstage)
    obtain ⟨second, hsecond⟩ :=
      exists_begins hwaiting (recordAll first.report calls) next
    obtain ⟨moment, last, hmoves, hfinished, hresult, hsteps, hstuck⟩ := ih hwaiting hsecond
    have hwave : Move plan ⟨finished calls, first.waiting, first.report, next⟩ second :=
      .wave rfl (by rw [hbegins.waiting_eq]; exact hsecond)
    exact ⟨moment, last, ((moves_of_turns hturns).tail hwave).trans hmoves, hfinished, hresult,
      (steps_pass_runWave hran).trans hsteps, hstuck⟩
  | case2 stages report state sorted ran next hran hlast =>
    obtain ⟨calls, -, rfl, hturns⟩ := turns_of_begins hfaithful hbegins hran
    refine ⟨_, calls, moves_of_turns hturns, rfl, rfl, ?_, ?_⟩
    · rw [hbegins.waiting_eq]
      exact steps_pass_runWave hran
    · rw [hbegins.waiting_eq]
      exact fun stage hstage => stuck_of_waiting hran hlast hstage

/-- **Running the stages of a valid graph one after another** is one of the orders in which they
can take turns. -/
theorem reaches_sequential {plan : Stage σ → Task σ Outcome → Prop} (hfaithful : Faithful plan)
    {graph : Graph σ} (hplanned : Planned plan graph.stages) (hnodup : graph.names.Nodup)
    (hvalid : graph.validate = .ok ()) (state : σ) :
    ∃ moment calls, graph.Reaches plan state moment ∧ Ended moment calls ∧
      graph.run state = (.ok (recordAll moment.report calls), moment.state) := by
  obtain ⟨first, hfirst⟩ := exists_begins hplanned .empty state
  obtain ⟨moment, calls, hmoves, hfinished, hresult, hsteps, hstuck⟩ :=
    exists_last hfaithful hplanned hfirst
  obtain ⟨hclosed, hacyclic⟩ := (validate_eq_ok_iff hnodup).mp hvalid
  have haccounted := hsteps.preserve (fun _ _ => Accounted.step) (graph.accounted_start state)
  have hleft := haccounted.left_eq_zero hclosed hacyclic hstuck
  refine ⟨moment, calls, ⟨first, hfirst, hmoves⟩, ⟨hfinished, ?_⟩, ?_⟩
  · exact (Multiset.coe_eq_zero _).mp hleft
  · rw [run, hvalid]
    simp only [hresult]

/-! ## Independent waves -/

/-- A stage of a wave with what it still has to do, and the state that it would have come to
alone. -/
structure Strand (σ : Type) where
  stage : Stage σ
  task : Task σ Outcome
  alone : σ

/-- What is seen of a strand. -/
def Strand.entry (strand : Strand σ) : Entry σ := (strand.stage, strand.task)

/-- What a strand comes to alone. -/
def Strand.ending (strand : Strand σ) : Stage σ × Outcome × σ :=
  (strand.stage, strand.task.run strand.alone)

/-- A wave is independent if a relation between its strands and the shared state holds when it
begins, is kept when a stage takes a step on the shared state as it would alone, and tells the
shared state up to `Same`. -/
structure Independent (plan : Stage σ → Task σ Outcome → Prop) (Same : σ → σ → Prop)
    (wave : List (Stage σ)) (start : σ) (Joint : List (Strand σ) → σ → Prop) : Prop where
  begins : ∀ strands shared, strands.map Strand.stage = wave →
    (∀ strand ∈ strands, plan strand.stage strand.task ∧ strand.alone = start) →
    Same start shared → Joint strands shared
  take : ∀ before after stage change next alone shared,
    Joint (before ++ ⟨stage, .step change next, alone⟩ :: after) shared →
      next shared = next alone ∧
        Joint (before ++ ⟨stage, next alone, change alone⟩ :: after) (change shared)
  same : ∀ strands shared other, Joint strands shared → Joint strands other → Same shared other

section Independent

variable {plan : Stage σ → Task σ Outcome → Prop} {Same : σ → σ → Prop} {wave : List (Stage σ)}
  {start : σ} {Joint : List (Strand σ) → σ → Prop}

/-- A turn is taken beside the others as it would be alone. -/
theorem Independent.turn (h : Independent plan Same wave start Joint)
    {entries running : List (Entry σ)} {shared state : σ}
    (hturn : Turn (entries, shared) (running, state)) {strands : List (Strand σ)}
    (hentries : strands.map Strand.entry = entries) (hjoint : Joint strands shared) :
    ∃ strands', strands'.map Strand.entry = running ∧ Joint strands' state ∧
      strands'.map Strand.ending = strands.map Strand.ending := by
  cases hturn with
  | take before after stage change next =>
    obtain ⟨earlier, rest, rfl, hbefore, hrest⟩ := List.map_eq_append_iff.mp hentries
    obtain ⟨⟨mine, _, alone⟩, later, rfl, hstrand, hafter⟩ := List.map_eq_cons_iff.mp hrest
    obtain ⟨rfl, rfl⟩ := Prod.mk.inj hstrand
    obtain ⟨hnext, htaken⟩ := h.take earlier later mine change next alone shared hjoint
    refine ⟨earlier ++ ⟨mine, next alone, change alone⟩ :: later, ?_, htaken, ?_⟩
    · rw [List.map_append, List.map_cons, hbefore, hafter, hnext]
      rfl
    · simp [Strand.ending]

/-- Any number of turns are taken beside the others as they would be alone. -/
theorem Independent.turns (h : Independent plan Same wave start Joint)
    {entries running : List (Entry σ)} {shared state : σ}
    (hturns : Turns (entries, shared) (running, state)) {strands : List (Strand σ)}
    (hentries : strands.map Strand.entry = entries) (hjoint : Joint strands shared) :
    ∃ strands', strands'.map Strand.entry = running ∧ Joint strands' state ∧
      strands'.map Strand.ending = strands.map Strand.ending := by
  generalize hlast : (running, state) = last at hturns
  induction hturns generalizing running state with
  | refl =>
    obtain ⟨rfl, rfl⟩ := Prod.mk.inj hlast
    exact ⟨strands, hentries, hjoint, rfl⟩
  | @tail between last _ hturn ih =>
    subst hlast
    obtain ⟨middle, hmiddle, hreached, hsame⟩ := ih rfl
    obtain ⟨strands', hrunning, hafter, hending⟩ := h.turn hturn hmiddle hreached
    exact ⟨strands', hrunning, hafter, hending.trans hsame⟩

/-- A strand that is done is told by what it has come to. -/
theorem eq_of_finished {strands : List (Strand σ)} {calls : List (Stage σ × Outcome)}
    (h : strands.map Strand.entry = finished calls) :
    strands = (strands.map Strand.ending).map (fun last => ⟨last.1, .done last.2.1, last.2.2⟩) ∧
      calls = (strands.map Strand.ending).map fun last => (last.1, last.2.1) := by
  induction strands generalizing calls with
  | nil =>
    rw [List.map_nil, finished, eq_comm, List.map_eq_nil_iff] at h
    exact ⟨rfl, h⟩
  | cons strand rest ih =>
    obtain ⟨⟨stage, outcome⟩, more, rfl, hcall, hmore⟩ := List.map_eq_cons_iff.mp h.symm
    obtain ⟨mine, task, alone⟩ := strand
    obtain ⟨rfl, rfl⟩ := Prod.mk.inj hcall
    obtain ⟨hrest, hcalls⟩ := ih hmore.symm
    exact ⟨congrArg _ hrest, congrArg _ hcalls⟩

end Independent

/-! ## Runs in any order -/

/-- What makes the order of steps not matter: tasks do what the stages do, and each wave of a
sequential run is independent, by a property `P` of where that run stands. -/
structure Orderless (plan : Stage σ → Task σ Outcome → Prop) (Same : σ → σ → Prop)
    (P : Standing σ → Prop) (Joint : σ → List (Strand σ) → σ → Prop) : Prop where
  faithful : Faithful plan
  refl : ∀ state, Same state state
  step : ∀ before after, Step before after → P before → P after
  planned : ∀ (stages : List (Stage σ)) report start, P ⟨stages, report, start⟩ →
    Planned plan stages
  independent : ∀ (stages : List (Stage σ)) report start, P ⟨stages, report, start⟩ →
    Independent plan Same (pass report.completed report.dead stages).wave start (Joint start)

/-- A moment of a run in any order, in the wave that the sequential run begins with the given
stages, report and state. -/
structure During (P : Standing σ → Prop) (Joint : σ → List (Strand σ) → σ → Prop)
    (total : Report × σ) (stages : List (Stage σ)) (report : Report) (start : σ)
    (strands : List (Strand σ)) (moment : Moment σ) : Prop where
  standing : P ⟨stages, report, start⟩
  total_eq : runStages stages report start = total
  waiting_eq : moment.waiting = (pass report.completed report.dead stages).waiting
  report_eq : moment.report = { report with
    skipped := report.skipped ++ (pass report.completed report.dead stages).skipped }
  running_eq : strands.map Strand.entry = moment.running
  joint : Joint start strands moment.state
  ending_eq : strands.map Strand.ending =
    (pass report.completed report.dead stages).wave.map fun stage => (stage, stage.run start)

section During

variable {plan : Stage σ → Task σ Outcome → Prop} {Same : σ → σ → Prop} {P : Standing σ → Prop}
  {Joint : σ → List (Strand σ) → σ → Prop} {total : Report × σ} {stages : List (Stage σ)}
  {report : Report} {start : σ} {strands : List (Strand σ)} {moment next : Moment σ}

/-- A wave begins where the sequential run begins it, up to `Same`. -/
theorem Orderless.during_begins (h : Orderless plan Same P Joint)
    (hstanding : P ⟨stages, report, start⟩) (htotal : runStages stages report start = total)
    {shared : σ} (hsame : Same start shared) (hbegins : Begins plan stages report shared moment) :
    ∃ strands, During P Joint total stages report start strands moment := by
  obtain ⟨hwave, hplanned, hwaiting, hreport, hstate⟩ := hbegins
  have hstages : (moment.running.map fun entry => (⟨entry.1, entry.2, start⟩ : Strand σ)).map
      Strand.stage = (pass report.completed report.dead stages).wave := by
    rw [← hwave, List.map_map]
    rfl
  refine ⟨moment.running.map fun entry => ⟨entry.1, entry.2, start⟩, hstanding, htotal, hwaiting,
    hreport, ?_, ?_, ?_⟩
  · rw [List.map_map]
    exact List.map_id _
  · refine (h.independent stages report start hstanding).begins _ _ hstages ?_ (hstate ▸ hsame)
    rw [List.forall_mem_map]
    exact fun entry hentry => ⟨hplanned entry hentry, rfl⟩
  · rw [← hwave, List.map_map, List.map_map]
    refine List.map_congr_left fun entry hentry => ?_
    exact congrArg _ (h.faithful _ _ (hplanned entry hentry) start)

/-- When a wave is done, the sequential run has recorded the same, and has come to the same. -/
theorem During.finish (h : Orderless plan Same P Joint)
    (hduring : During P Joint total stages report start strands moment)
    {calls : List (Stage σ × Outcome)} (hfinished : moment.running = finished calls) :
    ∃ reached, runWave (pass report.completed report.dead stages).wave
        { report with
          skipped := report.skipped ++ (pass report.completed report.dead stages).skipped } start =
        (recordAll moment.report calls, reached) ∧ Same reached moment.state := by
  have hindependent := h.independent stages report start hduring.standing
  rcases hran : runWave (pass report.completed report.dead stages).wave
    { report with
      skipped := report.skipped ++ (pass report.completed report.dead stages).skipped } start
    with ⟨ran, reached⟩
  -- the stages of the wave run one after another as well
  obtain ⟨first, hfirst⟩ :=
    exists_begins (h.planned stages report start hduring.standing) report start
  obtain ⟨strands', hbegun⟩ :=
    h.during_begins hduring.standing hduring.total_eq (h.refl start) hfirst
  obtain ⟨calls', -, hrecorded, hturns⟩ := turns_of_begins h.faithful hfirst hran
  obtain ⟨last, hlast, hjoint, hending⟩ := hindependent.turns hturns hbegun.running_eq hbegun.joint
  obtain ⟨hmine, hcalls⟩ := eq_of_finished (hduring.running_eq.trans hfinished)
  obtain ⟨htheirs, hcalls'⟩ := eq_of_finished hlast
  rw [hending, hbegun.ending_eq, ← hduring.ending_eq] at htheirs hcalls'
  rw [← hmine] at htheirs
  rw [← hcalls] at hcalls'
  subst htheirs hcalls'
  refine ⟨reached, ?_, hindependent.same last _ _ hjoint hduring.joint⟩
  rw [hrecorded, hfirst.report_eq, hduring.report_eq]

/-- **A move of a run in any order** stays with the sequential run. -/
theorem During.move (h : Orderless plan Same P Joint) (hmove : Move plan moment next)
    (hduring : During P Joint total stages report start strands moment) :
    ∃ stages report start strands, During P Joint total stages report start strands next := by
  cases hmove with
  | turn hturn =>
    obtain ⟨strands', hrunning, hjoint, hending⟩ :=
      (h.independent stages report start hduring.standing).turn hturn hduring.running_eq
        hduring.joint
    exact ⟨stages, report, start, strands', { hduring with
      running_eq := hrunning
      joint := hjoint
      ending_eq := hending.trans hduring.ending_eq }⟩
  | wave hfinished hbegins =>
    obtain ⟨reached, hran, hsame⟩ := hduring.finish h hfinished
    have hstanding := (steps_pass_runWave hran).preserve h.step hduring.standing
    have htotal := (runStages_eq_waiting hran).symm.trans hduring.total_eq
    rw [hduring.waiting_eq] at hbegins
    obtain ⟨strands', hbegun⟩ := h.during_begins hstanding htotal hsame hbegins
    exact ⟨_, _, reached, strands', hbegun⟩

/-- **A run in any order stays with the sequential run.** -/
theorem Orderless.of_reaches (h : Orderless plan Same P Joint) {graph : Graph σ}
    (hstart : P ⟨graph.stages, .empty, start⟩) (hreaches : graph.Reaches plan start moment) :
    ∃ stages report reached strands,
      During P Joint (runStages graph.stages .empty start) stages report reached strands moment := by
  obtain ⟨first, hfirst, hmoves⟩ := hreaches
  induction hmoves with
  | refl =>
    obtain ⟨strands, hbegun⟩ := h.during_begins hstart rfl (h.refl start) hfirst
    exact ⟨_, _, start, strands, hbegun⟩
  | tail _ hmove ih =>
    obtain ⟨stages, report, reached, strands, hduring⟩ := ih
    exact hduring.move h hmove

theorem runStages_nil (report : Report) (state : σ) :
    runStages [] report state = (report, state) := by
  rw [runStages]
  simp [pass, runWave]

/-- **In the end, a run in any order has reported what the sequential run reports**, and has come
to the same state. -/
theorem During.ended (h : Orderless plan Same P Joint)
    (hduring : During P Joint total stages report start strands moment)
    {calls : List (Stage σ × Outcome)} (hended : Ended moment calls) :
    recordAll moment.report calls = total.1 ∧ Same total.2 moment.state := by
  obtain ⟨reached, hran, hsame⟩ := hduring.finish h hended.running_eq
  have htotal := (runStages_eq_waiting hran).symm.trans hduring.total_eq
  rw [← hduring.waiting_eq, hended.waiting_eq, runStages_nil] at htotal
  subst htotal
  exact ⟨rfl, hsame⟩

/-- A stage that runs is one of the wave, with a strand among the others. -/
theorem During.strand (hduring : During P Joint total stages report start strands moment)
    {entry : Entry σ} (hentry : entry ∈ moment.running) :
    entry.1 ∈ (pass report.completed report.dead stages).wave ∧
      ∃ before strand after, strands = before ++ strand :: after ∧ strand.stage = entry.1 := by
  rw [← hduring.running_eq] at hentry
  obtain ⟨strand, hstrand, rfl⟩ := List.mem_map.mp hentry
  obtain ⟨before, after, hsplit⟩ := List.append_of_mem hstrand
  refine ⟨?_, before, strand, after, hsplit, rfl⟩
  have hending := List.mem_map_of_mem (f := Strand.ending) hstrand
  rw [hduring.ending_eq] at hending
  obtain ⟨stage, hstage, hsame⟩ := List.mem_map.mp hending
  obtain rfl : stage = strand.stage := congrArg Prod.fst hsame
  exact hstage

/-- **A run in any order can be carried on to its end**, if the graph is valid. -/
theorem Orderless.exists_ended (h : Orderless plan Same P Joint) {graph : Graph σ}
    (hnodup : graph.names.Nodup) (hvalid : graph.validate = .ok ())
    (hstart : P ⟨graph.stages, .empty, start⟩) (hreaches : graph.Reaches plan start moment) :
    ∃ last calls, Relation.ReflTransGen (Move plan) moment last ∧ Ended last calls := by
  have hboth : Orderless plan Same (fun standing => P standing ∧ graph.Accounted standing) Joint :=
    { faithful := h.faithful
      refl := h.refl
      step := fun before after hstep hbefore =>
        ⟨h.step before after hstep hbefore.1, hbefore.2.step hstep⟩
      planned := fun stages report start hstanding => h.planned stages report start hstanding.1
      independent := fun stages report start hstanding =>
        h.independent stages report start hstanding.1 }
  have hbegun := And.intro hstart (graph.accounted_start start)
  obtain ⟨stages, report, reached, strands, hduring⟩ := hboth.of_reaches hbegun hreaches
  -- the wave that is running comes to its end, and then each of the others does
  obtain ⟨calls, state, hturns⟩ := exists_turns_finished [] moment.running moment.state
  have hplanned : Planned plan moment.waiting := fun stage hstage => by
    rw [hduring.waiting_eq] at hstage
    exact h.planned stages report reached hduring.standing.1 stage
      ((waiting_sublist _ _ _).subset hstage)
  obtain ⟨second, hsecond⟩ := exists_begins hplanned (recordAll moment.report calls) state
  obtain ⟨last, done, hmoves, hfinished, -, -, hstuck⟩ := exists_last h.faithful hplanned hsecond
  have hcarried : Relation.ReflTransGen (Move plan) moment last :=
    ((moves_of_turns hturns).tail (.wave rfl hsecond)).trans hmoves
  obtain ⟨first, hfirst, hbefore⟩ := hreaches
  obtain ⟨_, _, _, _, hlast⟩ := hboth.of_reaches hbegun ⟨first, hfirst, hbefore.trans hcarried⟩
  obtain ⟨_, hran, -⟩ := hlast.finish hboth hfinished
  obtain ⟨hclosed, hacyclic⟩ := (validate_eq_ok_iff hnodup).mp hvalid
  have haccounted :=
    (steps_pass_runWave hran).preserve (fun _ _ => Accounted.step) hlast.standing.2
  rw [← hlast.waiting_eq] at haccounted
  have hleft := haccounted.left_eq_zero hclosed hacyclic hstuck
  exact ⟨last, done, hcarried, hfinished, (Multiset.coe_eq_zero _).mp hleft⟩

end During

end Graph

end KernelCatalog
