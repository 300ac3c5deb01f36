import KernelCatalog.Proofs.Build.Pipeline
import KernelCatalog.Proofs.Files.Merge
import KernelCatalog.Proofs.Schedule.Interleave

/-!
# Turns on one workspace

The stages of a wave share a workspace: each writes files of its own and notes how far its pipeline
has come. The area of a stage says what is its own and what belongs to others. A task that minds its
area does beside others what it does alone, so a wave of such tasks in areas that are apart is
independent.

* `Area.Minds.onFiles`, `Area.Minds.look`, `Area.Minds.noting`, `Area.Minds.ask`: the steps of
  tasks that mind their area.
* `Area.independent`: waves of such tasks.
-/

namespace KernelCatalog

/-! ## Steps -/

namespace Workspace

variable {β : Type}

def withFiles (workspace : Workspace) (files : Files) : Workspace := { workspace with files }

/-- The workspace with what is noted about a pipeline. -/
def note (place : Nat) (change : PipelineState → PipelineState) (workspace : Workspace) :
    Workspace :=
  workspace.setState place (change (workspace.state place)) workspace.files

/-- A step on the files, and what is done with what it gives. -/
def onFiles (action : Files → β × Files) (next : β → Task Workspace Outcome) :
    Task Workspace Outcome :=
  .act (fun workspace =>
    ((action workspace.files).1, workspace.withFiles (action workspace.files).2)) next

/-- A step that looks at the files, and what is done with what it sees. -/
def look (view : Files → β) (next : β → Task Workspace Outcome) : Task Workspace Outcome :=
  .act (fun workspace => (view workspace.files, workspace)) next

/-- A step that asks how far a pipeline has come. -/
def ask (place : Nat) (next : PipelineState → Task Workspace Outcome) : Task Workspace Outcome :=
  .act (fun workspace => (workspace.state place, workspace)) next

/-- A step that notes how far a pipeline has come, before what is left to do. -/
def noting (place : Nat) (change : PipelineState → PipelineState)
    (rest : Task Workspace Outcome) : Task Workspace Outcome :=
  .step (note place change) fun _ => rest

@[simp] theorem files_withFiles (workspace : Workspace) (files : Files) :
    (workspace.withFiles files).files = files := rfl

@[simp] theorem files_note (place : Nat) (change : PipelineState → PipelineState)
    (workspace : Workspace) : (workspace.note place change).files = workspace.files := rfl

@[simp] theorem length_states_note (place : Nat) (change : PipelineState → PipelineState)
    (workspace : Workspace) :
    (workspace.note place change).states.length = workspace.states.length :=
  length_states_setState ..

theorem state_note_self (place : Nat) (change : PipelineState → PipelineState)
    (workspace : Workspace) :
    (workspace.note place change).state place =
      if place < workspace.states.length then change (workspace.state place) else {} := by
  split
  · next hplace => exact state_setState_self hplace ..
  · next hplace => simp [note, setState, state, hplace]

theorem state_note_other {place index : Nat} (h : index ≠ place)
    (change : PipelineState → PipelineState) (workspace : Workspace) :
    (workspace.note place change).state index = workspace.state index :=
  state_setState_other _ h ..

/-- Workspaces that nobody can tell apart. -/
structure Same (first second : Workspace) : Prop where
  current_eq : second.files.current = first.files.current
  unrestricted_eq : second.files.unrestricted = first.files.unrestricted
  get?_eq : ∀ location, second.files.get? location = first.files.get? location
  states_eq : second.states = first.states

theorem Same.refl (workspace : Workspace) : Same workspace workspace :=
  ⟨rfl, rfl, fun _ => rfl, rfl⟩

theorem states_eq_of_state_eq {first second : Workspace}
    (hlength : second.states.length = first.states.length)
    (hstate : ∀ index, second.state index = first.state index) : second.states = first.states := by
  refine List.ext_getElem hlength fun index hsecond hfirst => ?_
  have hindex := hstate index
  simpa [Workspace.state, hsecond, hfirst] using hindex

end Workspace

/-! ## Areas -/

/-- What belongs to a stage: the place of its pipeline, the locations that it writes, and those that
others write. -/
structure Area where
  place : Nat
  own : List Location
  others : List Location

namespace Area

/-- A workspace after what a stage has done in its area. -/
structure Stays (area : Area) (before after : Workspace) : Prop where
  spares : before.files.Spares area.own area.others after.files
  state_eq : ∀ index, index ≠ area.place → after.state index = before.state index
  length_eq : after.states.length = before.states.length

/-- A workspace with what others have done, beside the one where a stage is alone. -/
structure Beside (area : Area) (alone shared : Workspace) : Prop where
  spares : alone.files.Spares area.others area.own shared.files
  state_eq : shared.state area.place = alone.state area.place
  length_eq : shared.states.length = alone.states.length

/-- What a stage has done beside others is what it has done alone. -/
structure Follows (area : Area) (alone next shared after : Workspace) : Prop where
  alike : Files.Alike area.own alone.files next.files shared.files after.files
  current_eq : after.files.current = shared.files.current
  unrestricted_eq : after.files.unrestricted = shared.files.unrestricted
  state_eq : after.state area.place = next.state area.place
  elsewhere : ∀ index, index ≠ area.place → after.state index = shared.state index
  length_eq : after.states.length = shared.states.length

/-- A task that minds its area: each of its steps stays there, and does beside others what it does
alone. -/
inductive Minds (area : Area) : Task Workspace Outcome → Workspace → Prop where
  | done (outcome : Outcome) (alone : Workspace) : Minds area (.done outcome) alone
  | step {change : Workspace → Workspace} {next : Workspace → Task Workspace Outcome}
      {alone : Workspace} (stays : area.Stays alone (change alone))
      (beside : ∀ shared, area.Beside alone shared →
        next shared = next alone ∧ area.Follows alone (change alone) shared (change shared))
      (rest : Minds area (next alone) (change alone)) : Minds area (.step change next) alone

/-- Areas of which none owns what is in the other one. -/
structure Apart (first second : Area) : Prop where
  place_ne : first.place ≠ second.place
  left : first.own ⊆ second.others
  right : second.own ⊆ first.others

theorem Apart.symm {first second : Area} (h : first.Apart second) : second.Apart first :=
  ⟨h.place_ne.symm, h.right, h.left⟩

variable {area : Area}

theorem Stays.refl {workspace : Workspace} (htree : workspace.files.IsTree) :
    area.Stays workspace workspace :=
  ⟨.refl htree, fun _ _ => rfl, rfl⟩

theorem Stays.trans {before between after : Workspace} (hfirst : area.Stays before between)
    (hsecond : area.Stays between after) : area.Stays before after where
  spares := hfirst.spares.trans hsecond.spares
  state_eq index hne := (hsecond.state_eq index hne).trans (hfirst.state_eq index hne)
  length_eq := hsecond.length_eq.trans hfirst.length_eq

namespace Minds

variable {β : Type} {alone : Workspace}

/-- A step on the files. -/
theorem onFiles {action : Files → β × Files} {next : β → Task Workspace Outcome}
    (hspares : alone.files.Spares area.own area.others (action alone.files).2)
    (hbeside : ∀ shared, alone.files.Spares area.others area.own shared →
      (action shared).1 = (action alone.files).1 ∧
        Files.Alike area.own alone.files (action alone.files).2 shared (action shared).2 ∧
        (action shared).2.current = shared.current ∧
        (action shared).2.unrestricted = shared.unrestricted)
    (hrest : area.Minds (next (action alone.files).1) (alone.withFiles (action alone.files).2)) :
    area.Minds (Workspace.onFiles action next) alone := by
  refine .step ⟨hspares, fun _ _ => rfl, rfl⟩ (fun shared hshared => ?_) hrest
  obtain ⟨hresult, halike, hcurrent, hunrestricted⟩ := hbeside shared.files hshared.spares
  exact ⟨congrArg next hresult, halike, hcurrent, hunrestricted, hshared.state_eq,
    fun _ _ => rfl, rfl⟩

/-- A step that looks at files that others leave as they are. -/
theorem look {view : Files → β} {next : β → Task Workspace Outcome} (htree : alone.files.IsTree)
    (hview : ∀ shared, alone.files.Spares area.others area.own shared →
      view shared = view alone.files)
    (hrest : area.Minds (next (view alone.files)) alone) :
    area.Minds (Workspace.look view next) alone := by
  refine .step (.refl htree) (fun shared hshared => ?_) hrest
  exact ⟨congrArg next (hview shared.files hshared.spares), .refl, rfl, rfl, hshared.state_eq,
    fun _ _ => rfl, rfl⟩

/-- A step that asks how far the own pipeline has come. -/
theorem ask {next : PipelineState → Task Workspace Outcome} (htree : alone.files.IsTree)
    (hrest : area.Minds (next (alone.state area.place)) alone) :
    area.Minds (Workspace.ask area.place next) alone := by
  refine .step (.refl htree) (fun shared hshared => ?_) hrest
  exact ⟨congrArg next hshared.state_eq, .refl, rfl, rfl, hshared.state_eq, fun _ _ => rfl, rfl⟩

/-- A step that notes how far the own pipeline has come. -/
theorem noting {change : PipelineState → PipelineState} {rest : Task Workspace Outcome}
    (htree : alone.files.IsTree) (hrest : area.Minds rest (alone.note area.place change)) :
    area.Minds (Workspace.noting area.place change rest) alone := by
  refine .step ⟨.refl htree, fun index hne => Workspace.state_note_other hne change alone,
    Workspace.length_states_note ..⟩
    (fun shared hshared => ⟨rfl, .refl, rfl, rfl, ?_, ?_, ?_⟩) hrest
  · rw [Workspace.state_note_self, Workspace.state_note_self, hshared.state_eq, hshared.length_eq]
  · exact fun index hne => Workspace.state_note_other hne change shared
  · exact Workspace.length_states_note ..

end Minds

/-! ## Waves -/

open KernelCatalog.Graph (Strand Independent)

/-- The strands of a wave in areas that are apart, and the workspace that has what all of them have
done. -/
structure Joint (area : Stage Workspace → Area) (start : Workspace)
    (strands : List (Strand Workspace)) (shared : Workspace) : Prop where
  minds : ∀ strand ∈ strands, (area strand.stage).Minds strand.task strand.alone
  stays : ∀ strand ∈ strands, (area strand.stage).Stays start strand.alone
  apart : strands.Pairwise fun first second => (area first.stage).Apart (area second.stage)
  merges : start.files.Merges (strands.map fun strand => strand.alone.files) shared.files
  state_eq : ∀ strand ∈ strands, shared.state (area strand.stage).place =
    strand.alone.state (area strand.stage).place
  elsewhere : ∀ index, (∀ strand ∈ strands, (area strand.stage).place ≠ index) →
    shared.state index = start.state index
  length_eq : shared.states.length = start.states.length

namespace Joint

variable {area : Stage Workspace → Area} {start shared : Workspace}
  {before after strands : List (Strand Workspace)} {strand : Strand Workspace}

/-- The other strands of a wave are in areas of their own. -/
theorem apart_of_mem (h : Joint area start (before ++ strand :: after) shared)
    {other : Strand Workspace} (hother : other ∈ before ++ after) :
    (area strand.stage).Apart (area other.stage) :=
  List.rel_of_pairwise_cons ((List.pairwise_middle fun hapart => hapart.symm).mp h.apart) hother

/-- The other strands of a wave spare what is not theirs. -/
theorem spares_of_mem (h : Joint area start (before ++ strand :: after) shared)
    {other : Strand Workspace} (hother : other ∈ before ++ after) :
    start.files.Spares (area strand.stage).others (area strand.stage).own other.alone.files := by
  have hapart := h.apart_of_mem hother
  have hmem : other ∈ before ++ strand :: after := by
    rw [List.mem_append] at hother
    exact List.mem_append.mpr (hother.imp_right (List.mem_cons_of_mem _))
  exact (h.stays other hmem).spares.mono hapart.right hapart.left

/-- **What all have done is beside what one has done alone.** -/
theorem beside (h : Joint area start (before ++ strand :: after) shared)
    (htree : start.files.IsTree) : (area strand.stage).Beside strand.alone shared := by
  have hmem : strand ∈ before ++ strand :: after :=
    List.mem_append_right _ List.mem_cons_self
  have hstays := h.stays strand hmem
  refine ⟨h.merges.spares htree (List.mem_map_of_mem hmem) hstays.spares ?_, h.state_eq strand hmem,
    h.length_eq.trans hstays.length_eq.symm⟩
  rw [List.forall_mem_map]
  intro other hother
  rcases List.mem_append.mp hother with hbefore | hafter
  · exact Or.inr (h.spares_of_mem (List.mem_append_left _ hbefore))
  · rcases List.mem_cons.mp hafter with rfl | hafter
    · exact Or.inl rfl
    · exact Or.inr (h.spares_of_mem (List.mem_append_right _ hafter))

/-- **One strand goes on**, in its area. -/
theorem take {stage : Stage Workspace} {task rest : Task Workspace Outcome}
    {alone next reached : Workspace}
    (h : Joint area start (before ++ ⟨stage, task, alone⟩ :: after) shared)
    (hminds : (area stage).Minds rest next) (hstays : (area stage).Stays alone next)
    (hfollows : (area stage).Follows alone next shared reached) :
    Joint area start (before ++ ⟨stage, rest, next⟩ :: after) reached := by
  have hsplit : ∀ {other middle : Strand Workspace}, other ∈ before ++ middle :: after ↔
      other = middle ∨ other ∈ before ++ after :=
    List.perm_middle.mem_iff.trans List.mem_cons
  have hothers : ∀ other ∈ before ++ after, other ∈ before ++ ⟨stage, task, alone⟩ :: after :=
    fun other hother => hsplit.mpr (Or.inr hother)
  have hmine := (h.stays ⟨stage, task, alone⟩ (hsplit.mpr (Or.inl rfl))).trans hstays
  -- each part is told of the strand that goes on, and then of the others, which stay as they are
  refine ⟨fun other hother => ?_, fun other hother => ?_, ?_, ?_, fun other hother => ?_,
    fun index hindex => ?_, hfollows.length_eq.trans h.length_eq⟩
  · rcases hsplit.mp hother with rfl | hother
    · exact hminds
    · exact h.minds other (hothers other hother)
  · rcases hsplit.mp hother with rfl | hother
    · exact hmine
    · exact h.stays other (hothers other hother)
  · have hapart := h.apart
    rw [List.pairwise_append, List.pairwise_cons] at hapart ⊢
    simpa only [List.mem_cons, forall_eq_or_imp] using hapart
  · have hmerges := h.merges
    rw [List.map_append, List.map_cons] at hmerges ⊢
    refine hmerges.take hfollows.alike hfollows.current_eq hfollows.unrestricted_eq hmine.spares ?_
    rw [← List.map_append, List.forall_mem_map]
    exact fun other hother => h.spares_of_mem hother
  · rcases hsplit.mp hother with rfl | hother
    · exact hfollows.state_eq
    · rw [hfollows.elsewhere _ (h.apart_of_mem hother).place_ne.symm]
      exact h.state_eq other (hothers other hother)
  · rw [hfollows.elsewhere index (hindex _ (hsplit.mpr (Or.inl rfl))).symm]
    refine h.elsewhere index fun other hother => ?_
    rcases hsplit.mp hother with rfl | hother
    · exact hindex ⟨stage, rest, next⟩ (hsplit.mpr (Or.inl rfl))
    · exact hindex other (hsplit.mpr (Or.inr hother))

/-- What all have done is determined. -/
theorem same {other : Workspace} (h : Joint area start strands shared)
    (hother : Joint area start strands other) : shared.Same other := by
  refine ⟨hother.merges.current_eq.trans h.merges.current_eq.symm,
    hother.merges.unrestricted_eq.trans h.merges.unrestricted_eq.symm,
    h.merges.get?_unique hother.merges, Workspace.states_eq_of_state_eq
      (hother.length_eq.trans h.length_eq.symm) fun index => ?_⟩
  by_cases hindex : ∀ strand ∈ strands, (area strand.stage).place ≠ index
  · rw [h.elsewhere index hindex, hother.elsewhere index hindex]
  · push Not at hindex
    obtain ⟨strand, hstrand, rfl⟩ := hindex
    rw [h.state_eq strand hstrand, hother.state_eq strand hstrand]

end Joint

/-- **A wave of tasks that mind their areas is independent**, if the areas are apart. -/
theorem independent {plan : Stage Workspace → Task Workspace Outcome → Prop}
    {area : Stage Workspace → Area} {wave : List (Stage Workspace)} {start : Workspace}
    (htree : start.files.IsTree)
    (hminds : ∀ stage ∈ wave, ∀ task, plan stage task → (area stage).Minds task start)
    (hapart : wave.Pairwise fun first second => (area first).Apart (area second)) :
    Independent plan Workspace.Same wave start (Joint area start) where
  begins strands shared hwave hplanned hsame := by
    have hstart : ∀ strand ∈ strands, strand.alone = start := fun strand hmem =>
      (hplanned strand hmem).2
    refine ⟨fun strand hmem => ?_, fun strand hmem => ?_, ?_, ?_, fun strand hmem => ?_,
      fun index _ => ?_, by rw [hsame.states_eq]⟩
    · rw [hstart strand hmem]
      exact hminds _ (hwave ▸ List.mem_map_of_mem hmem) _ (hplanned strand hmem).1
    · rw [hstart strand hmem]
      exact .refl htree
    · rw [← hwave, List.pairwise_map] at hapart
      exact hapart
    · refine .refl hsame.current_eq hsame.unrestricted_eq hsame.get?_eq ?_
      rw [List.forall_mem_map]
      exact fun strand hmem => by rw [hstart strand hmem]
    · rw [hstart strand hmem, Workspace.state, Workspace.state, hsame.states_eq]
    · rw [Workspace.state, Workspace.state, hsame.states_eq]
  take before after stage change next alone shared hjoint := by
    have hmine := hjoint.minds ⟨stage, .step change next, alone⟩
      (List.mem_append_right _ List.mem_cons_self)
    cases hmine with
    | step hstays hbeside hrest =>
      obtain ⟨hnext, hfollows⟩ := hbeside shared (hjoint.beside htree)
      exact ⟨hnext, hjoint.take hrest hstays hfollows⟩
  same strands shared other hjoint hother := hjoint.same hother

end Area

end KernelCatalog
