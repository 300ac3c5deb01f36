import KernelCatalog.Proofs.Build.Ownership

/-!
# Registering the pipelines of a graph

A graph grows by calls that offer it a single stage or the two stages of a pipeline. The stages of a
pipeline are offered one after the other, and a refusal of the second does not take back the first:
`addTo_eq_iff` tells the three ways in which such a call ends. A graph keeps the stages that it has,
so a compilation that is left behind is called by every later run, although the target was refused.

* `Graph.Accounts.count_of_independent`: a run calls a stage that depends on nothing.
* `addTo_eq_iff`: how the registration of a pipeline ends.
* `registration_leaves_compilation`: what is left of a refused registration, and what runs of it.
* `refused_target_is_compiled`: a refused target whose object is made nevertheless.
-/

namespace KernelCatalog

namespace Graph

variable {σ : Type}

/-- A stage without dependencies is called exactly once. -/
theorem Accounts.count_of_independent {graph : Graph σ} {report : Report} {calls : List Call}
    (h : graph.Accounts report calls) (hnodup : graph.names.Nodup) {stage : Stage σ}
    (hstage : stage ∈ graph.stages) (hfree : stage.dependencies = []) :
    (calls.map Call.stage).count stage.name = 1 := by
  have hreported : stage.name ∈ report.names :=
    h.names_perm.mem_iff.mpr (List.mem_map_of_mem hstage)
  have hkept : stage.name ∉ report.skipped := by
    intro hskipped
    obtain ⟨failure, -, hdepends⟩ := (h.skipped_iff stage.name).mp hskipped
    obtain ⟨dependency, hneeds, -⟩ := Relation.TransGen.head'_iff.mp hdepends
    rw [needs_name_iff hnodup hstage, hfree] at hneeds
    exact List.not_mem_nil hneeds
  apply h.called_once
  rw [Report.names, Report.dead, List.mem_append, List.mem_append] at hreported
  tauto

end Graph

/-- A call that offers stages to a graph: a single one, or those of a pipeline that has the given
place in the workspace. -/
inductive Registration where
  | single (stage : Stage Workspace)
  | pair (pipeline : Pipeline) (place : Nat)

namespace Registration

variable {launch : Launcher}

/-- Whether a call is accepted, and the graph that it leaves. -/
def apply (launch : Launcher) (graph : Graph Workspace) :
    Registration → Except GraphError Unit × Graph Workspace
  | .single stage =>
    match graph.add stage with
    | .error e => (.error e, graph)
    | .ok grown => (.ok (), grown)
  | .pair pipeline place => pipeline.addTo launch place graph

/-- The graph that calls leave one after another, whether they are accepted or not. -/
def applyAll (launch : Launcher) (graph : Graph Workspace) (calls : List Registration) :
    Graph Workspace :=
  calls.foldl (fun graph call => (call.apply launch graph).2) graph

end Registration

namespace Pipeline

variable {launch : Launcher} {pipeline : Pipeline} {place : Nat}

/-- The ways in which the registration of a pipeline ends. -/
inductive Registers (launch : Launcher) (pipeline : Pipeline) (place : Nat)
    (graph : Graph Workspace) : Except GraphError Unit → Graph Workspace → Prop
  /-- Both stages are accepted. -/
  | both (hcompile : ∀ other ∈ graph.stages, other.Compatible (pipeline.compileStage launch place))
      (hextract : ∀ other ∈ graph.stages, other.Compatible (pipeline.extractStage place))
      (hown : pipeline.job.object.same pipeline.job.generated = false) :
      Registers launch pipeline place graph (.ok ())
        ⟨graph.stages ++ [pipeline.compileStage launch place, pipeline.extractStage place]⟩
  /-- The stage that compiles is refused, and the graph stays as it is. -/
  | neither {e : GraphError} (hcompile : graph.add (pipeline.compileStage launch place) = .error e) :
      Registers launch pipeline place graph (.error e) graph
  /-- The stage that compiles is accepted and stays, and the one that extracts is refused. -/
  | compileOnly {e : GraphError}
      (hcompile : ∀ other ∈ graph.stages, other.Compatible (pipeline.compileStage launch place))
      (hextract : Graph.add ⟨graph.stages ++ [pipeline.compileStage launch place]⟩
        (pipeline.extractStage place) = .error e) :
      Registers launch pipeline place graph (.error e)
        ⟨graph.stages ++ [pipeline.compileStage launch place]⟩

/-- The two stages of a pipeline are compatible if its object is not its generated source. -/
theorem compatible_own_iff :
    (pipeline.compileStage launch place).Compatible (pipeline.extractStage place) ↔
      pipeline.job.object.same pipeline.job.generated = false := by
  rw [← pairwise_pair_iff launch pipeline place, pair, List.pairwise_pair]

/-- **How the registration of a pipeline ends.** -/
theorem addTo_eq_iff {graph left : Graph Workspace} {answer : Except GraphError Unit} :
    pipeline.addTo launch place graph = (answer, left) ↔
      Registers launch pipeline place graph answer left := by
  unfold addTo
  constructor
  · intro h
    split at h
    · next e hcompile =>
      obtain ⟨rfl, rfl⟩ := Prod.mk.inj h
      exact .neither hcompile
    · next compiling hcompile =>
      obtain ⟨hfits, rfl⟩ := Graph.add_eq_ok_iff.mp hcompile
      split at h
      · next e hextract =>
        obtain ⟨rfl, rfl⟩ := Prod.mk.inj h
        exact .compileOnly hfits hextract
      · next extracting hextract =>
        obtain ⟨rfl, rfl⟩ := Prod.mk.inj h
        obtain ⟨hboth, rfl⟩ := Graph.add_eq_ok_iff.mp hextract
        rw [List.forall_mem_append, List.forall_mem_singleton, compatible_own_iff] at hboth
        rw [List.append_assoc]
        exact .both hfits hboth.1 hboth.2
  · intro h
    cases h with
    | both hcompile hextract hown =>
      have hboth : ∀ other ∈ graph.stages ++ [pipeline.compileStage launch place],
          other.Compatible (pipeline.extractStage place) := by
        rw [List.forall_mem_append, List.forall_mem_singleton, compatible_own_iff]
        exact ⟨hextract, hown⟩
      rw [Graph.add_eq_ok_iff.mpr ⟨hcompile, rfl⟩]
      simp only [Graph.add_eq_ok_iff.mpr ⟨hboth, rfl⟩, List.append_assoc, List.singleton_append]
    | neither hcompile => rw [hcompile]
    | compileOnly hcompile hextract =>
      rw [Graph.add_eq_ok_iff.mpr ⟨hcompile, rfl⟩]
      simp only [hextract]

end Pipeline

namespace Registration

variable {launch : Launcher}

theorem keeps_apply {motive : Graph Workspace → Prop}
    (hadd : ∀ {graph grown stage}, graph.add stage = .ok grown → motive graph → motive grown)
    (call : Registration) {graph : Graph Workspace} (h : motive graph) :
    motive (call.apply launch graph).2 := by
  cases call with
  | single stage =>
    dsimp only [apply]
    split
    · exact h
    · next grown hgrown => exact hadd hgrown h
  | pair pipeline place =>
    dsimp only [apply, Pipeline.addTo]
    split
    · exact h
    · next compiling hcompile =>
      have hkept := hadd hcompile h
      split
      · exact hkept
      · next extracting hextract => exact hadd hextract hkept

/-- What every stage that is added keeps, calls keep one after another. -/
theorem keeps_applyAll {motive : Graph Workspace → Prop}
    (hadd : ∀ {graph grown stage}, graph.add stage = .ok grown → motive graph → motive grown)
    (calls : List Registration) {graph : Graph Workspace} (h : motive graph) :
    motive (applyAll launch graph calls) :=
  List.foldlRecOn calls _ h fun _ hkept call _ => keeps_apply hadd call hkept

theorem nodup_names_applyAll {graph : Graph Workspace} (hnodup : graph.names.Nodup)
    (calls : List Registration) : (applyAll launch graph calls).names.Nodup :=
  keeps_applyAll (motive := fun graph => graph.names.Nodup)
    (fun hadd hnodup => Graph.nodup_names_of_add hnodup hadd) calls hnodup

theorem mem_stages_applyAll {graph : Graph Workspace} {stage : Stage Workspace}
    (hstage : stage ∈ graph.stages) (calls : List Registration) :
    stage ∈ (applyAll launch graph calls).stages := by
  refine keeps_applyAll (motive := fun graph => stage ∈ graph.stages) ?_ calls hstage
  intro graph grown other hadd hstage
  rw [(Graph.of_add_eq_ok hadd).2]
  exact List.mem_append_left _ hstage

end Registration

namespace Pipeline

open Registration

/-- **A refused registration may leave the compilation behind.** However a graph was made, a pipeline
registers both of its stages, or neither of them, or the one that compiles alone, where the call is
refused as well. A compilation that is there when the call is over is called exactly once by every
later run. -/
theorem registration_leaves_compilation (launch : Launcher) (earlier : List Registration)
    (pipeline : Pipeline) (place : Nat) :
    ∃ answer left, pipeline.addTo launch place (applyAll launch .empty earlier) = (answer, left) ∧
      Registers launch pipeline place (applyAll launch .empty earlier) answer left ∧
      (pipeline.compileStage launch place ∈ left.stages →
        ∀ later state report next,
          (applyAll launch left later).run state = (.ok report, next) →
            (((applyAll launch left later).calls state).map Call.stage).count
              pipeline.compileName = 1) := by
  have hempty : (Graph.empty : Graph Workspace).names.Nodup := List.nodup_nil
  refine ⟨_, _, rfl, addTo_eq_iff.mp rfl, ?_⟩
  intro hmem later state report next hrun
  -- whether it is refused or not, the call is one of those that make the graph
  have hcalls : (applyAll launch .empty (earlier ++ .pair pipeline place :: later)).names.Nodup :=
    nodup_names_applyAll hempty _
  have hlater : (applyAll launch (pipeline.addTo launch place
      (applyAll launch .empty earlier)).2 later).names.Nodup := by
    rw [applyAll, List.foldl_append] at hcalls
    exact hcalls
  exact (Graph.accounts_of_run hlater hrun).count_of_independent hlater
    (mem_stages_applyAll hmem later) rfl

/-- A target whose object exists already, with the same generated source whatever its name. -/
def sharing (name : String) : Pipeline where
  job := ⟨name, ⟨"/p/" ++ name ++ ".o"⟩, .amdgpu, none, ⟨"/p/build/" ++ name ++ ".o"⟩,
    ⟨"/p/generated/kernels.rs"⟩⟩
  compiler := .prebuilt
  registry := BuildSetup.sampleSetup.registry
  options := BuildSetup.sampleProject.config.options

/-- The objects of two such targets. -/
def sharingFiles : Files :=
  ((Files.empty ["p"]).put ["p", "a.o"] (.file (.plain BuildSetup.sampleObject) .plain)).put
    ["p", "b.o"] (.file (.plain BuildSetup.sampleObject) .plain)

/-- The graph of the first such target. -/
def sharingGraph : Graph Workspace :=
  applyAll BuildSetup.sampleSetup.launch .empty [.pair (sharing "a") 0]

/-- What the second such target leaves of it. -/
def sharingLeft : Graph Workspace :=
  ((sharing "b").addTo BuildSetup.sampleSetup.launch 1 sharingGraph).2

/-- The state that they are run in. -/
def sharingWorkspace : Workspace := ⟨sharingFiles, [{}, {}]⟩

/-- The graph that is left runs, and calls the compilation of the second target once. -/
theorem registration_leaves_compilation_sharing :
    (∃ report, (sharingLeft.run sharingWorkspace).1 = .ok report) ∧
      ((sharingLeft.calls sharingWorkspace).map Call.stage).count "device-compile:b" = 1 := by
  obtain ⟨answer, left, hadd, -, hcalled⟩ :=
    registration_leaves_compilation BuildSetup.sampleSetup.launch [.pair (sharing "a") 0]
      (sharing "b") 1
  obtain rfl : sharingLeft = left := congrArg Prod.snd hadd
  have hleft : (sharing "b").compileStage BuildSetup.sampleSetup.launch 1 ∈ sharingLeft.stages :=
    List.mem_of_getElem? (i := 2) rfl
  have hruns : (sharingLeft.run sharingWorkspace).1 =
      .ok ⟨["device-compile:a", "device-compile:b", "config-extract:a"], [], []⟩ := by
    decide +kernel
  exact ⟨⟨_, hruns⟩, hcalled hleft [] _ _ _ (Prod.ext hruns rfl)⟩

/-- **A refused target that is compiled**: its generated source belongs to another target, and yet
its object is made when the graph runs. -/
theorem refused_target_is_compiled :
    ((sharing "b").addTo BuildSetup.sampleSetup.launch 1 sharingGraph).1 =
      .error (.outputConflict ⟨"/p/generated/kernels.rs"⟩ "config-extract:a" "config-extract:b") ∧
    sharingGraph.names = ["device-compile:a", "config-extract:a"] ∧
    sharingLeft.names = ["device-compile:a", "config-extract:a", "device-compile:b"] ∧
    (sharingLeft.calls sharingWorkspace).map Call.stage =
      ["device-compile:a", "device-compile:b", "config-extract:a"] ∧
    (sharingLeft.run sharingWorkspace).2.files.read ⟨"/p/build/b.o"⟩ =
      .ok BuildSetup.sampleObject := by
  refine ⟨?_, ?_, ?_, ?_, ?_⟩ <;> decide +kernel

end Pipeline

end KernelCatalog
