import KernelCatalog.Proofs.Build.Ownership
import KernelCatalog.Proofs.HostSource.Identifier
import KernelCatalog.Proofs.Path

/-!
# Outputs under several names

Outputs are told apart by their components. In a project with an absolute root, all of them are
absolute, and the usual ones go back only where the root does. So the outputs of two stages stand
for different places unless the root or a chosen path goes back; a chosen path that does can be
another name of an output that is taken already, and nobody notices.

* `Layout.goesBack_objectPath`, `Layout.goesBack_generatedPath`: the usual outputs.
* `BuildSetup.outputs_apart`: when the outputs of two stages stand for different places.
* `BuildSetup.object_chosen_as_generated`: a stage that writes over the output of another.
-/

namespace KernelCatalog

namespace Layout

/-! ## The usual outputs -/

/-- A word stays free of separators and points when it is lowered. -/
theorem toLower_of_isWord {c : Char} (h : Identifier.isWord c = true) :
    c.toLower ≠ '/' ∧ c.toLower ≠ '.' := by
  have hascii : c.toNat < 128 := by
    have hranges : (decide (c.val ≥ 65 ∧ c.val ≤ 90) || (c.val ≥ 97 && c.val ≤ 122) ||
        (c.val ≥ 48 && c.val ≤ 57) || c == '_') = true := h
    simp only [Bool.or_eq_true, Bool.and_eq_true, decide_eq_true_eq, beq_iff_eq] at hranges
    rcases hranges with hranges | rfl
    · have hle : c.val ≤ 122 := by
        rcases hranges with (h | h) | h <;> exact UInt32.le_trans h.2 (by decide)
      exact Nat.lt_of_le_of_lt (UInt32.le_iff_toNat_le.mp hle) (by decide)
    · decide
  have hall : ∀ n < 128, Identifier.isWord (Char.ofNat n) = true →
      (Char.ofNat n).toLower ≠ '/' ∧ (Char.ofNat n).toLower ≠ '.' := by decide +kernel
  have hc := hall c.toNat hascii
  rw [Char.ofNat_toNat] at hc
  exact hc h

/-- The name that the files of a target have in common holds neither separators nor points. -/
theorem of_mem_directoryName {target : String} {c : Char}
    (h : c ∈ (directoryName target).toList) : c ≠ '/' ∧ c ≠ '.' := by
  rw [directoryName, Text.lower, String.toList_ofList, String.toList_ofList] at h
  obtain ⟨word, hword, rfl⟩ := List.mem_map.mp h
  have hmem : word ∈ (Identifier.sanitize target).toList := by
    rw [trimUnderscores, List.mem_reverse] at hword
    exact List.mem_reverse.mp ((List.dropWhile_sublist _).mem hword)
  exact toLower_of_isWord ((Identifier.legal_sanitize target).word word hmem)

variable (layout : Layout)

theorem goesBack_buildDir : layout.buildDir.goesBack = layout.root.goesBack := by
  have hnames : ∀ text ∈ [".kbridge", "build"],
      (Path.mk text).isAbsolute = false ∧ (Path.mk text).goesBack = false := by decide +kernel
  have hmeta := hnames ".kbridge" (by simp)
  have hbuild := hnames "build" (by simp)
  rw [buildDir, metaDir, Path.goesBack_join _ hbuild.1, Path.goesBack_join _ hmeta.1, hmeta.2,
    hbuild.2, Bool.or_false, Bool.or_false]

/-- **The object of a target** goes back only where the root does. -/
theorem goesBack_objectPath (target : String) :
    (layout.objectPath target).goesBack = layout.root.goesBack := by
  have hobject : (Path.mk "device.o").isAbsolute = false ∧ (Path.mk "device.o").goesBack = false :=
    by decide +kernel
  have hsep : '/' ∉ (directoryName target).toList := fun h => (of_mem_directoryName h).1 rfl
  have hdots : (directoryName target).toList ≠ Path.dotDot := by
    intro h
    have hpoint : '.' ∈ (directoryName target).toList := h ▸ List.mem_cons_self
    exact (of_mem_directoryName hpoint).2 rfl
  rw [objectPath, Path.goesBack_join _ hobject.1,
    Path.goesBack_join _ (Path.isAbsolute_of_not_mem hsep), goesBack_buildDir, hobject.2,
    Path.goesBack_of_not_mem hsep hdots, Bool.or_false, Bool.or_false]

/-- **The usual generated source of a target** goes back only where the root does. -/
theorem goesBack_generatedPath (target : String) :
    (layout.generatedPath target).goesBack = layout.root.goesBack := by
  have hdir : (Path.mk "generated").isAbsolute = false ∧ (Path.mk "generated").goesBack = false :=
    by decide +kernel
  have hsep : '/' ∉ (directoryName target ++ "_kernels.rs").toList := by
    rw [String.toList_append, List.mem_append]
    rintro (h | h)
    · exact (of_mem_directoryName h).1 rfl
    · exact absurd h (by decide +kernel)
  have hdots : (directoryName target ++ "_kernels.rs").toList ≠ Path.dotDot := by
    intro h
    have hlength := congrArg List.length h
    rw [String.toList_append, List.length_append] at hlength
    have hending : "_kernels.rs".toList.length = 11 := by decide +kernel
    have hdotdot : Path.dotDot.length = 2 := rfl
    omega
  rw [generatedPath, generatedDir, Path.goesBack_join _ (Path.isAbsolute_of_not_mem hsep),
    Path.goesBack_join _ hdir.1, hdir.2, Path.goesBack_of_not_mem hsep hdots, Bool.or_false,
    Bool.or_false]

theorem goesBack_resolve {text : String} (hroot : layout.root.goesBack = false)
    (htext : (Path.mk text).goesBack = false) : (layout.resolve text).goesBack = false := by
  rw [resolve]
  cases habsolute : (Path.mk text).isAbsolute with
  | true => rw [Path.join_of_isAbsolute habsolute, htext]
  | false => rw [Path.goesBack_join _ habsolute, hroot, htext, Bool.or_false]

end Layout

/-! ## The outputs of a target -/

/-- Neither the root nor the path that a target chooses for its generated source goes back. -/
def Target.Forward (layout : Layout) (target : Target) : Prop :=
  layout.root.goesBack = false ∧ ∀ text ∈ target.generated, (Path.mk text).goesBack = false

instance (layout : Layout) (target : Target) : Decidable (target.Forward layout) :=
  inferInstanceAs (Decidable (_ ∧ _))

namespace Target

variable {layout : Layout} (target : Target)

/-- The object of a target is the usual one. -/
theorem object_job : (target.job layout).object = layout.objectPath target.name := by
  simp only [job]

/-- The generated source of a target is the usual one or the chosen one. -/
theorem generated_job_cases (layout : Layout) :
    target.generated = none ∧
      (target.job layout).generated = layout.generatedPath target.name ∨
    ∃ text, target.generated = some text ∧
      (target.job layout).generated = layout.resolve text := by
  cases hchosen : target.generated with
  | none => exact Or.inl ⟨rfl, by simp only [job, hchosen]⟩
  | some text => exact Or.inr ⟨text, rfl, by simp only [job, hchosen]⟩

theorem isAbsolute_outputs (hroot : layout.root.isAbsolute = true) :
    (target.job layout).object.isAbsolute = true ∧
      (target.job layout).generated.isAbsolute = true := by
  have hjoin {path : Path} (h : path.isAbsolute = true) (other : String) :=
    Path.isAbsolute_join h other
  constructor
  · rw [object_job, Layout.objectPath, Layout.buildDir, Layout.metaDir]
    exact hjoin (hjoin (hjoin (hjoin hroot _) _) _) _
  · obtain ⟨-, hgenerated⟩ | ⟨text, -, hgenerated⟩ := target.generated_job_cases layout
    · rw [hgenerated, Layout.generatedPath, Layout.generatedDir]
      exact hjoin (hjoin hroot _) _
    · rw [hgenerated, Layout.resolve]
      exact hjoin hroot _

theorem Forward.goesBack_outputs {target : Target} (h : target.Forward layout) :
    (target.job layout).object.goesBack = false ∧
      (target.job layout).generated.goesBack = false := by
  constructor
  · rw [object_job, layout.goesBack_objectPath, h.1]
  · obtain ⟨-, hgenerated⟩ | ⟨text, hchosen, hgenerated⟩ := target.generated_job_cases layout
    · rw [hgenerated, layout.goesBack_generatedPath, h.1]
    · rw [hgenerated, layout.goesBack_resolve h.1 (h.2 text hchosen)]

end Target

namespace BuildSetup

variable {setup : BuildSetup} {project : Project} {targets : List Target}
  {graph : Graph Workspace}

/-- The outputs of the stages of a build are those of its targets. -/
theorem mem_outputs_of_graph
    (hgraph : Pipeline.graph setup.launch (targets.map (setup.pipeline project)) = .ok graph)
    {stage : Stage Workspace} (hstage : stage ∈ graph.stages) {path : Path}
    (hpath : path ∈ stage.outputs) :
    ∃ target ∈ targets, path = (target.job project.layout).object ∨
      path = (target.job project.layout).generated := by
  obtain ⟨pipeline, place, hpipeline, hpair⟩ := (Pipeline.mem_graph_iff hgraph).mp hstage
  rw [List.getElem?_map, Option.map_eq_some_iff] at hpipeline
  obtain ⟨target, htarget, rfl⟩ := hpipeline
  refine ⟨target, List.mem_of_getElem? htarget, ?_⟩
  rcases List.mem_pair.mp hpair with rfl | rfl
  · exact Or.inl (List.mem_singleton.mp hpath)
  · exact Or.inr (List.mem_singleton.mp hpath)

/-- **The outputs of two stages** differ as they are written. They stand for different places too,
unless the root of the project or the path that a target chooses for its generated source goes
back. -/
theorem outputs_apart (hroot : project.layout.root.isAbsolute = true)
    (hgraph : Pipeline.graph setup.launch (targets.map (setup.pipeline project)) = .ok graph) :
    ∀ first ∈ graph.stages, ∀ second ∈ graph.stages, first.name ≠ second.name →
      ∀ mine ∈ first.outputs, ∀ theirs ∈ second.outputs, mine.names ≠ theirs.names ∧
        ((∀ target ∈ targets, target.Forward project.layout) →
          mine.resolved ≠ theirs.resolved) := by
  intro first hfirst second hsecond hne mine hmine theirs htheirs
  have habsolute : ∀ stage ∈ graph.stages, ∀ path ∈ stage.outputs, path.isAbsolute = true := by
    intro stage hstage path hpath
    obtain ⟨target, -, hobject | hgenerated⟩ := mem_outputs_of_graph hgraph hstage hpath
    · rw [hobject, (target.isAbsolute_outputs hroot).1]
    · rw [hgenerated, (target.isAbsolute_outputs hroot).2]
  have hnames : mine.names ≠ theirs.names := by
    intro heq
    have hsame := (Path.same_iff_names (habsolute first hfirst mine hmine)
      (habsolute second hsecond theirs htheirs)).mpr heq
    have hapart := (Pipeline.compatible_of_graph hgraph hsecond hfirst hne.symm).outputs
      mine hmine theirs htheirs
    exact absurd (hapart.symm.trans hsame) (by decide)
  refine ⟨hnames, fun hforward => ?_⟩
  have hresolved : ∀ stage ∈ graph.stages, ∀ path ∈ stage.outputs,
      path.resolved = path.names := by
    intro stage hstage path hpath
    obtain ⟨target, htarget, hobject | hgenerated⟩ := mem_outputs_of_graph hgraph hstage hpath
    · rw [hobject, Path.resolved_eq_names (hforward target htarget).goesBack_outputs.1]
    · rw [hgenerated, Path.resolved_eq_names (hforward target htarget).goesBack_outputs.2]
  rw [hresolved first hfirst mine hmine, hresolved second hsecond theirs htheirs]
  exact hnames

/-- The targets of a valid configuration are taken into one graph if no object is a generated
source. -/
theorem exists_graph_of_apart (setup : BuildSetup) {project : Project}
    (hvalid : project.config.validate project.layout = .ok ())
    (hapart : Job.Apart (project.config.targets.map (·.job project.layout))) :
    ∃ graph, Pipeline.graph setup.launch (project.config.targets.map (setup.pipeline project)) =
      .ok graph := by
  have hjobs : (project.config.targets.map (setup.pipeline project)).map Pipeline.job =
      project.config.targets.map (·.job project.layout) := by
    rw [List.map_map]
    rfl
  refine (Pipeline.graph_isOk_iff ?_).mpr (hjobs ▸ hapart)
  rw [hjobs]
  exact (Config.validate_eq_ok_iff.mp hvalid).2

/-- A project whose targets choose their generated sources freely, but do not go back. -/
def forwardProject : Project :=
  { sampleProject with
    config := { Config.new "forward" ":memory:" with
      targets := [⟨"a", "a.o", .amdgpu, none, .prebuilt, none⟩,
        ⟨"b", "b.o", .amdgpu, none, .prebuilt, some "./.kbridge//build/./a/device.rs"⟩,
        ⟨"c", "c.o", .amdgpu, none, .prebuilt, some "/p/generated/c.rs/"⟩] } }

/-- The six stages of such a project write in six different places. -/
theorem outputs_apart_forward : ∃ graph,
    Pipeline.graph sampleSetup.launch
      (forwardProject.config.targets.map (sampleSetup.pipeline forwardProject)) = .ok graph ∧
    forwardProject.layout.root.isAbsolute = true ∧
    (∀ target ∈ forwardProject.config.targets, target.Forward forwardProject.layout) ∧
    ∀ first ∈ graph.stages, ∀ second ∈ graph.stages, first.name ≠ second.name →
      ∀ mine ∈ first.outputs, ∀ theirs ∈ second.outputs, mine.resolved ≠ theirs.resolved := by
  have hvalid : forwardProject.config.validate forwardProject.layout = .ok () := by decide +kernel
  have hapart : Job.Apart (forwardProject.config.targets.map (·.job forwardProject.layout)) := by
    decide +kernel
  have hroot : forwardProject.layout.root.isAbsolute = true := by decide +kernel
  have hforward : ∀ target ∈ forwardProject.config.targets,
      target.Forward forwardProject.layout := by decide +kernel
  obtain ⟨graph, hgraph⟩ := exists_graph_of_apart sampleSetup hvalid hapart
  refine ⟨graph, hgraph, hroot, hforward, fun first hfirst second hsecond hne mine hmine theirs
    htheirs => ?_⟩
  exact (outputs_apart hroot hgraph first hfirst second hsecond hne mine hmine theirs htheirs).2
    hforward

/-- A project with a target that chooses its own object for its generated source, by another
name. -/
def aliasedProject : Project :=
  { sampleProject with
    config := { Config.new "aliased" ":memory:" with
      targets := [⟨"a", "a.o", .amdgpu, none, .prebuilt,
        some ".kbridge/build/../build/a/device.o"⟩] } }

/-- **One file for two stages**: the configuration is valid and the graph takes its stages, although
the generated source is to be written where the object is. -/
theorem object_chosen_as_generated :
    aliasedProject.layout.root.isAbsolute = true ∧
    aliasedProject.config.validate aliasedProject.layout = .ok () ∧
    ∃ graph, Pipeline.graph sampleSetup.launch
        (aliasedProject.config.targets.map (sampleSetup.pipeline aliasedProject)) = .ok graph ∧
      ∃ first ∈ graph.stages, ∃ second ∈ graph.stages, first.name ≠ second.name ∧
        ∃ mine ∈ first.outputs, ∃ theirs ∈ second.outputs, mine.resolved = theirs.resolved := by
  have hvalid : aliasedProject.config.validate aliasedProject.layout = .ok () := by decide +kernel
  have hapart : Job.Apart (aliasedProject.config.targets.map (·.job aliasedProject.layout)) := by
    decide +kernel
  refine ⟨by decide +kernel, hvalid, ?_⟩
  obtain ⟨graph, hgraph⟩ := exists_graph_of_apart sampleSetup hvalid hapart
  refine ⟨graph, hgraph, ?_⟩
  rw [(Pipeline.of_graph_eq_ok hgraph).2]
  decide +kernel

end BuildSetup

end KernelCatalog
