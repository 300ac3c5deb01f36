import KernelCatalog.Proofs.Project.Config
import Mathlib.Data.List.Nodup

/-!
# What a refused configuration is blamed for

Targets are taken one after another, and each is compared with those before it. While they are
exclusive, no two of them have a path in common, so a path that is there already belongs to one
target, and that one is named in the error.

* `exclusiveIn_concat_iff`: what one more target must not clash with.
* `clash?_eq_some_iff`: what a target behind exclusive ones is blamed for.
* `validate_decides_exclusive`: what the validation of a configuration answers.
-/

namespace KernelCatalog.Config

/-- Targets have names, and no two of them have a name, an object or a generated source in common;
paths are compared by their components. -/
structure ExclusiveIn (layout : Layout) (targets : List Target) : Prop where
  named : ∀ target ∈ targets, isBlankName target.name = false
  names : (targets.map Target.name).Nodup
  objects : (targets.map fun target => (target.job layout).object.components).Nodup
  generated : (targets.map fun target => (target.job layout).generated.components).Nodup

/-- Targets are exclusive if each has a name and any two of them are. -/
theorem exclusiveIn_iff {layout : Layout} {targets : List Target} :
    ExclusiveIn layout targets ↔ (∀ target ∈ targets, isBlankName target.name = false) ∧
      (targets.map (·.job layout)).Pairwise Job.Exclusive := by
  have hdiffer : ∀ a b : Path, a.same b = false ↔ a.components ≠ b.components := by
    intro a b
    rw [ne_eq, ← Path.same_iff, Bool.not_eq_true]
  constructor
  · rintro ⟨hnamed, hnames, hobjects, hgenerated⟩
    refine ⟨hnamed, List.pairwise_map.mpr ?_⟩
    have hall := (List.pairwise_map.mp hnames).and
      ((List.pairwise_map.mp hobjects).and (List.pairwise_map.mp hgenerated))
    exact hall.imp fun ⟨hname, hobject, hsource⟩ =>
      ⟨hname, (hdiffer _ _).mpr hobject, (hdiffer _ _).mpr hsource⟩
  · rintro ⟨hnamed, hpairwise⟩
    rw [List.pairwise_map] at hpairwise
    refine ⟨hnamed, List.pairwise_map.mpr ?_, List.pairwise_map.mpr ?_, List.pairwise_map.mpr ?_⟩
    · exact hpairwise.imp fun h => h.name_ne
    · exact hpairwise.imp fun h => (hdiffer _ _).mp h.object
    · exact hpairwise.imp fun h => (hdiffer _ _).mp h.generated

/-- Where no two items have a key in common, the item that is found by one has it alone. -/
theorem find?_eq_some_iff_alone {α β : Type} {key : α → β} {items : List α}
    (hnodup : (items.map key).Nodup) {given : β} {test : α → Bool}
    (htest : ∀ item, test item = true ↔ key item = given) {first : α} :
    items.find? test = some first ↔
      first ∈ items ∧ ∀ item ∈ items, key item = given ↔ item = first := by
  constructor
  · intro hfind
    have hfirst := List.mem_of_find?_eq_some hfind
    have hsame := (htest first).mp (List.find?_some hfind)
    refine ⟨hfirst, fun other hother => ⟨fun hother' => ?_, ?_⟩⟩
    · exact List.inj_on_of_nodup_map hnodup hother hfirst (hother'.trans hsame.symm)
    · rintro rfl
      exact hsame
  · rintro ⟨hfirst, honly⟩
    have hsome : (items.find? test).isSome :=
      List.find?_isSome.mpr ⟨first, hfirst, (htest first).mpr ((honly first hfirst).mpr rfl)⟩
    obtain ⟨found, hfind⟩ := Option.isSome_iff_exists.mp hsome
    have hkey := (htest found).mp (List.find?_some hfind)
    rw [hfind, (honly found (List.mem_of_find?_eq_some hfind)).mp hkey]

section Clash

variable {layout : Layout} {earlier : List Target} {target : Target}

/-- Exclusive targets stay so with one more, if it clashes with none of them. -/
theorem exclusiveIn_concat_iff :
    ExclusiveIn layout (earlier ++ [target]) ↔
      ExclusiveIn layout earlier ∧ clash? layout earlier target = none := by
  rw [exclusiveIn_iff, exclusiveIn_iff, clash?_eq_none_iff, List.forall_mem_append,
    List.forall_mem_singleton, List.map_append, List.map_singleton, List.pairwise_append]
  simp only [List.forall_mem_map, List.forall_mem_singleton, List.pairwise_singleton, true_and]
  constructor
  · rintro ⟨⟨hnamed, hname⟩, hpairwise, hnew⟩
    exact ⟨⟨hnamed, hpairwise⟩, hname, hnew⟩
  · rintro ⟨⟨hnamed, hpairwise⟩, hname, hnew⟩
    exact ⟨⟨hnamed, hname⟩, hpairwise, hnew⟩

/-- `first` is the only one of the targets whose path is the given one, by its components. -/
def HasAlone (path : Job → Path) (layout : Layout) (targets : List Target) (given : Path)
    (first : Target) : Prop :=
  first ∈ targets ∧ ∀ target ∈ targets,
    (path (target.job layout)).components = given.components ↔ target = first

/-- What a target is blamed for behind others. The first of the four reasons counts, and where a path
is shared, the one target that had it before is named. -/
inductive Blames (layout : Layout) (earlier : List Target) (target : Target) : ConfigError → Prop
  | blank (hblank : isBlankName target.name = true) : Blames layout earlier target .emptyTargetName
  | name (hnamed : isBlankName target.name = false)
      (hname : ∃ first ∈ earlier, first.name = target.name) :
      Blames layout earlier target (.duplicateTarget target.name)
  | object {first : Target} (hnamed : isBlankName target.name = false)
      (hname : ∀ other ∈ earlier, other.name ≠ target.name)
      (hfirst : HasAlone Job.object layout earlier (target.job layout).object first) :
      Blames layout earlier target
        (.duplicateObject (target.job layout).object first.name target.name)
  | generated {first : Target} (hnamed : isBlankName target.name = false)
      (hname : ∀ other ∈ earlier, other.name ≠ target.name)
      (hobject : ∀ other ∈ earlier,
        (other.job layout).object.components ≠ (target.job layout).object.components)
      (hfirst : HasAlone Job.generated layout earlier (target.job layout).generated first) :
      Blames layout earlier target
        (.duplicateGenerated (target.job layout).generated first.name target.name)

/-- A target behind exclusive ones is refused for what it is to be blamed for. -/
theorem clash?_eq_some_iff (hearlier : ExclusiveIn layout earlier) {e : ConfigError} :
    clash? layout earlier target = some e ↔ Blames layout earlier target e := by
  have hnew : (earlier.any fun first => first.name == target.name) = false ↔
      ∀ other ∈ earlier, other.name ≠ target.name := by
    simp only [List.any_eq_false, beq_iff_eq, ne_eq]
  have hobject (first : Target) : (earlier.find? fun other =>
      (other.job layout).object.same (target.job layout).object) = some first ↔
      HasAlone Job.object layout earlier (target.job layout).object first :=
    find?_eq_some_iff_alone hearlier.objects fun _ => Path.same_iff
  have hgenerated (first : Target) : (earlier.find? fun other =>
      (other.job layout).generated.same (target.job layout).generated) = some first ↔
      HasAlone Job.generated layout earlier (target.job layout).generated first :=
    find?_eq_some_iff_alone hearlier.generated fun _ => Path.same_iff
  have hnoObject : (earlier.find? fun first =>
      (first.job layout).object.same (target.job layout).object) = none ↔
      ∀ other ∈ earlier, (other.job layout).object.components ≠
        (target.job layout).object.components := by
    simp only [List.find?_eq_none, Path.same_iff, ne_eq]
  dsimp only [clash?]
  constructor
  · intro h
    split at h
    · next hblank =>
      obtain rfl := Option.some.inj h
      exact .blank hblank
    · next hnamed =>
      rw [Bool.not_eq_true] at hnamed
      split at h
      · next hname =>
        obtain rfl := Option.some.inj h
        exact .name hnamed (by simpa using hname)
      · next hname =>
        rw [Bool.not_eq_true, hnew] at hname
        split at h
        · next first hfind =>
          obtain rfl := Option.some.inj h
          exact .object hnamed hname ((hobject first).mp hfind)
        · next hnone =>
          split at h
          · next first hfind =>
            obtain rfl := Option.some.inj h
            exact .generated hnamed hname (hnoObject.mp hnone) ((hgenerated first).mp hfind)
          · exact absurd h (by simp)
  · intro h
    cases h with
    | blank hblank => rw [if_pos hblank]
    | name hnamed hname =>
      have hknown : (earlier.any fun first => first.name == target.name) = true := by
        simpa using hname
      rw [hnamed, hknown]
      rfl
    | object hnamed hname hfirst =>
      rw [hnamed, hnew.mpr hname, (hobject _).mpr hfirst]
      rfl
    | generated hnamed hname hapart hfirst =>
      rw [hnamed, hnew.mpr hname, hnoObject.mpr hapart, (hgenerated _).mpr hfirst]
      rfl

end Clash

/-- Targets are accepted behind none if they are exclusive. -/
theorem validateFrom_nil_eq_ok_iff {layout : Layout} {targets : List Target} :
    validateFrom layout [] targets = .ok () ↔ ExclusiveIn layout targets := by
  rw [validateFrom_eq_ok_iff, exclusiveIn_iff]
  simp

/-- Targets are refused for the first one that clashes with those before it. -/
theorem validateFrom_eq_error_iff {layout : Layout} {earlier targets : List Target}
    {e : ConfigError} :
    validateFrom layout earlier targets = .error e ↔
      ∃ before target after, targets = before ++ target :: after ∧
        validateFrom layout earlier before = .ok () ∧
        clash? layout (earlier ++ before) target = some e := by
  induction targets generalizing earlier with
  | nil => simp [validateFrom]
  | cons first rest ih =>
    rw [validateFrom]
    cases hclash : clash? layout earlier first with
    | some cause =>
      constructor
      · intro h
        obtain rfl := Except.error.inj h
        refine ⟨[], first, rest, rfl, rfl, ?_⟩
        rw [List.append_nil]
        exact hclash
      · rintro ⟨before, target, after, heq, haccepted, htarget⟩
        cases before with
        | nil =>
          obtain ⟨rfl, rfl⟩ := List.cons.inj heq
          rw [List.append_nil, hclash] at htarget
          exact congrArg Except.error (Option.some.inj htarget)
        | cons accepted before =>
          obtain ⟨rfl, rfl⟩ := List.cons.inj heq
          simp [validateFrom, hclash] at haccepted
    | none =>
      show validateFrom layout (earlier ++ [first]) rest = .error e ↔ _
      rw [ih]
      constructor
      · rintro ⟨before, target, after, rfl, haccepted, htarget⟩
        refine ⟨first :: before, target, after, rfl, ?_, ?_⟩
        · rw [validateFrom, hclash]
          exact haccepted
        · rwa [List.append_assoc, List.singleton_append] at htarget
      · rintro ⟨before, target, after, heq, haccepted, htarget⟩
        cases before with
        | nil =>
          obtain ⟨rfl, rfl⟩ := List.cons.inj heq
          rw [List.append_nil, hclash] at htarget
          exact absurd htarget (by simp)
        | cons accepted before =>
          obtain ⟨rfl, rfl⟩ := List.cons.inj heq
          rw [validateFrom, hclash] at haccepted
          refine ⟨before, target, after, rfl, haccepted, ?_⟩
          rw [List.append_assoc, List.singleton_append]
          exact htarget

/-- **A configuration is accepted exactly when its targets are exclusive.** Otherwise the error is
about the first target with which they no longer are, and it names the one target before that has
the path, where a path is shared. -/
theorem validate_decides_exclusive (config : Config) (layout : Layout) :
    (config.validate layout = .ok () ↔ ExclusiveIn layout config.targets) ∧
    ∀ e, config.validate layout = .error e ↔
      ∃ earlier target later, config.targets = earlier ++ target :: later ∧
        ExclusiveIn layout earlier ∧ ¬ ExclusiveIn layout (earlier ++ [target]) ∧
        Blames layout earlier target e := by
  refine ⟨validateFrom_nil_eq_ok_iff, fun e => ?_⟩
  rw [validate, validateFrom_eq_error_iff]
  constructor
  · rintro ⟨earlier, target, later, htargets, haccepted, hclash⟩
    have hearlier := validateFrom_nil_eq_ok_iff.mp haccepted
    rw [List.nil_append] at hclash
    refine ⟨earlier, target, later, htargets, hearlier, ?_, (clash?_eq_some_iff hearlier).mp hclash⟩
    intro hboth
    have hnone := (exclusiveIn_concat_iff.mp hboth).2
    exact absurd (hclash.symm.trans hnone) (by simp)
  · rintro ⟨earlier, target, later, htargets, hearlier, -, hblames⟩
    refine ⟨earlier, target, later, htargets, validateFrom_nil_eq_ok_iff.mpr hearlier, ?_⟩
    rw [List.nil_append]
    exact (clash?_eq_some_iff hearlier).mpr hblames

/-- A target whose generated source is that of the target before it, in another spelling. -/
example :
    { Config.new "p" "builds.db" with
      targets := [
        { name := "a", source := "a.hip", architecture := .amdgpu, generated := some "./k.rs" },
        { name := "b", source := "b.hip", architecture := .amdgpu,
          generated := some "/p//k.rs" }] }.validate ⟨⟨"/p"⟩⟩ =
      .error (.duplicateGenerated ⟨"/p//k.rs"⟩ "a" "b") := by
  decide +kernel

end KernelCatalog.Config
