import KernelCatalog.Project.Config
import KernelCatalog.Proofs.Ledger.Handle
import KernelCatalog.Proofs.Pairing
import KernelCatalog.Proofs.Path
import Mathlib.Data.List.Pairwise

/-!
# Valid configurations

The validation of a configuration compares each target with those before it, and this amounts to
comparing any two. Targets that are chosen by different names are different targets, so they are
exclusive among each other too.

* `Config.validate_eq_ok_iff`: what the validation of a configuration decides.
* `Config.of_select_eq_ok`: the targets of a choice.
* `Config.pairwise_exclusive_of_select`: chosen targets are exclusive.
-/

namespace KernelCatalog

/-- Two targets have neither their name nor their object nor their generated source in common. -/
structure Job.Exclusive (first second : Job) : Prop where
  name_ne : first.name ≠ second.name
  object : first.object.same second.object = false
  generated : first.generated.same second.generated = false

theorem Job.Exclusive.symm {first second : Job} (h : first.Exclusive second) :
    second.Exclusive first where
  name_ne := h.name_ne.symm
  object := by rw [Path.same_comm, h.object]
  generated := by rw [Path.same_comm, h.generated]

namespace Config

/-! ## Validation -/

/-- A target is accepted behind others if it has a name and is exclusive with each of them. -/
theorem clash?_eq_none_iff {layout : Layout} {earlier : List Target} {target : Target} :
    clash? layout earlier target = none ↔ isBlankName target.name = false ∧
      ∀ first ∈ earlier, (first.job layout).Exclusive (target.job layout) := by
  dsimp only [clash?]
  split
  · next hblank => simp [hblank]
  · next hblank =>
    split
    · next hname =>
      obtain ⟨first, hfirst, hsame⟩ : ∃ first ∈ earlier, first.name = target.name := by
        simpa using hname
      exact ⟨fun h => absurd h (by simp), fun h => absurd hsame (h.2 first hfirst).name_ne⟩
    · next hname =>
      split
      · next first hfind =>
        refine ⟨fun h => absurd h (by simp), fun h => absurd (List.find?_some hfind) ?_⟩
        simp [(h.2 first (List.mem_of_find?_eq_some hfind)).object]
      · next hobject =>
        split
        · next first hfind =>
          refine ⟨fun h => absurd h (by simp), fun h => absurd (List.find?_some hfind) ?_⟩
          simp [(h.2 first (List.mem_of_find?_eq_some hfind)).generated]
        · next hgenerated =>
          rw [List.find?_eq_none] at hobject hgenerated
          refine ⟨fun _ => ⟨by simpa using hblank, fun first hfirst => ⟨?_, ?_, ?_⟩⟩, fun _ => rfl⟩
          · exact fun hsame => hname (List.any_eq_true.mpr ⟨first, hfirst, beq_iff_eq.mpr hsame⟩)
          · simpa using hobject first hfirst
          · simpa using hgenerated first hfirst

/-- Targets are accepted behind others if each has a name and any two are exclusive. -/
theorem validateFrom_eq_ok_iff {layout : Layout} {earlier targets : List Target} :
    validateFrom layout earlier targets = .ok () ↔
      (∀ target ∈ targets, isBlankName target.name = false) ∧
      (∀ first ∈ earlier, ∀ target ∈ targets, (first.job layout).Exclusive (target.job layout)) ∧
      (targets.map (·.job layout)).Pairwise Job.Exclusive := by
  induction targets generalizing earlier with
  | nil => simp [validateFrom]
  | cons target rest ih =>
    rw [validateFrom]
    cases hclash : clash? layout earlier target with
    | some e =>
      refine ⟨fun h => absurd h (by simp), fun h => ?_⟩
      have hnone := clash?_eq_none_iff.mpr
        ⟨h.1 target List.mem_cons_self, fun first hfirst => h.2.1 first hfirst target (by simp)⟩
      exact absurd (hclash.symm.trans hnone) (by simp)
    | none =>
      obtain ⟨hblank, hearlier⟩ := clash?_eq_none_iff.mp hclash
      simp only [ih, List.forall_mem_append, List.forall_mem_cons, List.map_cons,
        List.pairwise_cons, List.forall_mem_map]
      constructor
      · rintro ⟨hrest, ⟨hfirst, htarget, -⟩, hpairwise⟩
        exact ⟨⟨hblank, hrest⟩, fun first hmem => ⟨hearlier first hmem, hfirst first hmem⟩,
          htarget, hpairwise⟩
      · rintro ⟨⟨-, hrest⟩, hfirst, htarget, hpairwise⟩
        exact ⟨hrest, ⟨fun first hmem => (hfirst first hmem).2, htarget, by simp⟩, hpairwise⟩

/-- **A configuration is valid** if every target has a name and any two are exclusive. -/
theorem validate_eq_ok_iff {config : Config} {layout : Layout} :
    config.validate layout = .ok () ↔
      (∀ target ∈ config.targets, isBlankName target.name = false) ∧
      (config.targets.map (·.job layout)).Pairwise Job.Exclusive := by
  rw [validate, validateFrom_eq_ok_iff]
  simp

/-! ## Choices of targets -/

/-- The target that is found is one of the configuration, by its name. -/
theorem of_find_eq_ok {config : Config} {name : String} {target : Target}
    (h : config.find name = .ok target) : target.name = name ∧ target ∈ config.targets := by
  unfold find target? at h
  split at h
  · next found hfind =>
    obtain rfl := Except.ok.inj h
    exact ⟨by simpa using List.find?_some hfind, List.mem_of_find?_eq_some hfind⟩
  · exact absurd h (by simp)

theorem exists_find_eq_ok {config : Config} {name : String}
    (h : ∃ target ∈ config.targets, target.name = name) :
    ∃ target, config.find name = .ok target := by
  obtain ⟨target, htarget, hname⟩ := h
  unfold find target?
  split
  · exact ⟨_, rfl⟩
  · next hnone => simp_all

/-- **The targets of a choice** are those of the names, in order, or all of them. -/
theorem of_select_eq_ok {config : Config} {names : List String} {targets : List Target}
    (h : config.select names = .ok targets) :
    names = [] ∧ targets = config.targets ∨
      targets.map Target.name = names ∧ targets ⊆ config.targets := by
  unfold select at h
  split at h
  · next hempty => exact Or.inl ⟨List.isEmpty_iff.mp hempty, (Except.ok.inj h).symm⟩
  · have hpaired := Pairing.mapM_eq_ok_iff.mp h
    refine Or.inr ⟨?_, fun target htarget => ?_⟩
    · rw [Pairing.map_eq_map hpaired.flip (g := id) fun _ _ hfind => (of_find_eq_ok hfind).1,
        List.map_id]
    · obtain ⟨name, -, hfind⟩ := Pairing.exists_left hpaired htarget
      exact (of_find_eq_ok hfind).2

/-- Names of targets can be chosen. -/
theorem exists_select_eq_ok {config : Config} {names : List String}
    (h : ∀ name ∈ names, ∃ target ∈ config.targets, target.name = name) :
    ∃ targets, config.select names = .ok targets := by
  unfold select
  split
  · exact ⟨_, rfl⟩
  · exact Pairing.exists_mapM_eq_ok_iff.mpr fun name hname => exists_find_eq_ok (h name hname)

/-- **Targets that are chosen by different names** from a valid configuration are exclusive. -/
theorem pairwise_exclusive_of_select {config : Config} {layout : Layout} {names : List String}
    {targets : List Target} (hvalid : config.validate layout = .ok ()) (hnodup : names.Nodup)
    (h : config.select names = .ok targets) :
    (targets.map (·.job layout)).Pairwise Job.Exclusive := by
  have hall := (validate_eq_ok_iff.mp hvalid).2
  rcases of_select_eq_ok h with ⟨-, rfl⟩ | ⟨rfl, hsubset⟩
  · exact hall
  · rw [List.pairwise_map] at hall ⊢
    refine (List.pairwise_map.mp hnodup).imp_of_mem fun {first second} hfirst hsecond hne => ?_
    have hsymm : Std.Symm fun a b : Target => (a.job layout).Exclusive (b.job layout) :=
      ⟨fun _ _ => .symm⟩
    exact hall.forall (hsubset hfirst) (hsubset hsecond) (ne_of_apply_ne Target.name hne)

end Config

end KernelCatalog
