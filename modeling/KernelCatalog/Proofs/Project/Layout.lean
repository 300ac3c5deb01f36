import KernelCatalog.Project.Layout
import KernelCatalog.Proofs.Path

/-!
# Recorded paths

A project records the paths of its files as texts: relative to its root what lies below it, and as
they are all others. Separators that are repeated or trail, and `.`, may get lost on the way; the
components do not. So a recorded text leads back to the file, and different files are recorded
differently.

* `Layout.same_resolve_relative`: what is recorded leads back.
* `Layout.isAbsolute_relative`: what is recorded as a relative text.
* `Layout.recorded_paths_lead_back`: the two together, and which paths are recorded alike.
-/

namespace KernelCatalog.Layout

variable {layout : Layout} {path : Path}

theorem isAbsolute_relative (hroot : layout.root.isAbsolute = true)
    (hpath : path.isAbsolute = true) :
    (Path.mk (layout.relative path)).isAbsolute = false ↔
      layout.root.components <+: path.components := by
  rw [relative, ← not_iff_not, ← Path.relativeTo?_eq_none_iff]
  cases hrest : path.relativeTo? layout.root with
  | none => simpa using hpath
  | some rest => simpa using (Path.names_of_relativeTo? hpath hroot hrest).2

/-- **What is recorded leads back** to the path. -/
theorem same_resolve_relative (hroot : layout.root.isAbsolute = true)
    (hpath : path.isAbsolute = true) :
    (layout.resolve (layout.relative path)).same path = true := by
  rw [resolve, relative]
  cases hrest : path.relativeTo? layout.root with
  | none =>
    dsimp only
    rw [Path.join_of_isAbsolute hpath, Path.same_iff_names hpath hpath]
  | some rest =>
    obtain ⟨hnames, hrelative⟩ := Path.names_of_relativeTo? hpath hroot hrest
    dsimp only
    rw [Path.same_iff_names (Path.isAbsolute_join hroot rest.text) hpath,
      Path.names_join layout.root hrelative, ← hnames]

/-- **Recorded paths lead back to the file**: in a project with an absolute root, what is recorded of
an absolute path leads back to it, it is a relative text exactly if the root is at the front of the
path, and only the same paths are recorded alike. -/
theorem recorded_paths_lead_back (layout : Layout) (hroot : layout.root.isAbsolute = true)
    (path : Path) (hpath : path.isAbsolute = true) :
    (layout.resolve (layout.relative path)).same path = true ∧
      ((Path.mk (layout.relative path)).isAbsolute = false ↔
        layout.root.components <+: path.components) ∧
      ∀ other : Path, other.isAbsolute = true → layout.relative path = layout.relative other →
        path.same other = true := by
  refine ⟨same_resolve_relative hroot hpath, isAbsolute_relative hroot hpath, ?_⟩
  intro other hother heq
  have hback := same_resolve_relative hroot hpath
  rw [heq] at hback
  rw [Path.same, beq_iff_eq] at hback ⊢
  rw [← hback]
  exact beq_iff_eq.mp (same_resolve_relative hroot hother)

/-- A project whose root is written with separators and `.` in odd places. -/
def oddLayout : Layout := ⟨⟨"//proj/./"⟩⟩

/-- A path below that root, which goes back, and one that only starts with the same characters. -/
theorem recorded_paths_lead_back_odd :
    oddLayout.relative ⟨"/proj//a/./../b/."⟩ = "a/./../b" ∧
      (oddLayout.resolve "a/./../b").same ⟨"/proj//a/./../b/."⟩ = true ∧
      (Path.mk (oddLayout.relative ⟨"/project/a"⟩)).isAbsolute = true := by
  have hroot : oddLayout.root.isAbsolute = true := by decide +kernel
  have hrecorded : oddLayout.relative ⟨"/proj//a/./../b/."⟩ = "a/./../b" := by decide +kernel
  obtain ⟨hback, -, -⟩ :=
    recorded_paths_lead_back oddLayout hroot ⟨"/proj//a/./../b/."⟩ (by decide +kernel)
  obtain ⟨-, hrelative, -⟩ := recorded_paths_lead_back oddLayout hroot ⟨"/project/a"⟩
    (by decide +kernel)
  rw [hrecorded] at hback
  refine ⟨hrecorded, hback, ?_⟩
  rw [← Bool.not_eq_false, hrelative]
  decide +kernel

end KernelCatalog.Layout
