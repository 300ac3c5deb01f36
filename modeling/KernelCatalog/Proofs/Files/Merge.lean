import KernelCatalog.Proofs.Files.Beside

/-!
# Merging the changes of several parties

Several parties start from one tree and each changes it on its own. A tree merges their changes if
it has, at each place, what a party has left there, and what was there at the start if no party has
changed it. It is then the only such tree, whatever the order of the changes.

* `Merges.take`: one party goes on, alone and in the merged tree.
* `Merges.spares`: the merged tree beside what one party has left.
* `Merges.get?_unique`: the merged tree is determined.
-/

namespace KernelCatalog.Files

/-! ## What a party does -/

/-- A tree after a change that concerns own places only, apart from directories that are made, and
leaves the places of others as they are. -/
structure Spares (own others : List Location) (before after : Files) : Prop where
  keeps : before.Keeps own after
  get?_eq : ∀ location ∈ others, after.get? location = before.get? location

namespace Spares

variable {own others more less : List Location} {before between after : Files}

theorem refl (htree : before.IsTree) : Spares own others before before :=
  ⟨.refl htree, fun _ _ => rfl⟩

theorem trans (hfirst : Spares own others before between)
    (hsecond : Spares own others between after) : Spares own others before after :=
  ⟨hfirst.keeps.trans hsecond.keeps, fun location hmem =>
    (hsecond.get?_eq location hmem).trans (hfirst.get?_eq location hmem)⟩

theorem mono (h : Spares own others before after) (hown : own ⊆ more) (hothers : less ⊆ others) :
    Spares more less before after :=
  ⟨h.keeps.mono hown, fun location hmem => h.get?_eq location (hothers hmem)⟩

end Spares

/-! ## What several parties do -/

/-- A tree with the changes of all parties, given what each has made of the start alone. -/
structure Merges (start : Files) (trees : List Files) (shared : Files) : Prop where
  current_eq : shared.current = start.current
  unrestricted_eq : shared.unrestricted = start.unrestricted
  changed : ∀ tree ∈ trees, ∀ location, tree.get? location ≠ start.get? location →
    shared.get? location = tree.get? location
  unchanged : ∀ location, (∀ tree ∈ trees, tree.get? location = start.get? location) →
    shared.get? location = start.get? location

namespace Merges

variable {start shared other : Files} {trees : List Files}

theorem refl (hcurrent : shared.current = start.current)
    (hunrestricted : shared.unrestricted = start.unrestricted)
    (hget : ∀ location, shared.get? location = start.get? location)
    (htrees : ∀ tree ∈ trees, tree = start) : Merges start trees shared where
  current_eq := hcurrent
  unrestricted_eq := hunrestricted
  changed tree htree location hne := absurd (by rw [htrees tree htree]) hne
  unchanged location _ := hget location

/-- **The merged tree is determined.** -/
theorem get?_unique (h : Merges start trees shared) (hother : Merges start trees other)
    (location : Location) : other.get? location = shared.get? location := by
  by_cases hall : ∀ tree ∈ trees, tree.get? location = start.get? location
  · rw [h.unchanged location hall, hother.unchanged location hall]
  · push Not at hall
    obtain ⟨tree, htree, hne⟩ := hall
    rw [h.changed tree htree location hne, hother.changed tree htree location hne]

/-- What all parties have kept is kept. -/
theorem directory (h : Merges start trees shared)
    (hall : ∀ tree ∈ trees, ∃ written, start.Keeps written tree) {location : Location}
    (hdirectory : start.get? location = some .directory) :
    shared.get? location = some .directory := by
  rw [h.unchanged location, hdirectory]
  intro tree htree
  obtain ⟨written, hkeeps⟩ := hall tree htree
  rw [hkeeps.directory location hdirectory, hdirectory]

/-- What is merged comes from a party, or was there at the start. -/
theorem get?_cases (h : Merges start trees shared) (location : Location) :
    (∃ tree ∈ trees, tree.get? location ≠ start.get? location ∧
        shared.get? location = tree.get? location) ∨
      (∀ tree ∈ trees, tree.get? location = start.get? location) ∧
        shared.get? location = start.get? location := by
  by_cases hall : ∀ tree ∈ trees, tree.get? location = start.get? location
  · exact Or.inr ⟨hall, h.unchanged location hall⟩
  · push Not at hall
    obtain ⟨tree, htree, hne⟩ := hall
    exact Or.inl ⟨tree, htree, hne, h.changed tree htree location hne⟩

theorem isTree (h : Merges start trees shared) (htree : start.IsTree)
    (hall : ∀ tree ∈ trees, ∃ written, start.Keeps written tree) : shared.IsTree := by
  intro location node hnode
  rcases h.get?_cases location with ⟨tree, hmem, -, hget⟩ | ⟨-, hget⟩
  · obtain ⟨written, hkeeps⟩ := hall tree hmem
    rw [hget] at hnode
    have haround := hkeeps.isTree location node hnode
    by_cases hsame : tree.get? location.dropLast = start.get? location.dropLast
    · exact h.directory hall (hsame ▸ haround)
    · rw [h.changed tree hmem _ hsame, haround]
  · rw [hget] at hnode
    exact h.directory hall (htree location node hnode)

/-- **The merged tree beside what one party has left** spares what that party owns, if the others
do. -/
theorem spares (h : Merges start trees shared) (htree : start.IsTree) {alone : Files}
    {own others : List Location} (halone : alone ∈ trees) (hmine : Spares own others start alone)
    (hothers : ∀ tree ∈ trees, tree = alone ∨ Spares others own start tree) :
    Spares others own alone shared := by
  have hall : ∀ tree ∈ trees, ∃ written, start.Keeps written tree := by
    intro tree hmem
    rcases hothers tree hmem with rfl | hspares
    · exact ⟨own, hmine.keeps⟩
    · exact ⟨others, hspares.keeps⟩
  have hlinks : ∀ location, shared.linkIn? location = start.linkIn? location := by
    intro location
    rcases h.get?_cases location with ⟨tree, hmem, -, hget⟩ | ⟨-, hget⟩
    · obtain ⟨written, hkeeps⟩ := hall tree hmem
      rw [← hkeeps.link location, linkIn?, linkIn?, hget]
    · rw [linkIn?, linkIn?, hget]
  -- what has changed alone is the same in the merged tree; the rest is of the start or of others
  refine ⟨⟨?_, ?_, h.isTree htree hall, fun location hdirectory => ?_, fun location => ?_,
    fun location hnot => ?_⟩, fun location hmem => ?_⟩
  · rw [h.current_eq, hmine.keeps.current_eq]
  · rw [h.unrestricted_eq, hmine.keeps.unrestricted_eq]
  · by_cases hsame : alone.get? location = start.get? location
    · exact h.directory hall (hsame ▸ hdirectory)
    · rw [h.changed alone halone location hsame, hdirectory]
  · rw [hlinks, hmine.keeps.link]
  · by_cases hsame : alone.get? location = start.get? location
    · have hstart : alone.fileIn? location = start.fileIn? location := by
        rw [fileIn?, fileIn?, hsame]
      rcases h.get?_cases location with ⟨tree, hmem, hne, hget⟩ | ⟨-, hget⟩
      · rcases hothers tree hmem with rfl | hspares
        · exact absurd hsame hne
        · rw [hstart, ← hspares.keeps.file location hnot, fileIn?, fileIn?, hget]
      · rw [hstart, fileIn?, fileIn?, hget]
    · rw [fileIn?, fileIn?, h.changed alone halone location hsame]
  · rcases h.get?_cases location with ⟨tree, htree, hne, hget⟩ | ⟨hall, hget⟩
    · rcases hothers tree htree with rfl | hspares
      · exact hget
      · exact absurd (hspares.get?_eq location hmem) hne
    · rw [hget, hall alone halone]

/-- **One party goes on**, alone and in the merged tree alike, if it spares what the others own and
they spare what it owns. -/
theorem take {before after : List Files} {alone next reached : Files} {own others : List Location}
    (h : Merges start (before ++ alone :: after) shared)
    (halike : Alike own alone next shared reached)
    (hcurrent : reached.current = shared.current)
    (hunrestricted : reached.unrestricted = shared.unrestricted)
    (hnext : Spares own others start next)
    (hothers : ∀ tree ∈ before ++ after, Spares others own start tree) :
    Merges start (before ++ next :: after) reached := by
  have hsplit : ∀ {tree middle : Files}, tree ∈ before ++ middle :: after ↔
      tree = middle ∨ tree ∈ before ++ after :=
    List.perm_middle.mem_iff.trans List.mem_cons
  -- what a tree has changed is merged, whichever party it is, and the rest is as in the beginning
  refine ⟨hcurrent.trans h.current_eq, hunrestricted.trans h.unrestricted_eq,
    fun tree htree location hne => ?_, fun location hall => ?_⟩
  · rcases hsplit.mp htree with rfl | htree
    · rcases halike location with ⟨halone, hshared⟩ | ⟨-, hget⟩ | ⟨hmade, hreached⟩
      · rw [halone] at hne ⊢
        rw [hshared]
        exact h.changed alone (hsplit.mpr (Or.inl rfl)) location hne
      · exact hget
      · rw [hmade, hreached]
    · have hbefore := h.changed tree (hsplit.mpr (Or.inr htree)) location hne
      have hspares := hothers tree htree
      rcases halike location with ⟨-, hshared⟩ | ⟨hmem, -⟩ | ⟨hmade, hreached⟩
      · rw [hshared, hbefore]
      · exact absurd (hspares.get?_eq location hmem) hne
      · -- both parties have come to make a directory there
        rw [hreached]
        by_cases hmem : location ∈ others
        · have hstart := (hnext.get?_eq location hmem).symm.trans hmade
          rw [hspares.keeps.directory location hstart]
        · rcases hspares.keeps.get?_cases hmem with hsame | ⟨-, hdirectory⟩
          · exact absurd hsame hne
          · rw [hdirectory]
  · have hkept : ∀ tree ∈ before ++ after, tree.get? location = start.get? location :=
      fun tree htree => hall tree (hsplit.mpr (Or.inr htree))
    have hsame := hall next (hsplit.mpr (Or.inl rfl))
    rcases halike location with ⟨halone, hshared⟩ | ⟨-, hget⟩ | ⟨hmade, hreached⟩
    · rw [hshared]
      refine h.unchanged location fun tree htree => ?_
      rcases hsplit.mp htree with rfl | htree
      · rw [← halone, hsame]
      · exact hkept tree htree
    · rw [hget, hsame]
    · rw [hreached, ← hmade, hsame]

end Merges

end KernelCatalog.Files
