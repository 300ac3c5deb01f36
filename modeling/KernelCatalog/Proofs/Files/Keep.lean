import KernelCatalog.Proofs.Files.Way

/-!
# What operations on files keep

An operation that writes one file leaves all others alone. `Files.Keeps written before after` says
this of a change of the tree that concerns the places `written` only: other files are the same, no
directory is lost, and the links are the same, so that every path has the way that it had.
Directories may be made anywhere, so a path can come to lead somewhere where it led nowhere before;
a plain path cannot.

* `Keeps.way?_eq`: a path has the way that it had.
* `Keeps.fileAt?_of_some`: a file is kept.
* `Keeps.fileAt?_eq`: a file at a plain path is kept, and a missing one stays missing.
* `keeps_makeParent`, `keeps_writeContent`, `keeps_remove`, `keeps_copy`: what the operations keep.
-/

namespace KernelCatalog.Files

/-! ## Trees with the same links -/

/-- Trees in which paths take the same ways: they have the same links, and relative paths start from
the same place. -/
structure SameLinks (before after : Files) : Prop where
  current_eq : after.current = before.current
  link : ∀ location, after.linkIn? location = before.linkIn? location

namespace SameLinks

variable {before after : Files}

theorem start_eq (h : SameLinks before after) (text : String) :
    after.start text = before.start text := by
  rw [start, start, h.current_eq]

theorem wayWithin_eq (h : SameLinks before after) (limit : Nat) :
    after.wayWithin limit = before.wayWithin limit := by
  induction limit with
  | zero =>
    funext location
    unfold wayWithin
    rw [h.link]
    cases before.linkIn? location <;> rfl
  | succ limit ih =>
    funext location
    unfold wayWithin
    rw [h.link]
    cases before.linkIn? location with
    | none => rfl
    | some path => simp only [ih]

theorem wayFrom_eq (h : SameLinks before after) (location : Location) (segments : List String) :
    after.wayFrom location segments = before.wayFrom location segments := by
  rw [wayFrom, wayFrom, h.wayWithin_eq]

/-- **A path has the way that it had.** -/
theorem way?_eq (h : SameLinks before after) (path : Path) :
    after.way? path = before.way? path := by
  unfold way?
  rw [h.start_eq, h.wayFrom_eq]

theorem endsInLink_eq (h : SameLinks before after) (path : Path) :
    after.endsInLink path = before.endsInLink path := by
  unfold endsInLink
  simp only [h.start_eq, h.wayFrom_eq, funext h.link]

end SameLinks

/-! ## Trees in which files are kept -/

/-- A change of the tree that concerns the files at some places only. -/
structure Keeps (written : List Location) (before after : Files) : Prop where
  current_eq : after.current = before.current
  unrestricted_eq : after.unrestricted = before.unrestricted
  isTree : after.IsTree
  directory : ∀ location, before.get? location = some .directory →
    after.get? location = some .directory
  link : ∀ location, after.linkIn? location = before.linkIn? location
  file : ∀ location, location ∉ written → after.fileIn? location = before.fileIn? location

/-- A path that leads out of no missing directory: where its way goes on from a directory that is
not around its place, that directory is there. -/
def Plain (files : Files) (path : Path) : Prop :=
  ∀ way ∈ files.way? path, ∀ location ∈ way.passed,
    location <+: way.last ∨ files.get? location = some .directory

instance (files : Files) (path : Path) : Decidable (files.Plain path) :=
  inferInstanceAs (Decidable (∀ way ∈ files.way? path, _))

namespace Keeps

variable {written : List Location} {before between after : Files} {path : Path}

theorem refl (htree : before.IsTree) : Keeps written before before :=
  ⟨rfl, rfl, htree, fun _ h => h, fun _ => rfl, fun _ _ => rfl⟩

theorem trans (hfirst : Keeps written before between) (hsecond : Keeps written between after) :
    Keeps written before after where
  current_eq := hsecond.current_eq.trans hfirst.current_eq
  unrestricted_eq := hsecond.unrestricted_eq.trans hfirst.unrestricted_eq
  isTree := hsecond.isTree
  directory location h := hsecond.directory location (hfirst.directory location h)
  link location := (hsecond.link location).trans (hfirst.link location)
  file location h := (hsecond.file location h).trans (hfirst.file location h)

theorem mono {more : List Location} (h : Keeps written before after) (hsubset : written ⊆ more) :
    Keeps more before after :=
  { h with file := fun location hnot => h.file location fun hmem => hnot (hsubset hmem) }

theorem of_nil (h : Keeps [] before after) : Keeps written before after :=
  h.mono (List.nil_subset written)

/-- Only what is at each place counts. -/
theorem congr {other : Files} (h : Keeps written before after)
    (hcurrent : other.current = after.current)
    (hunrestricted : other.unrestricted = after.unrestricted)
    (hget : ∀ location, other.get? location = after.get? location) :
    Keeps written before other where
  current_eq := hcurrent.trans h.current_eq
  unrestricted_eq := hunrestricted.trans h.unrestricted_eq
  isTree location node hnode := by
    rw [hget] at hnode ⊢
    exact h.isTree location node hnode
  directory location hdirectory := (hget location).trans (h.directory location hdirectory)
  link location := by
    rw [linkIn?, hget]
    exact h.link location
  file location hnot := by
    rw [fileIn?, hget]
    exact h.file location hnot

theorem allows_eq (h : Keeps written before after) (permissions : Permissions) :
    after.allows permissions = before.allows permissions := by
  rw [allows, allows, h.unrestricted_eq]

/-! ## Paths -/

theorem sameLinks (h : Keeps written before after) : SameLinks before after :=
  ⟨h.current_eq, h.link⟩

theorem start_eq (h : Keeps written before after) (text : String) :
    after.start text = before.start text :=
  h.sameLinks.start_eq text

theorem wayWithin_eq (h : Keeps written before after) (limit : Nat) :
    after.wayWithin limit = before.wayWithin limit :=
  h.sameLinks.wayWithin_eq limit

/-- **A path has the way that it had.** -/
theorem way?_eq (h : Keeps written before after) (path : Path) :
    after.way? path = before.way? path :=
  h.sameLinks.way?_eq path

theorem place?_eq (h : Keeps written before after) (path : Path) :
    after.place? path = before.place? path := by
  rw [place?, place?, h.way?_eq]

theorem places_eq (h : Keeps written before after) (paths : List Path) :
    after.places paths = before.places paths := by
  rw [places, places, funext h.place?_eq]

theorem endsInLink_eq (h : Keeps written before after) (path : Path) :
    after.endsInLink path = before.endsInLink path :=
  h.sameLinks.endsInLink_eq path

theorem plain (h : Keeps written before after) (hplain : before.Plain path) :
    after.Plain path := by
  intro way hway location hmem
  rw [h.way?_eq] at hway
  exact (hplain way hway location hmem).imp_right (h.directory location)

theorem locate (h : Keeps written before after) {location : Location}
    (hlocate : before.locate path = .ok location) : after.locate path = .ok location := by
  obtain ⟨way, hway, hpassable, rfl⟩ := locate_eq_ok_iff.mp hlocate
  refine locate_eq_ok_iff.mpr ⟨way, (h.way?_eq path).trans hway, fun location hmem => ?_, rfl⟩
  exact h.directory location (hpassable location hmem)

theorem follow (h : Keeps written before after) {location next : Location}
    (hfollow : before.follow location = .ok next) : after.follow location = .ok next := by
  obtain ⟨way, hway, hpassable, rfl⟩ := followWithin_eq_ok_iff.mp hfollow
  refine followWithin_eq_ok_iff.mpr ⟨way, ?_, fun location hmem => ?_, rfl⟩
  · rw [h.wayWithin_eq, hway]
  · exact h.directory location (hpassable location hmem)

theorem step (h : Keeps written before after) {location next : Location} {segment : String}
    (hstep : before.step location segment = .ok next) : after.step location segment = .ok next := by
  obtain ⟨hdirectory, hadvance⟩ := step_eq_ok_iff.mp hstep
  exact step_eq_ok_iff.mpr ⟨h.directory location hdirectory, hadvance⟩

/-- **A file is kept** if the place that its path leads to is not written. -/
theorem fileAt?_of_some (h : Keeps written before after)
    (hplace : ∀ location, before.locate path = .ok location → location ∉ written)
    {file : Content × Permissions} (hfile : before.fileAt? path = some file) :
    after.fileAt? path = some file := by
  obtain ⟨location, hlocate, hin⟩ := fileAt?_eq_some_iff.mp hfile
  refine fileAt?_eq_some_iff.mpr ⟨location, h.locate hlocate, ?_⟩
  rw [h.file location (hplace location hlocate), hin]

/-- A file that is found after a change could be written before, if its place is not written and
holds no file that could not. -/
theorem allows_of_fileAt? (h : Keeps written before after)
    (hplace : ∀ location ∈ before.place? path,
      location ∉ written ∧ before.isProtected location = false)
    {file : Content × Permissions} (hfile : after.fileAt? path = some file) :
    before.allows file.2 = true := by
  obtain ⟨location, hlocate, hin⟩ := fileAt?_eq_some_iff.mp hfile
  obtain ⟨hnot, hfree⟩ := hplace location ((h.place?_eq path).symm.trans (place?_of_locate hlocate))
  rw [h.file location hnot, fileIn?_eq_some_iff] at hin
  simpa [isProtected, hin] using hfree

/-- **A file at a plain path is kept** if its place is not written, and a missing one stays
missing. -/
theorem fileAt?_eq (h : Keeps written before after) (htree : before.IsTree)
    (hplain : before.Plain path)
    (hplace : ∀ location, before.place? path = some location → location ∉ written) :
    after.fileAt? path = before.fileAt? path := by
  refine Option.ext fun file => ⟨fun hfile => ?_, h.fileAt?_of_some fun location hlocate =>
    hplace location (place?_of_locate hlocate)⟩
  obtain ⟨location, hlocate, hin⟩ := fileAt?_eq_some_iff.mp hfile
  have hnot := hplace location ((h.place?_eq path).symm.trans (place?_of_locate hlocate))
  obtain ⟨way, hway, hpassable, rfl⟩ := locate_eq_ok_iff.mp hlocate
  rw [h.way?_eq] at hway
  have hbefore := (h.file way.last hnot).symm.trans hin
  refine fileAt?_eq_some_iff.mpr ⟨way.last, locate_eq_ok_iff.mpr ⟨way, hway, ?_, rfl⟩, hbefore⟩
  -- what the way goes on from now was there before: around the file, or by plainness
  intro location hmem
  rcases hplain way hway location hmem with hbelow | hdirectory
  · obtain ⟨content, permissions⟩ := file
    -- the path does not go on from the file itself
    have hne : location ≠ way.last := by
      rintro rfl
      have hnot := fileIn?_eq_some_iff.mp hin
      rw [hpassable _ hmem] at hnot
      exact absurd hnot (by simp)
    exact htree.directory_of_prefix (fileIn?_eq_some_iff.mp hbefore) hbelow hne
  · exact hdirectory

end Keeps

/-! ## Nodes that come and go -/

section Nodes

variable {files : Files} {location : Location}

theorem IsTree.put (htree : files.IsTree) (hspot : files.Spot location) (node : Node) :
    (files.put location node).IsTree := by
  intro other found hfound
  have hput := files.get?_put hspot.ne_nil node
  rw [hput] at hfound ⊢
  by_cases hother : other = location
  · have hne : other.dropLast ≠ location := by
      rintro heq
      have hlength := congrArg List.length (heq.trans hother.symm)
      have hpositive := List.length_pos_iff.mpr hspot.ne_nil
      rw [List.length_dropLast, hother] at hlength
      omega
    rw [if_neg hne, hother]
    exact hspot.inDirectory
  · rw [if_neg hother] at hfound
    have hdirectory := htree other found hfound
    -- nothing was below the place, since it was no directory
    have hne : other.dropLast ≠ location := by
      rintro rfl
      exact hspot.not_directory hdirectory
    rw [if_neg hne, hdirectory]

theorem IsTree.erase (htree : files.IsTree) (hne : location ≠ []) :
    (files.erase location).IsTree := by
  intro other found hfound
  rw [files.get?_erase hne] at hfound ⊢
  split at hfound
  · exact absurd hfound (by simp)
  · next hnot =>
    have hdirectory := htree other found hfound
    rw [if_neg ?_, hdirectory]
    intro hbelow
    refine hnot (List.isPrefixOf_iff_prefix.mpr ?_)
    exact (List.isPrefixOf_iff_prefix.mp hbelow).trans (List.dropLast_prefix other)

theorem Spot.get?_put_self (hspot : files.Spot location) (node : Node) :
    (files.put location node).get? location = some node := by
  rw [files.get?_put hspot.ne_nil, if_pos rfl]

/-- A node other than a link that is put in a directory concerns its place only. -/
theorem keeps_put (htree : files.IsTree) (hspot : files.Spot location) (node : Node)
    (hnode : ∀ path, node ≠ .link path) : Keeps [location] files (files.put location node) where
  current_eq := rfl
  unrestricted_eq := rfl
  isTree := htree.put hspot node
  directory other hother := by
    have hne : other ≠ location := by
      rintro rfl
      exact hspot.not_directory hother
    rw [files.get?_put hspot.ne_nil, if_neg hne, hother]
  link other := by
    by_cases heq : other = location
    · rw [heq, hspot.not_link, linkIn?, hspot.get?_put_self]
      cases node with
      | link path => exact absurd rfl (hnode path)
      | _ => rfl
    · rw [linkIn?, linkIn?, files.get?_put hspot.ne_nil, if_neg heq]
  file other hother := by
    rw [fileIn?, fileIn?, files.get?_put hspot.ne_nil, if_neg (by simpa using hother)]

/-- A file can be written over. -/
theorem IsTree.spot_of_file (htree : files.IsTree) {content : Content} {permissions : Permissions}
    (h : files.get? location = some (.file content permissions)) : files.Spot location :=
  ⟨htree _ _ h, by simp [h], by simp [linkIn?, h]⟩

/-- Where a file was put, it can be written over. -/
theorem Spot.put_file (hspot : files.Spot location) (htree : files.IsTree) (content : Content)
    (permissions : Permissions) : (files.put location (.file content permissions)).Spot location :=
  (htree.put hspot _).spot_of_file (hspot.get?_put_self _)

theorem IsTree.get?_erase_of_ne (htree : files.IsTree)
    (hnot : files.get? location ≠ some .directory) {other : Location} (hother : other ≠ location) :
    (files.erase location).get? other = files.get? other := by
  have hne : location ≠ [] := by
    rintro rfl
    exact hnot rfl
  rw [files.get?_erase hne]
  split
  · next hbelow =>
    -- there is nothing below the place
    rw [List.isPrefixOf_iff_prefix] at hbelow
    cases hnode : files.get? other with
    | none => rfl
    | some node => exact absurd (htree.directory_of_prefix hnode hbelow hother.symm) hnot
  · rfl

theorem keeps_erase (htree : files.IsTree) (hspot : files.Spot location) :
    Keeps [location] files (files.erase location) := by
  have hget : ∀ other, other ≠ location →
      (files.erase location).get? other = files.get? other :=
    fun _ hother => htree.get?_erase_of_ne hspot.not_directory hother
  refine ⟨rfl, rfl, htree.erase hspot.ne_nil, fun other hother => ?_, fun other => ?_,
    fun other hother => ?_⟩
  · rw [hget other ?_, hother]
    rintro rfl
    exact hspot.not_directory hother
  · by_cases heq : other = location
    · rw [heq, hspot.not_link, linkIn?, files.get?_erase hspot.ne_nil, if_pos (by simp)]
    · rw [linkIn?, linkIn?, hget other heq]
  · rw [fileIn?, fileIn?, hget other (by simpa using hother)]

end Nodes

/-! ## Operations -/

theorem keeps_put_directory {files : Files} {location : Location} (htree : files.IsTree)
    (hspot : files.Spot location) (hnone : files.get? location = none) :
    Keeps [] files (files.put location .directory) := by
  have hput := keeps_put htree hspot .directory (by simp)
  refine { hput with file := fun other _ => ?_ }
  by_cases heq : other = location
  · rw [heq, fileIn?, fileIn?, hspot.get?_put_self, hnone]
  · exact hput.file other (by simpa using heq)

theorem keeps_makeDirectory {files after : Files} {path : Path} (htree : files.IsTree)
    (h : files.makeDirectory path = .ok after) : Keeps [] files after := by
  obtain ⟨location, rfl, hnone, hspot⟩ := of_makeDirectory_eq_ok htree h
  exact keeps_put_directory htree hspot hnone

theorem keeps_ensureDirectory {files after : Files} {path : Path} (htree : files.IsTree)
    (h : files.ensureDirectory path = .ok after) : Keeps [] files after := by
  unfold ensureDirectory at h
  split at h
  · next hmake =>
    obtain rfl := Except.ok.inj h
    exact keeps_makeDirectory htree hmake
  · split at h
    · obtain rfl := Except.ok.inj h
      exact .refl htree
    · exact absurd h (by simp)

theorem keeps_ensureTree (fuel : Nat) {files : Files} (path : Path) (htree : files.IsTree) :
    Keeps [] files (ensureTree fuel files path).2 := by
  induction fuel generalizing files path with
  | zero => exact .refl htree
  | succ fuel ih =>
    rw [ensureTree]
    split
    · exact .refl htree
    · split
      · next hensure => exact keeps_ensureDirectory htree hensure
      · split
        · exact .refl htree
        · next parent _ =>
          have hparent := ih parent htree
          split
          · next hresult => rwa [hresult] at hparent
          · next around hresult =>
            rw [hresult] at hparent
            split
            · next hensure => exact hparent.trans (keeps_ensureDirectory hparent.isTree hensure)
            · exact hparent
      · exact .refl htree

/-- **Making the directory around a path** concerns no file, also where it fails. -/
theorem keeps_makeParent {files : Files} (path : Path) (htree : files.IsTree) :
    Keeps [] files (files.makeParent path).2 := by
  unfold makeParent
  split
  · exact .refl htree
  · next parent _ =>
    have hparent : Keeps [] files (files.makeDirectories parent).2 :=
      keeps_ensureTree _ parent htree
    split
    · next hresult => rwa [hresult] at hparent
    · next hresult => rwa [hresult] at hparent

section Operations

variable {files : Files} {path : Path}

/-- A path that can be followed has the place that it leads to. -/
theorem singleton_subset_places {location : Location} (h : files.locate path = .ok location) :
    [location] ⊆ files.places [path] := by
  simp [places, place?_of_locate h]

/-- **Writing a file** concerns the place of its path only, and the path leads to what was
written. -/
theorem keeps_writeContent {after : Files} {content : Content} (htree : files.IsTree)
    (h : files.writeContent path content = .ok after) :
    Keeps (files.places [path]) files after ∧
      ∃ permissions, after.fileAt? path = some (content, permissions) := by
  obtain ⟨⟨location, permissions⟩, hwritable, h⟩ := of_bind_eq_ok h
  obtain rfl := Except.ok.inj h
  obtain ⟨hlocate, hspot⟩ := of_writable_eq_ok htree hwritable
  have hput := keeps_put htree hspot (.file content (permissions.getD .plain)) (by simp)
  refine ⟨hput.mono (singleton_subset_places hlocate), permissions.getD .plain, ?_⟩
  refine fileAt?_eq_some_iff.mpr ⟨location, hput.locate hlocate, ?_⟩
  exact fileIn?_eq_some_iff.mpr (hspot.get?_put_self _)

/-- **Removing a file** concerns the place of its path only, if that does not end in a link. -/
theorem keeps_remove {after : Files} (htree : files.IsTree)
    (hends : files.endsInLink path = false) (h : files.remove path = .ok after) :
    Keeps (files.places [path]) files after := by
  obtain ⟨location, rfl, hlocate, hspot⟩ := of_remove_eq_ok htree hends h
  exact (keeps_erase htree hspot).mono (singleton_subset_places hlocate)

/-- **Copying a file** concerns the place that it is copied to only, also where it fails halfway. -/
theorem keeps_copy (source target : Path) (htree : files.IsTree) :
    Keeps (files.places [target]) files (files.copy source target).2 := by
  unfold copy
  split
  · exact .refl htree
  · exact .refl htree
  · exact .refl htree
  · next permissions _ =>
    split
    · exact .refl htree
    · next location _ hwritable =>
      obtain ⟨hlocate, hspot⟩ := of_writable_eq_ok htree hwritable
      have hsubset := singleton_subset_places hlocate
      have hemptied := keeps_put htree hspot (.file (.plain []) permissions) (by simp)
      dsimp only
      split
      · exact hemptied.mono hsubset
      · next content _ =>
        have hagain := hspot.put_file htree (.plain []) permissions
        have hfilled := keeps_put hemptied.isTree hagain (.file content permissions) (by simp)
        exact (hemptied.trans hfilled).mono hsubset

end Operations

end KernelCatalog.Files
