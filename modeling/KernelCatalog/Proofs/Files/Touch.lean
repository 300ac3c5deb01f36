import KernelCatalog.Proofs.Files.Keep
import KernelCatalog.Proofs.Files.Steps
import Mathlib.Data.List.Infix

/-!
# Where operations on files leave something

A path comes by places: those that its first steps lead to. Making the directory around a path and
writing to it leave something at these places only. Where a file is copied over another one, there
is the copy.

* `Files.touches_makeParent`, `Files.touches_writeContent`, `Files.touches_copy`: where something is
  left.
* `Files.copy_of_writable`: what a copy leaves.
-/

namespace KernelCatalog.Files

/-! ## Places on a path -/

/-- The place that steps lead to. -/
def leads? (files : Files) (location : Location) (steps : List String) : Option Location :=
  (files.wayFrom location steps).map Way.last

/-- The places that a path comes by, step by step. -/
def met (files : Files) (path : Path) : List Location :=
  (steps path.text).inits.filterMap (files.leads? (files.start path.text))

theorem mem_met_iff {files : Files} {path : Path} {location : Location} :
    location ∈ files.met path ↔ ∃ front, front <+: steps path.text ∧
      files.leads? (files.start path.text) front = some location := by
  rw [met, List.mem_filterMap]
  simp only [List.mem_inits]

/-- Steps that can be followed lead where they are followed to. -/
theorem leads?_of_walk {files : Files} {start location : Location} {steps : List String}
    (h : files.walk start steps = .ok location) : files.leads? start steps = some location := by
  obtain ⟨way, hway, -, rfl⟩ := walk_eq_ok_iff.mp h
  rw [leads?, hway, Option.map_some]

/-- The path around another one comes by the same places. -/
theorem met_subset_of_isAround {files : Files} {parent path : Path} (h : parent.IsAround path) :
    files.met parent ⊆ files.met path := by
  intro location hmem
  obtain ⟨front, hfront, hleads⟩ := mem_met_iff.mp hmem
  rw [start_of_isAround h] at hleads
  rw [steps_of_isAround h] at hfront
  exact mem_met_iff.mpr ⟨front, hfront.trans (List.dropLast_prefix _), hleads⟩

theorem SameLinks.leads?_eq {before after : Files} (h : SameLinks before after)
    (location : Location) : after.leads? location = before.leads? location := by
  funext steps
  rw [leads?, leads?, h.wayFrom_eq]

/-- Where the links stay, a path comes by the same places. -/
theorem Keeps.met_eq {written : List Location} {before after : Files}
    (h : Keeps written before after) (path : Path) : after.met path = before.met path := by
  rw [met, met, h.start_eq, h.sameLinks.leads?_eq]

/-- Going on by one more step. -/
theorem walk_concat {files : Files} {start directory found location : Location}
    {front : List String} {last : String} (hreach : files.reach start front = .ok directory)
    (hstep : files.step directory last = .ok found) (hfollow : files.follow found = .ok location) :
    files.walk start (front ++ [last]) = .ok location := by
  have hwalk := (reach_eq_ok_iff.mp hreach).1
  unfold walk at hwalk ⊢
  rw [walkBy_append, hwalk]
  simp [walkBy, bind, Except.bind, hstep, hfollow]

/-! ## Changes at places -/

/-- A change of the tree that leaves everything as it is but at some places, and takes nothing
away. -/
structure Touches (places : List Location) (before after : Files) : Prop where
  removed_eq : after.removed = before.removed
  get?_eq : ∀ location, location ∉ places → after.get? location = before.get? location

namespace Touches

variable {places more : List Location} {before between after : Files}

theorem refl : Touches places before before := ⟨rfl, fun _ _ => rfl⟩

theorem trans (hfirst : Touches places before between) (hsecond : Touches places between after) :
    Touches places before after where
  removed_eq := hsecond.removed_eq.trans hfirst.removed_eq
  get?_eq location hnot := (hsecond.get?_eq location hnot).trans (hfirst.get?_eq location hnot)

theorem mono (h : Touches places before after) (hsubset : places ⊆ more) :
    Touches more before after where
  removed_eq := h.removed_eq
  get?_eq location hnot := h.get?_eq location fun hmem => hnot (hsubset hmem)

end Touches

section Operations

variable {files : Files} {path : Path}

theorem touches_put {places : List Location} {location : Location} (hne : location ≠ [])
    (hmem : location ∈ places) (node : Node) : Touches places files (files.put location node) where
  removed_eq := rfl
  get?_eq other hother := by
    have hne' : other ≠ location := fun heq => hother (heq ▸ hmem)
    rw [files.get?_put hne, if_neg hne']

theorem touches_makeDirectory (htrimmed : path.Trimmed) {after : Files}
    (h : files.makeDirectory path = .ok after) : Touches (files.met path) files after := by
  obtain ⟨front, last, directory, found, hends, -, hreach, hstep, hnone, rfl⟩ :=
    of_makeDirectory_of_trimmed htrimmed h
  have hne : found ≠ [] := by
    rintro rfl
    exact absurd hnone (by simp [get?])
  have hfollow : files.follow found = .ok found :=
    follow_of_linkIn?_eq_none (by simp [linkIn?, hnone])
  refine touches_put hne (mem_met_iff.mpr ⟨steps path.text, List.prefix_rfl, ?_⟩) .directory
  rw [hends.steps_eq, List.dropLast_concat] at hreach
  rw [hends.steps_eq]
  exact leads?_of_walk (walk_concat hreach hstep hfollow)

theorem touches_ensureDirectory (htrimmed : path.Trimmed) {after : Files}
    (h : files.ensureDirectory path = .ok after) : Touches (files.met path) files after := by
  unfold ensureDirectory at h
  split at h
  · next hmake =>
    obtain rfl := Except.ok.inj h
    exact touches_makeDirectory htrimmed hmake
  · split at h
    · obtain rfl := Except.ok.inj h
      exact .refl
    · exact absurd h (by simp)

theorem touches_ensureTree (fuel : Nat) {files : Files} {path : Path} (htree : files.IsTree)
    (htrimmed : path.Trimmed) : Touches (files.met path) files (ensureTree fuel files path).2 := by
  induction fuel generalizing files path with
  | zero => exact .refl
  | succ fuel ih =>
    rw [ensureTree]
    split
    · exact .refl
    · split
      · next hensure => exact touches_ensureDirectory htrimmed hensure
      · split
        · exact .refl
        · next parent hparent =>
          have haround := Path.isAround_of_parent? hparent
          have htouched := (ih htree haround.trimmed).mono (met_subset_of_isAround haround)
          have hkept := keeps_ensureTree fuel parent htree
          split
          · next hresult => rwa [hresult] at htouched
          · next made hresult =>
            rw [hresult] at htouched hkept
            split
            · next hensure =>
              have hlast := touches_ensureDirectory htrimmed hensure
              rw [hkept.met_eq] at hlast
              exact htouched.trans hlast
            · exact htouched
      · exact .refl

/-- **Making the directory around a path** touches places that the path comes by. -/
theorem touches_makeParent (htree : files.IsTree) :
    Touches (files.met path) files (files.makeParent path).2 := by
  unfold makeParent
  split
  · exact .refl
  · next parent hparent =>
    obtain ⟨hparent, -⟩ := Option.filter_eq_some_iff.mp hparent
    have haround := Path.isAround_of_parent? hparent
    have htouched : Touches (files.met path) files (files.makeDirectories parent).2 :=
      (touches_ensureTree _ htree haround.trimmed).mono (met_subset_of_isAround haround)
    split
    · next hresult => rwa [hresult] at htouched
    · next hresult => rwa [hresult] at htouched

theorem mem_met_of_writable {location : Location} {found : Option Permissions}
    (h : files.writable path = .ok (location, found)) : location ∈ files.met path := by
  obtain ⟨directory, last, place, haround, hdots, hstep, hfollow, -⟩ := exists_of_writable_eq_ok h
  obtain ⟨-, front, hending, -⟩ := of_around_eq_ok haround
  have hends : EndsIn path.text front last := by
    refine ⟨segments_of_ending hending, ?_⟩
    unfold isDots at hdots
    unfold isStep
    grind
  rw [around_of_endsIn hends] at haround
  obtain ⟨_, -, haround⟩ := of_bind_eq_ok haround
  obtain ⟨around, hreach, haround⟩ := of_bind_eq_ok haround
  obtain ⟨rfl, -⟩ := Prod.mk.inj (Except.ok.inj haround)
  refine mem_met_iff.mpr ⟨steps path.text, List.prefix_rfl, ?_⟩
  rw [hends.steps_eq, List.dropLast_concat] at hreach
  rw [hends.steps_eq]
  exact leads?_of_walk (walk_concat hreach hstep hfollow)

/-- **Writing a file** touches a place that its path comes by. -/
theorem touches_writeContent {after : Files} {content : Content} (htree : files.IsTree)
    (h : files.writeContent path content = .ok after) : Touches (files.met path) files after := by
  obtain ⟨⟨location, permissions⟩, hwritable, h⟩ := of_bind_eq_ok h
  obtain rfl := Except.ok.inj h
  obtain ⟨-, hspot⟩ := of_writable_eq_ok htree hwritable
  exact touches_put hspot.ne_nil (mem_met_of_writable hwritable) _

/-- **Copying a file** touches a place that the path of the copy comes by. -/
theorem touches_copy (source : Path) (htree : files.IsTree) :
    Touches (files.met path) files (files.copy source path).2 := by
  unfold copy
  split
  · exact .refl
  · exact .refl
  · exact .refl
  · next permissions _ =>
    split
    · exact .refl
    · next location _ hwritable =>
      obtain ⟨-, hspot⟩ := of_writable_eq_ok htree hwritable
      have hmem := mem_met_of_writable hwritable
      have hemptied : Touches (files.met path) files
          (files.put location (.file (.plain []) permissions)) := touches_put hspot.ne_nil hmem _
      dsimp only
      split
      · exact hemptied
      · exact hemptied.trans (touches_put hspot.ne_nil hmem _)

/-! ## Copies -/

theorem readContent_eq_ok_iff {content : Content} :
    files.readContent path = .ok content ↔
      ∃ permissions, files.fileAt? path = some (content, permissions) := by
  simp only [fileAt?_eq_some_iff_stat]
  unfold readContent
  cases hstat : files.stat path with
  | error e => simp [bind, Except.bind]
  | ok node => cases node <;> simp [bind, Except.bind]

/-- A file is copied to another place by emptying what is there and filling it. -/
theorem copy_eq_of_writable {source target : Path} {content : Content} {permissions : Permissions}
    {location : Location} {flag : Option Permissions} (htree : files.IsTree)
    (hsource : files.fileAt? source = some (content, permissions))
    (hwritable : files.writable target = .ok (location, flag))
    (hne : files.locate source ≠ .ok location) :
    files.copy source target = (.ok (), (files.put location
      (.file (.plain []) permissions)).put location (.file content permissions)) := by
  obtain ⟨-, hspot⟩ := of_writable_eq_ok htree hwritable
  have hemptied := keeps_put htree hspot (.file (.plain []) permissions) (by simp)
  have hread : (files.put location (.file (.plain []) permissions)).readContent source =
      .ok content := by
    refine readContent_eq_ok_iff.mpr ⟨permissions, hemptied.fileAt?_of_some ?_ hsource⟩
    rintro place hplace hmem
    obtain rfl := List.mem_singleton.mp hmem
    exact hne hplace
  rw [copy, fileAt?_eq_some_iff_stat.mp hsource]
  simp only [hwritable, hread]

/-- **A file that is copied to another place** is there with its permissions. -/
theorem copy_of_writable {source target : Path} {content : Content} {permissions : Permissions}
    {location : Location} {flag : Option Permissions} (htree : files.IsTree)
    (hsource : files.fileAt? source = some (content, permissions))
    (hwritable : files.writable target = .ok (location, flag))
    (hne : files.locate source ≠ .ok location) :
    (files.copy source target).1 = .ok () ∧
      (files.copy source target).2.fileAt? target = some (content, permissions) := by
  obtain ⟨hlocate, hspot⟩ := of_writable_eq_ok htree hwritable
  have hemptied := keeps_put htree hspot (.file (.plain []) permissions) (by simp)
  have hagain := hspot.put_file htree (.plain []) permissions
  have hfilled := keeps_put hemptied.isTree hagain (.file content permissions) (by simp)
  rw [copy_eq_of_writable htree hsource hwritable hne]
  refine ⟨rfl, fileAt?_eq_some_iff.mpr ⟨location, (hemptied.trans hfilled).locate hlocate, ?_⟩⟩
  exact fileIn?_eq_some_iff.mpr (hagain.get?_put_self _)

/-- A copy that succeeds was made of a file, to a place that can be written. -/
theorem of_copy_eq_ok {source target : Path} {after : Files}
    (h : files.copy source target = (.ok (), after)) :
    (∃ file, files.fileAt? source = some file) ∧
      ∃ location flag, files.writable target = .ok (location, flag) := by
  unfold copy at h
  split at h
  · exact absurd (Prod.mk.inj h).1 (by simp)
  · exact absurd (Prod.mk.inj h).1 (by simp)
  · exact absurd (Prod.mk.inj h).1 (by simp)
  · next content permissions hstat =>
    refine ⟨⟨_, fileAt?_eq_some_iff_stat.mpr hstat⟩, ?_⟩
    split at h
    · exact absurd (Prod.mk.inj h).1 (by simp)
    · next location flag hwritable => exact ⟨location, flag, hwritable⟩

end Operations

end KernelCatalog.Files
