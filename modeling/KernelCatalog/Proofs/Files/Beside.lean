import KernelCatalog.Proofs.Files.Descend

/-!
# Operations beside others

Two trees stand for one tree at two times: with the changes of one party alone, and with those of
others as well, who write elsewhere and make directories. An operation of the one party then has
the same result in both trees, and where it changes something, it leaves the same in both.

* `Keeps.descend_alike`: going down a path beside others.
* `Keeps.makeParent_alike`, `Keeps.copy_alike`, `Keeps.writeContent_alike`: the operations.
* `Keeps.fileAt?_eq_of_firm`: the file at a firm path.
-/

namespace KernelCatalog.Files

/-- Changes of two trees that leave the same where they change something: anything at own places,
and directories elsewhere. -/
def Alike (own : List Location) (alone next shared after : Files) : Prop :=
  ∀ location,
    next.get? location = alone.get? location ∧ after.get? location = shared.get? location ∨
    location ∈ own ∧ after.get? location = next.get? location ∨
    next.get? location = some .directory ∧ after.get? location = some .directory

theorem Alike.refl {own : List Location} {alone shared : Files} :
    Alike own alone alone shared shared :=
  fun _ => Or.inl ⟨rfl, rfl⟩

theorem Alike.mono {own more : List Location} {alone next shared after : Files}
    (h : Alike own alone next shared after) (hsubset : own ⊆ more) :
    Alike more alone next shared after := by
  intro location
  rcases h location with hsame | ⟨hmem, hown⟩ | hmade
  · exact Or.inl hsame
  · exact Or.inr (Or.inl ⟨hsubset hmem, hown⟩)
  · exact Or.inr (Or.inr hmade)

/-- A node that is put in both trees. -/
theorem Alike.put {own : List Location} {alone shared : Files} {location : Location}
    (hne : location ≠ []) (hmem : location ∈ own) (node : Node) :
    Alike own alone (alone.put location node) shared (shared.put location node) := by
  intro other
  rw [alone.get?_put hne, shared.get?_put hne]
  by_cases heq : other = location
  · exact Or.inr (Or.inl ⟨heq ▸ hmem, by rw [if_pos heq, if_pos heq]⟩)
  · exact Or.inl ⟨if_neg heq, if_neg heq⟩

/-- A directory that is made first in one tree, and is there in the other one. -/
theorem Alike.of_put_directory {own : List Location} {alone next shared made after : Files}
    {location : Location} (hne : location ≠ [])
    (hmade : ∀ other, made.get? other =
      if other = location then some .directory else shared.get? other)
    (h : Alike own (alone.put location .directory) next made after) :
    Alike own alone next shared after := by
  intro other
  have hother := h other
  rw [alone.get?_put hne, hmade] at hother
  by_cases heq : other = location
  · rw [if_pos heq, if_pos heq] at hother
    exact Or.inr (hother.elim Or.inr id)
  · rwa [if_neg heq, if_neg heq] at hother

namespace Keeps

variable {others : List Location} {alone shared : Files}

/-! ## What is at a place -/

/-- At a place that others do not write, there is the same, unless a directory was made there. -/
theorem get?_cases (h : Keeps others alone shared) {location : Location}
    (hnot : location ∉ others) :
    shared.get? location = alone.get? location ∨
      alone.get? location = none ∧ shared.get? location = some .directory := by
  have hlink := h.link location
  have hfile := h.file location hnot
  unfold linkIn? at hlink
  unfold fileIn? at hfile
  rcases halone : alone.get? location with _ | (_ | ⟨content, permissions⟩ | target)
  · rw [halone] at hlink hfile
    rcases hshared : shared.get? location with _ | (_ | ⟨content, permissions⟩ | target)
    · exact Or.inl rfl
    · exact Or.inr ⟨rfl, rfl⟩
    · simp [hshared] at hfile
    · simp [hshared] at hlink
  · exact Or.inl (h.directory location halone)
  · rw [halone] at hfile
    exact Or.inl (fileIn?_eq_some_iff.mp hfile)
  · rw [halone] at hlink
    rcases hshared : shared.get? location with _ | (_ | ⟨content, permissions⟩ | found)
    · simp [hshared] at hlink
    · simp [hshared] at hlink
    · simp [hshared] at hlink
    · simp only [hshared, Option.some.injEq] at hlink
      rw [hlink]
      exact Or.inl rfl

theorem get?_of_ne_none (h : Keeps others alone shared) {location : Location}
    (hnot : location ∉ others) (hsome : alone.get? location ≠ none) :
    shared.get? location = alone.get? location := by
  rcases h.get?_cases hnot with hsame | ⟨hnone, -⟩
  · exact hsame
  · exact absurd hnone hsome

theorem step_eq (h : Keeps others alone shared) {location : Location}
    (hnot : location ∉ others) (hsome : alone.get? location ≠ none) (segment : String) :
    shared.step location segment = alone.step location segment := by
  rw [Files.step, Files.step, enter, enter, h.get?_of_ne_none hnot hsome]

/-! ## Going down -/

theorem leads?_eq (h : Keeps others alone shared) (location : Location) :
    shared.leads? location = alone.leads? location :=
  h.sameLinks.leads?_eq location

/-- Both trees with a directory at a place where the first one had nothing. -/
theorem put_directory (h : Keeps others alone shared) {location : Location} {after : Files}
    (hne : location ≠ [])
    (hcurrent : after.current = shared.current)
    (hunrestricted : after.unrestricted = shared.unrestricted) (htree : after.IsTree)
    (hafter : ∀ other, after.get? other =
      if other = location then some .directory else shared.get? other) :
    Keeps others (alone.put location .directory) after where
  current_eq := hcurrent.trans h.current_eq
  unrestricted_eq := hunrestricted.trans h.unrestricted_eq
  isTree := htree
  directory other hother := by
    rw [alone.get?_put hne] at hother
    rw [hafter]
    split
    · rfl
    · next hne' => exact h.directory other (by rwa [if_neg hne'] at hother)
  link other := by
    rw [linkIn?, linkIn?, hafter, alone.get?_put hne]
    by_cases heq : other = location
    · rw [if_pos heq, if_pos heq]
    · rw [if_neg heq, if_neg heq]
      exact h.link other
  file other hother := by
    rw [fileIn?, fileIn?, hafter, alone.get?_put hne]
    by_cases heq : other = location
    · rw [if_pos heq, if_pos heq]
    · rw [if_neg heq, if_neg heq]
      exact h.file other hother

/-- A step into nothing goes down to a directory, which others may have made. -/
theorem exists_descend_of_none (h : Keeps others alone shared) {location next : Location}
    {step : String} (hne : next ≠ []) (hnot : next ∉ others)
    (hstep : shared.step location step = .ok next) (hnone : alone.get? next = none)
    (rest : List String) :
    ∃ made : Files, shared.descend location (step :: rest) = made.descend next rest ∧
      Keeps others (alone.put next .directory) made ∧
      ∀ other, made.get? other =
        if other = next then some .directory else shared.get? other := by
  rcases h.get?_cases hnot with hsame | ⟨-, hdirectory⟩
  · rw [hnone] at hsame
    have hspot := spot_of_step h.isTree hstep hsame
    have hget := shared.get?_put hspot.ne_nil .directory
    exact ⟨_, descend_cons_of_none hstep hsame,
      h.put_directory hne rfl rfl (h.isTree.put hspot _) hget, hget⟩
  · have hget : ∀ other, shared.get? other =
        if other = next then some .directory else shared.get? other := by
      intro other
      split
      · next heq => rw [heq, hdirectory]
      · rfl
    refine ⟨shared, ?_, h.put_directory hne rfl rfl h.isTree hget, hget⟩
    rw [descend_cons_of_ne_none hstep (by simp [hdirectory])
      (follow_of_enter (enter_eq_ok_iff.mpr hdirectory)),
      if_neg fun hstop => hstop.2 hdirectory]

/-- **Going down a path beside others** has the same result, and makes directories at the same
places. -/
theorem descend_alike {alone shared : Files} (h : Keeps others alone shared)
    (htree : alone.IsTree) {location : Location} {steps : List String} {last : String}
    (hsome : alone.get? location ≠ none)
    (hfirm : alone.get? location = some .directory →
      alone.firmFrom location (steps ++ [last]) = true)
    (hmet : ∀ front, front <+: steps → ∀ place, alone.leads? location front = some place →
      place ∉ others) :
    (shared.descend location steps).1 = (alone.descend location steps).1 ∧
      Alike [] alone (alone.descend location steps).2 shared (shared.descend location steps).2 := by
  induction steps generalizing alone shared location with
  | nil => exact ⟨rfl, .refl⟩
  | cons step rest ih =>
    have hnot : location ∉ others := hmet [] List.nil_prefix location rfl
    have hsteps := h.step_eq hnot hsome step
    cases hstep : alone.step location step with
    | error e =>
      rw [hstep] at hsteps
      rw [descend_cons_of_error hstep, descend_cons_of_error hsteps]
      exact ⟨rfl, .refl⟩
    | ok next =>
      rw [hstep] at hsteps
      obtain ⟨hdirectory, hadvance⟩ := step_eq_ok_iff.mp hstep
      obtain ⟨reached, hfollow, hcases⟩ := of_firmFrom_cons (hfirm hdirectory) hadvance
      have hfurther : ∀ front, front <+: rest → ∀ place,
          alone.leads? reached front = some place → place ∉ others := by
        intro front hfront place hplace
        refine hmet (step :: front) (List.cons_prefix_cons.mpr ⟨rfl, hfront⟩) place ?_
        rw [leads?_cons_of_follow hadvance hfollow, hplace]
      have hreached : reached ∉ others := hfurther [] List.nil_prefix reached rfl
      by_cases hnone : alone.get? next = none
      · -- what is missing alone may have been made by others
        obtain rfl := eq_of_follow (linkIn?_of_none hnone) hfollow
        have hspot := spot_of_step htree hstep hnone
        have hput := keeps_put_directory htree hspot hnone
        have hthere := hspot.get?_put_self .directory
        have hback : ".." ∉ rest ++ [last] := by
          rcases hcases with ⟨hdirectory, -⟩ | ⟨-, hrest⟩
          · exact absurd (hnone.symm.trans hdirectory) (by simp)
          · exact (hrest (by simp)).2.2
        obtain ⟨made, hdown, hmade, hafter⟩ :=
          h.exists_descend_of_none hspot.ne_nil hreached hsteps hnone rest
        rw [← hput.leads?_eq] at hfurther
        obtain ⟨hresult, halike⟩ := ih hmade hput.isTree (by simp [hthere])
          (fun _ => firmFrom_put_directory htree hstep hnone hback) hfurther
        rw [descend_cons_of_none hstep hnone, hdown]
        exact ⟨hresult, halike.of_put_directory hspot.ne_nil hafter⟩
      · -- what is there alone is there beside others, and leads to the same
        have hreachedSome : alone.get? reached ≠ none := by
          rcases hcases with ⟨hdirectory, -⟩ | ⟨-, hrest⟩
          · simp [hdirectory]
          · obtain ⟨-, rfl, -⟩ := hrest (by simp)
            exact hnone
        have hfound := h.get?_of_ne_none hreached hreachedSome
        have hnextSome := ne_none_of_follow (h.follow hfollow) (hfound ▸ hreachedSome)
        rw [descend_cons_of_ne_none hstep hnone hfollow,
          descend_cons_of_ne_none hsteps hnextSome (h.follow hfollow), hfound]
        split
        · exact ⟨rfl, .refl⟩
        · refine ih h htree hreachedSome (fun hdirectory => ?_) hfurther
          rcases hcases with ⟨-, hfirm⟩ | ⟨hnot, -⟩
          · exact hfirm
          · exact absurd hdirectory hnot

/-- Making the directory around a path beside others has the same result, and makes directories at
the same places. -/
theorem makeParent_alike {path : Path} (h : Keeps others alone shared) (htree : alone.IsTree)
    (hfirm : alone.Firm path) (hmet : ∀ place ∈ alone.met path, place ∉ others) :
    (shared.makeParent path).1 = (alone.makeParent path).1 ∧
      Alike [] alone (alone.makeParent path).2 shared (shared.makeParent path).2 := by
  cases hparent : parentDirectory? path with
  | none =>
    rw [makeParent, makeParent, hparent]
    exact ⟨rfl, .refl⟩
  | some parent =>
    obtain ⟨next, hnext⟩ := hfirm.around
    have hfront : ∀ front, front <+: (steps path.text).dropLast → ∀ place,
        alone.leads? (alone.start path.text) front = some place → place ∉ others :=
      fun front hfront place hplace => hmet place
        (mem_met_iff.mpr ⟨front, hfront.trans (List.dropLast_prefix _), hplace⟩)
    obtain ⟨hresult, halike⟩ := h.descend_alike htree (by simp [hfirm.start]) (fun _ => hnext) hfront
    rw [makeParent_eq_descend htree hfirm hparent,
      makeParent_eq_descend h.isTree (h.firm htree hfirm) hparent, h.start_eq]
    cases checkPath parent.text with
    | error e => exact ⟨rfl, .refl⟩
    | ok =>
      rcases halone : alone.descend (alone.start path.text) (steps path.text).dropLast with
        ⟨_ | _, made⟩ <;>
      rcases hshared : shared.descend (alone.start path.text) (steps path.text).dropLast with
        ⟨_ | _, after⟩ <;>
      rw [halone, hshared] at hresult halike
      · obtain rfl := Except.error.inj hresult
        exact ⟨rfl, halike⟩
      · exact absurd hresult (by simp)
      · exact absurd hresult (by simp)
      · exact ⟨rfl, halike⟩

/-! ## Writing -/

variable {path : Path} {directory : Location}

/-- What is at the end of a path is the same, if others do not touch its place. -/
theorem get?_last (hfirm : alone.Firm path) (hcheck : checkPath path.text = .ok ())
    (hreach : alone.reach (alone.start path.text) (steps path.text).dropLast = .ok directory)
    (hown : ∀ place, alone.place? path = some place →
      shared.get? place = alone.get? place) {last : String}
    (hsteps : steps path.text = (steps path.text).dropLast ++ [last]) {next : Location}
    (hstep : alone.step directory last = .ok next) :
    ∃ reached, alone.follow next = .ok reached ∧ shared.get? reached = alone.get? reached := by
  have hlast : alone.firmFrom directory [last] = true := by
    refine firmFrom_of_reach ?_ hreach
    rw [← hsteps]
    exact hfirm.firm
  obtain ⟨-, hadvance⟩ := step_eq_ok_iff.mp hstep
  obtain ⟨reached, hfollow, -⟩ := of_firmFrom_cons hlast hadvance
  refine ⟨reached, hfollow, hown reached ?_⟩
  rw [hfirm.place?_eq hcheck, hsteps]
  exact leads?_of_walk (walk_concat hreach hstep hfollow)

/-- Steps lead into the same directory, or fail in the same way, if others do not touch what is at
the end of them. -/
theorem reach_eq (h : Keeps others alone shared) (hfirm : alone.Firm path)
    (hcheck : checkPath path.text = .ok ())
    (hreach : alone.reach (alone.start path.text) (steps path.text).dropLast = .ok directory)
    (hown : ∀ place, alone.place? path = some place →
      shared.get? place = alone.get? place) :
    shared.reach (alone.start path.text) (steps path.text) =
      alone.reach (alone.start path.text) (steps path.text) := by
  rcases List.eq_nil_or_concat (steps path.text) with hnil | ⟨front, last, hsteps⟩
  · rw [hnil, reach_nil_eq_ok_iff.mpr ⟨rfl, hfirm.start⟩,
      reach_nil_eq_ok_iff.mpr ⟨rfl, h.directory _ hfirm.start⟩]
  · rw [List.concat_eq_append] at hsteps
    have hsplit : steps path.text = (steps path.text).dropLast ++ [last] := by
      rw [hsteps, List.dropLast_concat]
    have hdirectory := get?_of_reach hreach
    rw [hsplit, reach_append, reach_append, hreach, h.reach hreach]
    simp only [bind, Except.bind]
    rw [reach_cons, reach_cons]
    have hsame : shared.step directory last = alone.step directory last := by
      rw [Files.step, Files.step, enter, enter, hdirectory, h.directory _ hdirectory]
    rw [hsame]
    cases hstep : alone.step directory last with
    | error e => rfl
    | ok next =>
      obtain ⟨reached, hfollow, hget⟩ := get?_last hfirm hcheck hreach hown hsplit hstep
      simp only [bind, Except.bind, hfollow, h.follow hfollow]
      simp only [Files.reach, walk, walkBy, bind, Except.bind, enter, hget]

/-- **A path can be written beside others as it can alone**, if they do not touch its place. -/
theorem writable_eq (h : Keeps others alone shared) (hfirm : alone.Firm path)
    (hreach : alone.reach (alone.start path.text) (steps path.text).dropLast = .ok directory)
    (hown : ∀ place, alone.place? path = some place →
      shared.get? place = alone.get? place) :
    shared.writable path = alone.writable path := by
  rcases hending : ending path.text with ⟨front, last, slashed⟩
  have hsteps := steps_of_ending hending
  rw [writable, writable, around_eq_reach, around_eq_reach, hending, h.start_eq]
  cases hcheck : checkPath path.text with
  | error e => rfl
  | ok =>
    simp only [bind, Except.bind]
    by_cases hstep : isStep last = true
    · -- the path ends with a name inside a directory that is there
      rw [List.filter_cons_of_pos hstep, List.filter_nil] at hsteps
      have hfront : (steps path.text).dropLast = front.filter isStep := by
        rw [hsteps, List.dropLast_concat]
      have hsplit : steps path.text = (steps path.text).dropLast ++ [last] := by
        rw [hfront, hsteps]
      rw [← hfront, hreach, h.reach hreach]
      simp only
      split
      · rfl
      · have hdirectory := get?_of_reach hreach
        have hsame : shared.step directory last = alone.step directory last := by
          rw [Files.step, Files.step, enter, enter, hdirectory, h.directory _ hdirectory]
        rw [hsame]
        cases hnext : alone.step directory last with
        | error e => rfl
        | ok next =>
          obtain ⟨reached, hfollow, hget⟩ := get?_last hfirm hcheck hreach hown hsplit hnext
          simp only [hfollow, h.follow hfollow, hget, h.allows_eq]
    · -- the path asks for a directory at its end
      have hdots : isDots last = true := by
        unfold isStep at hstep
        unfold isDots
        grind
      rw [List.filter_cons_of_neg hstep, List.filter_nil, List.append_nil] at hsteps
      rw [← hsteps, h.reach_eq hfirm hcheck hreach hown]
      cases alone.reach (alone.start path.text) (steps path.text) with
      | error e => rfl
      | ok reached => simp [hdots]

/-- **Writing a file beside others** has the same result, and writes the same. -/
theorem writeContent_alike (h : Keeps others alone shared) (htree : alone.IsTree)
    (hfirm : alone.Firm path)
    (hreach : alone.reach (alone.start path.text) (steps path.text).dropLast = .ok directory)
    (hown : ∀ place, alone.place? path = some place →
      shared.get? place = alone.get? place) (content : Content) :
    (∃ e, alone.writeContent path content = .error e ∧
        shared.writeContent path content = .error e) ∨
      ∃ next after, alone.writeContent path content = .ok next ∧
        shared.writeContent path content = .ok after ∧
        Alike (alone.places [path]) alone next shared after := by
  have hwritable := h.writable_eq hfirm hreach hown
  rw [writeContent, writeContent, hwritable]
  cases hcase : alone.writable path with
  | error e => exact Or.inl ⟨e, rfl, rfl⟩
  | ok found =>
    obtain ⟨location, permissions⟩ := found
    obtain ⟨hlocate, hspot⟩ := of_writable_eq_ok htree hcase
    have hmem : location ∈ alone.places [path] := singleton_subset_places hlocate (by simp)
    exact Or.inr ⟨_, _, rfl, rfl, .put hspot.ne_nil hmem _⟩

/-- **Copying a file beside others** has the same result, and leaves the same. -/
theorem copy_alike {source : Path} {file : Content × Permissions} (h : Keeps others alone shared)
    (htree : alone.IsTree) (hfirm : alone.Firm path)
    (hreach : alone.reach (alone.start path.text) (steps path.text).dropLast = .ok directory)
    (hown : ∀ place, alone.place? path = some place →
      shared.get? place = alone.get? place)
    (hsource : alone.fileAt? source = some file)
    (hapart : ∀ place, alone.place? source = some place →
      place ∉ others ∧ alone.place? path ≠ some place) :
    (shared.copy source path).1 = (alone.copy source path).1 ∧
      Alike (alone.places [path]) alone (alone.copy source path).2 shared
        (shared.copy source path).2 := by
  obtain ⟨content, permissions⟩ := file
  have hthere : shared.fileAt? source = some (content, permissions) :=
    h.fileAt?_of_some (fun place hplace => (hapart place (place?_of_locate hplace)).1) hsource
  have hwritable := h.writable_eq hfirm hreach hown
  cases hcase : alone.writable path with
  | error e =>
    rw [hcase] at hwritable
    rw [copy, copy, fileAt?_eq_some_iff_stat.mp hsource, fileAt?_eq_some_iff_stat.mp hthere]
    simp only [hcase, hwritable]
    exact ⟨trivial, .refl⟩
  | ok found =>
    obtain ⟨location, flag⟩ := found
    rw [hcase] at hwritable
    obtain ⟨hlocate, hspot⟩ := of_writable_eq_ok htree hcase
    have hplace := place?_of_locate hlocate
    -- in neither tree is the source what is written
    have hne : alone.locate source ≠ .ok location := fun hlocated =>
      (hapart location (place?_of_locate hlocated)).2 hplace
    have hneShared : shared.locate source ≠ .ok location := by
      intro hlocated
      have hfound := place?_of_locate hlocated
      rw [h.place?_eq] at hfound
      exact (hapart location hfound).2 hplace
    have hmem : location ∈ alone.places [path] := singleton_subset_places hlocate (by simp)
    rw [copy_eq_of_writable htree hsource hcase hne,
      copy_eq_of_writable h.isTree hthere hwritable hneShared]
    refine ⟨rfl, fun other => ?_⟩
    simp only [get?_put _ hspot.ne_nil]
    by_cases heq : other = location
    · exact Or.inr (Or.inl ⟨heq ▸ hmem, by rw [if_pos heq, if_pos heq]⟩)
    · exact Or.inl ⟨by rw [if_neg heq, if_neg heq], by rw [if_neg heq, if_neg heq]⟩

/-! ## Reading -/

/-- **The file at a firm path** is the same beside others, if they do not write its place. -/
theorem fileAt?_eq_of_firm (h : Keeps others alone shared) (htree : alone.IsTree)
    (hfirm : alone.Firm path)
    (hplace : ∀ place, alone.place? path = some place → place ∉ others) :
    shared.fileAt? path = alone.fileAt? path :=
  h.fileAt?_eq htree (hfirm.plain htree) hplace

end Keeps

end KernelCatalog.Files
