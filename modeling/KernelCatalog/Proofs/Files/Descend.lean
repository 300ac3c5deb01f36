import KernelCatalog.Proofs.Files.Firm

/-!
# Making the directories on a path

A directory is made with those around it by trying its path, then the path around it, and so on
outwards. `Files.descend` goes inwards instead: it takes one step of the path after the other and
makes each directory that is missing. On a firm path the two come to the same.

* `Files.reach_descend`: the directory that steps lead into once it is made.
* `Files.ensureTree_eq_descend`: making a directory with those around it.
* `Files.makeParent_eq_descend`: making the directory around a path.
-/

namespace KernelCatalog.Files

/-! ## Going down -/

/-- The directory that steps lead into from another one, where each that is missing is made. -/
def descend : Files → Location → List String → Except FileError Location × Files
  | files, location, [] => (.ok location, files)
  | files, location, step :: rest =>
    match files.step location step with
    | .error e => (.error e, files)
    | .ok next =>
      match files.get? next with
      | none => descend (files.put next .directory) next rest
      | some _ =>
        match files.follow next with
        | .error e => (.error e, files)
        | .ok reached =>
          if rest = [] ∧ files.get? reached ≠ some .directory then (.error .alreadyExists, files)
          else descend files reached rest

section Descend

variable {files : Files} {location : Location}

theorem descend_cons_of_none {next : Location} {step : String} {rest : List String}
    (hstep : files.step location step = .ok next) (hnone : files.get? next = none) :
    files.descend location (step :: rest) =
      descend (files.put next .directory) next rest := by
  rw [descend, hstep]
  simp only [hnone]

/-- Going down where the first step leads to something. -/
theorem descend_cons_of_ne_none {next reached : Location} {step : String} {rest : List String}
    (hstep : files.step location step = .ok next) (hsome : files.get? next ≠ none)
    (hfollow : files.follow next = .ok reached) :
    files.descend location (step :: rest) =
      if rest = [] ∧ files.get? reached ≠ some .directory then (.error .alreadyExists, files)
      else descend files reached rest := by
  obtain ⟨node, hnode⟩ := Option.ne_none_iff_exists'.mp hsome
  rw [descend, hstep]
  simp only [hnode, hfollow]

/-- Going down where the first step cannot be taken. -/
theorem descend_cons_of_error {e : FileError} {step : String} {rest : List String}
    (hstep : files.step location step = .error e) :
    files.descend location (step :: rest) = (.error e, files) := by
  rw [descend, hstep]

/-- Going down where the first step leads to a link that cannot be followed. -/
theorem descend_cons_of_follow_error {next : Location} {e : FileError} {step : String}
    {rest : List String} (hstep : files.step location step = .ok next)
    (hsome : files.get? next ≠ none) (hfollow : files.follow next = .error e) :
    files.descend location (step :: rest) = (.error e, files) := by
  obtain ⟨node, hnode⟩ := Option.ne_none_iff_exists'.mp hsome
  rw [descend, hstep]
  simp only [hnode, hfollow]

/-- A step from a directory fails only if its name is too long. -/
theorem eq_nameTooLong_of_step {e : FileError} {step : String}
    (hdirectory : files.get? location = some .directory)
    (hstep : files.step location step = .error e) : e = .nameTooLong := by
  rw [Files.step, enter_eq_ok_iff.mpr hdirectory] at hstep
  simp only [bind, Except.bind] at hstep
  split_ifs at hstep
  exact (Except.error.inj hstep).symm

/-- A step into nothing is one into a directory, for a node to be put there. -/
theorem spot_of_step (htree : files.IsTree) {next : Location} {step : String}
    (hstep : files.step location step = .ok next) (hnone : files.get? next = none) :
    files.Spot next :=
  ⟨htree.inDirectory_step hstep, by simp [hnone], linkIn?_of_none hnone⟩

theorem get?_put_inside (htree : files.IsTree) (hspot : files.Spot location)
    (hnone : files.get? location = none) (name : String) :
    (files.put location .directory).get? (location ++ [name]) = none := by
  rw [files.get?_put hspot.ne_nil, if_neg (by simp)]
  by_contra hsome
  obtain ⟨node, hnode⟩ := Option.ne_none_iff_exists'.mp hsome
  have hdirectory := htree _ _ hnode
  rw [List.dropLast_concat, hnone] at hdirectory
  exact absurd hdirectory (by simp)

theorem ne_none_of_follow {reached : Location} (hfollow : files.follow location = .ok reached)
    (hsome : files.get? reached ≠ none) : files.get? location ≠ none := by
  intro hnone
  obtain rfl := eq_of_follow (linkIn?_of_none hnone) hfollow
  exact hsome hnone

/-- Steps are firm from a directory that was just made, if none of them is `..`. -/
theorem firmFrom_put_directory (htree : files.IsTree) {next : Location} {step : String}
    {steps : List String} (hstep : files.step location step = .ok next)
    (hnone : files.get? next = none) (hback : ".." ∉ steps) :
    (files.put next .directory).firmFrom next steps = true := by
  have hput := keeps_put_directory htree (spot_of_step htree hstep hnone) hnone
  refine firmFrom_of_linkless (fun inner hinner => ?_) hback
  rw [hput.link, htree.linkIn?_below (linkIn?_of_none hnone) (by simp [hnone]) hinner]

theorem keeps_descend {files : Files} {location : Location} (steps : List String)
    (htree : files.IsTree) : Keeps [] files (files.descend location steps).2 := by
  induction steps generalizing files location with
  | nil => exact .refl htree
  | cons step rest ih =>
    cases hstep : files.step location step with
    | error e =>
      rw [descend_cons_of_error hstep]
      exact .refl htree
    | ok next =>
      by_cases hnone : files.get? next = none
      · rw [descend_cons_of_none hstep hnone]
        have hput := keeps_put_directory htree (spot_of_step htree hstep hnone) hnone
        exact hput.trans (ih hput.isTree)
      · cases hfollow : files.follow next with
        | error e =>
          rw [descend_cons_of_follow_error hstep hnone hfollow]
          exact .refl htree
        | ok reached =>
          rw [descend_cons_of_ne_none hstep hnone hfollow]
          split
          · exact .refl htree
          · exact ih htree

/-- **Steps lead into the directory that going down has made.** -/
theorem reach_descend {files after : Files} {location directory : Location} {steps : List String}
    (htree : files.IsTree) (hstart : files.get? location = some .directory)
    (h : files.descend location steps = (.ok directory, after)) :
    after.reach location steps = .ok directory := by
  induction steps generalizing files location with
  | nil =>
    obtain ⟨hlocation, rfl⟩ := Prod.mk.inj h
    obtain rfl := Except.ok.inj hlocation
    exact reach_nil_eq_ok_iff.mpr ⟨rfl, hstart⟩
  | cons step rest ih =>
    have hkeeps : Keeps [] files (files.descend location (step :: rest)).2 :=
      keeps_descend _ htree
    rw [h] at hkeeps
    cases hstep : files.step location step with
    | error e =>
      rw [descend_cons_of_error hstep] at h
      exact absurd (Prod.mk.inj h).1 (by simp)
    | ok next =>
      rw [reach_cons, hkeeps.step hstep]
      by_cases hnone : files.get? next = none
      · rw [descend_cons_of_none hstep hnone] at h
        have hspot := spot_of_step htree hstep hnone
        have hput := keeps_put_directory htree hspot hnone
        have hreach := ih hput.isTree (hspot.get?_put_self .directory) h
        simp only [bind, Except.bind,
          follow_of_enter (enter_eq_ok_iff.mpr (get?_start_of_reach hreach))]
        exact hreach
      · cases hfollow : files.follow next with
        | error e =>
          rw [descend_cons_of_follow_error hstep hnone hfollow] at h
          exact absurd (Prod.mk.inj h).1 (by simp)
        | ok reached =>
          simp only [bind, Except.bind, hkeeps.follow hfollow]
          rw [descend_cons_of_ne_none hstep hnone hfollow] at h
          split at h
          · exact absurd (Prod.mk.inj h).1 (by simp)
          · next hgoes =>
            refine ih htree ?_ h
            -- what is no directory ends the steps, or stops them
            by_contra hnot
            cases rest with
            | nil => exact hgoes ⟨rfl, hnot⟩
            | cons second others =>
              cases hsecond : files.step reached second with
              | error e =>
                rw [descend_cons_of_error hsecond] at h
                exact absurd (Prod.mk.inj h).1 (by simp)
              | ok further => exact hnot (step_eq_ok_iff.mp hsecond).1

theorem reach_of_get?_eq_none (hnone : files.get? location = none) (steps : List String) :
    files.reach location steps = .error .notFound :=
  reach_of_enter_error (by simp [enter, hnone]) steps

/-- Going down through directories that are there makes none. -/
theorem descend_of_reach {directory : Location} {front : List String} (rest : List String)
    (hreach : files.reach location front = .ok directory) :
    files.descend location (front ++ rest) = files.descend directory rest := by
  induction front generalizing location with
  | nil =>
    obtain ⟨rfl, -⟩ := reach_nil_eq_ok_iff.mp hreach
    rfl
  | cons step more ih =>
    rw [reach_cons] at hreach
    obtain ⟨next, hstep, hreach⟩ := of_bind_eq_ok hreach
    obtain ⟨reached, hfollow, hreach⟩ := of_bind_eq_ok hreach
    have hdirectory := get?_start_of_reach hreach
    have hsome := ne_none_of_follow hfollow (by simp [hdirectory])
    rw [List.cons_append, descend_cons_of_ne_none hstep hsome hfollow,
      if_neg fun hstop => hstop.2 hdirectory, ih hreach]

/-- Going down stops where the steps in front of the last one cannot be followed, unless something
is missing. -/
theorem descend_of_reach_eq_error {e : FileError} {front : List String} (last : String)
    (hreach : files.reach location front = .error e) (hne : e ≠ .notFound) :
    files.descend location (front ++ [last]) = (.error e, files) := by
  induction front generalizing location with
  | nil =>
    cases henter : files.enter location with
    | error cause =>
      rw [reach_of_enter_error henter] at hreach
      obtain rfl := Except.error.inj hreach
      exact descend_cons_of_error (by simp [step, henter, bind, Except.bind])
    | ok =>
      rw [reach_nil_eq_ok_iff.mpr ⟨rfl, enter_eq_ok_iff.mp henter⟩] at hreach
      exact absurd hreach (by simp)
  | cons step more ih =>
    rw [reach_cons] at hreach
    rw [List.cons_append]
    cases hstep : files.step location step with
    | error cause =>
      rw [hstep] at hreach
      obtain rfl := Except.error.inj hreach
      exact descend_cons_of_error hstep
    | ok next =>
      simp only [hstep, bind, Except.bind] at hreach
      -- were it missing, the error would be another one
      have hsome : files.get? next ≠ none := by
        intro hnone
        simp only [follow_of_linkIn?_eq_none (linkIn?_of_none hnone),
          reach_of_get?_eq_none hnone] at hreach
        exact hne (Except.error.inj hreach).symm
      cases hfollow : files.follow next with
      | error cause =>
        rw [hfollow] at hreach
        obtain rfl := Except.error.inj hreach
        exact descend_cons_of_follow_error hstep hsome hfollow
      | ok reached =>
        rw [hfollow] at hreach
        rw [descend_cons_of_ne_none hstep hsome hfollow, if_neg (by simp), ih hreach]

/-- Going down one part of the steps after the other, unless something other than a directory is in
the way. -/
theorem descend_append {files : Files} {location : Location} {front : List String}
    (rest : List String) (h : (files.descend location front).1 ≠ .error .alreadyExists) :
    files.descend location (front ++ rest) =
      match files.descend location front with
      | (.error e, after) => (.error e, after)
      | (.ok reached, after) => after.descend reached rest := by
  induction front generalizing files location with
  | nil => rfl
  | cons step more ih =>
    rw [List.cons_append]
    cases hstep : files.step location step with
    | error e => rw [descend_cons_of_error hstep, descend_cons_of_error hstep]
    | ok next =>
      by_cases hnone : files.get? next = none
      · rw [descend_cons_of_none hstep hnone] at h ⊢
        rw [descend_cons_of_none hstep hnone, ih h]
      · cases hfollow : files.follow next with
        | error e =>
          rw [descend_cons_of_follow_error hstep hnone hfollow,
            descend_cons_of_follow_error hstep hnone hfollow]
        | ok reached =>
          rw [descend_cons_of_ne_none hstep hnone hfollow] at h
          rw [descend_cons_of_ne_none hstep hnone hfollow,
            descend_cons_of_ne_none hstep hnone hfollow]
          by_cases hstop : more = [] ∧ files.get? reached ≠ some .directory
          · exact absurd (by rw [if_pos hstop]) h
          · rw [if_neg hstop] at h
            rw [if_neg hstop, if_neg fun hboth => hstop
              ⟨(List.append_eq_nil_iff.mp hboth.1).1, hboth.2⟩, ih h]

/-- In an empty directory, nothing is in the way. -/
theorem descend_ne_alreadyExists_of_bare {files : Files} {location : Location}
    {steps : List String} (htree : files.IsTree) (hstart : files.get? location = some .directory)
    (hbare : ∀ name, files.get? (location ++ [name]) = none) (hback : ".." ∉ steps) :
    (files.descend location steps).1 ≠ .error .alreadyExists := by
  induction steps generalizing files location with
  | nil => simp [descend]
  | cons step rest ih =>
    rw [List.mem_cons, not_or] at hback
    cases hstep : files.step location step with
    | error e =>
      rw [descend_cons_of_error hstep]
      simp [eq_nameTooLong_of_step hstart hstep]
    | ok next =>
      obtain ⟨-, hadvance⟩ := step_eq_ok_iff.mp hstep
      unfold advance? at hadvance
      split_ifs at hadvance with hblank hdots
      · obtain rfl := Option.some.inj hadvance
        rw [descend_cons_of_ne_none hstep (by simp [hstart])
          (follow_of_enter (enter_eq_ok_iff.mpr hstart)), if_neg fun hstop => hstop.2 hstart]
        exact ih htree hstart hbare hback.2
      · exact absurd hdots.symm hback.1
      · obtain rfl := Option.some.inj hadvance
        have hnone := hbare step
        have hspot := spot_of_step htree hstep hnone
        have hget := files.get?_put hspot.ne_nil .directory
        rw [descend_cons_of_none hstep hnone]
        refine ih (htree.put hspot _) (by rw [hget, if_pos rfl]) (fun name => ?_) hback.2
        exact get?_put_inside htree hspot hnone name

/-- Where something is missing on firm steps, nothing is in the way. -/
theorem descend_ne_alreadyExists {front : List String} {last : String} (htree : files.IsTree)
    (hfirm : files.firmFrom location (front ++ [last]) = true)
    (hreach : files.reach location front = .error .notFound) :
    (files.descend location front).1 ≠ .error .alreadyExists := by
  induction front generalizing location with
  | nil => simp [descend]
  | cons step more ih =>
    rw [reach_cons] at hreach
    rw [List.cons_append] at hfirm
    cases hstep : files.step location step with
    | error e =>
      rw [hstep] at hreach
      obtain rfl := Except.error.inj hreach
      simp [descend_cons_of_error hstep]
    | ok next =>
      simp only [hstep, bind, Except.bind] at hreach
      obtain ⟨-, hadvance⟩ := step_eq_ok_iff.mp hstep
      obtain ⟨reached, hfollow, hcases⟩ := of_firmFrom_cons hfirm hadvance
      rw [hfollow] at hreach
      rcases hcases with ⟨hdirectory, hfirm⟩ | ⟨hnot, hrest⟩
      · rw [descend_cons_of_ne_none hstep (ne_none_of_follow hfollow (by simp [hdirectory])) hfollow,
          if_neg fun hstop => hstop.2 hdirectory]
        exact ih hfirm hreach
      · obtain ⟨hlink, rfl, hback⟩ := hrest (by simp)
        rw [List.mem_append, not_or] at hback
        by_cases hnone : files.get? reached = none
        · have hspot := spot_of_step htree hstep hnone
          have hget := files.get?_put hspot.ne_nil .directory
          rw [descend_cons_of_none hstep hnone]
          refine descend_ne_alreadyExists_of_bare (htree.put hspot _) (by rw [hget, if_pos rfl])
            (fun name => ?_) hback.1
          exact get?_put_inside htree hspot hnone name
        · -- what is there is no directory, so it is not missing
          have henter : files.enter reached = .error .notDirectory := by
            unfold enter
            split <;> simp_all
          simp [reach_of_enter_error henter] at hreach

/-- Making a directory inside one that is there. -/
theorem makeDirectory_of_reach {path : Path} {front : List String} {last : String}
    {directory : Location} (hends : EndsIn path.text front last)
    (hcheck : checkPath path.text = .ok ())
    (hreach : files.reach (files.start path.text) (steps path.text).dropLast = .ok directory) :
    files.makeDirectory path =
      if isDots last then .error .alreadyExists
      else (files.step directory last >>= fun location =>
        match files.get? location with
        | some _ => .error .alreadyExists
        | none => .ok (files.put location .directory)) := by
  rw [makeDirectory, around_of_endsIn hends, hcheck, hreach]
  rfl

/-- Whether a path is a directory is told by its last step. -/
theorem isDirectory_iff_reach_last {path : Path} {front : List String} {last : String}
    {directory : Location} (hends : EndsIn path.text front last)
    (hcheck : checkPath path.text = .ok ())
    (hreach : files.reach (files.start path.text) (steps path.text).dropLast = .ok directory) :
    files.isDirectory path = true ↔ ∃ inner, files.reach directory [last] = .ok inner := by
  rw [isDirectory_iff_reach hcheck]
  rw [hends.steps_eq, List.dropLast_concat] at hreach
  rw [hends.steps_eq, reach_append, hreach]
  rfl

/-- Making sure of a directory is going down one step: to a directory that is there then, or to the
same error, which is not that something is missing. -/
def EnsuresStep (files : Files) (path : Path) (directory : Location) (last : String) : Prop :=
  (∃ made after, files.descend directory [last] = (.ok made, after) ∧
      files.ensureDirectory path = .ok after) ∨
    ∃ e, e ≠ .notFound ∧ files.descend directory [last] = (.error e, files) ∧
      files.ensureDirectory path = .error e

section LastStep

variable {path : Path} {front : List String} {last : String} {directory : Location}

/-- The directory around one is there. -/
theorem ensuresStep_of_isDots (htree : files.IsTree) (hends : EndsIn path.text front last)
    (hcheck : checkPath path.text = .ok ())
    (hreach : files.reach (files.start path.text) (steps path.text).dropLast = .ok directory)
    (hdots : isDots last = true) : files.EnsuresStep path directory last := by
  have hdirectory := get?_of_reach hreach
  have hmake := makeDirectory_of_reach hends hcheck hreach
  have hlast : last = ".." := by
    have hstep := hends.isStep_last
    unfold isStep at hstep
    unfold isDots at hdots
    grind
  have hstep : files.step directory last = .ok directory.dropLast :=
    step_eq_ok_iff.mpr ⟨hdirectory, by simp [advance?, hlast]⟩
  have haround := htree _ _ hdirectory
  have hfollow := follow_of_enter (enter_eq_ok_iff.mpr haround)
  have hinner : files.isDirectory path = true := by
    refine (isDirectory_iff_reach_last hends hcheck hreach).mpr ⟨directory.dropLast, ?_⟩
    rw [reach_cons]
    simp only [hstep, bind, Except.bind, hfollow]
    exact reach_nil_eq_ok_iff.mpr ⟨rfl, haround⟩
  refine Or.inl ⟨directory.dropLast, files, ?_, ?_⟩
  · rw [descend_cons_of_ne_none hstep (by simp [haround]) hfollow,
      if_neg fun hstop => hstop.2 haround, descend]
  · rw [ensureDirectory, hmake, if_pos hdots]
    simp only [if_pos hinner]

/-- A name that is too long leads nowhere. -/
theorem ensuresStep_of_step_eq_error (hends : EndsIn path.text front last)
    (hcheck : checkPath path.text = .ok ())
    (hreach : files.reach (files.start path.text) (steps path.text).dropLast = .ok directory)
    (hdots : ¬ isDots last = true) {e : FileError} (hstep : files.step directory last = .error e) :
    files.EnsuresStep path directory last := by
  have hmake := makeDirectory_of_reach hends hcheck hreach
  have hthere := isDirectory_iff_reach_last hends hcheck hreach
  rw [reach_cons, hstep] at hthere
  rw [if_neg hdots, hstep] at hmake
  have hnot : files.isDirectory path = false := by
    rw [Bool.eq_false_iff, Ne, hthere]
    simp [bind, Except.bind]
  refine Or.inr ⟨e, ?_, descend_cons_of_error hstep, ?_⟩
  · simp [eq_nameTooLong_of_step (get?_of_reach hreach) hstep]
  · rw [ensureDirectory, hmake]
    simp [bind, Except.bind, hnot]

/-- A name leads to nothing, where the directory is made, or to what is there. -/
theorem ensuresStep_of_follow (hends : EndsIn path.text front last)
    (hcheck : checkPath path.text = .ok ())
    (hreach : files.reach (files.start path.text) (steps path.text).dropLast = .ok directory)
    (hdots : ¬ isDots last = true) {next reached : Location}
    (hstep : files.step directory last = .ok next) (hfollow : files.follow next = .ok reached) :
    files.EnsuresStep path directory last := by
  have hmake := makeDirectory_of_reach hends hcheck hreach
  have hthere := isDirectory_iff_reach_last hends hcheck hreach
  rw [reach_cons] at hthere
  rw [if_neg hdots] at hmake
  simp only [hstep, bind, Except.bind, hfollow, reach_nil_eq_ok_iff] at hthere hmake
  by_cases hnone : files.get? next = none
  · refine Or.inl ⟨next, files.put next .directory, ?_, ?_⟩
    · rw [descend_cons_of_none hstep hnone, descend]
    · simp only [hnone] at hmake
      rw [ensureDirectory, hmake]
  · obtain ⟨node, hnode⟩ := Option.ne_none_iff_exists'.mp hnone
    simp only [hnode] at hmake
    by_cases hinner : files.get? reached = some .directory
    · refine Or.inl ⟨reached, files, ?_, ?_⟩
      · rw [descend_cons_of_ne_none hstep hnone hfollow, if_neg fun hstop => hstop.2 hinner,
          descend]
      · rw [ensureDirectory, hmake]
        simp only [if_pos (hthere.mpr ⟨reached, rfl, hinner⟩)]
    · have hnot : files.isDirectory path = false := by
        rw [Bool.eq_false_iff, Ne, hthere]
        rintro ⟨_, -, hdirectory⟩
        exact hinner hdirectory
      refine Or.inr ⟨.alreadyExists, by simp, ?_, ?_⟩
      · rw [descend_cons_of_ne_none hstep hnone hfollow, if_pos ⟨rfl, hinner⟩]
      · rw [ensureDirectory, hmake]
        simp [hnot]

/-- Making sure of a directory inside one that is there is going down one step. -/
theorem ensureDirectory_of_reach (htree : files.IsTree) (hends : EndsIn path.text front last)
    (hcheck : checkPath path.text = .ok ())
    (hreach : files.reach (files.start path.text) (steps path.text).dropLast = .ok directory)
    {rest : List String} (hfirm : files.firmFrom directory (last :: rest) = true) :
    files.EnsuresStep path directory last := by
  by_cases hdots : isDots last = true
  · exact ensuresStep_of_isDots htree hends hcheck hreach hdots
  · cases hstep : files.step directory last with
    | error e => exact ensuresStep_of_step_eq_error hends hcheck hreach hdots hstep
    | ok next =>
      obtain ⟨-, hadvance⟩ := step_eq_ok_iff.mp hstep
      obtain ⟨reached, hfollow, -⟩ := of_firmFrom_cons hfirm hadvance
      exact ensuresStep_of_follow hends hcheck hreach hdots hstep hfollow

end LastStep

/-- Making sure of a directory fails as its path does, if what is around its last step cannot be
reached. -/
theorem ensureDirectory_of_reach_eq_error {path : Path} {front : List String} {last : String}
    {e : FileError} (hends : EndsIn path.text front last)
    (hcheck : checkPath path.text = .ok ())
    (hreach : files.reach (files.start path.text) (steps path.text).dropLast = .error e) :
    files.ensureDirectory path = .error e := by
  have hmake : files.makeDirectory path = .error e := by
    rw [makeDirectory, around_of_endsIn hends, hcheck, hreach]
    rfl
  have hnot : files.isDirectory path = false := by
    rw [hends.steps_eq, List.dropLast_concat] at hreach
    rw [Bool.eq_false_iff, Ne, isDirectory_iff_reach hcheck, hends.steps_eq, reach_append, hreach]
    simp [bind, Except.bind]
  rw [ensureDirectory, hmake]
  simp [hnot]

/-- Going down to the last step of a path, after what is missing around it was made. -/
theorem ensureDirectory_of_descend {path : Path} {front outer : List String} {last next : String}
    (htree : files.IsTree) (hends : EndsIn path.text front last)
    (hcheck : checkPath path.text = .ok ())
    (hstart : files.get? (files.start path.text) = some .directory)
    (hfront : (steps path.text).dropLast = outer)
    (hfirm : files.firmFrom (files.start path.text) (outer ++ ([last] ++ [next])) = true)
    (hreach : files.reach (files.start path.text) outer = .error .notFound) :
    (match ((files.descend (files.start path.text) outer).1.map fun _ => (),
        (files.descend (files.start path.text) outer).2) with
      | (.error e, files) => (.error e, files)
      | (.ok (), files) =>
        match files.ensureDirectory path with
        | .ok files => (.ok (), files)
        | .error e => (.error e, files)) =
      ((files.descend (files.start path.text) (outer ++ [last])).1.map fun _ => (),
        (files.descend (files.start path.text) (outer ++ [last])).2) := by
  have hfirmOuter : files.firmFrom (files.start path.text) (outer ++ [last]) = true :=
    firmFrom_of_append (by rwa [← List.append_assoc] at hfirm)
  have hkeeps : Keeps [] files (files.descend (files.start path.text) outer).2 :=
    keeps_descend _ htree
  rw [descend_append _ (descend_ne_alreadyExists htree hfirmOuter hreach)]
  rcases hdown : files.descend (files.start path.text) outer with ⟨_ | directory, after⟩
  · rfl
  · rw [hdown] at hkeeps
    have hinside := reach_descend htree hstart hdown
    have hlast := firmFrom_of_reach (hkeeps.firmFrom htree hfirm) hinside
    rw [← hfront, ← hkeeps.start_eq] at hinside
    simp only [Except.map]
    rcases ensureDirectory_of_reach hkeeps.isTree hends hcheck hinside hlast with
      ⟨made, final, hdescend, hensure⟩ | ⟨e, -, hdescend, hensure⟩
    · rw [hensure, hdescend]
    · rw [hensure, hdescend]

/-- A path is not empty whose steps cannot be taken from a directory that is there. -/
theorem isEmpty_of_reach_eq_error {parent : Path} {e : FileError}
    (hdirectory : files.get? location = some .directory)
    (hreach : files.reach location (steps parent.text) = .error e) :
    parent.text.isEmpty = false := by
  rw [Bool.eq_false_iff]
  intro hempty
  have hnil : steps parent.text = [] := by
    rw [String.isEmpty_iff.mp hempty]
    decide
  rw [hnil, reach_nil_eq_ok_iff.mpr ⟨rfl, hdirectory⟩] at hreach
  exact absurd hreach (by simp)

/-- The directory around one that cannot be reached: its path can be gone as well, from the same
place, and takes all steps but the last. -/
theorem exists_parent_of_reach_eq_error {path : Path} {e : FileError}
    (hcheck : checkPath path.text = .ok ())
    (hstart : files.get? (files.start path.text) = some .directory) (hsteps : steps path.text ≠ [])
    (hreach : files.reach (files.start path.text) (steps path.text).dropLast = .error e) :
    ∃ parent, path.parent? = some parent ∧ parent.Trimmed ∧ checkPath parent.text = .ok () ∧
      files.start parent.text = files.start path.text ∧
      steps parent.text = (steps path.text).dropLast := by
  obtain ⟨parent, hparent⟩ : ∃ parent, path.parent? = some parent := by
    refine Option.isSome_iff_exists.mp (Path.parent?_isSome fun hnil => hsteps ?_)
    rw [steps_eq_names, hnil, List.map_nil]
  have haround := Path.isAround_of_parent? hparent
  have houter := steps_of_isAround haround
  have hnonempty := isEmpty_of_reach_eq_error hstart (houter.symm ▸ hreach)
  exact ⟨parent, hparent, haround.trimmed,
    checkPath_of_front hcheck haround.prefix_text hnonempty, start_of_isAround haround, houter⟩

/-- **Making a directory with those around it is going down its path**, if that is firm. -/
theorem ensureTree_eq_descend {fuel : Nat} {path : Path} {next : String} (htree : files.IsTree)
    (htrimmed : path.Trimmed) (hcheck : checkPath path.text = .ok ())
    (hstart : files.get? (files.start path.text) = some .directory)
    (hfirm : files.firmFrom (files.start path.text) (steps path.text ++ [next]) = true)
    (hfuel : (steps path.text).length < fuel) :
    ensureTree fuel files path =
      ((files.descend (files.start path.text) (steps path.text)).1.map fun _ => (),
        (files.descend (files.start path.text) (steps path.text)).2) := by
  induction fuel generalizing path next with
  | zero => omega
  | succ fuel ih =>
    have hne : path.text.isEmpty = false := by
      unfold checkPath at hcheck
      split_ifs at hcheck with _ hempty
      simpa using hempty
    rw [ensureTree, if_neg (by simp [hne])]
    by_cases hsteps : steps path.text = []
    · have hthere : files.isDirectory path = true := by
        refine (isDirectory_iff_reach hcheck).mpr ⟨files.start path.text, ?_⟩
        rw [hsteps]
        exact reach_nil_eq_ok_iff.mpr ⟨rfl, hstart⟩
      rw [ensureDirectory_of_isDirectory htrimmed hthere, hsteps]
      rfl
    · obtain ⟨front, last, hends⟩ := exists_endsIn_of_trimmed htrimmed hsteps
      have hsplit : steps path.text = (steps path.text).dropLast ++ [last] := by
        rw [hends.steps_eq, List.dropLast_concat]
      generalize hfront : (steps path.text).dropLast = outer at hsplit
      rw [hsplit] at hfirm
      have hfirmOuter := firmFrom_of_append hfirm
      rw [List.append_assoc] at hfirm
      cases hreach : files.reach (files.start path.text) outer with
      | ok directory =>
        -- what is around is there, so only the last step is left
        have hlast := firmFrom_of_reach hfirm hreach
        rw [hsplit, descend_of_reach _ hreach]
        rw [← hfront] at hreach
        rcases ensureDirectory_of_reach htree hends hcheck hreach hlast with
          ⟨made, after, hdescend, hensure⟩ | ⟨e, hne, hdescend, hensure⟩
        · rw [hensure, hdescend]
          rfl
        · rw [hensure, hdescend]
          cases e with
          | notFound => exact absurd rfl hne
          | _ => rfl
      | error e =>
        have hensure := ensureDirectory_of_reach_eq_error hends hcheck (hfront ▸ hreach)
        by_cases hmissing : e = .notFound
        · -- what is around is missing, so it is made first
          subst hmissing
          obtain ⟨parent, hparent, htrimmed, hchecked, hsame, houter⟩ :=
            exists_parent_of_reach_eq_error hcheck hstart hsteps (hfront ▸ hreach)
          rw [hfront] at houter
          have hlength : outer.length < fuel := by
            rw [hsplit, List.length_append] at hfuel
            simpa using hfuel
          have hmade := ih htrimmed hchecked (hsame ▸ hstart)
            (by rw [hsame, houter]; exact hfirmOuter) (houter ▸ hlength)
          rw [hsame, houter] at hmade
          rw [hensure, hparent, hsplit]
          simp only [hmade]
          exact ensureDirectory_of_descend htree hends hcheck hstart hfront hfirm hreach
        · rw [hensure, hsplit, descend_of_reach_eq_error last hreach hmissing]
          cases e with
          | notFound => exact absurd rfl hmissing
          | _ => rfl

/-! ## Around a path -/

variable {path parent : Path}

/-- A path that no file can have, and that is not empty, is not that of a missing file. -/
theorem ne_notFound_of_checkPath {text : String} {e : FileError} (hne : text.isEmpty = false)
    (hcheck : checkPath text = .error e) : e ≠ .notFound := by
  unfold checkPath at hcheck
  rintro rfl
  split_ifs at hcheck with _ hempty
  · exact absurd hcheck (by simp)
  · exact absurd (hne.symm.trans hempty) (by simp)
  · exact absurd hcheck (by simp)

/-- No directory is made at a path that no file can have. -/
theorem ensureTree_of_checkPath_eq_error {fuel : Nat} {e : FileError}
    (hne : path.text.isEmpty = false) (hcheck : checkPath path.text = .error e) :
    ensureTree (fuel + 1) files path = (.error e, files) := by
  have hmake : files.makeDirectory path = .error e := by
    rw [makeDirectory, around, hcheck]
    rfl
  have hnot : files.isDirectory path = false := by
    rw [Bool.eq_false_iff]
    intro hdirectory
    rw [checkPath_of_isDirectory hdirectory] at hcheck
    exact absurd hcheck (by simp)
  have hensure : files.ensureDirectory path = .error e := by
    rw [ensureDirectory, hmake]
    simp [hnot]
  rw [ensureTree, if_neg (by simp [hne]), hensure]
  cases e with
  | notFound => exact absurd rfl (ne_notFound_of_checkPath hne hcheck)
  | _ => rfl

theorem length_steps_le (path : Path) : (steps path.text).length ≤ path.components.length := by
  rw [steps_eq_names, List.length_map, ← path.bodyNames_body, Path.components]
  simp

/-- The steps in front of the last one of a firm path are firm, also where they go on. -/
theorem Firm.around (h : files.Firm path) :
    ∃ next, files.firmFrom (files.start path.text) ((steps path.text).dropLast ++ [next]) =
      true := by
  rcases List.eq_nil_or_concat (steps path.text) with hnil | ⟨front, last, hsteps⟩
  · refine ⟨"", ?_⟩
    rw [hnil]
    have hadvance : advance? (files.start path.text) "" = some (files.start path.text) := by
      simp [advance?]
    simp [firmFrom, hadvance, follow_of_enter (enter_eq_ok_iff.mpr h.start), h.start]
  · refine ⟨last, ?_⟩
    have hfirm := h.firm
    rw [hsteps, List.concat_eq_append] at hfirm ⊢
    rwa [List.dropLast_concat]

/-- **Making the directory around a firm path** is going down the steps in front of its last one. -/
theorem makeParent_eq_descend (htree : files.IsTree) (hfirm : files.Firm path)
    (hparent : parentDirectory? path = some parent) :
    files.makeParent path =
      match checkPath parent.text with
      | .error e => (.error (parent, e), files)
      | .ok () =>
        match files.descend (files.start path.text) (steps path.text).dropLast with
        | (.error e, after) => (.error (parent, e), after)
        | (.ok _, after) => (.ok (), after) := by
  obtain ⟨hsome, hne⟩ := Option.filter_eq_some_iff.mp hparent
  have hne : parent.text.isEmpty = false := by simpa using hne
  have haround := Path.isAround_of_parent? hsome
  have hsame : files.start parent.text = files.start path.text := start_of_isAround haround
  have hsteps := steps_of_isAround haround
  rw [makeParent, hparent]
  simp only [makeDirectories]
  cases hcheck : checkPath parent.text with
  | error e => rw [ensureTree_of_checkPath_eq_error hne hcheck]
  | ok =>
    obtain ⟨next, hnext⟩ := hfirm.around
    have hfuel : (steps parent.text).length < parent.components.length + 2 := by
      have hlength := length_steps_le parent
      omega
    rw [ensureTree_eq_descend htree haround.trimmed hcheck (hsame ▸ hfirm.start)
      (by rw [hsame, hsteps]; exact hnext) hfuel, hsame, hsteps]
    rcases files.descend (files.start path.text) (steps path.text).dropLast with ⟨_ | _, after⟩
    · rfl
    · rfl

end Descend

end KernelCatalog.Files
