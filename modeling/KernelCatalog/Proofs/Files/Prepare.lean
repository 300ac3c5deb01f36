import KernelCatalog.Proofs.Files.Descend
import Mathlib.Data.List.TakeWhile

/-!
# Preparing a path for a file

The directory around a path is made, and what an earlier run left at the path is removed. After
that, the path leads to nothing, whatever links there are on it: removing takes away what stands at
the last name of the path, and a walk that comes by an empty place ends there or fails.

* `Files.reach_makeParent`: the directory around a path can be reached once it is made.
* `Files.stat_of_remove`: there is nothing at a path whose file was removed.
* `Files.stat_of_remove_eq_notFound`: there is nothing at a path where there was no file to remove.
-/

namespace KernelCatalog.Files

section Make

variable {files : Files} {path : Path}

/-! ## The directory around a path -/

/-- **A directory that was made sure of** is there. -/
theorem isDirectory_of_ensureDirectory (htree : files.IsTree) (htrimmed : path.Trimmed)
    {after : Files} (h : files.ensureDirectory path = .ok after) :
    after.isDirectory path = true := by
  unfold ensureDirectory at h
  split at h
  · next hmake =>
    obtain rfl := Except.ok.inj h
    have hkept := keeps_makeDirectory htree hmake
    obtain ⟨front, last, directory, found, hends, hcheck, hreach, hstep, hnone, rfl⟩ :=
      of_makeDirectory_of_trimmed htrimmed hmake
    have hspot := spot_of_step htree hstep hnone
    have hfound := hspot.get?_put_self .directory
    have hreach' := hkept.reach hreach
    rw [← hkept.start_eq] at hreach'
    refine (isDirectory_iff_reach_last hends hcheck hreach').mpr ⟨found, ?_⟩
    rw [reach_cons, hkept.step hstep]
    simp only [bind, Except.bind, follow_of_enter (enter_eq_ok_iff.mpr hfound)]
    exact reach_nil_eq_ok_iff.mpr ⟨rfl, hfound⟩
  · split at h
    · next hthere =>
      obtain rfl := Except.ok.inj h
      exact hthere
    · exact absurd h (by simp)

/-- A directory that was made with those around it is there. -/
theorem isDirectory_of_ensureTree {fuel : Nat} (htree : files.IsTree) (htrimmed : path.Trimmed)
    (hne : path.text.isEmpty = false) {after : Files}
    (h : ensureTree fuel files path = (.ok (), after)) : after.isDirectory path = true := by
  cases fuel with
  | zero => exact absurd (Prod.mk.inj h).1 (by simp)
  | succ fuel =>
    rw [ensureTree, if_neg (by simp [hne])] at h
    split at h
    · next hensure =>
      obtain ⟨-, rfl⟩ := Prod.mk.inj h
      exact isDirectory_of_ensureDirectory htree htrimmed hensure
    · split at h
      · exact absurd (Prod.mk.inj h).1 (by simp)
      · next parent _ =>
        have hkept := keeps_ensureTree fuel parent htree
        split at h
        · exact absurd (Prod.mk.inj h).1 (by simp)
        · next made hresult =>
          rw [hresult] at hkept
          split at h
          · next hensure =>
            obtain ⟨-, rfl⟩ := Prod.mk.inj h
            exact isDirectory_of_ensureDirectory hkept.isTree htrimmed hensure
          · exact absurd (Prod.mk.inj h).1 (by simp)
    · exact absurd (Prod.mk.inj h).1 (by simp)

/-- A path with no path around it to be made has at most one step. -/
theorem dropLast_steps_of_parentDirectory? (h : parentDirectory? path = none) :
    (steps path.text).dropLast = [] := by
  cases hparent : path.parent? with
  | none =>
    have hnames : path.names = [] := by
      by_contra hne
      have hsome := Path.parent?_isSome hne
      rw [hparent] at hsome
      exact absurd hsome (by simp)
    rw [steps_eq_names, hnames]
    rfl
  | some parent =>
    have hempty : parent.text.isEmpty = true := by
      simpa [parentDirectory?, hparent] using h
    rw [← steps_of_isAround (Path.isAround_of_parent? hparent), String.isEmpty_iff.mp hempty]
    decide

/-- **After the directory around a path is made**, the steps in front of the last one lead
into it. -/
theorem reach_makeParent (htree : files.IsTree)
    (hstart : files.get? (files.start path.text) = some .directory)
    (hok : (files.makeParent path).1 = .ok ()) :
    ∃ directory, (files.makeParent path).2.reach (files.start path.text)
      (steps path.text).dropLast = .ok directory := by
  have hkept := keeps_makeParent path htree
  cases hparent : parentDirectory? path with
  | none =>
    refine ⟨files.start path.text, ?_⟩
    rw [dropLast_steps_of_parentDirectory? hparent]
    exact reach_nil_eq_ok_iff.mpr ⟨rfl, hkept.directory _ hstart⟩
  | some parent =>
    obtain ⟨hparent', hne⟩ := Option.filter_eq_some_iff.mp hparent
    have haround := Path.isAround_of_parent? hparent'
    have hne : parent.text.isEmpty = false := by simpa using hne
    unfold makeParent at hok hkept ⊢
    rw [hparent] at hok hkept ⊢
    rcases hmake : files.makeDirectories parent with ⟨_ | _, after⟩
    · simp [hmake] at hok
    · simp only [hmake] at hkept ⊢
      have hdirectory := isDirectory_of_ensureTree htree haround.trimmed hne hmake
      have hcheck := checkPath_of_isDirectory hdirectory
      obtain ⟨directory, hreach⟩ := (isDirectory_iff_reach hcheck).mp hdirectory
      rw [hkept.start_eq, start_of_isAround haround, steps_of_isAround haround] at hreach
      exact ⟨directory, hreach⟩

end Make

/-! ## A place that was emptied -/

/-- A walk that ends at a place, or fails because something is missing. -/
def Stops (location : Location) (result : Except FileError Location) : Prop :=
  result = .ok location ∨ result = .error .notFound

section Gone

variable {before after : Files} {location : Location}

/-- Nothing is found behind a place that holds nothing. -/
theorem stops_walkBy (hgone : after.get? location = none)
    (follow : Location → Except FileError Location) (segments : List String) :
    Stops location (after.walkBy follow location segments) := by
  cases segments with
  | nil => exact Or.inl rfl
  | cons segment rest =>
    refine Or.inr ?_
    simp [walkBy, step, enter, hgone, bind, Except.bind]

variable (hgone : after.get? location = none)
  (hget : ∀ other, other ≠ location → after.get? other = before.get? other)
include hgone hget

/-- **Where one place holds nothing any more**, segments lead to where they did, or stop at that
place. -/
theorem walkBy_of_gone {follow follow' : Location → Except FileError Location}
    (hfollow : ∀ place, follow' place = follow place ∨ Stops location (follow' place))
    (start : Location) (segments : List String) :
    after.walkBy follow' start segments = before.walkBy follow start segments ∨
      Stops location (after.walkBy follow' start segments) := by
  induction segments generalizing start with
  | nil => exact Or.inl rfl
  | cons segment rest ih =>
    by_cases hstart : start = location
    · subst hstart
      exact Or.inr (stops_walkBy hgone follow' _)
    · have hstep : after.step start segment = before.step start segment := by
        rw [step, step, enter, enter, hget start hstart]
      rw [walkBy, walkBy, hstep]
      cases before.step start segment with
      | error e => exact Or.inl rfl
      | ok next =>
        simp only [bind, Except.bind]
        rcases hfollow next with hsame | hstopped | hmissing
        · rw [hsame]
          cases follow next with
          | error e => exact Or.inl rfl
          | ok reached => exact ih reached
        · rw [hstopped]
          exact Or.inr (stops_walkBy hgone follow' rest)
        · rw [hmissing]
          exact Or.inr (Or.inr rfl)

/-- A place leads to where it did, or to the place that holds nothing any more. -/
theorem followWithin_of_gone (limit : Nat) (place : Location) :
    after.followWithin limit place = before.followWithin limit place ∨
      Stops location (after.followWithin limit place) := by
  induction limit generalizing place with
  | zero =>
    by_cases hplace : place = location
    · subst hplace
      exact Or.inr (Or.inl (by simp [followWithin, hgone]))
    · refine Or.inl ?_
      unfold followWithin
      rw [hget place hplace]
      rcases before.get? place with _ | (_ | _ | _) <;> rfl
  | succ limit ih =>
    by_cases hplace : place = location
    · subst hplace
      exact Or.inr (Or.inl (by simp [followWithin, hgone]))
    · unfold followWithin
      rw [hget place hplace]
      rcases before.get? place with _ | (_ | _ | path)
      · exact Or.inl rfl
      · exact Or.inl rfl
      · exact Or.inl rfl
      · exact walkBy_of_gone hgone hget ih _ _

/-- Segments lead to where they did, or stop at the place that holds nothing any more. -/
theorem walk_of_gone (start : Location) (segments : List String) :
    after.walk start segments = before.walk start segments ∨
      Stops location (after.walk start segments) :=
  walkBy_of_gone hgone hget (followWithin_of_gone hgone hget linkLimit) start segments

end Gone

section Remove

variable {files : Files} {path : Path}

/-! ## Removing a file -/

/-- What is in front of the last name of a path, that name, and what is behind it. -/
theorem exists_segments_of_ending {path last : String} {front : List String} {slashed : Bool}
    (h : ending path = (front, last, slashed)) :
    ∃ blanks, segments path = front ++ last :: blanks := by
  have hsplit := (segments path).reverse.takeWhile_append_dropWhile (p := (· = ""))
  unfold ending at h
  dsimp only at h
  split at h
  · next hnil =>
    obtain ⟨rfl, hrest⟩ := Prod.mk.inj h
    obtain ⟨rfl, -⟩ := Prod.mk.inj hrest
    rw [List.dropWhile_eq_nil_iff] at hnil
    cases hsegments : segments path with
    | nil => exact absurd (List.map_eq_nil_iff.mp hsegments) (Text.pieces_ne_nil _ _)
    | cons segment rest =>
      have hblank := hnil segment (by simp [hsegments])
      exact ⟨rest, by rw [of_decide_eq_true hblank, List.nil_append]⟩
  · next name others hback =>
    obtain ⟨rfl, hrest⟩ := Prod.mk.inj h
    obtain ⟨rfl, -⟩ := Prod.mk.inj hrest
    rw [hback] at hsplit
    refine ⟨((segments path).reverse.takeWhile (· = "")).reverse, ?_⟩
    rw [← List.reverse_inj, List.reverse_append, List.reverse_cons, List.reverse_reverse,
      List.reverse_reverse, List.append_assoc, List.singleton_append, hsplit]

/-- A path is followed up to its last name, and on from there. -/
theorem locate_eq_walk {last : String} {front blanks : List String}
    (hcheck : checkPath path.text = .ok ()) (hsegments : segments path.text = front ++ last :: blanks)
    (files : Files) :
    files.locate path = files.walk (files.start path.text) front >>= fun directory =>
      files.walk directory (last :: blanks) := by
  rw [locate, hcheck, hsegments, walk, walkBy_append]
  rfl

/-- A path fails as the directory around it does. -/
theorem locate_of_around_eq_error {e : FileError} (h : files.around path = .error e) :
    files.locate path = .error e := by
  unfold around at h
  cases hcheck : checkPath path.text with
  | error cause =>
    rw [hcheck] at h
    rw [locate, hcheck]
    exact congrArg Except.error (Except.error.inj h)
  | ok =>
    rcases hending : ending path.text with ⟨front, last, slashed⟩
    obtain ⟨blanks, hsegments⟩ := exists_segments_of_ending hending
    rw [hcheck, hending] at h
    rw [locate_eq_walk hcheck hsegments]
    simp only [bind, Except.bind] at h ⊢
    cases hwalk : files.walk (files.start path.text) front with
    | error cause =>
      rw [hwalk] at h
      exact congrArg Except.error (Except.error.inj h)
    | ok directory =>
      rw [hwalk] at h
      cases henter : files.enter directory with
      | error cause =>
        simp only [henter] at h
        simpa [walk, walkBy, step, henter, bind, Except.bind] using h
      | ok => simp [henter] at h

/-- Where a walk to a path stops at a place that holds nothing, there is nothing at the path. -/
theorem stat_of_stops {location : Location} (hgone : files.get? location = none)
    (h : Stops location (files.locate path)) : files.stat path = .error .notFound := by
  unfold stat
  rcases h with h | h
  · simp [h, hgone, bind, Except.bind]
  · simp [h, bind, Except.bind]

/-- **There is nothing at a path whose file was removed.** -/
theorem stat_of_remove (htree : files.IsTree) {after : Files} (h : files.remove path = .ok after) :
    after.stat path = .error .notFound := by
  obtain ⟨directory, last, location, haround, hstep, -, hnot, rfl⟩ := exists_of_remove_eq_ok h
  have hne : location ≠ [] := by
    rintro rfl
    exact hnot rfl
  have hgone : (files.erase location).get? location = none := by
    rw [files.get?_erase hne, if_pos (by simp)]
  have hget : ∀ other, other ≠ location →
      (files.erase location).get? other = files.get? other :=
    fun _ hother => htree.get?_erase_of_ne hnot hother
  obtain ⟨hcheck, front, hending, hwalk⟩ := of_around_eq_ok haround
  refine stat_of_stops hgone ?_
  rw [locate_eq_walk hcheck (segments_of_ending hending)]
  rcases walk_of_gone hgone hget ((files.erase location).start path.text) front with
    hsame | hstop | hstop
  · -- the directory around the last name is where it was, and the name leads to the empty place
    obtain ⟨hdirectory, hadvance⟩ := step_eq_ok_iff.mp hstep
    have hother : directory ≠ location := by
      rintro rfl
      exact hnot hdirectory
    have hstep' : (files.erase location).step directory last = .ok location :=
      step_eq_ok_iff.mpr ⟨(hget directory hother).trans hdirectory, hadvance⟩
    have hfollow : (files.erase location).follow location = .ok location :=
      follow_of_linkIn?_eq_none (linkIn?_of_none hgone)
    rw [hsame]
    refine Or.inl ?_
    have hwalk : files.walk ((files.erase location).start path.text) front = .ok directory := hwalk
    rw [hwalk]
    simp [walk, walkBy, bind, Except.bind, hstep', hfollow]
  · rw [hstop]
    exact stops_walkBy hgone _ _
  · rw [hstop]
    exact Or.inr rfl

/-- **There is nothing at a path where there was no file to remove.** -/
theorem stat_of_remove_eq_notFound (h : files.remove path = .error .notFound) :
    files.stat path = .error .notFound := by
  cases haround : files.around path with
  | error e =>
    have hmissing : e = .notFound := by
      rw [remove, haround] at h
      exact Except.error.inj h
    rw [stat, locate_of_around_eq_error haround, hmissing]
    rfl
  | ok found =>
    obtain ⟨directory, last, slashed⟩ := found
    obtain ⟨hcheck, front, hending, hwalk⟩ := of_around_eq_ok haround
    obtain ⟨blanks, hsegments⟩ := exists_segments_of_ending hending
    have hlocate : files.locate path = files.walk directory (last :: blanks) := by
      rw [locate_eq_walk hcheck hsegments, hwalk]
      rfl
    rw [remove, haround] at h
    simp only [bind, Except.bind] at h
    split at h
    · exact absurd h (by simp)
    · cases hstep : files.step directory last with
      | error e =>
        have hmissing : e = .notFound := by
          rw [hstep] at h
          exact Except.error.inj h
        rw [stat, hlocate]
        simp [walk, walkBy, hstep, hmissing, bind, Except.bind]
      | ok location =>
        simp only [hstep] at h
        split at h
        · next hnone =>
          refine stat_of_stops hnone ?_
          have hfollow := follow_of_linkIn?_eq_none (linkIn?_of_none hnone)
          rw [hlocate, walk, walkBy]
          simp only [hstep, bind, Except.bind, hfollow]
          exact stops_walkBy hnone _ _
        · exact absurd h (by simp)
        · split at h
          · exact absurd h (by simp)
          · exact absurd h (by simp)

/-! ## A file that turns up -/

/-- **A file that turns up at a path** is at the place that the path leads to already, if the path
has that place in both trees and the directory around it is there. -/
theorem locate_of_fileAt? {after : Files} {directory location : Location}
    {file : Content × Permissions} (hplace : after.place? path = files.place? path)
    (hends : files.endsInLink path = false)
    (hreach : files.reach (files.start path.text) (steps path.text).dropLast = .ok directory)
    (hfile : after.fileAt? path = some file) (hlocate : after.locate path = .ok location) :
    files.locate path = .ok location := by
  obtain ⟨front, last, hlast⟩ := exists_endsIn_of_fileAt? hfile
  obtain ⟨_, _, hcheck, -, hstep, -⟩ := of_locate_of_endsIn hlast hlocate
  -- whether a name can be gone on by does not depend on where it is met
  obtain ⟨next, hnext⟩ : ∃ next, files.step directory last = .ok next := by
    obtain ⟨-, hadvance⟩ := step_eq_ok_iff.mp hstep
    simp only [step_eq_ok_iff, get?_of_reach hreach, true_and]
    unfold advance? at hadvance ⊢
    split_ifs at hadvance ⊢ <;> exact ⟨_, rfl⟩
  have haround : files.around path = .ok (directory, last, false) := by
    rw [around_of_endsIn hlast, hcheck, hreach]
    rfl
  have hlink := linkIn?_of_around hends haround hnext
  have hlocated := locate_of_around haround hnext (follow_of_linkIn?_eq_none hlink)
  rw [place?_of_locate hlocate, place?_of_locate hlocated] at hplace
  rw [hlocated, Option.some.inj hplace]

end Remove

end KernelCatalog.Files
