import KernelCatalog.Proofs.Files.Way
import KernelCatalog.Proofs.Path

/-!
# The steps of a path

The segments of a path that lead somewhere are its steps; an empty segment and `.` only ask for a
directory where the path has come to. So a path leads into a directory if its steps do. The path
around another one has the same steps without the last.

* `Files.reach_filter`: into which directory segments lead.
* `Files.around_of_endsIn`: the directory around the last step of a path.
* `Files.of_makeDirectory_of_trimmed`: where a directory is made.
* `Files.makeParent_of_fileAt?`: around a file there is nothing to make.
* `Files.writable_of_fileAt?`: a file can be written over.
-/

namespace KernelCatalog.Files

/-! ## Steps -/

/-- Whether a segment leads somewhere. -/
def isStep (segment : String) : Bool := segment != "" && segment != "."

/-- The steps of a path. -/
def steps (path : String) : List String := (segments path).filter isStep

theorem steps_eq_names (path : Path) : steps path.text = path.names.map String.ofList := by
  have hname : isStep ∘ String.ofList = Path.isName := by
    funext piece
    have hempty : String.ofList piece = "" ↔ piece = [] := by
      rw [← String.toList_inj, String.toList_ofList]
      rfl
    have hdot : String.ofList piece = "." ↔ piece = ['.'] := by
      rw [← String.toList_inj, String.toList_ofList]
      rfl
    rw [Function.comp_apply, isStep, Path.isName, Bool.eq_iff_iff]
    simp [hempty, hdot]
  rw [steps, segments, List.filter_map, hname]
  rfl

/-- A path with a step at its end. -/
structure EndsIn (path : String) (front : List String) (last : String) : Prop where
  segments_eq : segments path = front ++ [last]
  isStep_last : isStep last = true

theorem EndsIn.steps_eq {path last : String} {front : List String} (h : EndsIn path front last) :
    steps path = front.filter isStep ++ [last] := by
  rw [steps, h.segments_eq, List.filter_append, List.filter_cons_of_pos h.isStep_last,
    List.filter_nil]

theorem EndsIn.ending_eq {path last : String} {front : List String} (h : EndsIn path front last) :
    ending path = (front, last, false) := by
  have hlast : last ≠ "" := by
    rintro rfl
    exact absurd h.isStep_last (by decide)
  unfold ending
  rw [h.segments_eq, List.reverse_append, List.reverse_singleton, List.singleton_append]
  dsimp only
  rw [List.dropWhile_cons_of_neg (by simpa using hlast)]
  simp [hlast]

theorem exists_endsIn_of_trimmed {path : Path} (h : path.Trimmed) (hne : steps path.text ≠ []) :
    ∃ front last, EndsIn path.text front last := by
  rcases h with hnames | ⟨front, name, hpieces, hname⟩
  · exact absurd (by rw [steps_eq_names, hnames, List.map_nil]) hne
  · refine ⟨front.map String.ofList, String.ofList name, ?_, ?_⟩
    · rw [segments, hpieces, List.map_append, List.map_singleton]
    · have hmem : String.ofList name ∈ steps path.text := by
        rw [steps_eq_names]
        refine List.mem_map_of_mem ?_
        rw [Path.names, Path.bodyNames, hpieces]
        exact List.mem_filter.mpr ⟨by simp, hname⟩
      exact (List.mem_filter.mp hmem).2

/-- The last segment of a path without steps stands for a directory that exists. -/
theorem isDots_ending {path : String} (h : steps path = []) : isDots (ending path).2.1 = true := by
  unfold ending
  dsimp only
  split
  · rfl
  · next last front hback =>
    have hmem : last ∈ segments path := by
      rw [← List.mem_reverse]
      exact (List.dropWhile_suffix _).subset (hback ▸ List.mem_cons_self)
    have hnot : isStep last = false := by
      rw [steps, List.filter_eq_nil_iff] at h
      exact Bool.eq_false_iff.mpr (h last hmem)
    unfold isStep at hnot
    unfold isDots
    grind

theorem steps_of_ending {path last : String} {front : List String} {slashed : Bool}
    (h : ending path = (front, last, slashed)) :
    steps path = front.filter isStep ++ [last].filter isStep := by
  have hsplit := (segments path).reverse.takeWhile_append_dropWhile (p := (· = ""))
  have hblank : ((segments path).reverse.takeWhile (· = "")).filter isStep = [] := by
    rw [List.filter_eq_nil_iff]
    intro segment hmem
    have hall := List.all_takeWhile (p := fun text => decide (text = ""))
      (l := (segments path).reverse)
    have hempty : segment = "" := by simpa using List.all_eq_true.mp hall segment hmem
    rw [hempty]
    decide
  have hsteps : (steps path).reverse =
      ((segments path).reverse.dropWhile (· = "")).filter isStep := by
    rw [steps, ← List.filter_reverse, ← hsplit, List.filter_append, hsplit, hblank, List.nil_append]
  unfold ending at h
  dsimp only at h
  split at h
  · next hnil =>
    obtain ⟨rfl, hrest⟩ := Prod.mk.inj h
    obtain ⟨rfl, -⟩ := Prod.mk.inj hrest
    rw [hnil] at hsteps
    exact List.reverse_eq_nil_iff.mp hsteps
  · next name others hback =>
    obtain ⟨rfl, hrest⟩ := Prod.mk.inj h
    obtain ⟨rfl, -⟩ := Prod.mk.inj hrest
    rw [hback] at hsteps
    rw [← List.reverse_reverse (steps path), hsteps, ← List.filter_append, ← List.filter_reverse,
      List.reverse_cons]

theorem steps_of_isAround {parent path : Path} (h : parent.IsAround path) :
    steps parent.text = (steps path.text).dropLast := by
  rw [steps_eq_names, steps_eq_names, h.names_eq, List.map_dropLast]

/-- A text in front of another one is not longer. -/
theorem utf8ByteSize_le_of_front {front text : String} (h : front.toList <+: text.toList) :
    front.utf8ByteSize ≤ text.utf8ByteSize := by
  obtain ⟨rest, hrest⟩ := h
  have htext : text = front ++ String.ofList rest := by
    rw [← String.toList_inj, String.toList_append, String.toList_ofList, hrest]
  rw [htext, String.utf8ByteSize_append]
  omega

/-- A path around one that a file can have is such a path too. -/
theorem checkPath_of_front {front text : String} (h : checkPath text = .ok ())
    (hfront : front.toList <+: text.toList) (hne : front.isEmpty = false) :
    checkPath front = .ok () := by
  unfold checkPath at h ⊢
  split_ifs at h with hnul hempty hlong
  have hsize := utf8ByteSize_le_of_front hfront
  have hclean : front.toList.contains '\x00' = false := by
    simp only [List.contains_eq_mem, decide_eq_false_iff_not, decide_eq_true_eq] at hnul ⊢
    exact fun hmem => hnul (hfront.subset hmem)
  rw [if_neg (by simp only [hclean]; decide), if_neg (by simp [hne]), if_neg (by omega)]

section Reach

variable {files : Files}

theorem start_of_isAround {parent path : Path} (h : parent.IsAround path) :
    files.start parent.text = files.start path.text := by
  have habsolute : (Path.mk parent.text).isAbsolute = (Path.mk path.text).isAbsolute :=
    h.isAbsolute_eq
  rw [start, start, startFrom, startFrom, habsolute]

/-! ## Reaching directories -/

/-- The directory that segments lead into. -/
def reach (files : Files) (location : Location) (segments : List String) :
    Except FileError Location := do
  let directory ← files.walk location segments
  files.enter directory
  .ok directory

/-- A directory is reached where segments lead to one. -/
theorem reach_eq_ok_iff {location directory : Location} {segments : List String} :
    files.reach location segments = .ok directory ↔
      files.walk location segments = .ok directory ∧ files.get? directory = some .directory := by
  rw [← enter_eq_ok_iff]
  constructor
  · intro h
    obtain ⟨reached, hwalk, h⟩ := of_bind_eq_ok h
    obtain ⟨_, henter, h⟩ := of_bind_eq_ok h
    obtain rfl := Except.ok.inj h
    exact ⟨hwalk, henter⟩
  · rintro ⟨hwalk, henter⟩
    simp [reach, hwalk, henter, bind, Except.bind]

/-- Nothing is reached from where there is no directory. -/
theorem reach_of_enter_error {location : Location} {e : FileError}
    (h : files.enter location = .error e) (segments : List String) :
    files.reach location segments = .error e := by
  cases segments with
  | nil => simp [reach, walk, walkBy, h, bind, Except.bind]
  | cons segment rest => simp [reach, walk, walkBy, step, h, bind, Except.bind]

theorem reach_cons (location : Location) (segment : String) (rest : List String) :
    files.reach location (segment :: rest) =
      (do files.reach (← files.follow (← files.step location segment)) rest) := by
  rw [reach, walk, walkBy, bind_assoc]
  refine congrArg _ (funext fun next => ?_)
  rw [bind_assoc]
  rfl

theorem follow_of_enter {location : Location} (h : files.enter location = .ok ()) :
    files.follow location = .ok location := by
  rw [enter_eq_ok_iff] at h
  exact follow_of_linkIn?_eq_none (by simp [linkIn?, h])

/-- **Segments lead into the directory that their steps lead into.** -/
theorem reach_filter (location : Location) (segments : List String) :
    files.reach location segments = files.reach location (segments.filter isStep) := by
  induction segments generalizing location with
  | nil => rfl
  | cons segment rest ih =>
    by_cases hstep : isStep segment = true
    · rw [List.filter_cons_of_pos hstep, reach_cons, reach_cons]
      refine congrArg _ (funext fun next => congrArg _ (funext fun reached => ?_))
      exact ih reached
    · have hblank : segment = "" ∨ segment = "." := by
        unfold isStep at hstep
        grind
      rw [List.filter_cons_of_neg hstep]
      cases henter : files.enter location with
      | error e => rw [reach_of_enter_error henter, reach_of_enter_error henter]
      | ok =>
        rw [← ih, reach_cons, step, henter]
        simp only [bind, Except.bind, if_pos hblank]
        rw [follow_of_enter henter]

/-- A path is that of a directory if its steps lead into one. -/
theorem isDirectory_iff_reach {path : Path} (hcheck : checkPath path.text = .ok ()) :
    files.isDirectory path = true ↔
      ∃ directory, files.reach (files.start path.text) (steps path.text) = .ok directory := by
  have hstat : files.isDirectory path = true ↔ files.stat path = .ok .directory := by
    unfold isDirectory
    split
    · next h => simp [h]
    · next h => simpa using h
  rw [hstat, stat_eq_ok_iff, steps, ← reach_filter]
  unfold locate
  rw [hcheck]
  constructor
  · rintro ⟨directory, hwalk, hget⟩
    exact ⟨directory, reach_eq_ok_iff.mpr ⟨hwalk, hget⟩⟩
  · rintro ⟨directory, hreach⟩
    exact ⟨directory, reach_eq_ok_iff.mp hreach⟩

theorem reach_nil_eq_ok_iff {location directory : Location} :
    files.reach location [] = .ok directory ↔
      directory = location ∧ files.get? location = some .directory := by
  rw [← enter_eq_ok_iff]
  cases henter : files.enter location with
  | error e => simp [reach_of_enter_error henter]
  | ok => simp [reach, walk, walkBy, henter, bind, Except.bind, eq_comm]

theorem reach_append (location : Location) (front rest : List String) :
    files.reach location (front ++ rest) =
      (do files.reach (← files.reach location front) rest) := by
  induction front generalizing location with
  | nil =>
    cases henter : files.enter location with
    | error e =>
      rw [List.nil_append, reach_of_enter_error henter, reach_of_enter_error henter]
      rfl
    | ok =>
      rw [List.nil_append, reach_nil_eq_ok_iff.mpr ⟨rfl, enter_eq_ok_iff.mp henter⟩]
      rfl
  | cons segment more ih =>
    rw [List.cons_append, reach_cons, reach_cons, bind_assoc]
    refine congrArg _ (funext fun next => ?_)
    rw [bind_assoc]
    exact congrArg _ (funext fun reached => ih reached)

theorem get?_of_reach {location directory : Location} {segments : List String}
    (h : files.reach location segments = .ok directory) :
    files.get? directory = some .directory :=
  (reach_eq_ok_iff.mp h).2

/-! ## The directory around the last step -/

variable {path : Path} {front : List String} {last : String}

/-- The directory around the last name of a path is where the steps in front of it lead. -/
theorem around_eq_reach (files : Files) (path : Path) :
    files.around path = (do
      checkPath path.text
      .ok (← files.reach (files.start path.text) ((ending path.text).1.filter isStep),
        (ending path.text).2)) := by
  rw [← reach_filter, around]
  refine congrArg _ (funext fun _ => ?_)
  dsimp only
  rw [reach, bind_assoc]
  refine congrArg _ (funext fun directory => ?_)
  rw [bind_assoc]
  rfl

/-- **The directory around the last step of a path** is where the steps in front of it lead. -/
theorem around_of_endsIn (h : EndsIn path.text front last) :
    files.around path = (do
      checkPath path.text
      .ok (← files.reach (files.start path.text) (steps path.text).dropLast, last, false)) := by
  rw [around_eq_reach, h.ending_eq, h.steps_eq, List.dropLast_concat]

/-- What is found at a path that is no directory is found at its last step. -/
theorem exists_endsIn_of_fileAt? {file : Content × Permissions}
    (h : files.fileAt? path = some file) :
    ∃ front last, EndsIn path.text front last := by
  obtain ⟨location, hlocate, hfile⟩ := fileAt?_eq_some_iff.mp h
  obtain ⟨_, -, hwalk⟩ := of_bind_eq_ok hlocate
  have hnot : files.enter location ≠ .ok () := by
    intro henter
    rw [enter_eq_ok_iff] at henter
    simp [fileIn?, henter] at hfile
  rcases List.eq_nil_or_concat (segments path.text) with hnil | ⟨front, last, hsegments⟩
  · rw [segments, List.map_eq_nil_iff] at hnil
    exact absurd hnil (Text.pieces_ne_nil _ _)
  · rw [List.concat_eq_append] at hsegments
    refine ⟨front, last, hsegments, ?_⟩
    by_contra hblank
    -- a last segment that leads nowhere asks for a directory
    have hblank : last = "" ∨ last = "." := by
      unfold isStep at hblank
      grind
    rw [hsegments, walk, walkBy_append] at hwalk
    obtain ⟨directory, -, hwalk⟩ := of_bind_eq_ok hwalk
    obtain ⟨found, hstep, hwalk⟩ := of_bind_eq_ok hwalk
    obtain ⟨reached, hfollow, hwalk⟩ := of_bind_eq_ok hwalk
    obtain rfl := Except.ok.inj hwalk
    obtain ⟨_, henter, hstep⟩ := of_bind_eq_ok hstep
    rw [if_pos hblank] at hstep
    obtain rfl := Except.ok.inj hstep
    rw [follow_of_enter henter] at hfollow
    obtain rfl := Except.ok.inj hfollow
    exact hnot henter

/-! ## What is there already -/

/-- A path of a directory is one that a file can have. -/
theorem checkPath_of_isDirectory (h : files.isDirectory path = true) :
    checkPath path.text = .ok () := by
  unfold isDirectory at h
  split at h
  · next hstat =>
    obtain ⟨location, hlocate, -⟩ := stat_eq_ok_iff.mp hstat
    obtain ⟨_, hcheck, -⟩ := of_bind_eq_ok hlocate
    exact hcheck
  · exact absurd h (by simp)

/-- **Where a directory is made**: at the last step of its path, if the text of the path ends
there. -/
theorem of_makeDirectory_of_trimmed (htrimmed : path.Trimmed) {after : Files}
    (h : files.makeDirectory path = .ok after) :
    ∃ front last directory found, EndsIn path.text front last ∧ checkPath path.text = .ok () ∧
      files.reach (files.start path.text) (steps path.text).dropLast = .ok directory ∧
      files.step directory last = .ok found ∧ files.get? found = none ∧
      after = files.put found .directory := by
  obtain ⟨⟨directory, last, slashed⟩, haround, h⟩ := of_bind_eq_ok h
  dsimp only at h
  split at h
  · exact absurd h (by simp)
  · next hdots =>
    obtain ⟨found, hstep, h⟩ := of_bind_eq_ok h
    split at h
    · exact absurd h (by simp)
    · next hnone =>
      obtain rfl := Except.ok.inj h
      obtain ⟨hcheck, _, hending, -⟩ := of_around_eq_ok haround
      have hsteps : steps path.text ≠ [] := by
        intro hnil
        have hlast := isDots_ending hnil
        rw [hending] at hlast
        exact hdots hlast
      obtain ⟨front, name, hends⟩ := exists_endsIn_of_trimmed htrimmed hsteps
      rw [around_of_endsIn hends] at haround
      obtain ⟨_, -, haround⟩ := of_bind_eq_ok haround
      obtain ⟨reached, hreach, haround⟩ := of_bind_eq_ok haround
      obtain ⟨rfl, hrest⟩ := Prod.mk.inj (Except.ok.inj haround)
      obtain ⟨rfl, -⟩ := Prod.mk.inj hrest
      exact ⟨front, name, reached, found, hends, hcheck, hreach, hstep, hnone, rfl⟩

/-- A directory that is there is not made. -/
theorem makeDirectory_ne_ok (htrimmed : path.Trimmed) (h : files.isDirectory path = true)
    (after : Files) : files.makeDirectory path ≠ .ok after := by
  intro hmake
  obtain ⟨front, last, directory, found, hends, hcheck, hreach, hstep, hnone, -⟩ :=
    of_makeDirectory_of_trimmed htrimmed hmake
  -- the last step leads to nothing, so the path cannot be that of a directory
  obtain ⟨inner, hinner⟩ := (isDirectory_iff_reach hcheck).mp h
  rw [hends.steps_eq, List.dropLast_concat] at hreach
  rw [hends.steps_eq, reach_append, hreach] at hinner
  obtain ⟨next, hnext, hinner⟩ := of_bind_eq_ok ((reach_cons ..).symm.trans hinner)
  obtain rfl := Except.ok.inj (hstep.symm.trans hnext)
  obtain ⟨target, hfollow, hinner⟩ := of_bind_eq_ok hinner
  rw [follow_of_linkIn?_eq_none (by simp [linkIn?, hnone])] at hfollow
  obtain rfl := Except.ok.inj hfollow
  rw [(reach_nil_eq_ok_iff.mp hinner).2] at hnone
  exact absurd hnone (by simp)

theorem ensureDirectory_of_isDirectory (htrimmed : path.Trimmed)
    (h : files.isDirectory path = true) : files.ensureDirectory path = .ok files := by
  unfold ensureDirectory
  split
  · next hmake => exact absurd hmake (makeDirectory_ne_ok htrimmed h _)
  · rw [if_pos h]

/-- **A path is followed by its last step** from the directory that the steps in front of it lead
into. -/
theorem of_locate_of_endsIn {location : Location} (hends : EndsIn path.text front last)
    (h : files.locate path = .ok location) :
    ∃ directory found, checkPath path.text = .ok () ∧
      files.reach (files.start path.text) (steps path.text).dropLast = .ok directory ∧
      files.step directory last = .ok found ∧ files.follow found = .ok location := by
  obtain ⟨_, hcheck, hwalk⟩ := of_bind_eq_ok h
  rw [hends.segments_eq, walk, walkBy_append] at hwalk
  obtain ⟨directory, hfront, hwalk⟩ := of_bind_eq_ok hwalk
  obtain ⟨found, hstep, hwalk⟩ := of_bind_eq_ok hwalk
  obtain ⟨reached, hfollow, hwalk⟩ := of_bind_eq_ok hwalk
  obtain rfl := Except.ok.inj hwalk
  refine ⟨directory, found, hcheck, ?_, hstep, hfollow⟩
  rw [hends.steps_eq, List.dropLast_concat, ← reach_filter, reach_eq_ok_iff]
  exact ⟨hfront, (step_eq_ok_iff.mp hstep).1⟩

/-- The path around a file is that of a directory. -/
theorem isDirectory_of_fileAt? {file : Content × Permissions} (h : files.fileAt? path = some file)
    {parent : Path} (haround : parent.IsAround path) (hne : parent.text.isEmpty = false) :
    files.isDirectory parent = true := by
  obtain ⟨front, last, hends⟩ := exists_endsIn_of_fileAt? h
  obtain ⟨location, hlocate, -⟩ := fileAt?_eq_some_iff.mp h
  obtain ⟨directory, _, hcheck, hreach, -⟩ := of_locate_of_endsIn hends hlocate
  refine (isDirectory_iff_reach (checkPath_of_front hcheck haround.prefix_text hne)).mpr ?_
  rw [start_of_isAround haround, steps_of_isAround haround]
  exact ⟨directory, hreach⟩

/-- The directories around a file are all there. -/
theorem makeDirectories_of_fileAt? {file : Content × Permissions}
    (h : files.fileAt? path = some file) {parent : Path} (haround : parent.IsAround path)
    (hne : parent.text.isEmpty = false) :
    files.makeDirectories parent = (.ok (), files) := by
  rw [makeDirectories, ensureTree, if_neg (by simp [hne]),
    ensureDirectory_of_isDirectory haround.trimmed (isDirectory_of_fileAt? h haround hne)]

/-- **Around a file there is nothing to make.** -/
theorem makeParent_of_fileAt? {file : Content × Permissions} (h : files.fileAt? path = some file) :
    files.makeParent path = (.ok (), files) := by
  unfold makeParent
  split
  · rfl
  · next parent hparent =>
    obtain ⟨hparent, hne⟩ := Option.filter_eq_some_iff.mp hparent
    have hne : parent.text.isEmpty = false := by simpa using hne
    rw [makeDirectories_of_fileAt? h (Path.isAround_of_parent? hparent) hne]

/-- **A file can be written over** if its permissions let the user. -/
theorem writable_of_fileAt? (htree : files.IsTree) {content : Content} {permissions : Permissions}
    (h : files.fileAt? path = some (content, permissions)) :
    ∃ location, files.locate path = .ok location ∧
      files.writable path =
        if files.allows permissions then .ok (location, some permissions)
        else .error .permissionDenied := by
  obtain ⟨front, last, hends⟩ := exists_endsIn_of_fileAt? h
  obtain ⟨location, hlocate, hfile⟩ := fileAt?_eq_some_iff.mp h
  obtain ⟨directory, found, hcheck, hreach, hstep, hfollow⟩ := of_locate_of_endsIn hends hlocate
  rw [fileIn?_eq_some_iff] at hfile
  have hdots : isDots last = false := by
    have hlast := hends.isStep_last
    obtain ⟨hdirectory, hadvance⟩ := step_eq_ok_iff.mp hstep
    by_contra hdots
    have hback : last = ".." := by
      unfold isStep at hlast
      unfold isDots at hdots
      grind
    -- the directory around one is no file
    have hfound : found = directory.dropLast := by simpa [advance?, hback] using hadvance.symm
    have hget : files.get? found = some .directory := hfound ▸ htree _ _ hdirectory
    rw [follow_of_enter (enter_eq_ok_iff.mpr hget)] at hfollow
    rw [← Except.ok.inj hfollow, hget] at hfile
    exact absurd hfile (by simp)
  refine ⟨location, hlocate, ?_⟩
  rw [writable, around_of_endsIn hends, hcheck, hreach]
  simp [bind, Except.bind, hdots, hstep, hfollow, hfile]

end Reach

end KernelCatalog.Files
