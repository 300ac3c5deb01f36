import KernelCatalog.Files.Access
import KernelCatalog.Proofs.Ledger.Handle
import Mathlib.Data.List.Induction

/-!
# The way of a path

The text of a path and the links in the tree tell the way that the path takes: the places that it
goes on from, and the place that it ends at. The files and directories of the tree have no say in
that. They only tell whether the path can be followed, which takes a directory at each place that
the way goes on from.

* `Files.locate_eq_ok_iff`: when a path can be followed, and to which place.
* `Files.fileAt?_eq_some_iff`: which file is found at a path.
* `Files.of_writable_eq_ok`, `Files.of_remove_eq_ok`: where a file is written or removed.
-/

namespace KernelCatalog.Files

/-! ## Trees -/

/-- Everything lies in a directory. -/
def IsTree (files : Files) : Prop :=
  ∀ location node, files.get? location = some node →
    files.get? location.dropLast = some .directory

/-- It is enough to look at what the tree lists. -/
theorem isTree_of_entries {files : Files}
    (h : ∀ entry ∈ files.entries, files.get? entry.1.dropLast = some .directory) :
    files.IsTree := by
  intro location node hnode
  cases location with
  | nil => rfl
  | cons name rest =>
    have hlookup : files.entries.lookup (name :: rest) = some node := hnode
    obtain ⟨earlier, later, hentries, -⟩ := List.lookup_eq_some_iff.mp hlookup
    exact h (name :: rest, node) (by simp [hentries])

/-- In a tree, there are directories all the way to a node. -/
theorem IsTree.directory_of_prefix {files : Files} (htree : files.IsTree)
    {location inner : Location} {node : Node} (hnode : files.get? inner = some node)
    (hbelow : location <+: inner) (hne : location ≠ inner) :
    files.get? location = some .directory := by
  induction inner using List.reverseRecOn generalizing node with
  | nil => exact absurd (List.prefix_nil.mp hbelow) hne
  | append_singleton front last ih =>
    have hfront := htree _ _ hnode
    rw [List.dropLast_concat] at hfront
    rcases List.prefix_concat_iff.mp hbelow with heq | hbelow
    · exact absurd heq hne
    · by_cases heq : location = front
      · rwa [heq]
      · exact ih hfront hbelow heq

/-- The path of the link at a place. -/
def linkIn? (files : Files) (location : Location) : Option String :=
  match files.get? location with
  | some (.link path) => some path
  | _ => none

/-- The file at a place, with its permissions. -/
def fileIn? (files : Files) (location : Location) : Option (Content × Permissions) :=
  match files.get? location with
  | some (.file content permissions) => some (content, permissions)
  | _ => none

/-- There is a file at a place if there is a node of that kind. -/
theorem fileIn?_eq_some_iff {files : Files} {location : Location} {content : Content}
    {permissions : Permissions} :
    files.fileIn? location = some (content, permissions) ↔
      files.get? location = some (.file content permissions) := by
  unfold fileIn?
  split
  · next hfile => simp [hfile]
  · next hnot => simpa using hnot content permissions

/-! ## Ways -/

/-- Where a segment leads from a place, unless it is too long for a name. -/
def advance? (location : Location) (segment : String) : Option Location :=
  if segment = "" ∨ segment = "." then some location
  else if segment = ".." then some location.dropLast
  else if nameLimit < segment.utf8ByteSize then none
  else some (location ++ [segment])

/-- A way through the tree: the places that it goes on from, and the place that it ends at. -/
structure Way where
  passed : List Location
  last : Location

/-- The way that segments take, given the way that each place takes. -/
def wayBy (lead : Location → Option Way) : Location → List String → Option Way
  | location, [] => some ⟨[], location⟩
  | location, segment :: rest => do
    let first ← lead (← advance? location segment)
    let later ← wayBy lead first.last rest
    some ⟨location :: (first.passed ++ later.passed), later.last⟩

/-- A way takes its first step where that leads, and goes on from there. -/
theorem of_wayBy_cons {lead : Location → Option Way} {location : Location} {segment : String}
    {rest : List String} {way : Way} (h : wayBy lead location (segment :: rest) = some way) :
    ∃ next first later, advance? location segment = some next ∧ lead next = some first ∧
      wayBy lead first.last rest = some later ∧
      way = ⟨location :: (first.passed ++ later.passed), later.last⟩ := by
  obtain ⟨next, hnext, h⟩ := Option.bind_eq_some_iff.mp h
  obtain ⟨first, hfirst, h⟩ := Option.bind_eq_some_iff.mp h
  obtain ⟨later, hlater, h⟩ := Option.bind_eq_some_iff.mp h
  exact ⟨next, first, later, hnext, hfirst, hlater, (Option.some.inj h).symm⟩

/-- The way from a place through at most so many links, each to the next. -/
def wayWithin (files : Files) : Nat → Location → Option Way
  | limit, location =>
    match files.linkIn? location, limit with
    | none, _ => some ⟨[], location⟩
    | some _, 0 => none
    | some path, limit + 1 =>
      wayBy (files.wayWithin limit) (startFrom location.dropLast path) (segments path)

/-- The way that segments take. -/
def wayFrom (files : Files) (location : Location) (segments : List String) : Option Way :=
  wayBy (files.wayWithin linkLimit) location segments

/-- The way of a path. -/
def way? (files : Files) (path : Path) : Option Way :=
  match checkPath path.text with
  | .ok () => files.wayFrom (files.start path.text) (segments path.text)
  | .error _ => none

/-- The place that a path leads to. -/
def place? (files : Files) (path : Path) : Option Location := (files.way? path).map Way.last

/-- The places that paths lead to. -/
def places (files : Files) (paths : List Path) : List Location := paths.filterMap files.place?

/-- Whether the last name of a path is that of a link. -/
def endsInLink (files : Files) (path : Path) : Bool :=
  let (front, last, _) := ending path.text
  ((files.wayFrom (files.start path.text) front).bind fun way =>
    (advance? way.last last).bind files.linkIn?).isSome

/-- There is a directory wherever a way goes on. -/
def Passable (files : Files) (way : Way) : Prop :=
  ∀ location ∈ way.passed, files.get? location = some .directory

/-- A way can be followed to its end. -/
def Leads (files : Files) (way : Option Way) (location : Location) : Prop :=
  ∃ taken, way = some taken ∧ files.Passable taken ∧ taken.last = location

section Follow

variable {files : Files}

theorem enter_eq_ok_iff {location : Location} :
    files.enter location = .ok () ↔ files.get? location = some .directory := by
  unfold enter
  split <;> simp_all

theorem step_eq_ok_iff {location next : Location} {segment : String} :
    files.step location segment = .ok next ↔
      files.get? location = some .directory ∧ advance? location segment = some next := by
  rw [← enter_eq_ok_iff]
  cases hentered : files.enter location with
  | error e => simp [step, hentered, bind, Except.bind]
  | ok =>
    simp only [step, hentered, bind, Except.bind, advance?, true_and]
    split_ifs <;> simp

/-- **Segments can be followed** if there is a directory wherever their way goes on. -/
theorem walkBy_eq_ok_iff {follow : Location → Except FileError Location}
    {lead : Location → Option Way}
    (hlead : ∀ location next, follow location = .ok next ↔ files.Leads (lead location) next)
    {start location : Location} {segments : List String} :
    files.walkBy follow start segments = .ok location ↔
      files.Leads (wayBy lead start segments) location := by
  -- a way is put together as the walk is: a step, the way of the place it leads to, the rest
  induction segments generalizing start with
  | nil => simp [walkBy, wayBy, Leads, Passable]
  | cons segment rest ih =>
    rw [walkBy, wayBy]
    constructor
    · intro h
      obtain ⟨next, hstep, h⟩ := of_bind_eq_ok h
      obtain ⟨reached, hfollow, h⟩ := of_bind_eq_ok h
      obtain ⟨hdirectory, hnext⟩ := step_eq_ok_iff.mp hstep
      obtain ⟨first, hfirst, hpassed, rfl⟩ := (hlead next reached).mp hfollow
      obtain ⟨later, hlater, hopen, rfl⟩ := ih.mp h
      refine ⟨⟨start :: (first.passed ++ later.passed), later.last⟩, ?_, ?_, rfl⟩
      · simp [hnext, hfirst, hlater]
      · exact List.forall_mem_cons.mpr ⟨hdirectory, List.forall_mem_append.mpr ⟨hpassed, hopen⟩⟩
    · rintro ⟨taken, htaken, hpassed, rfl⟩
      obtain ⟨next, hnext, htaken⟩ := Option.bind_eq_some_iff.mp htaken
      obtain ⟨first, hfirst, htaken⟩ := Option.bind_eq_some_iff.mp htaken
      obtain ⟨later, hlater, htaken⟩ := Option.bind_eq_some_iff.mp htaken
      obtain rfl := Option.some.inj htaken
      obtain ⟨hdirectory, hpassed⟩ := List.forall_mem_cons.mp hpassed
      obtain ⟨hfirst', hlater'⟩ := List.forall_mem_append.mp hpassed
      rw [step_eq_ok_iff.mpr ⟨hdirectory, hnext⟩]
      simp only [bind, Except.bind]
      rw [(hlead next first.last).mpr ⟨first, hfirst, hfirst', rfl⟩]
      exact ih.mpr ⟨later, hlater, hlater', rfl⟩

theorem followWithin_eq_ok_iff {limit : Nat} {location next : Location} :
    files.followWithin limit location = .ok next ↔
      files.Leads (files.wayWithin limit location) next := by
  -- on how many links may still be followed: the way of a link is made of ways of places
  induction limit generalizing location next with
  | zero =>
    unfold followWithin wayWithin linkIn?
    rcases files.get? location with _ | (_ | _ | path) <;> simp [Leads, Passable]
  | succ limit ih =>
    unfold followWithin wayWithin linkIn?
    rcases files.get? location with _ | (_ | _ | path)
    · simp [Leads, Passable]
    · simp [Leads, Passable]
    · simp [Leads, Passable]
    · exact walkBy_eq_ok_iff fun _ _ => ih

theorem walk_eq_ok_iff {start location : Location} {segments : List String} :
    files.walk start segments = .ok location ↔
      files.Leads (files.wayFrom start segments) location :=
  walkBy_eq_ok_iff fun _ _ => followWithin_eq_ok_iff

variable {path : Path}

/-- **A path leads to a place** if its way does. -/
theorem locate_eq_ok_iff {location : Location} :
    files.locate path = .ok location ↔ files.Leads (files.way? path) location := by
  unfold locate way?
  cases checkPath path.text with
  | error e => simp [bind, Except.bind, Leads]
  | ok => exact walk_eq_ok_iff

theorem place?_of_locate {location : Location} (h : files.locate path = .ok location) :
    files.place? path = some location := by
  obtain ⟨way, hway, -, rfl⟩ := locate_eq_ok_iff.mp h
  rw [place?, hway, Option.map_some]

theorem stat_eq_ok_iff {node : Node} :
    files.stat path = .ok node ↔
      ∃ location, files.locate path = .ok location ∧ files.get? location = some node := by
  unfold stat
  constructor
  · intro h
    obtain ⟨location, hlocate, h⟩ := of_bind_eq_ok h
    refine ⟨location, hlocate, ?_⟩
    split at h
    · next found hfound => rw [hfound, Except.ok.inj h]
    · exact absurd h (by simp)
  · rintro ⟨location, hlocate, hnode⟩
    simp [hlocate, bind, Except.bind, hnode]

/-- The file at a path, with its permissions. -/
def fileAt? (files : Files) (path : Path) : Option (Content × Permissions) :=
  match files.stat path with
  | .ok (.file content permissions) => some (content, permissions)
  | _ => none

theorem fileAt?_eq_some_iff_stat {content : Content} {permissions : Permissions} :
    files.fileAt? path = some (content, permissions) ↔
      files.stat path = .ok (.file content permissions) := by
  unfold fileAt?
  split
  · next hfile => simp [hfile]
  · next hnot => simpa using hnot content permissions

theorem isFile_eq_isSome (files : Files) (path : Path) :
    files.isFile path = (files.fileAt? path).isSome := by
  unfold isFile fileAt?
  rcases files.stat path with _ | (_ | _ | _) <;> rfl

/-- **The file at a path** is the file at the place that the path leads to. -/
theorem fileAt?_eq_some_iff {file : Content × Permissions} :
    files.fileAt? path = some file ↔
      ∃ location, files.locate path = .ok location ∧ files.fileIn? location = some file := by
  obtain ⟨content, permissions⟩ := file
  simp only [fileAt?_eq_some_iff_stat, stat_eq_ok_iff, fileIn?_eq_some_iff]

theorem read_eq_ok_iff {bytes : Bytes} :
    files.read path = .ok bytes ↔
      ∃ content permissions, files.fileAt? path = some (content, permissions) ∧
        content.bytes = bytes := by
  simp only [fileAt?_eq_some_iff_stat]
  unfold read readContent
  cases hstat : files.stat path with
  | error e => simp [bind, Except.bind]
  | ok node => cases node <;> simp [bind, Except.bind]

theorem read_congr {after : Files} (h : after.fileAt? path = files.fileAt? path) (bytes : Bytes) :
    after.read path = .ok bytes ↔ files.read path = .ok bytes := by
  rw [read_eq_ok_iff, read_eq_ok_iff, h]

/-! ## The last name of a path -/

/-- A path that ends in a name has the other segments in front of it. -/
theorem segments_of_ending {path last : String} {front : List String}
    (h : ending path = (front, last, false)) : segments path = front ++ [last] := by
  unfold ending at h
  dsimp only at h
  split at h
  · exact absurd h (by simp)
  · next name others hback =>
    obtain ⟨rfl, hrest⟩ := Prod.mk.inj h
    obtain ⟨rfl, hslashed⟩ := Prod.mk.inj hrest
    cases hsegments : (segments path).reverse with
    | nil => simp [hsegments] at hback
    | cons first rest =>
      have hfirst : first ≠ "" := by simpa [hsegments] using hslashed
      rw [hsegments, List.dropWhile_cons_of_neg (by simpa using hfirst)] at hback
      obtain ⟨rfl, rfl⟩ := List.cons.inj hback
      rw [← List.reverse_reverse (segments path), hsegments, List.reverse_cons]

theorem walkBy_append (follow : Location → Except FileError Location) (start : Location)
    (front rest : List String) :
    files.walkBy follow start (front ++ rest) =
      files.walkBy follow start front >>= fun reached => files.walkBy follow reached rest := by
  induction front generalizing start with
  | nil => rfl
  | cons segment more ih => simp [walkBy, ih]

/-- What is known of the directory around the last name of a path. -/
theorem of_around_eq_ok {directory : Location} {last : String} {slashed : Bool}
    (h : files.around path = .ok (directory, last, slashed)) :
    checkPath path.text = .ok () ∧ ∃ front, ending path.text = (front, last, slashed) ∧
      files.walk (files.start path.text) front = .ok directory := by
  obtain ⟨_, hcheck, h⟩ := of_bind_eq_ok h
  obtain ⟨reached, hwalk, h⟩ := of_bind_eq_ok h
  obtain ⟨_, -, h⟩ := of_bind_eq_ok h
  obtain ⟨rfl, hrest⟩ := Prod.mk.inj (Except.ok.inj h)
  obtain ⟨rfl, rfl⟩ := Prod.mk.inj hrest
  exact ⟨hcheck, _, rfl, hwalk⟩

/-- The place that the last name of a path leads to is the place of the path. -/
theorem locate_of_around {directory found location : Location} {last : String}
    (haround : files.around path = .ok (directory, last, false))
    (hstep : files.step directory last = .ok found) (hfollow : files.follow found = .ok location) :
    files.locate path = .ok location := by
  obtain ⟨hcheck, front, hending, hwalk⟩ := of_around_eq_ok haround
  unfold walk at hwalk
  rw [locate, hcheck, walk, segments_of_ending hending, walkBy_append, hwalk]
  simp [walkBy, bind, Except.bind, hstep, hfollow]

/-- Where a path does not end in a link, there is no link in the place of its last name. -/
theorem linkIn?_of_around {directory found : Location} {last : String} {slashed : Bool}
    (hends : files.endsInLink path = false)
    (haround : files.around path = .ok (directory, last, slashed))
    (hstep : files.step directory last = .ok found) : files.linkIn? found = none := by
  obtain ⟨-, front, hending, hwalk⟩ := of_around_eq_ok haround
  obtain ⟨way, hway, -, rfl⟩ := walk_eq_ok_iff.mp hwalk
  obtain ⟨-, hfound⟩ := step_eq_ok_iff.mp hstep
  simpa [endsInLink, hending, hway, hfound] using hends

theorem follow_of_linkIn?_eq_none {location : Location} (h : files.linkIn? location = none) :
    files.follow location = .ok location := by
  have hway : files.wayWithin linkLimit location = some ⟨[], location⟩ := by
    simp [linkLimit, wayWithin, h]
  exact followWithin_eq_ok_iff.mpr ⟨_, hway, by simp [Passable], rfl⟩

/-! ## Places that are written -/

/-- A place is in a directory. -/
def InDirectory (files : Files) (location : Location) : Prop :=
  files.get? location.dropLast = some .directory

/-- A step from a directory leads to a place in one. -/
theorem IsTree.inDirectory_step (htree : files.IsTree) {location next : Location} {segment : String}
    (h : files.step location segment = .ok next) : files.InDirectory next := by
  obtain ⟨hdirectory, hadvance⟩ := step_eq_ok_iff.mp h
  unfold advance? at hadvance
  split_ifs at hadvance
  · obtain rfl := Option.some.inj hadvance
    exact htree _ _ hdirectory
  · obtain rfl := Option.some.inj hadvance
    exact htree _ _ (htree _ _ hdirectory)
  · obtain rfl := Option.some.inj hadvance
    rwa [InDirectory, List.dropLast_concat]

/-- Segments lead to a place in a directory, if the places that they pass do. -/
theorem IsTree.inDirectory_walkBy (htree : files.IsTree)
    {follow : Location → Except FileError Location}
    (hfollow : ∀ location next, files.InDirectory location → follow location = .ok next →
      files.InDirectory next)
    {start location : Location} {segments : List String} (hstart : files.InDirectory start)
    (h : files.walkBy follow start segments = .ok location) : files.InDirectory location := by
  induction segments generalizing start with
  | nil =>
    obtain rfl := Except.ok.inj h
    exact hstart
  | cons segment rest ih =>
    obtain ⟨next, hstep, h⟩ := of_bind_eq_ok h
    obtain ⟨reached, hreached, h⟩ := of_bind_eq_ok h
    exact ih (hfollow next reached (htree.inDirectory_step hstep) hreached) h

/-- A place in a directory leads to one. -/
theorem IsTree.inDirectory_followWithin (htree : files.IsTree) {limit : Nat}
    {location next : Location} (hlocation : files.InDirectory location)
    (h : files.followWithin limit location = .ok next) : files.InDirectory next := by
  induction limit generalizing location next with
  | zero =>
    unfold followWithin at h
    split at h
    · exact absurd h (by simp)
    · next heq => exact absurd heq (by simp)
    · obtain rfl := Except.ok.inj h
      exact hlocation
  | succ limit ih =>
    unfold followWithin at h
    split at h
    · next heq => exact absurd heq (by simp)
    · next path hlink heq =>
      obtain rfl := Nat.succ.inj heq
      -- a link is read from the directory around it, or from the root
      refine htree.inDirectory_walkBy (fun _ _ => ih) ?_ h
      unfold startFrom
      split
      · rfl
      · exact htree _ _ hlocation
    · obtain rfl := Except.ok.inj h
      exact hlocation

/-- The place that a file is written to or taken away from: in a directory, with no directory or
link there. -/
structure Spot (files : Files) (location : Location) : Prop where
  inDirectory : files.InDirectory location
  not_directory : files.get? location ≠ some .directory
  not_link : files.linkIn? location = none

theorem Spot.ne_nil {location : Location} (h : files.Spot location) : location ≠ [] := by
  rintro rfl
  exact h.not_directory rfl

/-- A file is written where the last name of its path leads to: there is nothing yet, or a file
that the user may write. -/
theorem exists_of_writable_eq_ok {location : Location} {found : Option Permissions}
    (h : files.writable path = .ok (location, found)) :
    ∃ directory last place, files.around path = .ok (directory, last, false) ∧
      isDots last = false ∧ files.step directory last = .ok place ∧
      files.follow place = .ok location ∧
      (files.get? location = none ∧ found = none ∨ ∃ content permissions,
        files.get? location = some (.file content permissions) ∧
          files.allows permissions = true ∧ found = some permissions) := by
  obtain ⟨⟨directory, last, slashed⟩, haround, h⟩ := of_bind_eq_ok h
  dsimp only at h
  split at h
  · exact absurd h (by simp)
  · next hname =>
    rw [Bool.not_eq_true, Bool.or_eq_false_iff] at hname
    obtain ⟨rfl, hdots⟩ := hname
    obtain ⟨place, hstep, h⟩ := of_bind_eq_ok h
    obtain ⟨reached, hfollow, h⟩ := of_bind_eq_ok h
    split at h
    · exact absurd h (by simp)
    · next content permissions hfile =>
      split at h
      · next hallows =>
        obtain ⟨rfl, rfl⟩ := Prod.mk.inj (Except.ok.inj h)
        exact ⟨directory, last, place, haround, hdots, hstep, hfollow,
          Or.inr ⟨content, permissions, hfile, hallows, rfl⟩⟩
      · exact absurd h (by simp)
    · exact absurd h (by simp)
    · next hnone =>
      obtain ⟨rfl, rfl⟩ := Prod.mk.inj (Except.ok.inj h)
      exact ⟨directory, last, place, haround, hdots, hstep, hfollow, Or.inl ⟨hnone, rfl⟩⟩

/-- **Where a file is written**: at the place that its path leads to. -/
theorem of_writable_eq_ok {location : Location} {found : Option Permissions}
    (htree : files.IsTree) (h : files.writable path = .ok (location, found)) :
    files.locate path = .ok location ∧ files.Spot location := by
  obtain ⟨directory, last, place, haround, -, hstep, hfollow, hthere⟩ := exists_of_writable_eq_ok h
  have hinside := htree.inDirectory_followWithin (htree.inDirectory_step hstep) hfollow
  refine ⟨locate_of_around haround hstep hfollow, ?_⟩
  rcases hthere with ⟨hnone, -⟩ | ⟨content, permissions, hfile, -⟩
  · exact ⟨hinside, by simp [hnone], by simp [linkIn?, hnone]⟩
  · exact ⟨hinside, by simp [hfile], by simp [linkIn?, hfile]⟩

/-- What is removed stands at the last name of a path and is no directory. -/
theorem exists_of_remove_eq_ok {after : Files} (h : files.remove path = .ok after) :
    ∃ directory last location, files.around path = .ok (directory, last, false) ∧
      files.step directory last = .ok location ∧ files.get? location ≠ none ∧
      files.get? location ≠ some .directory ∧ after = files.erase location := by
  obtain ⟨⟨directory, last, slashed⟩, haround, h⟩ := of_bind_eq_ok h
  dsimp only at h
  split at h
  · exact absurd h (by simp)
  · obtain ⟨location, hstep, h⟩ := of_bind_eq_ok h
    split at h
    · exact absurd h (by simp)
    · exact absurd h (by simp)
    · next node hnot hnode =>
      cases slashed with
      | true => exact absurd h (by simp)
      | false =>
        refine ⟨directory, last, location, haround, hstep, by simp [hnode], ?_,
          (Except.ok.inj h).symm⟩
        rw [hnode]
        exact fun heq => hnot (Option.some.inj heq)

/-- **Where a file is removed**: at the place that its path leads to, if there is no link in the
place of its last name. -/
theorem of_remove_eq_ok {after : Files} (htree : files.IsTree)
    (hends : files.endsInLink path = false) (h : files.remove path = .ok after) :
    ∃ location, after = files.erase location ∧ files.locate path = .ok location ∧
      files.Spot location := by
  obtain ⟨directory, last, location, haround, hstep, -, hnot, hafter⟩ := exists_of_remove_eq_ok h
  have hlink := linkIn?_of_around hends haround hstep
  have hlocate := locate_of_around haround hstep (follow_of_linkIn?_eq_none hlink)
  exact ⟨location, hafter, hlocate, htree.inDirectory_step hstep, hnot, hlink⟩

/-- A directory is made where there was nothing. -/
theorem of_makeDirectory_eq_ok {after : Files} (htree : files.IsTree)
    (h : files.makeDirectory path = .ok after) :
    ∃ location, after = files.put location .directory ∧ files.get? location = none ∧
      files.Spot location := by
  obtain ⟨⟨directory, last, slashed⟩, -, h⟩ := of_bind_eq_ok h
  dsimp only at h
  split at h
  · exact absurd h (by simp)
  · obtain ⟨location, hstep, h⟩ := of_bind_eq_ok h
    split at h
    · exact absurd h (by simp)
    · next hnone =>
      exact ⟨location, (Except.ok.inj h).symm, hnone, htree.inDirectory_step hstep,
        by simp [hnone], by simp [linkIn?, hnone]⟩

end Follow

end KernelCatalog.Files
