import KernelCatalog.Proofs.Files.Touch

/-!
# Firm paths

A path is firm if `..` stands only behind directories that are there, and a link that the path goes
on from leads to a directory. Directories that are made elsewhere then do not change what the path
comes to: it stays firm, and a file that is missing at it stays missing.

* `Files.of_firmFrom_cons`: where firm steps go on.
* `Files.Keeps.firm`: a firm path stays one.
* `Files.Firm.place?_eq`: the place of a firm path.
* `Files.Firm.plain`: a firm path is plain.
-/

namespace KernelCatalog.Files

/-! ## Firm steps -/

/-- Whether `..` stands only behind directories and no link but the last leads to anything else, on
the steps from a directory. -/
def firmFrom (files : Files) : Location → List String → Bool
  | _, [] => true
  | location, step :: rest =>
    match advance? location step with
    | none => true
    | some next =>
      match files.follow next with
      | .error _ => false
      | .ok reached =>
        if files.get? reached = some .directory then files.firmFrom reached rest
        else rest.isEmpty || ((files.linkIn? next).isNone && !rest.contains "..")

/-- A path that starts from a directory and whose steps are firm. -/
structure Firm (files : Files) (path : Path) : Prop where
  start : files.get? (files.start path.text) = some .directory
  firm : files.firmFrom (files.start path.text) (steps path.text) = true

instance (files : Files) (path : Path) : Decidable (files.Firm path) :=
  decidable_of_iff (files.get? (files.start path.text) = some .directory ∧
    files.firmFrom (files.start path.text) (steps path.text) = true)
    ⟨fun h => ⟨h.1, h.2⟩, fun h => ⟨h.start, h.firm⟩⟩

section Firm

variable {files : Files} {location next : Location} {step : String} {rest : List String}

theorem linkIn?_of_none (h : files.get? location = none) : files.linkIn? location = none := by
  simp [linkIn?, h]

/-- A place without a link leads to itself only. -/
theorem eq_of_follow (hlink : files.linkIn? location = none)
    (h : files.follow location = .ok next) : next = location := by
  rw [follow_of_linkIn?_eq_none hlink] at h
  exact (Except.ok.inj h).symm

/-- **Where firm steps go on**: to a directory, or to a place without a link, behind which no `..`
stands. -/
theorem of_firmFrom_cons (h : files.firmFrom location (step :: rest) = true)
    (hnext : advance? location step = some next) :
    ∃ reached, files.follow next = .ok reached ∧
      (files.get? reached = some .directory ∧ files.firmFrom reached rest = true ∨
        files.get? reached ≠ some .directory ∧
          (rest ≠ [] → files.linkIn? next = none ∧ reached = next ∧ ".." ∉ rest)) := by
  unfold firmFrom at h
  rw [hnext] at h
  cases hfollow : files.follow next with
  | error e => simp [hfollow] at h
  | ok reached =>
    refine ⟨reached, rfl, ?_⟩
    simp only [hfollow] at h
    split at h
    · next hdirectory => exact Or.inl ⟨hdirectory, h⟩
    · next hnot =>
      refine Or.inr ⟨hnot, fun hne => ?_⟩
      have hrest : files.linkIn? next = none ∧ ".." ∉ rest := by simpa [hne] using h
      exact ⟨hrest.1, eq_of_follow hrest.1 hfollow, hrest.2⟩

theorem firmFrom_of_append {front : List String}
    (h : files.firmFrom location (front ++ rest) = true) : files.firmFrom location front = true := by
  induction front generalizing location with
  | nil => rfl
  | cons step more ih =>
    rw [List.cons_append] at h
    unfold firmFrom
    cases hnext : advance? location step with
    | none => rfl
    | some next =>
      obtain ⟨reached, hfollow, hcases⟩ := of_firmFrom_cons h hnext
      simp only [hfollow]
      rcases hcases with ⟨hdirectory, hfirm⟩ | ⟨hnot, hrest⟩
      · rw [if_pos hdirectory, ih hfirm]
      · rw [if_neg hnot]
        cases more with
        | nil => rfl
        | cons second others =>
          obtain ⟨hlink, -, hback⟩ := hrest (by simp)
          rw [List.mem_append, not_or] at hback
          simp [hlink, hback.1]

/-- There are no links below what is no directory. -/
theorem IsTree.linkIn?_below (htree : files.IsTree) (hlink : files.linkIn? location = none)
    (hnot : files.get? location ≠ some .directory) {inner : Location} (h : location <+: inner) :
    files.linkIn? inner = none := by
  by_cases heq : location = inner
  · rw [← heq, hlink]
  · cases hnode : files.get? inner with
    | none => exact linkIn?_of_none hnode
    | some node => exact absurd (htree.directory_of_prefix hnode h heq) hnot

/-- A step other than `..` leads inwards. -/
theorem prefix_of_advance? (hnext : advance? location step = some next) (hback : step ≠ "..") :
    location <+: next := by
  unfold advance? at hnext
  split_ifs at hnext
  · exact Option.some.inj hnext ▸ List.prefix_rfl
  · exact Option.some.inj hnext ▸ List.prefix_append _ _

/-- Steps are firm where there are no links, if none of them is `..`. -/
theorem firmFrom_of_linkless {steps : List String}
    (hlinks : ∀ inner, location <+: inner → files.linkIn? inner = none) (hback : ".." ∉ steps) :
    files.firmFrom location steps = true := by
  induction steps generalizing location with
  | nil => rfl
  | cons step rest ih =>
    rw [List.mem_cons, not_or] at hback
    unfold firmFrom
    cases hnext : advance? location step with
    | none => rfl
    | some next =>
      have hbelow := prefix_of_advance? hnext (Ne.symm hback.1)
      have hlink := hlinks next hbelow
      simp only [follow_of_linkIn?_eq_none hlink]
      split
      · exact ih (fun inner hinner => hlinks inner (hbelow.trans hinner)) hback.2
      · simp [hlink, hback.2]

theorem get?_start_of_reach {directory : Location} {steps : List String}
    (h : files.reach location steps = .ok directory) :
    files.get? location = some .directory := by
  rw [← enter_eq_ok_iff]
  cases henter : files.enter location with
  | error e =>
    rw [reach_of_enter_error henter] at h
    exact absurd h (by simp)
  | ok => rfl

/-- Steps go on firmly from a directory that firm steps lead into. -/
theorem firmFrom_of_reach {front : List String} {directory : Location}
    (h : files.firmFrom location (front ++ rest) = true)
    (hreach : files.reach location front = .ok directory) :
    files.firmFrom directory rest = true := by
  induction front generalizing location with
  | nil =>
    obtain ⟨rfl, -⟩ := reach_nil_eq_ok_iff.mp hreach
    exact h
  | cons step more ih =>
    rw [reach_cons] at hreach
    obtain ⟨next, hstep, hreach⟩ := of_bind_eq_ok hreach
    obtain ⟨reached, hfollow, hreach⟩ := of_bind_eq_ok hreach
    obtain ⟨-, hadvance⟩ := step_eq_ok_iff.mp hstep
    obtain ⟨found, hfound, hcases⟩ := of_firmFrom_cons h hadvance
    obtain rfl := Except.ok.inj (hfollow.symm.trans hfound)
    rcases hcases with ⟨-, hfirm⟩ | ⟨hnot, -⟩
    · exact ih hfirm hreach
    · exact absurd (get?_start_of_reach hreach) hnot

/-- **Firm steps stay firm** when something is made or written. -/
theorem Keeps.firmFrom {written : List Location} {before after : Files}
    (h : Keeps written before after) (htree : before.IsTree) {location : Location}
    {steps : List String} (hfirm : before.firmFrom location steps = true) :
    after.firmFrom location steps = true := by
  induction steps generalizing location with
  | nil => rfl
  | cons step rest ih =>
    unfold Files.firmFrom
    cases hnext : advance? location step with
    | none => rfl
    | some next =>
      obtain ⟨reached, hfollow, hcases⟩ := of_firmFrom_cons hfirm hnext
      simp only [h.follow hfollow]
      rcases hcases with ⟨hdirectory, hfirm⟩ | ⟨hnot, hrest⟩
      · rw [if_pos (h.directory reached hdirectory), ih hfirm]
      · cases rest with
        | nil => simp [Files.firmFrom]
        | cons second others =>
          obtain ⟨hlink, rfl, hback⟩ := hrest (by simp)
          split
          · -- a directory was made, and there are no links in it
            refine firmFrom_of_linkless (fun inner hinner => ?_) hback
            rw [h.link, htree.linkIn?_below hlink hnot hinner]
          · rw [h.link, hlink]
            simpa using hback

/-- **A firm path stays one** when something is made or written. -/
theorem Keeps.firm {written : List Location} {before after : Files}
    (h : Keeps written before after) (htree : before.IsTree) {path : Path}
    (hfirm : before.Firm path) : after.Firm path := by
  refine ⟨?_, ?_⟩
  · rw [h.start_eq]
    exact h.directory _ hfirm.start
  · rw [h.start_eq]
    exact h.firmFrom htree hfirm.firm

/-- Steps lead into the directory that they led into. -/
theorem Keeps.reach {written : List Location} {before after : Files}
    (h : Keeps written before after) {location directory : Location} {steps : List String}
    (hreach : before.reach location steps = .ok directory) :
    after.reach location steps = .ok directory := by
  induction steps generalizing location with
  | nil =>
    obtain ⟨rfl, hdirectory⟩ := reach_nil_eq_ok_iff.mp hreach
    exact reach_nil_eq_ok_iff.mpr ⟨rfl, h.directory _ hdirectory⟩
  | cons step rest ih =>
    rw [reach_cons] at hreach ⊢
    obtain ⟨next, hstep, hreach⟩ := of_bind_eq_ok hreach
    obtain ⟨reached, hfollow, hreach⟩ := of_bind_eq_ok hreach
    rw [h.step hstep]
    simp only [bind, Except.bind, h.follow hfollow]
    exact ih hreach

end Firm

/-! ## Where steps lead -/

section Lead

variable {files : Files}

/-- A way ends where one of its parts does. -/
theorem exists_lead_of_wayBy {lead : Location → Option Way} {location : Location}
    {segments : List String} {way : Way} (hne : segments ≠ [])
    (h : wayBy lead location segments = some way) :
    ∃ place first, lead place = some first ∧ first.last = way.last := by
  induction segments generalizing location way with
  | nil => exact absurd rfl hne
  | cons segment rest ih =>
    obtain ⟨next, first, later, -, hfirst, hlater, rfl⟩ := of_wayBy_cons h
    by_cases hrest : rest = []
    · subst hrest
      obtain rfl := Option.some.inj hlater
      exact ⟨next, first, hfirst, rfl⟩
    · have hfound := ih hrest hlater
      exact hfound

/-- No way ends in a link. -/
theorem linkIn?_last_of_wayWithin {limit : Nat} {location : Location} {way : Way}
    (h : files.wayWithin limit location = some way) : files.linkIn? way.last = none := by
  induction limit generalizing location way with
  | zero =>
    unfold wayWithin at h
    cases hlink : files.linkIn? location with
    | none =>
      simp only [hlink, Option.some.injEq] at h
      rw [← h, hlink]
    | some path => simp [hlink] at h
  | succ limit ih =>
    unfold wayWithin at h
    cases hlink : files.linkIn? location with
    | none =>
      simp only [hlink, Option.some.injEq] at h
      rw [← h, hlink]
    | some path =>
      simp only [hlink] at h
      have hne : segments path ≠ [] := by
        rw [segments, Ne, List.map_eq_nil_iff]
        exact Text.pieces_ne_nil _ _
      obtain ⟨place, first, hfirst, hlast⟩ := exists_lead_of_wayBy hne h
      rw [← hlast, ih hfirst]

theorem wayWithin_of_linkIn?_eq_none {limit : Nat} {location : Location}
    (h : files.linkIn? location = none) :
    files.wayWithin limit location = some ⟨[], location⟩ := by
  cases limit <;> simp [wayWithin, h]

theorem leads?_cons (location : Location) (step : String) (rest : List String) :
    files.leads? location (step :: rest) =
      (advance? location step).bind fun next =>
        (files.wayWithin linkLimit next).bind fun first => files.leads? first.last rest := by
  rw [leads?, wayFrom, wayBy]
  cases advance? location step with
  | none => rfl
  | some next =>
    simp only [Option.bind_some, Option.bind_eq_bind]
    cases files.wayWithin linkLimit next with
    | none => rfl
    | some first =>
      simp only [Option.bind_some, leads?, wayFrom]
      cases wayBy (files.wayWithin linkLimit) first.last rest <;> rfl

/-- Going on by a step that can be followed. -/
theorem leads?_cons_of_follow {location next reached : Location} {step : String}
    (hnext : advance? location step = some next) (hfollow : files.follow next = .ok reached)
    (rest : List String) :
    files.leads? location (step :: rest) = files.leads? reached rest := by
  obtain ⟨way, hway, -, rfl⟩ := followWithin_eq_ok_iff.mp hfollow
  rw [leads?_cons, hnext, Option.bind_some, hway, Option.bind_some]

/-- Segments that are no steps lead nowhere else. -/
theorem leads?_filter {location : Location} (hlink : files.linkIn? location = none)
    (segments : List String) :
    files.leads? location (segments.filter isStep) = files.leads? location segments := by
  induction segments generalizing location with
  | nil => rfl
  | cons segment rest ih =>
    rw [leads?_cons location segment]
    by_cases hstep : isStep segment = true
    · rw [List.filter_cons_of_pos hstep, leads?_cons]
      refine Option.bind_congr fun next _ => Option.bind_congr fun first hfirst => ?_
      exact ih (linkIn?_last_of_wayWithin hfirst)
    · have hadvance : advance? location segment = some location := by
        unfold isStep at hstep
        unfold advance?
        rw [if_pos (by grind)]
      rw [List.filter_cons_of_neg hstep, hadvance, Option.bind_some,
        wayWithin_of_linkIn?_eq_none hlink, Option.bind_some, ih hlink]

/-- **The place of a path** is the one that its steps lead to. -/
theorem Firm.place?_eq {path : Path} (h : files.Firm path)
    (hcheck : checkPath path.text = .ok ()) :
    files.place? path = files.leads? (files.start path.text) (steps path.text) := by
  have hlink : files.linkIn? (files.start path.text) = none := by simp [linkIn?, h.start]
  rw [steps, leads?_filter hlink, place?, way?, hcheck]
  rfl

theorem Firm.mem_met {path : Path} (h : files.Firm path) {location : Location}
    (hplace : files.place? path = some location) : location ∈ files.met path := by
  have hcheck : checkPath path.text = .ok () := by
    cases hcheck : checkPath path.text with
    | ok => rfl
    | error e =>
      rw [place?, way?, hcheck] at hplace
      exact absurd hplace (by simp)
  rw [h.place?_eq hcheck] at hplace
  exact mem_met_iff.mpr ⟨_, List.prefix_rfl, hplace⟩

/-- Where there are no links and no `..`, a way goes inwards only. -/
theorem passed_of_linkless {location : Location} {segments : List String} {way : Way}
    (hlinks : ∀ inner, location <+: inner → files.linkIn? inner = none) (hback : ".." ∉ segments)
    (h : files.wayFrom location segments = some way) :
    location <+: way.last ∧ ∀ place ∈ way.passed, place <+: way.last := by
  induction segments generalizing location way with
  | nil =>
    obtain rfl := Option.some.inj h
    exact ⟨List.prefix_rfl, by simp⟩
  | cons segment rest ih =>
    rw [List.mem_cons, not_or] at hback
    obtain ⟨next, first, later, hnext, hfirst, hlater, rfl⟩ := of_wayBy_cons h
    have hbelow : location <+: next := prefix_of_advance? hnext (Ne.symm hback.1)
    rw [wayWithin_of_linkIn?_eq_none (hlinks next hbelow)] at hfirst
    obtain rfl := Option.some.inj hfirst
    obtain ⟨hlast, hpassed⟩ :=
      ih (fun inner hinner => hlinks inner (hbelow.trans hinner)) hback.2 hlater
    refine ⟨hbelow.trans hlast, fun place hplace => ?_⟩
    rcases List.mem_cons.mp hplace with rfl | hplace
    · exact hbelow.trans hlast
    · exact hpassed place hplace

/-- Firm steps go on from places around the last one, or from directories. -/
theorem passed_of_firmFrom (htree : files.IsTree) {location : Location} {segments : List String}
    {way : Way} (hdirectory : files.get? location = some .directory)
    (hfirm : files.firmFrom location (segments.filter isStep) = true)
    (h : files.wayFrom location segments = some way) :
    ∀ place ∈ way.passed, place <+: way.last ∨ files.get? place = some .directory := by
  induction segments generalizing location way with
  | nil =>
    obtain rfl := Option.some.inj h
    simp
  | cons segment rest ih =>
    obtain ⟨next, first, later, hnext, hfirst, hlater, rfl⟩ := of_wayBy_cons h
    simp only [List.forall_mem_cons, List.forall_mem_append]
    refine ⟨Or.inr hdirectory, ?_⟩
    by_cases hstep : isStep segment = true
    · rw [List.filter_cons_of_pos hstep] at hfirm
      obtain ⟨reached, hfollow, hcases⟩ := of_firmFrom_cons hfirm hnext
      obtain ⟨way, hway, hpassable, rfl⟩ := followWithin_eq_ok_iff.mp hfollow
      obtain rfl := Option.some.inj (hfirst.symm.trans hway)
      refine ⟨fun place hplace => Or.inr (hpassable place hplace), ?_⟩
      rcases hcases with ⟨hinner, hfurther⟩ | ⟨hnot, hrest⟩
      · exact ih hinner hfurther hlater
      · -- behind what is no directory there are no links, so the way goes inwards only
        have hback : ".." ∉ rest := by
          intro hmem
          have hmem : ".." ∈ rest.filter isStep := List.mem_filter.mpr ⟨hmem, by decide⟩
          exact (hrest (List.ne_nil_of_mem hmem)).2.2 hmem
        have hlink := linkIn?_last_of_wayWithin hfirst
        obtain ⟨-, hpassed⟩ := passed_of_linkless
          (fun inner hinner => htree.linkIn?_below hlink hnot hinner) hback hlater
        exact fun place hplace => Or.inl (hpassed place hplace)
    · -- a segment that is no step stays where it is
      have hsame : next = location := by
        unfold isStep at hstep
        unfold advance? at hnext
        rw [if_pos (by grind)] at hnext
        exact (Option.some.inj hnext).symm
      subst hsame
      rw [wayWithin_of_linkIn?_eq_none (by simp [linkIn?, hdirectory])] at hfirst
      obtain rfl := Option.some.inj hfirst
      rw [List.filter_cons_of_neg hstep] at hfirm
      exact ⟨by simp, ih hdirectory hfirm hlater⟩

/-- **A firm path is plain.** -/
theorem Firm.plain {path : Path} (h : files.Firm path) (htree : files.IsTree) :
    files.Plain path := by
  intro way hway
  unfold way? at hway
  split at hway
  · exact passed_of_firmFrom htree h.start h.firm hway
  · exact absurd hway (by simp)

end Lead

end KernelCatalog.Files
