import KernelCatalog.Proofs.Ledger.Ready

/-!
# Opening a ledger

A ledger is opened in two steps: a connection is made to its file, which is made if it is missing,
and the ledger is brought to the version that is needed. Afterwards it holds what its file held, or
what that is brought to, and everything else but its journal is as it was.

* `of_connect_eq_ok`: what a connection is made to.
* `Handle.of_migrate_eq_ok`: what bringing a ledger to another version comes to.
* `of_openFile_eq_ok`: what an open ledger holds.
* `keeps_of_openFile`: what opening a ledger keeps.
-/

namespace KernelCatalog.Ledger

/-! ## Connections -/

/-- There is a file at a place, or one is made in a directory. -/
inductive Found (files : Files) (location : Location) : Files → Prop where
  | there {content : Content} {permissions : Permissions}
      (held : files.get? location = some (.file content permissions)) : Found files location files
  | made (missing : files.get? location = none)
      (inDirectory : files.get? location.dropLast = some .directory) :
      Found files location (files.put location (.file (.plain []) .plain))

/-- What a connection is made to: a ledger that is kept nowhere, one that cannot change, or a
file. -/
inductive Connects (files : Files) : Handle → Files → Prop where
  | memory (store : Store) : Connects files (.memory store) files
  | fixed {after : Files} (store : Store) (found : after = files ∨ ∃ location,
      Found files location after) : Connects files (.fixed store) after
  | file {location : Location} {after : Files} (readOnly : Bool)
      (found : Found files location after) :
      Connects files (.file location after.removed.length readOnly) after

/-- The place of a ledger is that of a file, or of nothing in a directory. -/
theorem of_locate_eq_ok {files : Files} {address : Address} {location : Location}
    (h : locate files address = .ok location) :
    Found files location (if (files.get? location).isSome then files
      else files.put location (.file (.plain []) .plain)) := by
  unfold locate at h
  split at h
  · exact absurd h (by simp)
  · next place hplace =>
    split at h
    · exact absurd h (by simp)
    · next hadmits =>
      have hsame : place = location := by
        split at h
        · exact absurd h (by simp)
        · exact Except.ok.inj h
      subst hsame
      simp only [Bool.not_eq_true', Bool.not_eq_false, admits, Bool.and_eq_true] at hadmits
      obtain ⟨⟨⟨-, henter⟩, -⟩, hnode⟩ := hadmits
      cases hget : files.get? place with
      | none =>
        have hdirectory : files.get? place.dropLast = some .directory := by
          rw [← Files.enter_eq_ok_iff]
          cases hentered : files.enter place.dropLast with
          | error e => simp [hentered, Except.toOption] at henter
          | ok => rfl
        exact .made hget hdirectory
      | some node =>
        cases node with
        | file content permissions => exact .there hget
        | directory => simp [hget] at hnode
        | link path => simp [hget] at hnode

/-- **What a connection is made to.** -/
theorem of_connect_eq_ok {files after : Files} {path : Path} {handle : Handle}
    (h : connect files path = (.ok handle, after)) : Connects files handle after := by
  unfold connect at h
  split at h
  · exact absurd (congrArg Prod.fst h) (by simp)
  · split at h
    · exact absurd (congrArg Prod.fst h) (by simp)
    · next address _ =>
      dsimp only at h
      split at h
      · obtain ⟨hhandle, rfl⟩ := Prod.mk.inj h
        obtain rfl := Except.ok.inj hhandle
        split
        · exact .fixed _ (Or.inl rfl)
        · exact .memory _
      · split at h
        · exact absurd (congrArg Prod.fst h) (by simp)
        · next location hlocate =>
          have hfound := of_locate_eq_ok hlocate
          generalize (if (files.get? location).isSome then files
            else files.put location (.file (.plain []) .plain)) = opened at h hfound
          split at h
          · obtain ⟨hhandle, rfl⟩ := Prod.mk.inj h
            cases hstore : nodeStore (opened.get? location) with
            | error e =>
              rw [hstore] at hhandle
              exact absurd hhandle (by simp [Except.map])
            | ok store =>
              rw [hstore] at hhandle
              obtain rfl := Except.ok.inj hhandle
              exact .fixed store (Or.inr ⟨location, hfound⟩)
          · obtain ⟨hhandle, rfl⟩ := Prod.mk.inj h
            obtain rfl := Except.ok.inj hhandle
            exact .file _ hfound

/-- Nothing has been taken away since now. -/
theorem removedSince?_now (files : Files) (location : Location) :
    files.removedSince? files.removed.length location = none := by
  rw [Files.removedSince?, ← List.length_reverse, List.drop_length]
  rfl

namespace Handle

/-! ## What an open ledger holds -/

/-- The file of an open ledger has not been taken away. -/
def InPlace : Handle → Files → Prop
  | .memory _, _ | .fixed _, _ => True
  | .file location removals _, files => files.removedSince? removals location = none

section InPlace

variable {handle written : Handle} {files after : Files} {store current : Store}

/-- A ledger whose file is in its place holds what the file holds, if the journal can be dealt
with. -/
theorem store_file_eq_ok_iff {location : Location} {removals : Nat} {readOnly : Bool}
    (hremoved : files.removedSince? removals location = none) :
    (file location removals readOnly).store files = .ok store ↔
      (∃ settled, settle files location readOnly = .ok settled) ∧
        nodeStore (files.get? location) = .ok store := by
  cases hsettle : settle files location readOnly with
  | error e => simp [Handle.store, hremoved, hsettle, bind, Except.bind]
  | ok settled =>
    rw [store_file hremoved hsettle, nodeStore_of_settle hsettle]
    simp

/-- Looking at a ledger in a file deals with its journal. -/
theorem settled_file {location : Location} {removals : Nat} {readOnly : Bool} {settled : Files}
    (hremoved : files.removedSince? removals location = none)
    (hsettle : settle files location readOnly = .ok settled) :
    (file location removals readOnly).settled files = settled := by
  simp [Handle.settled, hremoved, hsettle, Except.toOption]

/-- **A ledger that has been looked at** holds what it held, and its file is in its place. -/
theorem store_settled (hplace : handle.InPlace files) (hstore : handle.store files = .ok store) :
    handle.InPlace (handle.settled files) ∧ handle.store (handle.settled files) = .ok store := by
  cases handle with
  | memory held => exact ⟨trivial, hstore⟩
  | fixed held => exact ⟨trivial, hstore⟩
  | file location removals readOnly =>
    obtain ⟨⟨settled, hsettle⟩, hnode⟩ := (store_file_eq_ok_iff hplace).mp hstore
    have hstill := removedSince?_of_journal (of_settle_eq_ok hsettle) hplace
    rw [settled_file hplace hsettle]
    refine ⟨hstill, (store_file_eq_ok_iff hstill).mpr ⟨⟨settled, settle_settled hsettle⟩, ?_⟩⟩
    rw [nodeStore_of_settle hsettle, hnode]

theorem inPlace_of_setStore (h : handle.setStore files store = .ok (written, after)) :
    written.InPlace after := by
  cases handle with
  | memory held =>
    obtain ⟨rfl, -⟩ := Prod.mk.inj (Except.ok.inj h)
    trivial
  | fixed held => exact absurd h (by simp [setStore])
  | file location removals readOnly =>
    obtain ⟨rfl, hremoved, settled, hsettle, hafter⟩ := of_setStore_file h
    have hstill := removedSince?_of_journal (of_settle_eq_ok hsettle) hremoved
    rcases hafter with ⟨-, rfl⟩ | ⟨ready, hready, rfl⟩
    · exact hstill
    · have hput := removedSince?_of_journal (of_journaled_eq_ok hready).2 hstill
      exact hput

/-- **Bringing a ledger to another version** leaves it as it is, or writes what it is brought
to. -/
theorem of_migrate_eq_ok (h : handle.migrate files = .ok (written, after)) :
    ∃ store current, handle.store files = .ok store ∧ store.migrate = .ok current ∧
      (current = store ∧ written = handle ∧ after = files ∨
        handle.setStore files current = .ok (written, after)) := by
  obtain ⟨store, hstore, h⟩ := of_bind_eq_ok h
  obtain ⟨current, hcurrent, h⟩ := of_bind_eq_ok h
  refine ⟨store, current, hstore, hcurrent, ?_⟩
  split at h
  · next hsame =>
    obtain ⟨rfl, rfl⟩ := Prod.mk.inj (Except.ok.inj h)
    exact Or.inl ⟨hsame, rfl, rfl⟩
  · exact Or.inr h

end InPlace

end Handle

/-- The file of a ledger to which a connection was made is in its place. -/
theorem Connects.inPlace {files after : Files} {handle : Handle}
    (h : Connects files handle after) : handle.InPlace after := by
  cases h with
  | memory => trivial
  | fixed => trivial
  | file => exact removedSince?_now _ _

/-- How a ledger is opened: a connection is made, the ledger is brought to the version that is
needed, and its journal is dealt with. -/
theorem exists_migrate_of_openFile {files after : Files} {path : Path} {handle : Handle}
    (h : openFile files path = (.ok handle, after)) :
    ∃ connected between made, connect files path = (.ok connected, between) ∧
      connected.migrate between = .ok (handle, made) ∧ after = handle.settled made := by
  unfold openFile at h
  split at h
  · exact absurd (congrArg Prod.fst h) (by simp)
  · next connected between hconnect =>
    split at h
    · exact absurd (congrArg Prod.fst h) (by simp)
    · next opened made hmigrate =>
      obtain ⟨hhandle, rfl⟩ := Prod.mk.inj h
      obtain rfl := Except.ok.inj hhandle
      exact ⟨connected, between, made, hconnect, hmigrate, rfl⟩

/-- **An open ledger** holds what it was brought to from what it held when the connection was
made. -/
theorem of_openFile_eq_ok {files after : Files} {path : Path} {handle : Handle}
    (h : openFile files path = (.ok handle, after)) :
    ∃ connected between store current, connect files path = (.ok connected, between) ∧
      connected.store between = .ok store ∧ store.migrate = .ok current ∧
      handle.places = connected.places ∧ handle.InPlace after ∧
      handle.store after = .ok current := by
  obtain ⟨connected, between, made, hconnect, hmigrate, rfl⟩ := exists_migrate_of_openFile h
  obtain ⟨store, current, hstore, hcurrent, hcases⟩ := Handle.of_migrate_eq_ok hmigrate
  have hopened : handle.places = connected.places ∧ handle.InPlace made ∧
      handle.store made = .ok current := by
    rcases hcases with ⟨rfl, rfl, rfl⟩ | hset
    · exact ⟨rfl, (of_connect_eq_ok hconnect).inPlace, hstore⟩
    · exact ⟨Handle.places_of_setStore hset, Handle.inPlace_of_setStore hset,
        Handle.store_setStore hstore hset⟩
  obtain ⟨hplaces, hplace, hheld⟩ := hopened
  exact ⟨connected, between, store, current, hconnect, hstore, hcurrent, hplaces,
    Handle.store_settled hplace hheld⟩

/-! ## What opening keeps -/

/-- A tree with a file at the place of a ledger, and with or without what was at the place of its
journal; everything else is as in another tree. -/
structure Rewritten (location : Location) (gone : Bool) (before after : Files) : Prop where
  current_eq : after.current = before.current
  unrestricted_eq : after.unrestricted = before.unrestricted
  held : ∃ content permissions, after.get? location = some (.file content permissions)
  get?_eq : ∀ other, other ≠ location → after.get? other =
    if gone && (journalAt location).isPrefixOf other then none else before.get? other

namespace Rewritten

variable {location : Location} {gone : Bool} {before between after : Files}

theorem trans {later : Bool} (hfirst : Rewritten location gone before between)
    (hsecond : Rewritten location later between after) :
    Rewritten location (gone || later) before after := by
  refine ⟨hsecond.current_eq.trans hfirst.current_eq,
    hsecond.unrestricted_eq.trans hfirst.unrestricted_eq, hsecond.held, fun other hne => ?_⟩
  rw [hsecond.get?_eq other hne, hfirst.get?_eq other hne]
  cases gone <;> cases later <;> cases (journalAt location).isPrefixOf other <;> rfl

/-- The journal stays, or is taken away. -/
theorem of_journal (hafter : after = before ∨ after = before.erase (journalAt location))
    (hheld : ∃ content permissions, before.get? location = some (.file content permissions)) :
    ∃ gone, Rewritten location gone before after := by
  rcases hafter with rfl | rfl
  · exact ⟨false, rfl, rfl, hheld, fun _ _ => rfl⟩
  · refine ⟨true, rfl, rfl, ?_, fun other _ => before.get?_erase (journalAt_ne_nil location) other⟩
    rw [before.get?_erase (journalAt_ne_nil location), isPrefixOf_journalAt]
    exact hheld

theorem putStore (hne : location ≠ []) (store : Store) :
    Rewritten location false before (putStore before location store) := by
  obtain ⟨permissions, hstored⟩ := exists_putStore before location store
  have hput := before.get?_put hne (.file (.ledger store) permissions)
  rw [hstored]
  exact ⟨rfl, rfl, ⟨_, _, (hput location).trans (if_pos rfl)⟩,
    fun other hother => (hput other).trans (if_neg hother)⟩

theorem of_found (h : Found before location after) : Rewritten location false before after := by
  cases h with
  | there hheld => exact ⟨rfl, rfl, ⟨_, _, hheld⟩, fun _ _ => rfl⟩
  | made hmissing =>
    have hne : location ≠ [] := by
      rintro rfl
      exact absurd hmissing (by simp [Files.get?])
    have hput := before.get?_put hne (.file (.plain []) .plain)
    exact ⟨rfl, rfl, ⟨_, _, (hput location).trans (if_pos rfl)⟩,
      fun other hother => (hput other).trans (if_neg hother)⟩

/-- Writing a ledger in a file. -/
theorem of_setStore {removals : Nat} {readOnly : Bool} {store : Store} {written : Handle}
    (hheld : ∃ content permissions, before.get? location = some (.file content permissions))
    (h : (Handle.file location removals readOnly).setStore before store = .ok (written, after)) :
    ∃ gone, Rewritten location gone before after := by
  obtain ⟨-, -, settled, hsettle, hafter⟩ := Handle.of_setStore_file h
  obtain ⟨first, hsettled⟩ := of_journal (of_settle_eq_ok hsettle) hheld
  rcases hafter with ⟨-, rfl⟩ | ⟨ready, hready, rfl⟩
  · exact ⟨first, hsettled⟩
  · obtain ⟨second, hready⟩ := of_journal (of_journaled_eq_ok hready).2 hsettled.held
    have hne : location ≠ [] := by
      rintro rfl
      obtain ⟨content, permissions, hget⟩ := hheld
      exact absurd hget (by simp [Files.get?])
    exact ⟨_, (hsettled.trans hready).trans (putStore hne store)⟩

/-- Looking at a ledger in a file. -/
theorem settled {removals : Nat} {readOnly : Bool}
    (hheld : ∃ content permissions, before.get? location = some (.file content permissions)) :
    ∃ gone, Rewritten location gone before
      ((Handle.file location removals readOnly).settled before) := by
  refine of_journal ?_ hheld
  simp only [Handle.settled]
  split
  · exact Or.inl rfl
  · cases hsettle : settle before location readOnly with
    | error e => exact Or.inl rfl
    | ok settled => exact of_settle_eq_ok hsettle

/-- A rewritten tree, beside the one that has lost the journal if this one has, differs in the file
only. -/
theorem keeps (h : Rewritten location gone before after) (htree : before.IsTree)
    (hspot : before.Spot location) :
    (if gone then before.erase (journalAt location) else before).Keeps [location] after := by
  obtain ⟨content, permissions, hheld⟩ := h.held
  have hne := journalAt_ne_nil location
  have hoff := isPrefixOf_journalAt location
  generalize hbase : (if gone then before.erase (journalAt location) else before) = base
  have hget : ∀ other, base.get? other =
      if gone && (journalAt location).isPrefixOf other then none else before.get? other := by
    intro other
    cases gone with
    | false => exact hbase ▸ rfl
    | true => exact hbase ▸ before.get?_erase hne other
  have hbaseTree : base.IsTree := by
    cases gone with
    | false => exact hbase ▸ htree
    | true => exact hbase ▸ htree.erase hne
  have hcurrent : base.current = before.current := by
    cases gone <;> exact hbase ▸ rfl
  have hunrestricted : base.unrestricted = before.unrestricted := by
    cases gone <;> exact hbase ▸ rfl
  -- neither the file nor the directory around it lies below the journal
  have haround : (journalAt location).isPrefixOf location.dropLast = false := by
    rw [Bool.eq_false_iff, ne_eq, List.isPrefixOf_iff_prefix]
    intro hbelow
    have hprefix := List.isPrefixOf_iff_prefix.mpr (hbelow.trans (List.dropLast_prefix location))
    exact absurd (hoff.symm.trans hprefix) (by simp)
  have hsame : base.get? location = before.get? location := by
    rw [hget, hoff, Bool.and_false]
    rfl
  have hbaseSpot : base.Spot location := by
    refine ⟨?_, hsame ▸ hspot.not_directory, ?_⟩
    · rw [Files.InDirectory, hget, haround, Bool.and_false]
      exact hspot.inDirectory
    · rw [Files.linkIn?, hsame]
      exact hspot.not_link
  refine (Files.keeps_put hbaseTree hbaseSpot (.file content permissions) (by simp)).congr
    (h.current_eq.trans hcurrent.symm) (h.unrestricted_eq.trans hunrestricted.symm)
    fun other => ?_
  rw [base.get?_put hspot.ne_nil]
  split
  · next heq => rw [heq, hheld]
  · next hother => rw [h.get?_eq other hother, hget]

end Rewritten

/-- What is left when a ledger was opened: nothing else is changed for one that is kept nowhere or
cannot change, but that its file may have been made; otherwise the file and the journal may be. -/
inductive Opens (files : Files) : Handle → Files → Prop where
  | memory (store : Store) : Opens files (.memory store) files
  | fixed {after : Files} (store : Store) (found : after = files ∨ ∃ location,
      Found files location after) : Opens files (.fixed store) after
  | file {location : Location} {removals : Nat} {readOnly gone : Bool} {between after : Files}
      {store : Store} (found : Found files location between)
      (held : nodeStore (between.get? location) = .ok store)
      (rewritten : Rewritten location gone files after) :
      Opens files (.file location removals readOnly) after

/-- **What is left when a ledger was opened.** -/
theorem opens_of_openFile {files after : Files} {path : Path} {handle : Handle}
    (h : openFile files path = (.ok handle, after)) : Opens files handle after := by
  obtain ⟨connected, between, made, hconnect, hmigrate, rfl⟩ := exists_migrate_of_openFile h
  obtain ⟨store, current, hstore, -, hcases⟩ := Handle.of_migrate_eq_ok hmigrate
  cases of_connect_eq_ok hconnect with
  | memory held =>
    rcases hcases with ⟨-, rfl, rfl⟩ | hset
    · exact .memory held
    · obtain ⟨rfl, rfl⟩ := Prod.mk.inj (Except.ok.inj hset)
      exact .memory current
  | fixed held hfound =>
    rcases hcases with ⟨-, rfl, rfl⟩ | hset
    · exact .fixed held hfound
    · exact absurd hset (by simp [Handle.setStore])
  | @file location _ readOnly hfound =>
    have hstart := Rewritten.of_found hfound
    obtain ⟨rfl, second, hmade⟩ : handle = .file location between.removed.length readOnly ∧
        ∃ gone, Rewritten location gone between made := by
      rcases hcases with ⟨-, rfl, rfl⟩ | hset
      · exact ⟨rfl, Rewritten.of_journal (Or.inl rfl) hstart.held⟩
      · exact ⟨(Handle.of_setStore_file hset).1, Rewritten.of_setStore hstart.held hset⟩
    obtain ⟨third, hsettled⟩ := Rewritten.settled hmade.held
    obtain ⟨-, hheld⟩ := (Handle.store_file_eq_ok_iff (removedSince?_now _ _)).mp hstore
    exact .file hfound hheld ((hstart.trans hmade).trans hsettled)

/-- A ledger can be written where there is a file, or where one can be made. -/
theorem Found.spot {files after : Files} {location : Location} (htree : files.IsTree)
    (h : Found files location after) : files.Spot location := by
  cases h with
  | there hheld => exact htree.spot_of_file hheld
  | made hmissing hdirectory =>
    exact ⟨hdirectory, by simp [hmissing], by simp [Files.linkIn?, hmissing]⟩

/-- **What opening a ledger keeps**: but for the journal, which may be taken away, it concerns files
only that are ledgers. -/
theorem keeps_of_openFile {files after : Files} {path : Path} {handle : Handle}
    (htree : files.IsTree) (h : openFile files path = (.ok handle, after)) :
    ∃ base written, (base = files ∨ ∃ journal ∈ handle.journals, base = files.erase journal) ∧
      base.Keeps written after ∧ ∀ location ∈ written, ∀ content permissions,
        files.fileIn? location = some (content, permissions) →
          ∃ store, contentStore content = .ok store := by
  cases opens_of_openFile h with
  | memory => exact ⟨files, [], Or.inl rfl, .refl htree, by simp⟩
  | fixed _ hfound =>
    rcases hfound with rfl | ⟨location, hfound⟩
    · exact ⟨after, [], Or.inl rfl, .refl htree, by simp⟩
    · have hspot := hfound.spot htree
      cases hfound with
      | there => exact ⟨files, [], Or.inl rfl, .refl htree, by simp⟩
      | made hmissing =>
        refine ⟨files, [location], Or.inl rfl, Files.keeps_put htree hspot _ (by simp), ?_⟩
        simp [Files.fileIn?, hmissing]
  | @file location _ _ _ between _ store hfound hheld hrewritten =>
    refine ⟨_, [location], ?_, hrewritten.keeps htree (hfound.spot htree), ?_⟩
    · split
      · exact Or.inr ⟨_, by simp [Handle.journals, Handle.places], rfl⟩
      · exact Or.inl rfl
    · intro other hother content permissions hfile
      obtain rfl := List.mem_singleton.mp hother
      cases hfound with
      | there =>
        rw [Files.fileIn?_eq_some_iff.mp hfile] at hheld
        exact ⟨store, hheld⟩
      | made hmissing => simp [Files.fileIn?, hmissing] at hfile

end KernelCatalog.Ledger
